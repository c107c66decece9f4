import Rollout.Text.Alphanumeric
import Rollout.Text.Blank

/-!
# Patterns

A pattern is a regular expression: alternatives with bars between them, repetitions, groups,
sets of characters in brackets, anchors and escapes. This module says which texts are patterns.

A pattern is read for code points unless a flag turns to bytes. Nothing is known of the code
points but their order: for them there are no classes of letters, digits or blanks, no letter
case, and no edges of words that a search could find. Whoever reads patterns closes them with a
brace, so a pattern holds no counted repetition.
-/

namespace Rollout.Text

inductive PatternFault
  | malformed
  | wordEdge
  deriving DecidableEq, Repr

namespace Pattern

/-- How a stretch of a pattern is read, as its flags say. -/
structure Mode where
  anyCase : Bool := false
  /-- Blanks and comments do not count. -/
  spaced : Bool := false
  codePoints : Bool := true
  deriving DecidableEq, Repr

/-- Whether characters themselves, alone or in sets, can be told apart in a mode. -/
def Mode.tellsApart (m : Mode) : Bool := !(m.anyCase && m.codePoints)

/-- Passes over blanks and comments; the first argument says whether a comment is open. -/
def afterBlanks : Bool → List Char → List Char
  | _, [] => []
  | true, c :: cs => if c = '\n' then afterBlanks false cs else afterBlanks true cs
  | false, c :: cs =>
    if c = '#' then afterBlanks true cs
    else if isBlank c then afterBlanks false cs
    else c :: cs

/-- What follows, without the blanks that do not count in a mode. -/
def Mode.next (m : Mode) (cs : List Char) : List Char :=
  if m.spaced then afterBlanks false cs else cs

/-- What an escape or a plain character stands for. -/
inductive Sign
  | character (c : Char)
  | characterClass
  /-- A place between characters; `word` if it is an edge of a word of code points. -/
  | place (word : Bool)

def sixteenths? (c : Char) : Option Nat :=
  if c.isDigit then some (c.toNat - 48)
  else if 'a' ≤ c ∧ c ≤ 'f' then some (c.toNat - 87)
  else if 'A' ≤ c ∧ c ≤ 'F' then some (c.toNat - 55)
  else none

/-- Reads a character given by exactly `n` digits in base sixteen. -/
def readNumbered (n : Nat) (cs : List Char) : Option (Char × List Char) := do
  let digits ← (cs.take n).mapM sixteenths?
  let code := digits.foldl (fun value d => 16 * value + d) 0
  if digits.length = n ∧ code.isValidChar then some (Char.ofNat code, cs.drop n) else none

def readEscape (m : Mode) : List Char → Option (Sign × List Char)
  | [] => none
  | c :: cs =>
    match c with
    | 'x' => do
      let (d, rest) ← readNumbered 2 cs
      if m.codePoints || d.toNat < 128 then some (.character d, rest) else none
    | 'u' => (readNumbered 4 cs).map fun (d, rest) => (.character d, rest)
    | 'U' => (readNumbered 8 cs).map fun (d, rest) => (.character d, rest)
    | 'a' => some (.character '\x07', cs)
    | 'f' => some (.character '\x0c', cs)
    | 't' => some (.character '\t', cs)
    | 'n' => some (.character '\n', cs)
    | 'r' => some (.character '\r', cs)
    | 'v' => some (.character '\x0b', cs)
    | 'A' | 'z' => some (.place false, cs)
    | 'b' | 'B' | '<' | '>' => some (.place m.codePoints, cs)
    | 'd' | 's' | 'w' => if m.codePoints then none else some (.characterClass, cs)
    | c => if c.toNat < 128 && !c.isAlphanum then some (.character c, cs) else none

def classNames : List String :=
  ["alnum", "alpha", "ascii", "blank", "cntrl", "digit", "graph", "lower", "print", "punct",
    "space", "upper", "word", "xdigit"]

/-- Passes over the name of an ASCII class, whose opening bracket has been read. -/
def afterClassName : List Char → Option (List Char)
  | ':' :: cs =>
    let cs := if cs.head? = some '^' then cs.drop 1 else cs
    match cs.dropWhile (· ≠ ':') with
    | ':' :: ']' :: rest =>
      if classNames.contains (String.ofList (cs.takeWhile (· ≠ ':'))) then some rest else none
    | _ => none
  | _ => none

/-- Reads one end of a range of characters. -/
def readMember (m : Mode) : List Char → Option (Sign × List Char)
  | [] => none
  | '\\' :: cs => readEscape m cs
  | c :: cs => some (.character c, cs)

def Mode.admits (m : Mode) (c : Char) : Bool := m.codePoints || c.toNat < 128

/-- Passes over a character, a class or a range in a set. -/
def afterRange (m : Mode) (cs : List Char) : Option (List Char) := do
  let (first, rest) ← readMember m cs
  let rest := m.next rest
  match first, rest with
  | .place _, _ => none
  | .characterClass, '-' :: more =>
    match (m.next more).head? with
    | some ']' | some '-' => some rest
    | _ => none
  | .characterClass, _ => some rest
  | .character a, '-' :: more =>
    match m.next more with
    | ']' :: _ | '-' :: _ => if m.admits a then some rest else none
    | more =>
      match ← readMember m more with
      | (.character b, rest) => if a ≤ b && m.admits b then some rest else none
      | _ => none
  | .character a, _ => if m.admits a then some rest else none

/-- Passes over what may open a set after its bracket: a negation, and dashes or else a closing
bracket that stand for themselves. -/
def afterSetOpening (m : Mode) (cs : List Char) : Option (List Char) :=
  let cs := m.next cs
  if cs.head? = some '^' && !m.codePoints then none
  else
    let cs := if cs.head? = some '^' then m.next (cs.drop 1) else cs
    match cs with
    | ']' :: rest => some rest
    | _ => some (cs.dropWhile (· = '-'))

/-- Passes over the rest of a set; `depth` counts the sets around it. -/
def afterSet : Nat → Mode → Nat → List Char → Option (List Char)
  | 0, _, _, _ => none
  | fuel + 1, m, depth, cs =>
    match m.next cs with
    | [] => none
    | ']' :: rest => if depth = 0 then some rest else afterSet fuel m (depth - 1) rest
    | '[' :: rest =>
      match afterClassName rest with
      | some rest => afterSet fuel m depth rest
      | none => (afterSetOpening m rest).bind (afterSet fuel m (depth + 1))
    | '&' :: '&' :: rest => afterSet fuel m depth rest
    | '-' :: '-' :: rest => afterSet fuel m depth rest
    | '~' :: '~' :: rest => afterSet fuel m depth rest
    | cs => (afterRange m cs).bind (afterSet fuel m depth)

def flagLetters : List Char := ['i', 'm', 's', 'U', 'u', 'R', 'x']

def Mode.withFlag (m : Mode) (flag : Char) (isSet : Bool) : Mode :=
  match flag with
  | 'i' => { m with anyCase := isSet }
  | 'x' => { m with spaced := isSet }
  | 'u' => { m with codePoints := isSet }
  | _ => m

/-- Reads flags up to the colon or parenthesis behind them. Each flag stands once, and a minus
before those that are lifted. -/
def readFlags : Mode → List Char → List Char → Option (Mode × List Char × List Char)
  | _, _, [] => none
  | m, seen, c :: cs =>
    if c = ':' || c = ')' then
      if seen.head? = some '-' then none else some (m, seen, c :: cs)
    else if seen.contains c then none
    else if c = '-' then readFlags m (c :: seen) cs
    else if flagLetters.contains c then
      readFlags (m.withFlag c (!seen.contains '-')) (c :: seen) cs
    else none

def isGroupName : List Char → Bool
  | [] => false
  | c :: cs =>
    (c == '_' || isAlphanumeric c && !c.isDigit) &&
      cs.all fun c => isAlphanumeric c || "_.[]".contains c

structure Progress where
  mode : Mode := {}
  /-- The modes around the groups that are open. -/
  outer : List Mode := []
  groupNames : List (List Char) := []
  /-- Whether something stands here that can be repeated. -/
  repeatable : Bool := false
  hasWordEdge : Bool := false

namespace Progress

def past (p : Progress) : Progress := { p with repeatable := true }

def inside (p : Progress) (m : Mode) : Progress :=
  { p with mode := m, outer := p.mode :: p.outer, repeatable := false }

def openNamed (p : Progress) (cs : List Char) : Option (Progress × List Char) :=
  let name := cs.takeWhile (· ≠ '>')
  match cs.dropWhile (· ≠ '>') with
  | [] => none
  | _ :: rest =>
    if isGroupName name && !p.groupNames.contains name then
      some ({ p.inside p.mode with groupNames := name :: p.groupNames }, rest)
    else none

/-- Reads what follows an opening parenthesis: the start of a group, or flags for what follows
in the group around them. -/
def openGroup (p : Progress) : List Char → Option (Progress × List Char)
  | '?' :: 'P' :: '<' :: cs => p.openNamed cs
  | '?' :: '<' :: cs => p.openNamed cs
  | '?' :: cs =>
    match readFlags p.mode [] cs with
    | some (m, _, ':' :: rest) => some (p.inside m, rest)
    | some (_, [], _) => none
    | some (m, _, _ :: rest) => some ({ p with mode := m, repeatable := false }, rest)
    | _ => none
  | cs => some (p.inside p.mode, cs)

def close (p : Progress) : Option Progress :=
  match p.outer with
  | [] => none
  | m :: outer => some { p with mode := m, outer, repeatable := true }

def run : Nat → Progress → List Char → Option Progress
  | 0, _, _ => none
  | fuel + 1, p, cs =>
    match p.mode.next cs with
    | [] => if p.outer.isEmpty then some p else none
    | '(' :: rest => do
      let (p, rest) ← p.openGroup (p.mode.next rest)
      run fuel p rest
    | ')' :: rest => p.close.bind (run fuel · rest)
    | '|' :: rest => run fuel { p with repeatable := false } rest
    | '[' :: rest =>
      if p.mode.tellsApart then
        (afterSetOpening p.mode rest).bind (afterSet fuel p.mode 0) |>.bind (run fuel p.past)
      else none
    | '{' :: _ => none
    | '*' :: rest | '+' :: rest | '?' :: rest => if p.repeatable then run fuel p rest else none
    | '.' :: rest => if p.mode.codePoints then run fuel p.past rest else none
    | '^' :: rest | '$' :: rest => run fuel p.past rest
    | '\\' :: rest =>
      match readEscape p.mode rest with
      | some (.character _, rest) =>
        if p.mode.tellsApart then run fuel p.past rest else none
      | some (.characterClass, rest) => run fuel p.past rest
      | some (.place word, rest) =>
        run fuel { p.past with hasWordEdge := p.hasWordEdge || word } rest
      | none => none
    | _ :: rest => if p.mode.tellsApart then run fuel p.past rest else none

end Progress

/-- Why a text is no pattern, if it is none. -/
def fault? (s : String) : Option PatternFault :=
  match Progress.run (s.length + 1) {} s.toList with
  | none => some .malformed
  | some p => if p.hasWordEdge then some .wordEdge else none

end Pattern

end Rollout.Text
