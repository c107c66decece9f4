import Rollout.Json.Value

/-!
# Reading JSON text

A text is read as far as it goes into a tree that keeps the order and the repetitions of its
members and marks the places where the text is not JSON. What such a place means depends on
who looks: a value that is passed over need only be well formed, a value that is used must
also have numbers in range and well-paired surrogates. A decoder walks the tree in the order
of the text and so meets the first defect that matters to it.
-/

namespace Rollout.Json

/-- What stops a reader: the text ends too early, or goes wrong. -/
inductive Fault
  | truncated
  | malformed
  deriving DecidableEq, Repr, Inhabited

inductive Unexpected
  | null
  | bool (value : Bool)
  | num (value : Number)
  | str (value : String)
  | sequence
  | map
  deriving DecidableEq, Repr

/-- How the items of an array or the members of an object end. -/
inductive Tail
  | closed
  /-- The closing bracket or a comma was due, and something else stands there. -/
  | broken (fault : Fault)
  /-- A comma stands without a further item. -/
  | dangling (fault : Fault)
  /-- Closed, and all items are at hand before the first one is looked at. -/
  | complete
  deriving Repr

/-- What is wrong where a value is due and none stands. It depends on who looks: one who uses
the value, one who wants a name there and looks at no more than its first character, or one
who passes over it. -/
structure Gap where
  used : Fault
  named : Fault
  passedOver : Fault
  deriving Repr, Inhabited

/-- A gap that looks the same to everybody. -/
def Gap.plain (fault : Fault) : Gap := ⟨fault, fault, fault⟩

/-- A JSON text as far as it can be read. -/
inductive Reading
  | null
  | bool (value : Bool)
  | num (value : Except Fault Number)
  | str (value : Except Fault String)
  | arr (items : List Reading) (tail : Tail)
  | obj (members : List (Except Fault String × Reading)) (tail : Tail)
  /-- No value stands here. -/
  | broken (gap : Gap)
  deriving Repr, Inhabited

def isSpace (c : Char) : Bool := c = ' ' || c = '\n' || c = '\t' || c = '\r'

def skipSpace : List Char → List Char
  | [] => []
  | c :: rest => if isSpace c then skipSpace rest else c :: rest

def hexValue? (c : Char) : Option Nat :=
  if '0' ≤ c ∧ c ≤ '9' then some (c.toNat - 48)
  else if 'a' ≤ c ∧ c ≤ 'f' then some (c.toNat - 87)
  else if 'A' ≤ c ∧ c ≤ 'F' then some (c.toNat - 55)
  else none

/-- Where a string scan stands: in plain text, after a backslash, or at the n-th digit of a
numeric escape, which may be the second half of a surrogate pair. -/
inductive StringState
  | plain
  | escape
  | digit (index value : Nat) (high : Option Nat)
  | backslashDue (high : Nat)
  | letterDue (high : Nat)
  deriving DecidableEq, Repr

def shortEscape? (c : Char) : Option Char :=
  if c = '"' then some '"'
  else if c = '\\' then some '\\'
  else if c = '/' then some '/'
  else if c = 'b' then some '\x08'
  else if c = 'f' then some '\x0c'
  else if c = 'n' then some '\n'
  else if c = 'r' then some '\r'
  else if c = 't' then some '\t'
  else none

/-- What a complete numeric escape adds. A strict scan refuses surrogates out of place, a
lenient one adds nothing for them. -/
def endEscape (strict : Bool) (high : Option Nat) (value : Nat) (text : List Char) :
    Except Fault (StringState × List Char) :=
  if !strict then .ok (.plain, text)
  else
    match high with
    | some h =>
      if 0xdc00 ≤ value ∧ value ≤ 0xdfff then
        .ok (.plain, Char.ofNat (0x10000 + (h - 0xd800) * 0x400 + (value - 0xdc00)) :: text)
      else .error .malformed
    | none =>
      if 0xdc00 ≤ value ∧ value ≤ 0xdfff then .error .malformed
      else if 0xd800 ≤ value ∧ value ≤ 0xdbff then .ok (.backslashDue value, text)
      else .ok (.plain, Char.ofNat value :: text)

def byteCount : List Char → Nat
  | [] => 0
  | c :: rest => c.utf8Size + byteCount rest

/-- Reads a string after its opening quote. The text so far is kept reversed. A numeric escape
needs four more bytes before its digits are looked at. -/
def scanString (strict : Bool) :
    StringState → List Char → List Char → Except Fault (List Char × List Char)
  | _, _, [] => .error .truncated
  | .plain, text, c :: rest =>
    if c = '"' then .ok (text.reverse, rest)
    else if c = '\\' then scanString strict .escape text rest
    else if c.toNat < 32 then .error .malformed
    else scanString strict .plain (c :: text) rest
  | .escape, text, c :: rest =>
    if c = 'u' then scanString strict (.digit 0 0 none) text rest
    else
      match shortEscape? c with
      | some d => scanString strict .plain (d :: text) rest
      | none => .error .malformed
  | .digit index value high, text, c :: rest =>
    match hexValue? c with
    | none =>
      if index + byteCount (c :: rest) < 4 then .error .truncated else .error .malformed
    | some d =>
      if index < 3 then scanString strict (.digit (index + 1) (16 * value + d) high) text rest
      else
        match endEscape strict high (16 * value + d) text with
        | .error fault => .error fault
        | .ok (state, text) => scanString strict state text rest
  | .backslashDue high, text, c :: rest =>
    if c = '\\' then scanString strict (.letterDue high) text rest else .error .malformed
  | .letterDue high, text, c :: rest =>
    if c = 'u' then scanString strict (.digit 0 0 (some high)) text rest
    else .error .malformed

/-- The text of a string after its opening quote, and what follows it if it ends. -/
def readText (cs : List Char) :
    Except (Fault × Fault) (Except Fault String × List Char) :=
  let used := scanString true .plain [] cs
  match scanString false .plain [] cs, used with
  | .ok (_, rest), .ok (text, _) => .ok (.ok (String.ofList text), rest)
  | .ok (_, rest), .error fault => .ok (.error fault, rest)
  | .error passedOver, .error fault => .error (fault, passedOver)
  | .error passedOver, .ok _ => .error (passedOver, passedOver)

def takeDigits : List Char → List Nat × List Char
  | [] => ([], [])
  | c :: rest =>
    match Text.digitValue? c with
    | none => ([], c :: rest)
    | some d =>
      let (digits, after) := takeDigits rest
      (d :: digits, after)

/-- Appends digits to a significand while it stays below `2^64`; the digits left over come
back uncounted. -/
def appendDigits : Nat → List Nat → Nat × List Nat
  | significand, [] => (significand, [])
  | significand, d :: rest =>
    if 10 * significand + d < UInt64.size then appendDigits (10 * significand + d) rest
    else (significand, d :: rest)

structure NumberText where
  negative : Bool
  whole : List Nat
  fraction : List Nat := []
  /-- Sign and digits of the exponent, if one is written. -/
  exponent : Option (Bool × List Nat) := none
  deriving Repr

def exponentOverflows (digits : List Nat) : Bool :=
  UInt32.size ≤ 2 * digits.foldl (fun value d => 10 * value + d) 0

/-- The number that a text stands for. Significant digits count while they fit 64 bits;
further digits before the point only shift the value, those after it do not count. -/
def NumberText.value (t : NumberText) : Except Fault Number :=
  let (significand, dropped) := appendDigits 0 t.whole
  if t.fraction.isEmpty && t.exponent.isNone then
    if dropped.isEmpty then
      if !t.negative then .ok (.integer significand)
      else if significand = 0 then .ok (.real (Binary64.ofNat 0).neg)
      else if 2 * significand ≤ UInt64.size then .ok (.integer (-significand))
      else .ok (.real (Binary64.ofNat significand).neg)
    else
      finish significand dropped.length
  else
    let (significand, ignored) := appendDigits significand t.fraction
    let shift : Int := (dropped.length : Int) - ((t.fraction.length - ignored.length : Nat) : Int)
    match t.exponent with
    | none => finish significand shift
    | some (down, digits) =>
      if exponentOverflows digits then
        if significand ≠ 0 && !down then .error .malformed
        else .ok (.real ⟨t.negative, 0, Binary64.minExponent⟩)
      else
        let e : Int := (digits.foldl (fun value d => 10 * value + d) 0 : Nat)
        finish significand (if down then shift - e else shift + e)
where
  finish (significand : Nat) (exponent : Int) : Except Fault Number :=
    match Binary64.ofDecimal? t.negative significand exponent with
    | some x => .ok (.real x)
    | none => .error .malformed

/-- The gap where a digit is due: a number cut off by the end of the text is truncated when
it is used and malformed when it is passed over. -/
def digitDue : List Char → Reading
  | [] => .broken ⟨.truncated, .malformed, .malformed⟩
  | _ :: _ => .broken (.plain .malformed)

def readExponent (t : NumberText) (cs : List Char) : Reading × Option (List Char) :=
  let (down, cs) :=
    match cs with
    | '+' :: rest => (false, rest)
    | '-' :: rest => (true, rest)
    | _ => (false, cs)
  match takeDigits cs with
  | ([], rest) => (digitDue rest, none)
  | (digits, rest) => (.num { t with exponent := some (down, digits) }.value, some rest)

def readAfterDigits (t : NumberText) (cs : List Char) : Reading × Option (List Char) :=
  match cs with
  | 'e' :: rest => readExponent t rest
  | 'E' :: rest => readExponent t rest
  | rest => (.num t.value, some rest)

def readFraction (t : NumberText) (cs : List Char) : Reading × Option (List Char) :=
  match cs with
  | '.' :: rest =>
    match takeDigits rest with
    | ([], rest) => (digitDue rest, none)
    | (digits, rest) => readAfterDigits { t with fraction := digits } rest
  | rest => readAfterDigits t rest

/-- Reads a number after its sign. A zero stands alone before the point. -/
def readNumber (negative : Bool) (cs : List Char) : Reading × Option (List Char) :=
  match takeDigits cs with
  | ([], rest) => (digitDue rest, none)
  | (0 :: _ :: _, _) => (.broken (.plain .malformed), none)
  | (digits, rest) => readFraction ⟨negative, digits, [], none⟩ rest

def readWord (result : Reading) : List Char → List Char → Reading × Option (List Char)
  | [], rest => (result, some rest)
  | _ :: _, [] => (.broken ⟨.truncated, .malformed, .truncated⟩, none)
  | w :: word, c :: rest =>
    if w = c then readWord result word rest else (.broken (.plain .malformed), none)

def Reading.unexpected : Reading → Except Fault Unexpected
  | .null => .ok .null
  | .bool b => .ok (.bool b)
  | .num n => n.map .num
  | .str s => s.map .str
  | .arr .. => .ok .sequence
  | .obj .. => .ok .map
  | .broken gap => .error gap.used

mutual

/-- Reads a value, and gives what follows it unless the text breaks off inside it. The first
argument bounds the depth of the calls, of which twice the length of the text is enough. -/
def readValue : Nat → List Char → Reading × Option (List Char)
  | 0, _ => (.broken (.plain .truncated), none)
  | fuel + 1, cs =>
    match skipSpace cs with
    | [] => (.broken (.plain .truncated), none)
    | 'n' :: rest => readWord .null ['u', 'l', 'l'] rest
    | 't' :: rest => readWord (.bool true) ['r', 'u', 'e'] rest
    | 'f' :: rest => readWord (.bool false) ['a', 'l', 's', 'e'] rest
    | '"' :: rest =>
      match readText rest with
      | .ok (text, rest) => (.str text, some rest)
      | .error (used, passedOver) => (.broken ⟨used, used, passedOver⟩, none)
    | '[' :: rest =>
      match skipSpace rest with
      | [] => (.arr [] (.broken .truncated), none)
      | ']' :: rest => (.arr [] .closed, some rest)
      | rest =>
        let (items, tail, after) := readItems fuel rest
        (.arr items tail, after)
    | '\x7b' :: rest =>
      match skipSpace rest with
      | [] => (.obj [] (.broken .truncated), none)
      | '\x7d' :: rest => (.obj [] .closed, some rest)
      | '"' :: rest =>
        let (members, tail, after) := readMembers fuel rest
        (.obj members tail, after)
      | _ => (.obj [] (.broken .malformed), none)
    | '-' :: rest => readNumber true rest
    | c :: rest =>
      if c.isDigit then readNumber false (c :: rest)
      else (.broken (.plain .malformed), none)

def readItems : Nat → List Char → List Reading × Tail × Option (List Char)
  | 0, _ => ([], .broken .truncated, none)
  | fuel + 1, cs =>
    match readValue fuel cs with
    | (item, none) => ([item], .closed, none)
    | (item, some rest) =>
      match skipSpace rest with
      | [] => ([item], .broken .truncated, none)
      | ']' :: rest => ([item], .closed, some rest)
      | ',' :: rest =>
        match skipSpace rest with
        | [] => ([item], .dangling .truncated, none)
        | ']' :: _ => ([item], .dangling .malformed, none)
        | rest =>
          let (items, tail, after) := readItems fuel rest
          (item :: items, tail, after)
      | _ => ([item], .broken .malformed, none)

/-- Reads the members of an object from inside the quotes of a key. -/
def readMembers : Nat → List Char →
    List (Except Fault String × Reading) × Tail × Option (List Char)
  | 0, _ => ([], .broken .truncated, none)
  | fuel + 1, cs =>
    match readText cs with
    | .error (used, passedOver) =>
      ([(.error used, .broken ⟨used, used, passedOver⟩)], .closed, none)
    | .ok (key, rest) =>
      match skipSpace rest with
      | [] => ([(key, .broken (.plain .truncated))], .closed, none)
      | ':' :: rest =>
        match readValue fuel rest with
        | (value, none) => ([(key, value)], .closed, none)
        | (value, some rest) =>
          match skipSpace rest with
          | [] => ([(key, value)], .broken .truncated, none)
          | '\x7d' :: rest => ([(key, value)], .closed, some rest)
          | ',' :: rest =>
            match skipSpace rest with
            | [] => ([(key, value)], .dangling .truncated, none)
            | '"' :: rest =>
              let (members, tail, after) := readMembers fuel rest
              ((key, value) :: members, tail, after)
            | _ => ([(key, value)], .dangling .malformed, none)
          | _ => ([(key, value)], .broken .malformed, none)
      | _ => ([(key, .broken (.plain .malformed))], .closed, none)

end

/-- A whole text: its value, and whether something other than blanks follows it. -/
structure Document where
  root : Reading
  trailing : Bool
  deriving Repr

def read (text : String) : Document :=
  let cs := text.toList
  match readValue (2 * cs.length + 2) cs with
  | (root, none) => ⟨root, false⟩
  | (root, some rest) => ⟨root, !(skipSpace rest).isEmpty⟩

end Rollout.Json
