import Rollout.Log
import Rollout.Text.Decimal
import Rollout.Text.Pattern
import Rollout.Text.Pieces

/-!
# Directives of a log filter

A directive gives a level, for all records or for those whose target starts with a text; a text
alone means everything from that target. Brackets may name a span and, within braces, a field,
with a value or without: `target[span{field=value}]=level`.

A directive is about records unless it names a span or a value: these are properties of the
spans around a record, and no record here stands in a span.

The parts of a directive are found in its text without the blanks around it, but they are cut
out of the text with its blanks, at the distances that were found. So a blank at the start
shifts every part.
-/

namespace Rollout

/-- How many levels a filter lets pass, from errors on. -/
def LogLevel.verbosity : LogLevel → Nat
  | .error => 1
  | .warn => 2
  | .info => 3
  | .debug => 4
  | .trace => 5

inductive FilterFault
  | directive
  | level
  | field (cause : Text.PatternFault)
  deriving DecidableEq, Repr

namespace FilterFault

def patternMessage : Text.PatternFault → String
  | .malformed => "error building NFA"
  | .wordEdge =>
    "unsupported regex feature for DFAs: cannot build DFAs for regexes with Unicode word " ++
      "boundaries; switch to ASCII word boundaries, or heuristically enable Unicode word " ++
      "boundaries or use a different regex engine"

def message : FilterFault → String
  | .directive => "invalid filter directive"
  | .level =>
    "error parsing level filter: expected one of \"off\", \"error\", \"warn\", \"info\", " ++
      "\"debug\", \"trace\", or a number 0-5"
  | .field cause => "invalid field filter: " ++ patternMessage cause

end FilterFault

/-- The field that a directive names. -/
structure FieldTest where
  name : String
  hasValue : Bool := false
  deriving DecidableEq, Repr

structure Directive where
  target : Option String := none
  span : Option String := none
  field : Option FieldTest := none
  verbosity : Nat := LogLevel.trace.verbosity
  deriving DecidableEq, Repr

namespace Directive

/-- The words for levels, with their verbosity. -/
def levelWords : List (String × Nat) :=
  [("off", 0), ("error", 1), ("warn", 2), ("info", 3), ("debug", 4), ("trace", 5)]

/-- Reads a level: a word in any case, or a number. -/
def readLevel (s : String) : Option Nat :=
  match Text.readNumber UInt64.size s with
  | .ok n => if n ≤ 5 then some n else none
  | .error _ => (levelWords.find? fun entry => entry.1 == s.map Char.toLower).map (·.2)

/-- Whether a text is a number with an optional fraction and exponent, or the word for an
infinite value or for none. -/
def isNumber (s : String) : Bool :=
  let cs := s.toList.map Char.toLower
  let unsigned := fun (cs : List Char) =>
    match cs with
    | '+' :: rest | '-' :: rest => rest
    | _ => cs
  let cs := unsigned cs
  let whole := cs.takeWhile Char.isDigit
  let rest := cs.dropWhile Char.isDigit
  let (fraction, rest) :=
    match rest with
    | '.' :: more => (more.takeWhile Char.isDigit, more.dropWhile Char.isDigit)
    | _ => ([], rest)
  let exponent :=
    match rest with
    | 'e' :: more => !(unsigned more).isEmpty && (unsigned more).all Char.isDigit
    | _ => rest.isEmpty
  ["inf", "infinity", "nan"].contains (String.ofList cs) ||
    (!(whole.isEmpty && fraction.isEmpty) && exponent)

/-- Reads the field of a directive. A value is a number or a pattern. -/
def readField (s : String) : Except FilterFault FieldTest :=
  match Text.split '=' s with
  | name :: value :: _ =>
    if isNumber value then .ok { name, hasValue := true }
    else
      match Text.Pattern.fault? value with
      | none => .ok { name, hasValue := true }
      | some cause => .error (.field cause)
  | _ => .ok { name := s }

/-- Where in a directive a reader stands; a part that is being read has the distance at which
it began. -/
inductive Place
  | start
  | levelOrTarget (start : Nat)
  | span (start : Nat)
  | field (start : Nat)
  | behindField
  | behindSpan
  | level (start : Nat)
  deriving DecidableEq, Repr

/-- The characters that begin at distances from `start` to before `stop`, the first of those
given being at `i`. Distances are in bytes. -/
def cutFrom (start stop i : Nat) : List Char → List Char
  | [] => []
  | c :: cs =>
    let later := cutFrom start stop (i + c.utf8Size) cs
    if start ≤ i && i < stop then c :: later else later

def cut (text : List Char) (start stop : Nat) : String := String.ofList (cutFrom start stop 0 text)

/-- A character that a directive may start with, other than a bracket. -/
def startsTarget (c : Char) : Bool := "-:_".contains c || Text.isAlphanumeric c

/-- One character of a directive: what is known after it, and where the reader then stands. -/
def step (text : List Char) (d : Directive) (place : Place) (i : Nat) (c : Char) :
    Except FilterFault (Directive × Place) :=
  match place with
  | .start =>
    if c = '[' then .ok (d, .span (i + 1))
    else if startsTarget c then .ok (d, .levelOrTarget i)
    else .error .directive
  | .levelOrTarget start =>
    if c = '=' then .ok ({ d with target := some (cut text start i) }, .level (i + 1))
    else if c = '[' then .ok ({ d with target := some (cut text start i) }, .span (i + 1))
    else .ok (d, place)
  | .span start =>
    if c = ']' then .ok ({ d with span := some (cut text start i) }, .behindSpan)
    else if c = '\x7b' then
      let name := cut text start i
      .ok ({ d with span := if name = "" then none else some name }, .field (i + 1))
    else .ok (d, place)
  | .field start =>
    if c = '\x7d' then
      let field := cut text start i
      if field = "" then .error .directive
      else (readField field).map fun test => ({ d with field := some test }, .behindField)
    else .ok (d, place)
  | .behindField => if c = ']' then .ok (d, .behindSpan) else .error .directive
  | .behindSpan => if c = '=' then .ok (d, .level (i + 1)) else .error .directive
  | .level _ => .ok (d, place)

def finish (text : List Char) (d : Directive) (place : Place) : Except FilterFault Directive :=
  let rest := fun start => cut text start (String.ofList text).utf8ByteSize
  match place with
  | .levelOrTarget start =>
    match readLevel (rest start) with
    | some verbosity => .ok { d with verbosity }
    | none => .ok { d with target := some (rest start) }
  | .level start =>
    if rest start = "" then .ok d
    else
      match readLevel (rest start) with
      | some verbosity => .ok { d with verbosity }
      | none => .error .level
  | .behindSpan => .ok d
  | _ => .error .directive

/-- Reads a directive from a place on; `i` is the distance of what is left. -/
def readFrom (text : List Char) (d : Directive) (place : Place) (i : Nat) :
    List Char → Except FilterFault Directive
  | [] => finish text d place
  | c :: cs =>
    match step text d place i c with
    | .ok (d, place) => readFrom text d place (i + c.utf8Size) cs
    | .error fault => .error fault

def read (s : String) : Except FilterFault Directive :=
  readFrom s.toList {} .start 0 (Text.trim s).toList

def isAboutRecords (d : Directive) : Bool :=
  d.span.isNone && !(d.field.any (·.hasValue))

/-- Whether a directive speaks about records of a target that have the given fields. -/
def covers (d : Directive) (target : String) (fields : List String) : Bool :=
  d.isAboutRecords &&
    (match d.target with
      | none => true
      | some start => start.toList.isPrefixOf target.toList) &&
    (match d.field with
      | none => true
      | some test => fields.contains test.name)

/-- How closely a directive is aimed at a target. -/
def aim (d : Directive) : Nat :=
  match d.target with
  | none => 0
  | some start => start.utf8ByteSize + 1

/-- Whether the name of a field that one directive may have comes no later than another's. -/
def fieldAtMost : Option FieldTest → Option FieldTest → Bool
  | none, _ => true
  | some _, none => false
  | some a, some b => a.name ≤ b.name

def noCloser (a b : Directive) : Bool :=
  a.aim < b.aim || (a.aim = b.aim && fieldAtMost a.field b.field)

end Directive

end Rollout
