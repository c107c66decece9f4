import Rollout.Json.Reading
import Rollout.Text.Quoted

/-!
# Decoding JSON values

A decoder turns a reading into a value of some type and reports the first defect that it meets
in the order of the text. Records may be written as objects, in any member order, or as arrays
of their fields in order. Every array or object that is entered counts as a level of nesting,
and there is a limit to them; values that are passed over do not count.
-/

namespace Rollout.Json

def Unexpected.describe : Unexpected → String
  | .null => "null"
  | .bool b => "boolean `" ++ toString b ++ "`"
  | .num (.integer z) => "integer `" ++ toString z ++ "`"
  | .num (.real x) => "floating point `" ++ x.toText ++ "`"
  | .str s => "string " ++ Text.quoteString s
  | .sequence => "sequence"
  | .map => "map"

inductive DecodeError
  | fault (fault : Fault)
  | tooDeep
  | surplusItems (count : Nat)
  | notVariant (found : Unexpected)
  | notSingleKey
  | invalidType (found : Unexpected) (expected : String)
  | invalidInteger (found : Int) (expected : String)
  | invalidLength (length : Nat) (expected : String)
  | missingField (name : String)
  | duplicateField (name : String)
  | unknownVariant (found : String) (known : List String)
  | rejected (message : String)
  deriving Repr

namespace DecodeError

/-- A text may end too early, not be JSON of the expected form, or hold the wrong data. -/
inductive Category
  | endOfText
  | form
  | data
  deriving DecidableEq, Repr

def category : DecodeError → Category
  | .fault .truncated => .endOfText
  | .fault .malformed | .tooDeep | .surplusItems _ | .notVariant _ | .notSingleKey => .form
  | _ => .data

def choice : List String → String
  | [a, b] => "`" ++ a ++ "` or `" ++ b ++ "`"
  | [a] => "`" ++ a ++ "`"
  | names => "one of " ++ String.intercalate ", " (names.map fun a => "`" ++ a ++ "`")

def message : DecodeError → String
  | .fault .truncated => "unexpected end of text"
  | .fault .malformed => "malformed text"
  | .tooDeep => "recursion limit exceeded"
  | .surplusItems count =>
    "invalid length " ++ toString count ++ ", expected fewer elements in array"
  | .notVariant found => "invalid type: " ++ found.describe ++ ", expected string or map"
  | .notSingleKey => "invalid value: map, expected map with a single key"
  | .invalidType found expected =>
    "invalid type: " ++ found.describe ++ ", expected " ++ expected
  | .invalidInteger found expected =>
    "invalid value: integer `" ++ toString found ++ "`, expected " ++ expected
  | .invalidLength length expected =>
    "invalid length " ++ toString length ++ ", expected " ++ expected
  | .missingField name => "missing field `" ++ name ++ "`"
  | .duplicateField name => "duplicate field `" ++ name ++ "`"
  | .unknownVariant found known =>
    "unknown variant `" ++ found ++ "`, expected " ++ choice known
  | .rejected message => message

end DecodeError

abbrev Decoded (α : Type) := Except DecodeError α

/-- A decoder for values of a type, given how many levels of nesting may still be entered. -/
abbrev Decoder (α : Type) := Nat → Reading → Decoded α

/-- The levels of nesting that a text may use. -/
def maxDepth : Nat := 127

def Decoded.ofFault {α : Type} : Except Fault α → Decoded α
  | .ok a => .ok a
  | .error fault => .error (.fault fault)

def enter : Nat → Decoded Nat
  | 0 => .error .tooDeep
  | depth + 1 => .ok depth

def mismatch {α : Type} (expected : String) (r : Reading) : Decoded α :=
  match r.unexpected with
  | .ok found => .error (.invalidType found expected)
  | .error fault => .error (.fault fault)

/-- The end of an array or object whose items have all been used. -/
def Tail.finish : Tail → Decoded Unit
  | .closed | .complete => .ok ()
  | .broken fault | .dangling fault => .error (.fault fault)

mutual

/-- Passes over a value, which has only to be well formed. -/
def Reading.passOver : Reading → Decoded Unit
  | .broken gap => .error (.fault gap.passedOver)
  | .arr items tail => do
    passOverItems items
    tail.finish
  | .obj members tail => do
    passOverMembers members
    tail.finish
  | .null | .bool _ | .num _ | .str _ => .ok ()

def passOverItems : List Reading → Decoded Unit
  | [] => .ok ()
  | item :: rest => do
    item.passOver
    passOverItems rest

def passOverMembers : List (Except Fault String × Reading) → Decoded Unit
  | [] => .ok ()
  | (_, value) :: rest => do
    value.passOver
    passOverMembers rest

end

def string : Decoder String
  | _, .str s => Decoded.ofFault s
  | _, r => mismatch "a string" r

def unsigned (bound : Nat) (expected : String) : Decoder Nat
  | _, .num (.ok (.integer z)) =>
    if 0 ≤ z ∧ z < bound then .ok z.toNat else .error (.invalidInteger z expected)
  | _, r => mismatch expected r

def uint32 : Decoder UInt32 := fun depth r =>
  (unsigned UInt32.size "u32" depth r).map UInt32.ofNat

def boolean : Decoder Bool
  | _, .bool b => .ok b
  | _, r => mismatch "a boolean" r

def optional {α : Type} (d : Decoder α) : Decoder (Option α)
  | _, .null => .ok none
  | depth, r => (d depth r).map some

def checked {α : Type} (check : String → Except String α) : Decoder α := fun depth r => do
  let s ← string depth r
  match check s with
  | .ok a => .ok a
  | .error message => .error (.rejected message)

def decodeItems {α : Type} (d : Reading → Decoded α) : List Reading → Decoded (List α)
  | [] => .ok []
  | item :: rest => do
    let a ← d item
    let as ← decodeItems d rest
    .ok (a :: as)

def list {α : Type} (d : Decoder α) : Decoder (List α)
  | depth, .arr items tail => do
    let depth ← enter depth
    let as ← decodeItems (d depth) items
    tail.finish
    .ok as
  | _, r => mismatch "a sequence" r

/-- The members of an object, taken into a state one by one. -/
def foldMembers {σ : Type} (step : σ → String → Reading → Decoded σ) :
    σ → List (Except Fault String × Reading) → Decoded σ
  | s, [] => .ok s
  | s, (key, value) :: rest => do
    let key ← Decoded.ofFault key
    let s ← step s key value
    foldMembers step s rest

/-- A dictionary; of members with one key the last counts. -/
def dict {α : Type} (d : Decoder α) : Decoder (Dict α)
  | depth, .obj members tail => do
    let depth ← enter depth
    let entries ← foldMembers
      (fun (entries : Dict α) key value => do .ok (entries.insert key (← d depth value)))
      ∅ members
    tail.finish
    .ok entries
  | _, r => mismatch "a map" r

/-- Takes a field that may occur once. -/
def once {α : Type} (name : String) (slot : Option α) (d : Decoder α) (depth : Nat)
    (r : Reading) : Decoded (Option α) :=
  match slot with
  | some _ => .error (.duplicateField name)
  | none => (d depth r).map some

def required {α : Type} (name : String) : Option α → Decoded α
  | some a => .ok a
  | none => .error (.missingField name)

/-- The next of a record's fields written as array items, or none after the last one. -/
def nextItem (items : List Reading) (tail : Tail) : Decoded (Option Reading × List Reading) :=
  match items with
  | item :: rest => .ok (some item, rest)
  | [] => do
    tail.finish
    .ok (none, [])

/-- The end of a record written as an array: nothing may be left over. -/
def finishItems (total : Nat) (items : List Reading) (tail : Tail) : Decoded Unit :=
  match items, tail with
  | _ :: _, _ => .error (.surplusItems total)
  | [], .dangling _ => .error (.fault .malformed)
  | [], tail => tail.finish

def requiredItem {α : Type} (index : Nat) (expected : String) (d : Decoder α) (depth : Nat)
    (items : List Reading) (tail : Tail) : Decoded (α × List Reading) := do
  match ← nextItem items tail with
  | (some item, rest) => .ok (← d depth item, rest)
  | (none, _) => .error (.invalidLength index expected)

def defaultItem {α : Type} (default : α) (d : Decoder α) (depth : Nat)
    (items : List Reading) (tail : Tail) : Decoded (α × List Reading) := do
  match ← nextItem items tail with
  | (some item, rest) => .ok (← d depth item, rest)
  | (none, _) => .ok (default, [])

def recordOf (name : String) (fields : Nat) : String :=
  "struct " ++ name ++ " with " ++ toString fields ++ " elements"

/-- Null, the only value that may stand beside a variant's name. -/
def unit : Decoder Unit
  | _, .null => .ok ()
  | _, r => mismatch "unit" r

/-- Whether an object is seen to have too many members before the first one is used. -/
def plainlyCrowded {α : Type} : List α → Tail → Bool
  | _ :: _ :: _, .complete => true
  | _, _ => false

/-- A variant named by a string, or by the key of an object with a single null member. -/
def variant {α : Type} (ofName : String → Decoded α) : Decoder α
  | _, .str s => do ofName (← Decoded.ofFault s)
  | depth, .obj members tail => do
    let depth ← enter depth
    match members with
    | [] => do
      tail.finish
      .error .notSingleKey
    | (key, value) :: rest =>
      if plainlyCrowded members tail then .error .notSingleKey
      else do
        let a ← ofName (← Decoded.ofFault key)
        unit depth value
        match rest, tail with
        | [], .dangling _ => .error .notSingleKey
        | [], tail => do
          tail.finish
          .ok a
        | _, _ => .error .notSingleKey
  | _, .broken gap => .error (.fault gap.named)
  | _, r =>
    match r.unexpected with
    | .ok found => .error (.notVariant found)
    | .error fault => .error (.fault fault)

def closedVariant {α : Type} (known : List (String × α)) : Decoder α :=
  variant fun name =>
    match known.find? fun entry => entry.1 == name with
    | some entry => .ok entry.2
    | none => .error (.unknownVariant name (known.map (·.1)))

mutual

/-- Any value, kept as it is. -/
def Reading.toJson : Nat → Reading → Decoded Json
  | _, .null => .ok .null
  | _, .bool b => .ok (.bool b)
  | _, .num n => (Decoded.ofFault n).map .num
  | _, .str s => (Decoded.ofFault s).map .str
  | depth, .arr items tail => do
    let depth ← enter depth
    let items ← itemsToJson depth items
    tail.finish
    .ok (.arr items)
  | depth, .obj members tail => do
    let depth ← enter depth
    let members ← membersToJson depth [] members
    tail.finish
    .ok (.obj members)
  | _, .broken gap => .error (.fault gap.used)

def itemsToJson (depth : Nat) : List Reading → Decoded (List Json)
  | [] => .ok []
  | item :: rest => do
    let value ← item.toJson depth
    let values ← itemsToJson depth rest
    .ok (value :: values)

def membersToJson (depth : Nat) (sofar : List (String × Json)) :
    List (Except Fault String × Reading) → Decoded (List (String × Json))
  | [] => .ok sofar
  | (key, value) :: rest => do
    let key ← Decoded.ofFault key
    let value ← value.toJson depth
    membersToJson depth (insertEntry key value sofar) rest

end

def any : Decoder Json := fun depth r => Reading.toJson depth r

mutual

def Reading.ofJson : Json → Reading
  | .null => .null
  | .bool b => .bool b
  | .num n => .num (.ok n)
  | .str s => .str (.ok s)
  | .arr items => .arr (readingsOfItems items) .complete
  | .obj members => .obj (readingsOfMembers members) .complete

def readingsOfItems : List Json → List Reading
  | [] => []
  | item :: rest => Reading.ofJson item :: readingsOfItems rest

def readingsOfMembers : List (String × Json) → List (Except Fault String × Reading)
  | [] => []
  | (key, value) :: rest => (.ok key, Reading.ofJson value) :: readingsOfMembers rest

end

def decodeValue {α : Type} (d : Decoder α) (value : Json) : Decoded α :=
  d maxDepth (Reading.ofJson value)

/-- Decodes a whole text, after which only blanks may follow. -/
def decode {α : Type} (d : Decoder α) (text : String) : Decoded α := do
  let document := read text
  let a ← d maxDepth document.root
  if document.trailing then .error (.fault .malformed) else .ok a

end Rollout.Json
