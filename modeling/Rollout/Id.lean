import Rollout.Text.Quoted

/-!
# Identifiers

Machines, volumes and releases are named by identifiers of one grammar: one or more ASCII
letters, digits, underscores and hyphens. An identifier carries the proof that its text obeys
the grammar, so nothing else can be passed where one is expected. Release versions are 32-bit
numbers.
-/

namespace Rollout

inductive IdKind
  | machine
  | volume
  | release
  deriving DecidableEq, Repr

def IdKind.word : IdKind → String
  | .machine => "machine"
  | .volume => "volume"
  | .release => "release"

def isIdChar (c : Char) : Bool := c.isAlphanum || c = '_' || c = '-'

def IdGrammar (text : String) : Prop :=
  text ≠ "" ∧ ∀ c ∈ text.toList, isIdChar c = true

theorem idGrammar_of_all {text : String} (nonempty : text ≠ "")
    (chars : text.toList.all isIdChar = true) : IdGrammar text :=
  ⟨nonempty, fun c mem => List.all_eq_true.1 chars c mem⟩

inductive IdError
  | empty (kind : IdKind)
  | invalidCharacter (kind : IdKind) (id : String) (found : Char)
  | invalidVersion (text : String)
  deriving DecidableEq, Repr

def IdError.message : IdError → String
  | .empty kind => kind.word ++ " ID cannot be empty"
  | .invalidCharacter kind id found =>
    "invalid character " ++ Text.quoteChar found ++ " in " ++ kind.word ++ " ID '" ++ id ++ "'"
  | .invalidVersion text => "invalid release version: " ++ text

structure Id (kind : IdKind) where
  text : String
  valid : IdGrammar text

namespace Id

variable {kind : IdKind}

theorem ext {a b : Id kind} (h : a.text = b.text) : a = b := by
  cases a; cases b; simp_all

instance : DecidableEq (Id kind) := fun a b =>
  decidable_of_iff (a.text = b.text) ⟨ext, fun h => h ▸ rfl⟩

instance : Repr (Id kind) := ⟨fun id n => reprPrec id.text n⟩

instance : ToString (Id kind) := ⟨Id.text⟩

/-- Reads an identifier, or names the first character that does not belong in one. -/
def parse (kind : IdKind) (s : String) : Except IdError (Id kind) :=
  if empty : s = "" then .error (.empty kind)
  else
    match found : s.toList.find? (fun c => !isIdChar c) with
    | some c => .error (.invalidCharacter kind s c)
    | none => .ok ⟨s, empty, fun c mem => by simpa using List.find?_eq_none.1 found c mem⟩

/-- An identifier is read back from its text. -/
theorem parse_text (id : Id kind) : parse kind id.text = .ok id := by
  obtain ⟨text, nonempty, chars⟩ := id
  have none : text.toList.find? (fun c => !isIdChar c) = none := by
    rw [List.find?_eq_none]
    intro c mem
    simp [chars c mem]
  rw [parse, dif_neg nonempty]
  split
  · rename_i found
    rw [none] at found
    cases found
  · rfl

/-- The order of the texts' bytes. -/
def le (a b : Id kind) : Bool := a.text ≤ b.text

/-- Identifiers in the order of their texts. -/
def sort (ids : List (Id kind)) : List (Id kind) := ids.mergeSort le

end Id

abbrev MachineId := Id .machine

abbrev VolumeId := Id .volume

abbrev ReleaseId := Id .release

structure Version where
  number : UInt32
  deriving DecidableEq, Repr

namespace Version

def toText (v : Version) : String := toString v.number

/-- Reads a version: a decimal number of 32 bits. -/
def parse (s : String) : Except IdError Version :=
  match Text.readNumber UInt32.size s with
  | .ok n => .ok ⟨UInt32.ofNat n⟩
  | .error _ => .error (.invalidVersion s)

end Version

end Rollout
