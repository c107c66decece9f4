/-!
# Dictionaries in key order

A dictionary maps strings to values and is held as its entries in strictly increasing key
order, so two dictionaries with the same content are equal. The order is by code point, which
is the order of the keys' encoded bytes.
-/

namespace Rollout

def KeysIncrease {α : Type} (entries : List (String × α)) : Prop :=
  entries.Pairwise fun a b => a.1 < b.1

/-- Puts an entry in its place, over an older one with the same key. -/
def insertEntry {α : Type} (key : String) (value : α) :
    List (String × α) → List (String × α)
  | [] => [(key, value)]
  | (k, v) :: rest =>
    if key < k then (key, value) :: (k, v) :: rest
    else if key = k then (key, value) :: rest
    else (k, v) :: insertEntry key value rest

def eraseEntry {α : Type} (key : String) (entries : List (String × α)) :
    List (String × α) :=
  entries.filter fun entry => entry.1 ≠ key

theorem mem_insertEntry {α : Type} {key : String} {value : α} {entry : String × α}
    {entries : List (String × α)} (h : entry ∈ insertEntry key value entries) :
    entry = (key, value) ∨ entry ∈ entries := by
  induction entries with
  | nil => simpa [insertEntry] using h
  | cons head rest ih =>
    obtain ⟨k, v⟩ := head
    simp only [insertEntry] at h
    split at h
    · simpa using h
    · split at h
      · rcases List.mem_cons.1 h with h | h
        · exact .inl h
        · exact .inr (List.mem_cons_of_mem _ h)
      · rcases List.mem_cons.1 h with h | h
        · exact .inr (h ▸ List.mem_cons_self)
        · exact (ih h).imp_right (List.mem_cons_of_mem _)

theorem keysIncrease_insertEntry {α : Type} (key : String) (value : α)
    {entries : List (String × α)} (h : KeysIncrease entries) :
    KeysIncrease (insertEntry key value entries) := by
  induction entries with
  | nil => simp [insertEntry, KeysIncrease]
  | cons head rest ih =>
    obtain ⟨k, v⟩ := head
    obtain ⟨first, later⟩ := List.pairwise_cons.1 h
    simp only [insertEntry]
    split
    · rename_i lt
      refine List.pairwise_cons.2 ⟨?_, h⟩
      intro entry mem
      rcases List.mem_cons.1 mem with rfl | mem
      · exact lt
      · exact String.lt_trans lt (first entry mem)
    · rename_i notLt
      split
      · rename_i eq
        subst eq
        exact List.pairwise_cons.2 ⟨first, later⟩
      · rename_i ne
        refine List.pairwise_cons.2 ⟨?_, ih later⟩
        intro entry mem
        rcases mem_insertEntry mem with rfl | mem
        · exact Decidable.byContradiction fun notGt =>
            ne (String.le_antisymm (String.not_lt.1 notGt) (String.not_lt.1 notLt))
        · exact first entry mem

theorem keysIncrease_eraseEntry {α : Type} (key : String) {entries : List (String × α)}
    (h : KeysIncrease entries) : KeysIncrease (eraseEntry key entries) :=
  h.filter _

/-- A map from strings to values, in key order. -/
structure Dict (α : Type) where
  entries : List (String × α)
  increasing : KeysIncrease entries

namespace Dict

variable {α : Type}

theorem ext {a b : Dict α} (h : a.entries = b.entries) : a = b := by
  cases a; cases b; simp_all

instance [DecidableEq α] : DecidableEq (Dict α) := fun a b =>
  decidable_of_iff (a.entries = b.entries) ⟨ext, fun h => h ▸ rfl⟩

instance [Repr α] : Repr (Dict α) := ⟨fun d n => reprPrec d.entries n⟩

def empty : Dict α := ⟨[], List.Pairwise.nil⟩

instance : EmptyCollection (Dict α) := ⟨empty⟩

instance : Inhabited (Dict α) := ⟨∅⟩

def find? (d : Dict α) (key : String) : Option α :=
  (d.entries.find? fun entry => entry.1 == key).map (·.2)

def contains (d : Dict α) (key : String) : Bool := (d.find? key).isSome

def insert (d : Dict α) (key : String) (value : α) : Dict α :=
  ⟨insertEntry key value d.entries, keysIncrease_insertEntry key value d.increasing⟩

/-- Keeps the value that the key already has, if any. -/
def insertIfNew (d : Dict α) (key : String) (value : α) : Dict α :=
  if d.contains key then d else d.insert key value

def erase (d : Dict α) (key : String) : Dict α :=
  ⟨eraseEntry key d.entries, keysIncrease_eraseEntry key d.increasing⟩

def keys (d : Dict α) : List String := d.entries.map (·.1)

def isEmpty (d : Dict α) : Bool := d.entries.isEmpty

def size (d : Dict α) : Nat := d.entries.length

/-- The first dictionary with the entries of the second over it. -/
def insertMany (d : Dict α) (entries : List (String × α)) : Dict α :=
  entries.foldl (fun d entry => d.insert entry.1 entry.2) d

/-- The dictionary of a list of entries; of two with one key the later counts. -/
def ofList (entries : List (String × α)) : Dict α := insertMany ∅ entries

/-- Applies a function to the value of a key, or to a default where the key is absent. -/
def modify (d : Dict α) (key : String) (default : α) (f : α → α) : Dict α :=
  d.insert key (f ((d.find? key).getD default))

end Dict

end Rollout
