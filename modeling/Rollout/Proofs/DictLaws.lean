import Rollout.Dict

/-!
# Laws of dictionaries

A dictionary is determined by what is found in it, so dictionaries are compared key by key.
-/

namespace Rollout

variable {α : Type}

/-- Two lists in one strict order that have the same members are equal. -/
theorem eq_of_pairwise_of_mem_iff {before : α → α → Prop} {xs ys : List α}
    (asymm : ∀ x y, before x y → ¬ before y x) (hx : xs.Pairwise before)
    (hy : ys.Pairwise before) (same : ∀ x, x ∈ xs ↔ x ∈ ys) : xs = ys := by
  have nodup : ∀ {l : List α}, l.Pairwise before → l.Nodup := by
    intro l ordered
    refine ordered.imp ?_
    rintro x y lt rfl
    exact asymm x x lt lt
  have perm : xs.Perm ys := (List.perm_ext_iff_of_nodup (nodup hx) (nodup hy)).mpr same
  exact perm.eq_of_pairwise (fun x y _ _ lt gt => absurd gt (asymm x y lt)) hx hy

def findEntry (key : String) (entries : List (String × α)) : Option α :=
  (entries.find? fun entry => entry.1 == key).map (·.2)

theorem findEntry_cons (key k : String) (v : α) (rest : List (String × α)) :
    findEntry key ((k, v) :: rest) = if k = key then some v else findEntry key rest := by
  by_cases same : k = key
  · simp [findEntry, same]
  · simp [findEntry, same]

theorem findEntry_append (key : String) (before later : List (String × α)) :
    findEntry key (before ++ later) = (findEntry key before).or (findEntry key later) := by
  simp [findEntry, List.find?_append, Option.map_or]

theorem exists_findEntry_iff {key : String} {entries : List (String × α)} :
    (∃ value, findEntry key entries = some value) ↔ key ∈ entries.map (·.1) := by
  induction entries with
  | nil => simp [findEntry]
  | cons head rest ih =>
    obtain ⟨k, v⟩ := head
    rw [findEntry_cons, List.map_cons, List.mem_cons, ← ih]
    by_cases same : k = key
    · simp [same]
    · simp [same, Ne.symm same]

theorem findEntry_insertEntry (key k : String) (value : α) (entries : List (String × α)) :
    findEntry k (insertEntry key value entries) =
      if k = key then some value else findEntry k entries := by
  induction entries with
  | nil => simp [insertEntry, findEntry_cons, eq_comm]
  | cons head rest ih =>
    obtain ⟨k', v⟩ := head
    rw [insertEntry]
    by_cases before : key < k'
    · rw [if_pos before, findEntry_cons, findEntry_cons]
      simp only [eq_comm]
    · rw [if_neg before]
      by_cases here : key = k'
      · rw [if_pos here, findEntry_cons, findEntry_cons, ← here]
        by_cases same : k = key
        · simp [same]
        · simp [same, Ne.symm same]
      · rw [if_neg here, findEntry_cons, findEntry_cons, ih]
        by_cases same : k' = k
        · have other : k ≠ key := by
            rintro rfl
            exact here same.symm
          simp [same, other]
        · simp [same]

theorem findEntry_eraseEntry (key k : String) (entries : List (String × α)) :
    findEntry k (eraseEntry key entries) = if k = key then none else findEntry k entries := by
  induction entries with
  | nil => simp [eraseEntry, findEntry]
  | cons head rest ih =>
    obtain ⟨k', v⟩ := head
    by_cases gone : k' = key
    · have eq : eraseEntry key ((k', v) :: rest) = eraseEntry key rest := by
        simp [eraseEntry, gone]
      rw [eq, ih, findEntry_cons, gone]
      by_cases same : k = key
      · simp [same]
      · simp [same, Ne.symm same]
    · have eq : eraseEntry key ((k', v) :: rest) = (k', v) :: eraseEntry key rest := by
        simp [eraseEntry, gone]
      rw [eq, findEntry_cons, findEntry_cons, ih]
      by_cases same : k' = k
      · have other : k ≠ key := by
          rintro rfl
          exact gone same
        simp [same, other]
      · simp [same]

namespace Dict

theorem mem_keys_iff {d : Dict α} {key : String} :
    key ∈ d.keys ↔ ∃ value, d.find? key = some value := exists_findEntry_iff.symm

/-- An entry is found by its key. -/
theorem mem_entries_iff {d : Dict α} {key : String} {value : α} :
    (key, value) ∈ d.entries ↔ d.find? key = some value := by
  obtain ⟨entries, increasing⟩ := d
  change (key, value) ∈ entries ↔ findEntry key entries = some value
  induction entries with
  | nil => simp [findEntry]
  | cons head rest ih =>
    obtain ⟨k, v⟩ := head
    obtain ⟨first, later⟩ := List.pairwise_cons.mp increasing
    rw [List.mem_cons, findEntry_cons, ih later]
    by_cases same : k = key
    · subst same
      have absent : findEntry k rest ≠ some value := by
        intro found
        exact String.lt_irrefl k (first _ ((ih later).mpr found))
      simp [absent, eq_comm]
    · simp [same, Ne.symm same]

/-- Two dictionaries in which the same is found are equal. -/
theorem ext_find? {a b : Dict α} (same : ∀ key, a.find? key = b.find? key) : a = b := by
  refine ext (eq_of_pairwise_of_mem_iff (fun x y => String.lt_asymm) a.increasing b.increasing ?_)
  rintro ⟨key, value⟩
  rw [mem_entries_iff, mem_entries_iff, same]

@[simp] theorem find?_empty (key : String) : (∅ : Dict α).find? key = none := rfl

theorem find?_insert (d : Dict α) (key k : String) (value : α) :
    (d.insert key value).find? k = if k = key then some value else d.find? k :=
  findEntry_insertEntry key k value d.entries

theorem find?_erase (d : Dict α) (key k : String) :
    (d.erase key).find? k = if k = key then none else d.find? k :=
  findEntry_eraseEntry key k d.entries

theorem find?_insertIfNew (d : Dict α) (key k : String) (value : α) :
    (d.insertIfNew key value).find? k =
      if k = key then some ((d.find? key).getD value) else d.find? k := by
  rw [insertIfNew, contains]
  cases found : d.find? key with
  | none => simp [find?_insert]
  | some old =>
    by_cases same : k = key
    · simp [same, found]
    · simp [same]

theorem find?_modify (d : Dict α) (key k : String) (default : α) (f : α → α) :
    (d.modify key default f).find? k =
      if k = key then some (f ((d.find? key).getD default)) else d.find? k :=
  find?_insert ..

/-- Entries that are put in hide what was there, and of two with one key the later counts. -/
theorem find?_insertMany (d : Dict α) (entries : List (String × α)) (k : String) :
    (d.insertMany entries).find? k = (findEntry k entries.reverse).or (d.find? k) := by
  induction entries generalizing d with
  | nil => simp [insertMany, findEntry]
  | cons head rest ih =>
    obtain ⟨key, v⟩ := head
    have step : d.insertMany ((key, v) :: rest) = (d.insert key v).insertMany rest := rfl
    rw [step, ih, find?_insert, List.reverse_cons, findEntry_append, findEntry_cons]
    by_cases same : k = key
    · simp [same]
    · simp [same, Ne.symm same, findEntry]

/-- Entries that are put in twice are put in once. -/
theorem insertMany_insertMany (d : Dict α) (entries : List (String × α)) :
    (d.insertMany entries).insertMany entries = d.insertMany entries := by
  refine ext_find? fun key => ?_
  simp only [find?_insertMany]
  cases findEntry key entries.reverse with
  | none => rfl
  | some v => rfl

end Dict

end Rollout
