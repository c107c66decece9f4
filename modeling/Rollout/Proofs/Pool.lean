import Mathlib.Logic.Relation
import Rollout.Machine
import Rollout.Proofs.DictLaws

/-!
# The pool and the listing

A pool keeps volumes in groups, one for every name, and is filled from a listing volume by
volume. What it answers for a name is what a plain scan of the listing answers: the group of a
name holds the unattached volumes of that name in the order of the listing. So volumes that are
attached, and volumes of other names, have no say, wherever they stand.
-/

namespace Rollout

/-- A volume that has the name and that no machine has. -/
def Volume.Free (name : String) (v : Volume) : Prop := v.name = name ∧ v.attachedTo = none

instance (name : String) : DecidablePred (Volume.Free name) :=
  fun _ => inferInstanceAs (Decidable (_ ∧ _))

def Volume.serves (name : String) (v : Volume) : Bool := !v.isAttached && v.name == name

theorem Volume.serves_iff {name : String} {v : Volume} : v.serves name = true ↔ v.Free name := by
  simp [serves, Free, isAttached, and_comm]

theorem Volume.serves_eq_false_iff {name : String} {v : Volume} :
    v.serves name = false ↔ ¬ v.Free name := by
  rw [← serves_iff, Bool.not_eq_true]

namespace VolumePool

variable {pool : VolumePool} {listing listing' : List Volume} {name : String}

theorem named_add (v : Volume) :
    (pool.add v).named name = pool.named name ++ [v].filter (·.serves name) := by
  by_cases attached : v.isAttached = true
  · rw [add, if_pos attached]
    simp [Volume.serves, attached]
  · rw [add, if_neg attached]
    simp only [named, Dict.modify, Dict.find?_insert]
    by_cases same : name = v.name
    · simp [Volume.serves, attached, same]
    · simp [Volume.serves, same, Ne.symm same]

theorem named_foldl : (listing.foldl add pool).named name =
    pool.named name ++ listing.filter (·.serves name) := by
  induction listing generalizing pool with
  | nil => simp
  | cons v listing ih =>
    have split : (v :: listing).filter (·.serves name) =
        [v].filter (·.serves name) ++ listing.filter (·.serves name) := by
      rw [← List.filter_append, List.singleton_append]
    rw [List.foldl_cons, ih, named_add, split, List.append_assoc]

/-- The group of a name is what a scan of the listing for the name finds, in its order. -/
theorem named_ofVolumes : (ofVolumes listing).named name = listing.filter (·.serves name) :=
  named_foldl

theorem firstUnattached_ofVolumes :
    (ofVolumes listing).firstUnattached name = listing.find? (·.serves name) := by
  rw [firstUnattached, named_ofVolumes, List.head?_filter]

/-- A listing is changed in one volume that is attached or has another name: it is put in, taken
out, or moved past some others, to the back or to the front. -/
inductive Aside (name : String) : List Volume → List Volume → Prop
  | insert {before after : List Volume} {v : Volume} (other : ¬ v.Free name) :
      Aside name (before ++ after) (before ++ v :: after)
  | delete {before after : List Volume} {v : Volume} (other : ¬ v.Free name) :
      Aside name (before ++ v :: after) (before ++ after)
  | toBack {before passed after : List Volume} {v : Volume} (other : ¬ v.Free name) :
      Aside name (before ++ v :: passed ++ after) (before ++ passed ++ v :: after)
  | toFront {before passed after : List Volume} {v : Volume} (other : ¬ v.Free name) :
      Aside name (before ++ passed ++ v :: after) (before ++ v :: passed ++ after)

/-- One change aside leaves the group of the name as it is, -/
theorem Aside.named_eq (step : Aside name listing listing') :
    (ofVolumes listing').named name = (ofVolumes listing).named name := by
  rw [named_ofVolumes, named_ofVolumes]
  cases step with
  | insert other => simp [Volume.serves_eq_false_iff.mpr other]
  | delete other => simp [Volume.serves_eq_false_iff.mpr other]
  | toBack other => simp [Volume.serves_eq_false_iff.mpr other]
  | toFront other => simp [Volume.serves_eq_false_iff.mpr other]

/-- and so do any number of them. -/
theorem named_eq_of_aside (changed : Relation.ReflTransGen (Aside name) listing listing') :
    (ofVolumes listing').named name = (ofVolumes listing).named name := by
  induction changed with
  | refl => rfl
  | tail _ step ih => exact step.named_eq.trans ih

/-- A pool answers for a name what a scan of a listing answers. -/
structure Scans (pool : VolumePool) (listing : List Volume) (name : String) : Prop where
  /-- The volume that is given is the first of the listing that is free and has the name; -/
  first : ∀ v, pool.firstUnattached name = some v ↔
    ∃ before after, listing = before ++ v :: after ∧ v.Free name ∧ ∀ u ∈ before, ¬ u.Free name
  /-- none is given exactly where the listing has no such volume. -/
  absent : pool.firstUnattached name = none ↔ ∀ v ∈ listing, ¬ v.Free name
  /-- All such volumes are kept in the order of the listing, -/
  group : pool.named name = listing.filter (Volume.Free name)
  /-- the number is how many they are, -/
  count : pool.available name = (listing.filter (Volume.Free name)).length
  /-- and it is positive exactly where one is given. -/
  present : (pool.firstUnattached name).isSome = true ↔ 0 < pool.available name

/-- The group of a name is what a scan for free volumes of the name finds. -/
theorem named_eq_filter : (ofVolumes listing).named name = listing.filter (Volume.Free name) := by
  rw [named_ofVolumes]
  refine List.filter_congr fun v _ => ?_
  rw [Bool.eq_iff_iff, decide_eq_true_iff, Volume.serves_iff]

theorem scans_ofVolumes (listing : List Volume) (name : String) :
    (ofVolumes listing).Scans listing name where
  first v := by
    rw [firstUnattached_ofVolumes, List.find?_eq_some_iff_append, Volume.serves_iff]
    simp only [Bool.not_eq_true', Volume.serves_eq_false_iff]
    constructor
    · rintro ⟨free, before, after, eq, none⟩
      exact ⟨before, after, eq, free, none⟩
    · rintro ⟨before, after, eq, free, none⟩
      exact ⟨free, before, after, eq, none⟩
  absent := by
    rw [firstUnattached_ofVolumes, List.find?_eq_none]
    simp only [Volume.serves_iff]
  group := named_eq_filter
  count := by rw [available, named_eq_filter]
  present := by
    rw [firstUnattached, available, List.isSome_head?, List.length_pos_iff]

/-- Volumes that are attached, and volumes of other names, do not change what is answered for a
name. -/
def IgnoresOthers (listing : List Volume) (name : String) : Prop :=
  ∀ listing', Relation.ReflTransGen (Aside name) listing listing' →
    (ofVolumes listing').firstUnattached name = (ofVolumes listing).firstUnattached name ∧
      (ofVolumes listing').available name = (ofVolumes listing).available name

theorem ignoresOthers (listing : List Volume) (name : String) : IgnoresOthers listing name := by
  intro listing' changed
  have same := named_eq_of_aside changed
  rw [firstUnattached, firstUnattached, available, available, same]
  exact ⟨rfl, rfl⟩

/-- The pool of a listing agrees with the listing. -/
theorem ofVolumes_agrees (listing : List Volume) (name : String) :
    (ofVolumes listing).Scans listing name ∧ IgnoresOthers listing name :=
  ⟨scans_ofVolumes listing name, ignoresOthers listing name⟩

end VolumePool

end Rollout
