import Mathlib.Data.List.Nodup
import Mathlib.Data.List.Perm.Basic
import Rollout.Proofs.DictLaws
import Rollout.Proofs.Planning
import Rollout.Proofs.Shown

/-!
# Members in any order

A record is read from its members one by one. Where the steps of two members with different keys
commute, the order of the members does not matter, so a record may be read from the members that
its value has, in whatever order a text has them.
-/

namespace Rollout

namespace Dict

variable {α : Type}

/-- Entries under different keys are put in in any order. -/
theorem insert_comm (d : Dict α) {a b : String} (apart : a ≠ b) (x y : α) :
    (d.insert a x).insert b y = (d.insert b y).insert a x := by
  refine ext_find? fun key => ?_
  simp only [find?_insert]
  by_cases first : key = a
  · have second : key ≠ b := by
      rintro rfl
      exact apart first.symm
    simp [first, apart]
  · simp [first]

/-- The keys of a dictionary differ. -/
theorem keys_nodup (d : Dict α) : (d.entries.map Prod.fst).Nodup := by
  refine List.pairwise_map.mpr (d.increasing.imp ?_)
  intro x y lt same
  exact String.lt_irrefl _ (same ▸ lt)

/-- Of entries under different keys each is found. -/
theorem findEntry_eq_some_iff {entries : List (String × α)} {key : String} {value : α}
    (distinct : (entries.map Prod.fst).Nodup) :
    findEntry key entries = some value ↔ (key, value) ∈ entries := by
  induction entries with
  | nil => simp [findEntry]
  | cons head rest ih =>
    obtain ⟨k, v⟩ := head
    obtain ⟨fresh, later⟩ := List.nodup_cons.mp distinct
    rw [findEntry_cons, List.mem_cons]
    by_cases same : k = key
    · subst same
      have absent : (k, value) ∉ rest := fun mem => fresh (List.mem_map.mpr ⟨_, mem, rfl⟩)
      simp [absent, eq_comm]
    · have other : (key, value) ≠ (k, v) := fun eq => same (Prod.mk.inj eq).1.symm
      simp [same, other, ih later]

/-- The entries of a dictionary made of entries under different keys are these entries. -/
theorem perm_entries_ofList {entries : List (String × α)}
    (distinct : (entries.map Prod.fst).Nodup) : (ofList entries).entries.Perm entries := by
  rw [List.perm_ext_iff_of_nodup (List.Nodup.of_map _ (keys_nodup _))
    (List.Nodup.of_map _ distinct)]
  rintro ⟨key, value⟩
  have reversed : (entries.reverse.map Prod.fst).Nodup := by
    rw [List.map_reverse]
    exact List.pairwise_reverse.mpr (distinct.imp Ne.symm)
  rw [mem_entries_iff, ofList, find?_insertMany, find?_empty, Option.or_none,
    findEntry_eq_some_iff reversed, List.mem_reverse]

/-- A dictionary that is put in hides what was there. -/
theorem find?_insertMany_entries (d e : Dict α) (key : String) :
    (d.insertMany e.entries).find? key = (e.find? key).or (d.find? key) := by
  have reversed : (e.entries.reverse.map Prod.fst).Nodup := by
    rw [List.map_reverse]
    exact List.nodup_reverse.mpr e.keys_nodup
  have same : findEntry key e.entries.reverse = e.find? key := by
    refine Option.ext fun value => ?_
    rw [findEntry_eq_some_iff reversed, List.mem_reverse, mem_entries_iff]
  rw [find?_insertMany, same]

/-- A dictionary is made of its entries. -/
theorem ofList_entries (d : Dict α) : ofList d.entries = d := by
  refine ext ((perm_entries_ofList d.keys_nodup).eq_of_pairwise ?_ (increasing _) d.increasing)
  intro x y _ _ lt gt
  exact absurd gt (String.lt_asymm lt)

end Dict

theorem map_eq_ok_iff {ε α β : Type} {first : Except ε α} {f : α → β} {b : β} :
    first.map f = .ok b ↔ ∃ a, first = .ok a ∧ f a = b := by
  cases first with
  | error e => simp [Except.map]
  | ok a => simp [Except.map]

theorem check_eq_ok_iff {ε β : Type} {check : Except ε Unit} {next : Except ε β} {b : β} :
    (check >>= fun _ => next) = .ok b ↔ check = .ok () ∧ next = .ok b := by
  rw [bind_eq_ok_iff]
  constructor
  · rintro ⟨⟨⟩, passes, rest⟩
    exact ⟨passes, rest⟩
  · rintro ⟨passes, rest⟩
    exact ⟨(), passes, rest⟩

section

variable {α β : Type} {R S : α → β → Prop} {x : Option α} {y : Option β}

/-- What stands on the right of related options has something on the left. -/
theorem exists_of_optionRel {b : β} (related : Option.Rel R x y) (there : y = some b) :
    ∃ a, x = some a ∧ R a b := by
  subst there
  cases related with
  | some holds => exact ⟨_, rfl, holds⟩

theorem optionRel_imp (imp : ∀ a ∈ x, ∀ b, R a b → S a b) (related : Option.Rel R x y) :
    Option.Rel S x y := by
  cases related with
  | none => exact .none
  | some holds => exact .some (imp _ rfl _ holds)

end

namespace Json

section

variable {σ : Type} {step : σ → String → Reading → Decoded σ}

theorem foldMembers_cons_eq_ok {s t : σ} {key : Except Fault String} {r : Reading}
    {rest : List (Except Fault String × Reading)} :
    foldMembers step s ((key, r) :: rest) = .ok t ↔
      ∃ name next, key = .ok name ∧ step s name r = .ok next ∧
        foldMembers step next rest = .ok t := by
  cases key with
  | error fault => simp [foldMembers, Decoded.ofFault, bind_eq_ok_iff]
  | ok name => simp [foldMembers, Decoded.ofFault, bind_eq_ok_iff]

/-- Steps for members with different keys may be taken in either order. -/
def Commutes (step : σ → String → Reading → Decoded σ) : Prop :=
  ∀ ⦃s next t a b ra rb⦄, a ≠ b → step s a ra = .ok next → step next b rb = .ok t →
    ∃ other, step s b rb = .ok other ∧ step other a ra = .ok t

/-- Members with different keys may be read in any order. -/
theorem foldMembers_perm (commutes : Commutes step)
    {members ordered : List (Except Fault String × Reading)} (perm : members.Perm ordered)
    (distinct : (members.map Prod.fst).Nodup) {s t : σ}
    (folded : foldMembers step s members = .ok t) : foldMembers step s ordered = .ok t := by
  induction perm generalizing s with
  | nil => exact folded
  | cons member _ ih =>
    obtain ⟨key, r⟩ := member
    obtain ⟨name, next, rfl, first, rest⟩ := foldMembers_cons_eq_ok.mp folded
    have later := ih (List.nodup_cons.mp distinct).2 rest
    exact foldMembers_cons_eq_ok.mpr ⟨name, next, rfl, first, later⟩
  | swap second first rest =>
    obtain ⟨a, ra⟩ := first
    obtain ⟨b, rb⟩ := second
    obtain ⟨b, next, rfl, stepB, folded⟩ := foldMembers_cons_eq_ok.mp folded
    obtain ⟨a, last, rfl, stepA, folded⟩ := foldMembers_cons_eq_ok.mp folded
    have apart : b ≠ a := by
      rintro rfl
      simp at distinct
    obtain ⟨other, stepA, stepB⟩ := commutes apart stepB stepA
    exact foldMembers_cons_eq_ok.mpr ⟨a, other, rfl, stepA,
      foldMembers_cons_eq_ok.mpr ⟨b, last, rfl, stepB, folded⟩⟩
  | trans first _ ih₁ ih₂ =>
    exact ih₂ ((first.map Prod.fst).nodup_iff.mp distinct) (ih₁ distinct folded)

theorem foldMembers_append {s t : σ} {members rest : List (Except Fault String × Reading)} :
    foldMembers step s (members ++ rest) = .ok t ↔
      ∃ next, foldMembers step s members = .ok next ∧ foldMembers step next rest = .ok t := by
  induction members generalizing s with
  | nil => simp [foldMembers]
  | cons member members ih =>
    obtain ⟨key, r⟩ := member
    rw [List.cons_append, foldMembers_cons_eq_ok]
    simp only [ih, foldMembers_cons_eq_ok]
    constructor
    · rintro ⟨name, first, named, taken, next, later, last⟩
      exact ⟨next, ⟨name, first, named, taken, later⟩, last⟩
    · rintro ⟨next, ⟨name, first, named, taken, later⟩, last⟩
      exact ⟨name, first, named, taken, next, later, last⟩

/-- What holds at the start and is kept by every step holds at the end. -/
theorem foldMembers_induction {P : σ → Prop}
    (keeps : ∀ {s key r t}, P s → step s key r = .ok t → P t)
    {members : List (Except Fault String × Reading)} {s t : σ} (start : P s)
    (folded : foldMembers step s members = .ok t) : P t := by
  induction members generalizing s with
  | nil =>
    cases folded
    exact start
  | cons member members ih =>
    obtain ⟨key, r⟩ := member
    obtain ⟨name, next, rfl, first, rest⟩ := foldMembers_cons_eq_ok.mp folded
    exact ih (keeps start first) rest

end

def lastMember (key : String) : List (Except Fault String × Reading) → Option Reading
  | [] => none
  | (.ok name, r) :: rest => (lastMember key rest).or (if name = key then some r else none)
  | (.error _, _) :: rest => lastMember key rest

theorem mem_of_lastMember {key : String} {members : List (Except Fault String × Reading)}
    {r : Reading} (found : lastMember key members = some r) : (.ok key, r) ∈ members := by
  induction members with
  | nil => cases found
  | cons member members ih =>
    obtain ⟨name, first⟩ := member
    cases name with
    | error fault => exact List.mem_cons_of_mem _ (ih found)
    | ok name =>
      rw [lastMember, Option.or_eq_some_iff] at found
      rcases found with later | ⟨_, here⟩
      · exact List.mem_cons_of_mem _ (ih later)
      · by_cases same : name = key
        · rw [if_pos same, Option.some_inj] at here
          rw [same, here]
          exact List.mem_cons_self
        · rw [if_neg same] at here
          cases here

/-- The members of one key alone fill a slot, each with something that it is related to. -/
structure Fills {σ α : Type} (step : σ → String → Reading → Decoded σ) (name : String)
    (slot : σ → Option α) (R : Reading → α → Prop) : Prop where
  fills : ∀ {s r t}, step s name r = .ok t → ∃ a, slot t = some a ∧ R r a
  leaves : ∀ {s key r t}, key ≠ name → step s key r = .ok t → slot t = slot s

section

variable {σ α : Type} {step : σ → String → Reading → Decoded σ} {name : String}
  {slot : σ → Option α} {R : Reading → α → Prop}
  {members : List (Except Fault String × Reading)} {s t : σ}

theorem Fills.rel_or (fills : Fills step name slot R) {sofar : Option Reading}
    (before : Option.Rel R sofar (slot s)) (folded : foldMembers step s members = .ok t) :
    Option.Rel R ((lastMember name members).or sofar) (slot t) := by
  induction members generalizing s sofar with
  | nil =>
    cases folded
    exact before
  | cons member members ih =>
    obtain ⟨key, r⟩ := member
    obtain ⟨key, next, rfl, taken, rest⟩ := foldMembers_cons_eq_ok.mp folded
    rw [lastMember, Option.or_assoc]
    by_cases same : key = name
    · subst same
      obtain ⟨a, filled, holds⟩ := fills.fills taken
      rw [if_pos rfl]
      exact ih (filled ▸ .some holds) rest
    · rw [if_neg same]
      exact ih (fills.leaves same taken ▸ before) rest

/-- A slot that was empty is filled from the last member of its key. -/
theorem Fills.rel (fills : Fills step name slot R) (empty : slot s = none)
    (folded : foldMembers step s members = .ok t) :
    Option.Rel R (lastMember name members) (slot t) := by
  have before : Option.Rel R none (slot s) := by
    rw [empty]
    exact .none
  rw [← Option.or_none (o := lastMember name members)]
  exact fills.rel_or before folded

/-- A slot that has something has it from the last member of its key. -/
theorem Fills.exists_lastMember (fills : Fills step name slot R) (empty : slot s = none)
    (folded : foldMembers step s members = .ok t) {a : α} (filled : slot t = some a) :
    ∃ r, lastMember name members = some r ∧ R r a :=
  exists_of_optionRel (fills.rel empty folded) filled

end

/-- Members of a value beside members of a reading that show them. -/
theorem membersShownBy_iff {values : List (String × Json)}
    {members : List (Except Fault String × Reading)} : MembersShownBy values members ↔
      List.Forall₂ (fun value member => member.1 = .ok value.1 ∧ value.2.ShownBy member.2)
        values members := by
  induction values generalizing members with
  | nil => simp [MembersShownBy]
  | cons value values ih =>
    obtain ⟨key, value⟩ := value
    rw [MembersShownBy, List.forall₂_cons_left_iff]
    constructor
    · rintro ⟨r, rest, rfl, shown, later⟩
      exact ⟨(.ok key, r), rest, ⟨rfl, shown⟩, ih.mp later, rfl⟩
    · rintro ⟨⟨_, r⟩, rest, ⟨rfl, shown⟩, later, rfl⟩
      exact ⟨r, rest, rfl, shown, ih.mpr later⟩

theorem membersShownBy_append {values rest : List (String × Json)}
    {members : List (Except Fault String × Reading)}
    (shown : MembersShownBy (values ++ rest) members) :
    ∃ first later, members = first ++ later ∧ MembersShownBy values first ∧
      MembersShownBy rest later := by
  induction values generalizing members with
  | nil => exact ⟨[], members, rfl, rfl, shown⟩
  | cons value values ih =>
    obtain ⟨key, value⟩ := value
    obtain ⟨r, others, rfl, head, shown⟩ := shown
    obtain ⟨first, later, rfl, shown, last⟩ := ih shown
    exact ⟨(.ok key, r) :: first, later, rfl, ⟨r, first, rfl, head, shown⟩, last⟩

theorem keys_of_membersShownBy {values : List (String × Json)}
    {members : List (Except Fault String × Reading)} (shown : MembersShownBy values members) :
    members.map Prod.fst = values.map fun value => Except.ok value.1 :=
  map_eq_map_of_forall₂ ((membersShownBy_iff.mp shown).flip.imp fun _ _ both => both.1)

/-- An object is shown whatever the order of its members. -/
theorem ShownBy.perm {values others : List (String × Json)} {r : Reading}
    (perm : values.Perm others) (shown : ShownBy (.obj values) r) : ShownBy (.obj others) r := by
  obtain ⟨members, ordered, tail, rfl, closed, same, shown⟩ := shown
  obtain ⟨other, shown, reordered⟩ :=
    List.perm_comp_forall₂ perm.symm (membersShownBy_iff.mp shown)
  exact ⟨members, other, tail, rfl, closed, same.trans reordered.symm, membersShownBy_iff.mpr shown⟩

/-- An object is read like the members that it shows, in whatever order they are looked at. -/
theorem foldMembers_of_shownBy {σ : Type} {step : σ → String → Reading → Decoded σ}
    (commutes : Commutes step) {values : List (String × Json)}
    (distinct : (values.map Prod.fst).Nodup) {r : Reading} (shown : ShownBy (.obj values) r)
    {s t : σ} (reads : ∀ ordered, MembersShownBy values ordered →
      foldMembers step s ordered = .ok t) :
    ∃ members tail, r = .obj members tail ∧ tail.finish = .ok () ∧
      foldMembers step s members = .ok t := by
  obtain ⟨members, ordered, tail, rfl, closed, perm, shown⟩ := shown
  have keys : (ordered.map Prod.fst).Nodup := by
    rw [keys_of_membersShownBy shown]
    refine List.pairwise_map.mpr ((List.pairwise_map.mp distinct).imp ?_)
    intro a b apart same
    exact apart (Except.ok.inj same)
  exact ⟨members, tail, rfl, closed, foldMembers_perm commutes perm.symm keys (reads _ shown)⟩

def takeEntry {α : Type} (d : Reading → Decoded α) (entries : Dict α) (key : String)
    (r : Reading) : Decoded (Dict α) := do
  .ok (entries.insert key (← d r))

section

variable {α : Type} {d : Reading → Decoded α}

theorem takeEntry_eq_ok {entries next : Dict α} {key : String} {r : Reading} :
    takeEntry d entries key r = .ok next ↔
      ∃ value, d r = .ok value ∧ next = entries.insert key value := by
  simp [takeEntry, bind_eq_ok_iff, eq_comm (a := next)]

theorem takeEntry_commutes : Commutes (takeEntry d) := by
  intro s next t a b ra rb apart first second
  obtain ⟨x, left, rfl⟩ := takeEntry_eq_ok.mp first
  obtain ⟨y, right, rfl⟩ := takeEntry_eq_ok.mp second
  exact ⟨s.insert b y, takeEntry_eq_ok.mpr ⟨y, right, rfl⟩,
    takeEntry_eq_ok.mpr ⟨x, left, Dict.insert_comm s apart x y⟩⟩

theorem takeEntry_fills (key : String) :
    Fills (takeEntry d) key (fun entries => entries.find? key) (fun r a => d r = .ok a) where
  fills taken := by
    obtain ⟨a, read, rfl⟩ := takeEntry_eq_ok.mp taken
    exact ⟨a, by simp [Dict.find?_insert], read⟩
  leaves apart taken := by
    obtain ⟨a, _, rfl⟩ := takeEntry_eq_ok.mp taken
    simp [Dict.find?_insert, Ne.symm apart]

/-- Members whose values can be told are put in one after the other. -/
theorem foldMembers_takeEntry {entries : List (String × α)}
    {members : List (Except Fault String × Reading)} (read : List.Forall₂
      (fun entry member => member.1 = .ok entry.1 ∧ d member.2 = .ok entry.2) entries members)
    (sofar : Dict α) :
    foldMembers (takeEntry d) sofar members = .ok (sofar.insertMany entries) := by
  induction read generalizing sofar with
  | nil => rfl
  | @cons entry member entries members head _ ih =>
    obtain ⟨key, r⟩ := member
    exact foldMembers_cons_eq_ok.mpr ⟨entry.1, sofar.insert entry.1 entry.2, head.1,
      takeEntry_eq_ok.mpr ⟨entry.2, head.2, rfl⟩, ih _⟩

end

theorem dict_eq_ok_iff {α : Type} {d : Decoder α} {depth : Nat}
    {members : List (Except Fault String × Reading)} {tail : Tail} {entries : Dict α} :
    dict d (depth + 1) (.obj members tail) = .ok entries ↔
      foldMembers (takeEntry (d depth)) ∅ members = .ok entries ∧ tail.finish = .ok () := by
  have steps : dict d (depth + 1) (.obj members tail) =
      (foldMembers (takeEntry (d depth)) ∅ members >>= fun entries =>
        tail.finish >>= fun _ => .ok entries) := rfl
  rw [steps, bind_eq_ok_iff]
  constructor
  · rintro ⟨found, folded, rest⟩
    obtain ⟨closed, done⟩ := check_eq_ok_iff.mp rest
    exact ⟨Except.ok.inj done ▸ folded, closed⟩
  · rintro ⟨folded, closed⟩
    exact ⟨entries, folded, check_eq_ok_iff.mpr ⟨closed, rfl⟩⟩

/-- A dictionary is read back if its values are. -/
theorem dict_of_shownBy {α : Type} {d : Decoder α} {toJson : α → Json} {depth : Nat}
    {entries : Dict α} (reads : ∀ entry ∈ entries.entries, ∀ r, (toJson entry.2).ShownBy r →
      d depth r = .ok entry.2) {r : Reading}
    (shown : ShownBy (.obj (entries.entries.map fun entry => (entry.1, toJson entry.2))) r) :
    dict d (depth + 1) r = .ok entries := by
  have distinct : ((entries.entries.map fun entry => (entry.1, toJson entry.2)).map
      Prod.fst).Nodup := by
    rw [List.map_map]
    exact entries.keys_nodup
  have canonical : ∀ ordered,
      MembersShownBy (entries.entries.map fun entry => (entry.1, toJson entry.2)) ordered →
        foldMembers (takeEntry (d depth)) ∅ ordered = .ok entries := by
    intro ordered shown
    rw [membersShownBy_iff, List.forall₂_map_left_iff] at shown
    have told : List.Forall₂ (fun entry member => member.1 = .ok entry.1 ∧
        d depth member.2 = .ok entry.2) entries.entries ordered := by
      refine ((List.forall₂_and_left _ _).mpr ⟨reads, shown⟩).imp ?_
      rintro entry member ⟨reads, named, shown⟩
      exact ⟨named, reads _ shown⟩
    rw [foldMembers_takeEntry told]
    exact congrArg Except.ok entries.ofList_entries
  obtain ⟨members, tail, rfl, closed, folded⟩ :=
    foldMembers_of_shownBy takeEntry_commutes distinct shown canonical
  exact dict_eq_ok_iff.mpr ⟨folded, closed⟩

end Json

end Rollout
