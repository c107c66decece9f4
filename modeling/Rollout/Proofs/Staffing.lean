import Rollout.Proofs.Groups

/-!
# What comes of a comparison with the declared groups

The three parts of a difference are in step: the machines that go are those of undeclared
groups, each of their groups is down with as many of them as there are, and the declared groups
without a machine need one. This holds of every snapshot, also of one in which machines share
an identifier. Neither the order of the machines nor the order or the repetition of the names
matters.
-/

namespace Rollout

theorem headcount_concat (group : String) (fleet : List Machine) (m : Machine) :
    headcount group (fleet ++ [m]) =
      headcount group fleet + if m.processGroup = group then 1 else 0 := by
  simp [headcount, List.countP_append, List.countP_singleton]

namespace GroupDiff

variable {machines machines' : List Machine} {declared declared' : List String}
  {diff : GroupDiff} {m : Machine}

/-- Every group that loses machines is down with how many it loses, and no other group is. -/
def Tallied (diff : GroupDiff) : Prop :=
  ∀ group count, diff.groupsToRemove.find? group = some count ↔
    0 < count ∧ count = headcount group diff.machinesToRemove

/-- A group that is not down counts for zero, which is how many machines it loses. -/
theorem Tallied.getD_eq (tallied : diff.Tallied) (group : String) :
    (diff.groupsToRemove.find? group).getD 0 = headcount group diff.machinesToRemove := by
  cases found : diff.groupsToRemove.find? group with
  | some count => exact ((tallied group count).mp found).2
  | none =>
    rcases Nat.eq_zero_or_pos (headcount group diff.machinesToRemove) with none_lost | lost
    · exact none_lost.symm
    · have down := (tallied group _).mpr ⟨lost, rfl⟩
      simp [found] at down

theorem tallied_addMachine (declared : List String) (tallied : diff.Tallied) (m : Machine) :
    (diff.addMachine declared m).Tallied := by
  by_cases known : m.processGroup ∈ declared
  · rwa [addMachine, if_pos known]
  · rw [addMachine, if_neg known]
    intro group count
    change (diff.groupsToRemove.modify m.processGroup 0 (· + 1)).find? group = some count ↔
      0 < count ∧ count = headcount group (diff.machinesToRemove ++ [m])
    rw [Dict.find?_modify, headcount_concat, tallied.getD_eq]
    by_cases here : group = m.processGroup
    · subst here
      simp only [if_true, Option.some.injEq]
      omega
    · rw [if_neg here, if_neg (Ne.symm here)]
      exact tallied group count

theorem tallied_foldl (declared : List String) (machines : List Machine)
    (tallied : diff.Tallied) : (machines.foldl (addMachine declared) diff).Tallied := by
  induction machines generalizing diff with
  | nil => exact tallied
  | cons m machines ih => exact ih (tallied_addMachine declared tallied m)

theorem tallied_compute (machines : List Machine) (declared : List String) :
    (compute machines declared).Tallied := by
  refine tallied_foldl declared machines fun group count => ?_
  change none = some count ↔ 0 < count ∧ count = 0
  simp only [reduceCtorEq, false_iff]
  omega

/-- A difference that takes no group down removes no machine. -/
theorem Tallied.groupsToRemove_eq_empty_iff (tallied : diff.Tallied) :
    diff.groupsToRemove = ∅ ↔ diff.machinesToRemove = [] := by
  constructor
  · intro noGroup
    refine List.eq_nil_iff_forall_not_mem.mpr fun m mem => ?_
    have none_lost := tallied.getD_eq m.processGroup
    rw [noGroup, Dict.find?_empty] at none_lost
    exact headcount_eq_zero_iff.mp none_lost.symm m mem rfl
  · intro noMachine
    refine Dict.ext_find? fun group => Option.eq_none_iff_forall_ne_some.mpr fun count found => ?_
    have lost := (tallied group count).mp found
    simp only [noMachine, headcount, List.countP_nil] at lost
    omega

/-- What a difference says about the snapshot and the names that it comes from. -/
structure Exact (machines : List Machine) (declared : List String) (diff : GroupDiff) :
    Prop where
  /-- The machines of undeclared groups go, in the order of the snapshot. -/
  removes : diff.machinesToRemove = machines.filter fun m => m.processGroup ∉ declared
  /-- Their groups are down, each with how many of them there are. -/
  tallied : diff.Tallied
  /-- A group needs a machine if it is declared and no machine is in it. -/
  needs : ∀ group, group ∈ diff.groupsNeedingMachines ↔
    group ∈ declared ∧ ∀ m ∈ machines, m.processGroup ≠ group
  /-- No group needs two. -/
  once : diff.groupsNeedingMachines.Pairwise (· < ·)
  /-- Nothing has to change if no group loses a machine and none needs one, -/
  empty : diff.isEmpty = true ↔ diff.groupsToRemove = ∅ ∧ diff.groupsNeedingMachines = []
  /-- and only then there is nothing to tell. -/
  silent : diff.summary = none ↔ diff.isEmpty = true
  /-- No machine stays that shares its identifier with one that goes. -/
  spares : ∀ fleet, ∀ m ∈ diff.remaining fleet, ∀ gone ∈ diff.machinesToRemove, m.id ≠ gone.id
  /-- A machine that neither goes nor stays shares its identifier with one that goes. -/
  missing : ∀ m ∈ machines, m ∉ diff.machinesToRemove → m ∉ diff.remaining machines →
    ∃ gone ∈ diff.machinesToRemove, gone.id = m.id

theorem summary_eq_none_iff : diff.summary = none ↔ diff.isEmpty = true := by
  rw [summary]
  split
  · simp [*]
  · simp [*]

theorem mem_remaining_iff {fleet : List Machine} : m ∈ diff.remaining fleet ↔
    m ∈ fleet ∧ ∀ gone ∈ diff.machinesToRemove, m.id ≠ gone.id := by
  simp only [remaining, List.mem_filter, decide_eq_true_eq, List.mem_map, not_exists, not_and,
    ne_comm (a := m.id), ne_eq]

theorem exact_compute (machines : List Machine) (declared : List String) :
    (compute machines declared).Exact machines declared where
  removes := machinesToRemove_compute machines declared
  tallied := tallied_compute machines declared
  needs group := by
    simp only [mem_groupsNeedingMachines, List.mem_map, not_exists, not_and, ne_eq]
  once := pairwise_groupsNeedingMachines machines declared
  empty := by
    rw [(tallied_compute machines declared).groupsToRemove_eq_empty_iff, isEmpty,
      Bool.and_eq_true, List.isEmpty_iff, List.isEmpty_iff]
  silent := summary_eq_none_iff
  spares _ _ stays := (mem_remaining_iff.mp stays).2
  missing m mem _ absent := by
    by_contra unique
    refine absent (mem_remaining_iff.mpr ⟨mem, fun gone removed same => ?_⟩)
    exact unique ⟨gone, removed, same.symm⟩

/-- The differences are the same but for the order in which the machines go. -/
structure Reordered (a b : GroupDiff) : Prop where
  machinesToRemove : a.machinesToRemove.Perm b.machinesToRemove
  groupsToRemove : a.groupsToRemove = b.groupsToRemove
  groupsNeedingMachines : a.groupsNeedingMachines = b.groupsNeedingMachines

/-- Whatever is exact about the same machines and names in another order is the same difference
in another order. -/
theorem Exact.reordered {a b : GroupDiff} (exact : a.Exact machines declared)
    (exact' : b.Exact machines' declared') (perm : machines.Perm machines')
    (same : ∀ group, group ∈ declared ↔ group ∈ declared') : a.Reordered b := by
  have removed : a.machinesToRemove.Perm b.machinesToRemove := by
    rw [exact.removes, exact'.removes]
    simp only [same]
    exact perm.filter _
  refine ⟨removed, Dict.ext_find? fun group => Option.ext fun count => ?_, ?_⟩
  · have lost : headcount group a.machinesToRemove = headcount group b.machinesToRemove :=
      removed.countP_eq _
    change _ = some count ↔ _ = some count
    rw [exact.tallied, exact'.tallied, lost]
  · have members : ∀ group, group ∈ a.groupsNeedingMachines ↔
        group ∈ b.groupsNeedingMachines := by
      intro group
      rw [exact.needs, exact'.needs, same]
      simp only [perm.mem_iff]
    exact eq_of_pairwise_of_mem_iff (fun _ _ => String.lt_asymm) exact.once exact'.once members

/-- The order of the machines, and the order and the repetition of the names, do not matter. -/
def OrderFree (machines : List Machine) (declared : List String) : Prop :=
  ∀ machines' declared', machines.Perm machines' → (∀ group, group ∈ declared ↔ group ∈ declared') →
    (compute machines declared).Reordered (compute machines' declared')

theorem compute_exact (machines : List Machine) (declared : List String) :
    (compute machines declared).Exact machines declared ∧ OrderFree machines declared :=
  ⟨exact_compute machines declared, fun machines' declared' perm same =>
    (exact_compute machines declared).reordered (exact_compute machines' declared') perm same⟩

end GroupDiff

end Rollout
