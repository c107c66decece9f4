import Mathlib.Data.List.Nodup
import Rollout.GroupDiff
import Rollout.Proofs.DictLaws

/-!
# Groups that change

Which machines go, which groups need a machine, and when nothing has to change at all.
-/

namespace Rollout

def headcount (group : String) (fleet : List Machine) : Nat :=
  fleet.countP fun m => m.processGroup = group

theorem headcount_eq_zero_iff {group : String} {fleet : List Machine} :
    headcount group fleet = 0 ↔ ∀ m ∈ fleet, m.processGroup ≠ group := by
  simp [headcount]

namespace GroupDiff

theorem mem_sortedNames {names : List String} {name : String} :
    name ∈ sortedNames names ↔ name ∈ names := by
  rw [sortedNames, Dict.ofList]
  rw [Dict.mem_keys_iff]
  simp only [Dict.find?_insertMany, Dict.find?_empty, Option.or_none]
  rw [exists_findEntry_iff]
  simp

theorem machinesToRemove_foldl (declared : List String) (machines : List Machine)
    (diff : GroupDiff) : (machines.foldl (addMachine declared) diff).machinesToRemove =
      diff.machinesToRemove ++ machines.filter fun m => m.processGroup ∉ declared := by
  induction machines generalizing diff with
  | nil => simp
  | cons m machines ih =>
    rw [List.foldl_cons, ih]
    by_cases known : m.processGroup ∈ declared
    · simp [addMachine, known]
    · simp [addMachine, known]

/-- The machines of undeclared groups go. -/
theorem machinesToRemove_compute (machines : List Machine) (declared : List String) :
    (compute machines declared).machinesToRemove =
      machines.filter fun m => m.processGroup ∉ declared :=
  machinesToRemove_foldl declared machines {}

/-- The declared groups that have no machine need one. -/
theorem mem_groupsNeedingMachines {machines : List Machine} {declared : List String}
    {group : String} : group ∈ (compute machines declared).groupsNeedingMachines ↔
      group ∈ declared ∧ group ∉ machines.map Machine.processGroup := by
  change group ∈ sortedNames _ ↔ _
  rw [mem_sortedNames, List.mem_filter, decide_eq_true_eq]

theorem foldl_addMachine_eq_self {declared : List String} {machines : List Machine}
    {diff : GroupDiff} (known : ∀ m ∈ machines, m.processGroup ∈ declared) :
    machines.foldl (addMachine declared) diff = diff := by
  induction machines with
  | nil => rfl
  | cons m machines ih =>
    have same : addMachine declared diff m = diff := if_pos (known m (by simp))
    rw [List.foldl_cons, same]
    exact ih fun m mem => known m (List.mem_cons_of_mem _ mem)

/-- Nothing has to change where every machine's group is declared and every declared group has
a machine. -/
theorem compute_eq_empty {machines : List Machine} {declared : List String}
    (known : ∀ m ∈ machines, m.processGroup ∈ declared)
    (staffed : ∀ group ∈ declared, group ∈ machines.map Machine.processGroup) :
    compute machines declared = {} := by
  have noGroup : declared.filter (fun group => group ∉ machines.map Machine.processGroup) = [] := by
    rw [List.filter_eq_nil_iff]
    intro group mem
    simpa using staffed group mem
  simp only [compute, foldl_addMachine_eq_self known, noGroup]
  rfl

/-- The machines that stay are of declared groups. -/
theorem declared_of_mem_remaining {machines : List Machine} {declared : List String}
    {m : Machine} (stays : m ∈ (compute machines declared).remaining machines) :
    m.processGroup ∈ declared := by
  rw [remaining] at stays
  rw [machinesToRemove_compute, List.mem_filter, decide_eq_true_eq] at stays
  by_contra unknown
  exact stays.2 (List.mem_map_of_mem (by simp [stays.1, unknown]))

/-- With distinct identifiers a machine stays if its group is declared. -/
theorem mem_remaining {machines : List Machine} {declared : List String}
    (distinct : (machines.map Machine.id).Nodup) {m : Machine} :
    m ∈ (compute machines declared).remaining machines ↔
      m ∈ machines ∧ m.processGroup ∈ declared := by
  constructor
  · intro stays
    exact ⟨(List.mem_filter.mp stays).1, declared_of_mem_remaining stays⟩
  · rintro ⟨mem, known⟩
    rw [remaining]
    rw [machinesToRemove_compute, List.mem_filter, decide_eq_true_eq]
    refine ⟨mem, fun gone => ?_⟩
    obtain ⟨other, removed, same⟩ := List.mem_map.mp gone
    obtain ⟨mem', unknown⟩ := List.mem_filter.mp removed
    obtain rfl := List.inj_on_of_nodup_map distinct mem' mem same
    exact absurd known (by simpa using unknown)

/-- With distinct identifiers the machines that stay are those of declared groups, in order. -/
theorem remaining_compute {machines : List Machine} (declared : List String)
    (distinct : (machines.map Machine.id).Nodup) :
    (compute machines declared).remaining machines =
      machines.filter fun m => m.processGroup ∈ declared := by
  rw [remaining]
  refine List.filter_congr fun m mem => ?_
  have stays : m ∈ (compute machines declared).remaining machines ↔
      m.processGroup ∈ declared := by
    rw [mem_remaining distinct]
    exact and_iff_right mem
  rw [remaining] at stays
  rw [List.mem_filter, and_iff_right mem] at stays
  rw [Bool.eq_iff_iff, stays, decide_eq_true_iff]

/-- The groups that need a machine are in byte order, each once. -/
theorem pairwise_groupsNeedingMachines (machines : List Machine) (declared : List String) :
    (compute machines declared).groupsNeedingMachines.Pairwise (· < ·) := by
  change (Dict.keys _).Pairwise _
  rw [Dict.keys, List.pairwise_map]
  exact Dict.increasing _

end GroupDiff

end Rollout
