import Rollout.Proofs.Effects
import Rollout.Proofs.VolumeBinding

/-!
# Every machine and every group is accounted for

A plan disposes of every machine of the snapshot once, by the group that the machine is in, and
gives every declared group that has none a machine. No machine changes its group, so what is
left in a group when the plan has been carried out can be counted beforehand.
-/

namespace Rollout

/-- Machines that correspond in their groups are as many in each group. -/
theorem headcount_eq_of_forall₂ {α : Type} {groupOf : α → String} {entries : List α}
    {fleet : List Machine} {group : String}
    (same : List.Forall₂ (fun entry m => m.processGroup = groupOf entry) entries fleet) :
    headcount group fleet = (entries.map groupOf).count group := by
  have groups : fleet.map Machine.processGroup = entries.map groupOf :=
    map_eq_map_of_forall₂ same.flip
  rw [← groups, headcount, List.count, List.countP_map]
  refine List.countP_congr fun m _ => ?_
  simp

def PlanRow.subject (row : PlanRow) : String × String := (row.machine, row.group)

namespace Plan

variable {app : AppConfig} {d : Deployment} {plan : Plan} {group : String} {m : Machine}

/-- A planned launch is for a group with a name, and its machine resolves to that group. -/
theorem processGroup_of_planLaunch {launch : PlannedLaunch}
    (planned : planLaunch d app.resolver group = .ok launch) :
    group ≠ "" ∧ launch.group = group ∧ launch.input.config.processGroup = group := by
  obtain ⟨same, built⟩ := planLaunch_eq_ok planned
  rw [LaunchBuilder.forLaunch_eq] at built
  split at built
  · cases built
  · rename_i named
    obtain ⟨config, derived, built⟩ := bind_eq_ok_iff.mp built
    obtain ⟨bound, _, done⟩ := bind_eq_ok_iff.mp built
    have grouped : config.processGroup = group := processGroup_of_derive named derived
    refine ⟨named, same, ?_⟩
    rw [← Except.ok.inj done]
    exact grouped

/-- A planned update is for a machine, and resolves to the group that the machine is in. -/
structure KeepsGroup (m : Machine) (update : PlannedUpdate) : Prop where
  machine : update.plan.machineId = m.id
  group : update.group = m.processGroup
  resolves : update.plan.input.config.processGroup = m.processGroup

theorem keepsGroup_of_planUpdate {update : PlannedUpdate}
    (planned : planUpdate d app.resolver m = .ok update) : KeepsGroup m update := by
  obtain ⟨group, built⟩ := planUpdate_eq_ok planned
  exact ⟨machineId_of_planUpdate planned, group, (converged_of_forUpdate built).processGroup_eq⟩

theorem subjects_rows (plan : Plan) : plan.rows.map PlanRow.subject =
    plan.diff.machinesToRemove.map (fun m => (m.id.text, m.processGroup)) ++
      plan.launches.map (fun launch => ("(new)", launch.group)) ++
      plan.updates.map (fun update => (update.plan.machineId.text, update.group)) := by
  rw [rows, List.map_append, List.map_append, List.map_map, List.map_map, List.map_map]
  rfl

/-- Every machine and every group is accounted for in a plan. -/
structure Accounts (plan : Plan) (declared : List String) (machines : List Machine) : Prop where
  /-- The machines of undeclared groups are removed, in the order of the snapshot. -/
  removals : plan.removals =
    (machines.filter fun m => m.processGroup ∉ declared).map Machine.id
  /-- The others are updated, in the order of the snapshot and in their groups. -/
  updates : List.Forall₂ KeepsGroup
    (machines.filter fun m => m.processGroup ∈ declared) plan.updates
  /-- No machine is forgotten, and none is disposed of twice. -/
  once : ∀ m ∈ machines,
    (plan.removals ++ plan.updates.map fun update => update.plan.machineId).count m.id = 1
  /-- Groups get a machine in byte order, each one. -/
  ordered : (plan.launches.map PlannedLaunch.group).Pairwise (· < ·)
  /-- A group gets one if it is declared and has none. -/
  launched : ∀ group, group ∈ plan.launches.map PlannedLaunch.group ↔
    group ∈ declared ∧ headcount group machines = 0
  /-- What is launched for a group resolves to it. -/
  resolves : ∀ launch ∈ plan.launches, launch.input.config.processGroup = launch.group
  /-- An operator is shown one row for every removal, launch and update. -/
  rows : plan.rows.map PlanRow.subject =
    (machines.filter fun m => m.processGroup ∉ declared).map
        (fun m => (m.id.text, m.processGroup)) ++
      plan.launches.map (fun launch => ("(new)", launch.group)) ++
      (machines.filter fun m => m.processGroup ∈ declared).map
        fun m => (m.id.text, m.processGroup)
  /-- The plan can be carried out. -/
  possible : ∃ fleet, Carried (plan.calls machines) machines fleet
  /-- However it is carried out, every declared group keeps its machines or gets its first one,
  and no other group is left. -/
  leaves : ∀ fleet, Carried (plan.calls machines) machines fleet → ∀ group,
    headcount group fleet = if group ∈ declared then max 1 (headcount group machines) else 0

/-- The survivors of a declared group are all of its machines. -/
theorem headcount_survivors (d : Deployment) (resolver : Resolver) (group : String) :
    headcount group (d.survivors resolver) =
      if group ∈ resolver.processNames then headcount group d.machines else 0 := by
  rw [Deployment.survivors, headcount, List.countP_filter]
  by_cases declared : group ∈ resolver.processNames
  · rw [if_pos declared]
    refine List.countP_congr fun m _ => ?_
    simp only [Bool.and_eq_true, decide_eq_true_eq]
    constructor
    · exact And.left
    · intro same
      exact ⟨same, same ▸ declared⟩
  · rw [if_neg declared, List.countP_eq_zero]
    intro m _ both
    simp only [Bool.and_eq_true, decide_eq_true_eq] at both
    exact declared (both.1 ▸ both.2)

section

variable (planned : deploy d app.resolver = .ok plan)

include planned

theorem keepsGroup_forall₂ :
    List.Forall₂ KeepsGroup (remainingOf d app.resolver) plan.updates :=
  (planUpdate_forall₂ planned).imp fun _ _ => keepsGroup_of_planUpdate

/-- The groups of the launches are those that need a machine. -/
theorem groups_launches :
    plan.launches.map PlannedLaunch.group = (diffOf d app.resolver).groupsNeedingMachines := by
  symm
  rw [← List.forall₂_eq_eq_eq, List.forall₂_map_right_iff]
  exact (planLaunch_forall₂ planned).imp fun _ _ ok => (processGroup_of_planLaunch ok).2.1.symm

/-- Removals and updates together are for the machines of the fleet. -/
theorem perm_disposed (distinct : Distinct d.machines) : (d.machines.map Machine.id).Perm
    (plan.removals ++ plan.updates.map fun update => update.plan.machineId) := by
  have split := (perm_remainingOf d app.resolver distinct).map Machine.id
  rw [List.map_append] at split
  rw [removals, ← machineIds_of_deploy planned, diff_of_deploy planned]
  exact split

theorem mem_groups_launches : group ∈ plan.launches.map PlannedLaunch.group ↔
    group ∈ app.resolver.processNames ∧ headcount group d.machines = 0 := by
  rw [groups_launches planned, diffOf, GroupDiff.mem_groupsNeedingMachines, headcount_eq_zero_iff]
  simp

theorem ordered_launches : (plan.launches.map PlannedLaunch.group).Pairwise (· < ·) := by
  rw [groups_launches planned]
  exact GroupDiff.pairwise_groupsNeedingMachines _ _

theorem count_launches (group : String) : (plan.launches.map PlannedLaunch.group).count group =
    if group ∈ app.resolver.processNames ∧ headcount group d.machines = 0 then 1 else 0 := by
  have nodup : (plan.launches.map PlannedLaunch.group).Nodup :=
    (ordered_launches planned).imp fun lt => String.ne_of_lt lt
  by_cases needed : group ∈ app.resolver.processNames ∧ headcount group d.machines = 0
  · rw [if_pos needed]
    exact List.count_eq_one_of_mem nodup ((mem_groups_launches planned).mpr needed)
  · rw [if_neg needed]
    exact List.count_eq_zero.mpr fun mem => needed ((mem_groups_launches planned).mp mem)

/-- The empty name is no declared group: no machine is in it, and none can be launched into it. -/
theorem named_of_deploy : "" ∉ app.resolver.processNames := by
  intro declared
  have empty : headcount "" d.machines = 0 :=
    headcount_eq_zero_iff.mpr fun m _ => Config.processGroup_ne_empty m.config
  have needed := (mem_groups_launches planned).mpr ⟨declared, empty⟩
  rw [groups_launches planned] at needed
  obtain ⟨launch, _, ok⟩ := exists_of_mem_left (planLaunch_forall₂ planned) needed
  exact (processGroup_of_planLaunch ok).1 rfl

theorem resolves_launches : ∀ launch ∈ plan.launches,
    launch.input.config.processGroup = launch.group := by
  intro launch mem
  obtain ⟨group, _, ok⟩ := exists_of_mem_right (planLaunch_forall₂ planned) mem
  obtain ⟨_, same, resolves⟩ := processGroup_of_planLaunch ok
  rw [resolves, same]

/-- What is made of a survivor is in its group. -/
theorem processGroup_of_makes (distinct : Distinct d.machines) {m m' : Machine}
    (mem : m ∈ d.survivors app.resolver) (made : ∃ update ∈ plan.updates, update.Makes m m') :
    m'.processGroup = m.processGroup :=
  (converged_of_makes distinct planned mem made).processGroup_eq

/-- How many machines a plan leaves in a group. -/
theorem headcount_of_leaves (distinct : Distinct d.machines) {fleet : List Machine}
    (leaves : plan.Leaves (d.survivors app.resolver) fleet) (group : String) :
    headcount group fleet =
      if group ∈ app.resolver.processNames then max 1 (headcount group d.machines) else 0 := by
  obtain ⟨kept, created, perm, keeps, creates⟩ := leaves
  have total : headcount group fleet = headcount group kept + headcount group created := by
    rw [headcount, perm.countP_eq, List.countP_append]
    rfl
  have stayed : headcount group kept = headcount group (d.survivors app.resolver) := by
    have before : List.Forall₂ (fun (m m' : Machine) => m'.processGroup = m.processGroup)
        (d.survivors app.resolver) (d.survivors app.resolver) :=
      List.forall₂_same.mpr fun _ _ => rfl
    have after : List.Forall₂ (fun (m m' : Machine) => m'.processGroup = m.processGroup)
        (d.survivors app.resolver) kept := by
      refine ((List.forall₂_and_left _ _).mpr ⟨fun _ mem => mem, keeps⟩).imp ?_
      rintro m m' ⟨mem, made⟩
      exact processGroup_of_makes planned distinct mem made
    rw [headcount_eq_of_forall₂ before, headcount_eq_of_forall₂ after]
  have added : headcount group created =
      if group ∈ app.resolver.processNames ∧ headcount group d.machines = 0 then 1 else 0 := by
    rw [← count_launches planned]
    refine headcount_eq_of_forall₂ ?_
    refine ((List.forall₂_and_left _ _).mpr ⟨resolves_launches planned, creates⟩).imp ?_
    rintro launch m ⟨resolves, leaves⟩
    rw [Machine.processGroup, leaves.config, resolves]
  rw [total, stayed, added, headcount_survivors]
  by_cases declared : group ∈ app.resolver.processNames
  · simp only [declared, true_and, if_true]
    split
    · omega
    · omega
  · simp [declared]

end

/-- A plan accounts for every machine and every group of a fleet with distinct identifiers, and
there is none if the empty name is declared. -/
theorem deploy_accounts (app : AppConfig) (d : Deployment) (plan : Plan)
    (planned : deploy d app.resolver = .ok plan) :
    "" ∉ app.resolver.processNames ∧
      ((d.machines.map Machine.id).Nodup →
        plan.Accounts app.resolver.processNames d.machines) := by
  refine ⟨named_of_deploy planned, fun distinct => ?_⟩
  have diff := diff_of_deploy planned
  have gone := GroupDiff.machinesToRemove_compute d.machines app.resolver.processNames
  have stay := GroupDiff.remaining_compute app.resolver.processNames distinct
  have updated := keepsGroup_forall₂ planned
  rw [remainingOf] at updated
  rw [diffOf, stay] at updated
  exact
    { removals := by rw [removals, diff, diffOf, gone]
      updates := updated
      once := by
        intro m mem
        rw [← (perm_disposed planned distinct).count_eq]
        exact List.count_eq_one_of_mem distinct (List.mem_map_of_mem mem)
      ordered := ordered_launches planned
      launched := fun group => mem_groups_launches planned
      resolves := resolves_launches planned
      rows := by
        rw [subjects_rows, diff, diffOf, gone]
        refine congrArg (_ ++ ·) (map_eq_map_of_forall₂ (updated.flip.imp fun _ _ keeps => ?_))
        rw [keeps.machine, keeps.group]
      possible := exists_carried planned distinct
      leaves := fun fleet carried =>
        headcount_of_leaves planned distinct (leaves_of_carried planned distinct carried) }

end Plan

namespace Rehearsal

/-- A fleet of two groups, one of which has machines that do not name it. -/
def untaggedDeployment : Deployment :=
  deployment
    [{ loneMachine with config := {} },
      { loneMachine with
        id := secondId
        config := fixtureConfig "old" },
      { loneMachine with
        id := thirdId
        config := fixtureConfig "" }] [loneVolume "cache"]

def untaggedPlan : Plan :=
  (Plan.deploy untaggedDeployment cachingApp.resolver).toOption.getD {}

theorem untaggedPlan_accounts :
    Plan.deploy untaggedDeployment cachingApp.resolver = .ok untaggedPlan ∧
      (untaggedDeployment.machines.map Machine.id).Nodup ∧
      "" ∉ cachingApp.resolver.processNames ∧
      untaggedPlan.Accounts cachingApp.resolver.processNames untaggedDeployment.machines := by
  have planned : Plan.deploy untaggedDeployment cachingApp.resolver = .ok untaggedPlan := rfl
  have distinct : (untaggedDeployment.machines.map Machine.id).Nodup := by decide
  obtain ⟨named, accounts⟩ :=
    Plan.deploy_accounts cachingApp untaggedDeployment untaggedPlan planned
  exact ⟨planned, distinct, named, accounts distinct⟩

example : untaggedPlan.rows.map PlanRow.subject =
    [("m_2", "old"), ("(new)", "web"), ("m_1", "app"), ("m_3", "app")] := by decide

end Rehearsal

end Rollout
