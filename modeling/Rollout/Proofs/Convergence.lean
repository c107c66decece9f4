import Rollout.Proofs.Desired
import Rollout.Proofs.Groups
import Rollout.Rehearsal.Answer
import Rollout.Rehearsal.Fixtures

/-!
# One pass is enough

A fleet to which a plan was carried out has nothing left to do: planned once more, with any
volumes, it changes no group, replaces no machine and updates every machine to what it is.
-/

namespace Rollout

/-- The machines that a rollout does not remove. -/
def Deployment.survivors (d : Deployment) (resolver : Resolver) : List Machine :=
  d.machines.filter fun m => m.processGroup ∈ resolver.processNames

/-- What an update makes of the machine that it is for. A new machine may have any identifier. -/
structure PlannedUpdate.Makes (update : PlannedUpdate) (m m' : Machine) : Prop where
  machine : update.plan.machineId = m.id
  region : m'.region = m.region
  config : m'.config = update.plan.input.config
  id : update.plan.isReplace = false → m'.id = m.id

structure PlannedLaunch.Leaves (launch : PlannedLaunch) (m : Machine) : Prop where
  region : m.region = launch.input.region
  config : m.config = launch.input.config

/-- The fleet that a plan leaves behind, in any order: what it makes of every survivor, and what
it launches. -/
def Plan.Leaves (plan : Plan) (survivors fleet : List Machine) : Prop :=
  ∃ kept created, fleet.Perm (kept ++ created) ∧
    List.Forall₂ (fun m m' => ∃ update ∈ plan.updates, update.Makes m m') survivors kept ∧
    List.Forall₂ PlannedLaunch.Leaves plan.launches created

/-- A configuration that was made for a group of the app, with a mount that fits. -/
inductive Converged (ctx : LaunchContext) (app : AppConfig) : String → Config → Prop
  | intro {group : String} {template base : Config} {desired mount : Option Mount} :
    group ≠ "" → app.processes.find? group = some template →
      AppConfig.desiredMount group template.mount = .ok desired → MountFits desired mount →
        Converged ctx app group { ctx.desired group template base desired with mount }

section

variable {app : AppConfig} {ctx : LaunchContext} {volumes : VolumePool} {group : String}

namespace Converged

variable {config : Config}

theorem processGroup_eq (converged : Converged ctx app group config) :
    config.processGroup = group := by
  obtain ⟨named, _, _, _⟩ := converged
  exact LaunchContext.processGroup_desired named

theorem group_mem (converged : Converged ctx app group config) :
    group ∈ app.resolver.processNames := by
  obtain ⟨_, declared, _, _⟩ := converged
  exact Dict.mem_keys_iff.mpr ⟨_, declared⟩

/-- A converged machine is updated to what it is, without a look at the volumes. -/
theorem forUpdate_eq {m : Machine} (converged : Converged ctx app group m.config) :
    LaunchBuilder.forUpdate ⟨ctx, volumes, app.resolver⟩ m =
      .ok ⟨.update m.id (ctx.input m.region m.config), []⟩ := by
  have grouped : m.processGroup = group := converged.processGroup_eq
  rw [LaunchBuilder.forUpdate_eq_ok_iff, grouped]
  generalize eq : m.config = config at converged
  obtain ⟨named, declared, wanted, fits⟩ := converged
  rename_i template base desired mount
  refine ⟨ctx.desired group template base desired, { mount }, ?_, ?_, ?_⟩
  · exact derive_eq_ok_iff.mpr ⟨template, desired, declared, wanted,
      LaunchContext.desired_desired.symm⟩
  · exact LaunchBuilder.reconcileMount_of_fits fits
  · rfl

end Converged

/-- A planned update leads to a converged machine of the same group. -/
theorem converged_of_forUpdate {m : Machine} {built : BuiltPlan}
    (planned : LaunchBuilder.forUpdate ⟨ctx, volumes, app.resolver⟩ m = .ok built) :
    Converged ctx app m.processGroup built.plan.input.config := by
  obtain ⟨config, outcome, derived, reconciled, rfl⟩ :=
    LaunchBuilder.forUpdate_eq_ok_iff.mp planned
  obtain ⟨template, desired, declared, wanted, rfl⟩ := derive_eq_ok_iff.mp derived
  have fits := LaunchBuilder.reconcileMount_fits reconciled
  have converged : Converged ctx app m.processGroup
      { ctx.desired m.processGroup template m.config desired with mount := outcome.mount } :=
    .intro (Config.processGroup_ne_empty m.config) declared wanted fits
  rw [LaunchBuilder.planned]
  cases outcome.replace with
  | false => exact converged
  | true => exact converged

/-- A launch leads to a converged machine of its group. -/
theorem converged_of_forLaunch {input : LaunchInput}
    (planned : LaunchBuilder.forLaunch ⟨ctx, volumes, app.resolver⟩ group none = .ok input) :
    Converged ctx app group input.config := by
  rw [LaunchBuilder.forLaunch_eq] at planned
  split at planned
  · cases planned
  · rename_i named
    obtain ⟨config, derived, planned⟩ := bind_eq_ok_iff.mp planned
    obtain ⟨mount, bound, planned⟩ := bind_eq_ok_iff.mp planned
    obtain ⟨template, desired, declared, wanted, rfl⟩ := derive_eq_ok_iff.mp derived
    cases planned
    refine .intro named declared wanted ?_
    cases desired with
    | none =>
      cases bound
      exact .none
    | some desired =>
      obtain ⟨volume, binds, rfl⟩ := LaunchBuilder.mapM_some_eq_ok bound
      exact LaunchBuilder.bindVolume_fits binds

end

/-- What a launch leaves behind has converged in its group. -/
theorem PlannedLaunch.Leaves.converged {app : AppConfig} {d : Deployment} {group : String}
    {launch : PlannedLaunch} {m : Machine} (leaves : launch.Leaves m) (plain : d.guest = none)
    (planned : Plan.planLaunch d app.resolver group = .ok launch) :
    Converged d.launch app group m.config := by
  have built := (Plan.planLaunch_eq_ok planned).2
  rw [plain] at built
  rw [leaves.config]
  exact converged_of_forLaunch built

namespace Plan

variable {app : AppConfig} {d : Deployment} {plan : Plan} {fleet : List Machine}

/-- A fleet whose machines have converged and which has one in every group needs nothing. -/
theorem deploy_of_converged
    (converged : ∀ m ∈ fleet, ∃ group, Converged d.launch app group m.config)
    (staffed : ∀ group ∈ app.resolver.processNames,
      group ∈ fleet.map Machine.processGroup) (volumes : VolumePool) :
    deploy { d with machines := fleet, volumes } app.resolver = .ok
      { updates := fleet.map fun m =>
          ⟨m.processGroup, .update m.id (d.launch.input m.region m.config), []⟩ } := by
  have known : ∀ m ∈ fleet, m.processGroup ∈ app.resolver.processNames := by
    intro m mem
    obtain ⟨group, same⟩ := converged m mem
    have grouped : m.processGroup = group := same.processGroup_eq
    rw [grouped]
    exact same.group_mem
  have diff : diffOf { d with machines := fleet, volumes } app.resolver = {} :=
    GroupDiff.compute_eq_empty known staffed
  have remaining : remainingOf { d with machines := fleet, volumes } app.resolver = fleet := by
    simp [remainingOf, diff, GroupDiff.remaining]
  rw [deploy_eq_ok_iff, diff, remaining]
  refine ⟨[], _, rfl, ?_, rfl⟩
  rw [mapM_eq_ok_iff, List.forall₂_map_right_iff, List.forall₂_same]
  intro m mem
  obtain ⟨group, same⟩ := converged m mem
  have built : (Deployment.builder { d with machines := fleet, volumes } app.resolver).forUpdate m =
      .ok ⟨.update m.id (d.launch.input m.region m.config), []⟩ := same.forUpdate_eq
  simp [planUpdate, built]

theorem remainingOf_eq_survivors (d : Deployment) (resolver : Resolver)
    (distinct : (d.machines.map Machine.id).Nodup) :
    remainingOf d resolver = d.survivors resolver :=
  GroupDiff.remaining_compute resolver.processNames distinct

section

variable (distinct : (d.machines.map Machine.id).Nodup)
  (planned : deploy d app.resolver = .ok plan)

include distinct planned

/-- The updates are those of the survivors, in order. -/
theorem planUpdate_survivors : List.Forall₂
    (fun m update => planUpdate d app.resolver m = .ok update)
    (d.survivors app.resolver) plan.updates := by
  rw [← remainingOf_eq_survivors d _ distinct]
  exact planUpdate_forall₂ planned

/-- An update that makes something of a survivor is the one that is planned for it. -/
theorem planUpdate_of_makes {m m' : Machine} {update : PlannedUpdate}
    (mem : m ∈ d.survivors app.resolver) (updated : update ∈ plan.updates)
    (makes : update.Makes m m') : planUpdate d app.resolver m = .ok update := by
  obtain ⟨other, survives, eq⟩ :=
    exists_of_mem_right (planUpdate_survivors distinct planned) updated
  have same : other.id = m.id := (machineId_of_planUpdate eq).symm.trans makes.machine
  obtain rfl : other = m := List.inj_on_of_nodup_map distinct
    (List.mem_of_mem_filter survives) (List.mem_of_mem_filter mem) same
  exact eq

/-- What is made of a survivor has converged in its group. -/
theorem converged_of_makes {m m' : Machine} (mem : m ∈ d.survivors app.resolver)
    (made : ∃ update ∈ plan.updates, update.Makes m m') :
    Converged d.launch app m.processGroup m'.config := by
  obtain ⟨update, updated, makes⟩ := made
  have eq := planUpdate_of_makes distinct planned mem updated makes
  rw [makes.config]
  exact converged_of_forUpdate (planUpdate_eq_ok eq).2

/-- What a plan leaves behind has converged. -/
theorem converged_of_leaves (plain : d.guest = none)
    (leaves : plan.Leaves (d.survivors app.resolver) fleet) :
    (∀ m ∈ fleet, ∃ group, Converged d.launch app group m.config) ∧
    (∀ m ∈ d.survivors app.resolver, m.processGroup ∈ fleet.map Machine.processGroup) ∧
    ∀ group ∈ (diffOf d app.resolver).groupsNeedingMachines,
      group ∈ fleet.map Machine.processGroup := by
  obtain ⟨kept, created, perm, keeps, creates⟩ := leaves
  have launched := planLaunch_forall₂ planned
  refine ⟨?_, ?_, ?_⟩
  · intro m' mem
    rcases List.mem_append.mp (perm.mem_iff.mp mem) with mem | mem
    · obtain ⟨m, survives, makes⟩ := exists_of_mem_right keeps mem
      exact ⟨_, converged_of_makes distinct planned survives makes⟩
    · obtain ⟨launch, mem, leaves⟩ := exists_of_mem_right creates mem
      obtain ⟨group, _, eq⟩ := exists_of_mem_right launched mem
      exact ⟨_, leaves.converged plain eq⟩
  · intro m survives
    obtain ⟨m', mem, makes⟩ := exists_of_mem_left keeps survives
    rw [← (converged_of_makes distinct planned survives makes).processGroup_eq]
    exact List.mem_map_of_mem (f := Machine.processGroup)
      (perm.mem_iff.mpr (List.mem_append_left created mem))
  · intro group mem
    obtain ⟨launch, mem, eq⟩ := exists_of_mem_left launched mem
    obtain ⟨m', mem, leaves⟩ := exists_of_mem_left creates mem
    rw [← (leaves.converged plain eq).processGroup_eq]
    exact List.mem_map_of_mem (f := Machine.processGroup)
      (perm.mem_iff.mpr (List.mem_append_right kept mem))

end

/-- Reconciliation converges in one pass. -/
theorem deploy_converges (app : AppConfig) (d : Deployment) (plan : Plan)
    (plain : d.guest = none) (distinct : (d.machines.map Machine.id).Nodup)
    (planned : deploy d app.resolver = .ok plan) (fleet : List Machine)
    (leaves : plan.Leaves (d.survivors app.resolver) fleet) (volumes : VolumePool) :
    deploy { d with machines := fleet, volumes } app.resolver = .ok
      { updates := fleet.map fun m =>
          ⟨m.processGroup, .update m.id (d.launch.input m.region m.config), []⟩ } := by
  obtain ⟨converged, kept, created⟩ := converged_of_leaves distinct planned plain leaves
  refine deploy_of_converged converged (fun group declared => ?_) volumes
  by_cases staffed : group ∈ d.machines.map Machine.processGroup
  · obtain ⟨m, mem, rfl⟩ := List.mem_map.mp staffed
    exact kept m (List.mem_filter.mpr ⟨mem, decide_eq_true declared⟩)
  · exact created group (GroupDiff.mem_groupsNeedingMachines.mpr ⟨declared, staffed⟩)

end Plan

namespace Rehearsal

def cachingApp : AppConfig where
  primaryRegion := "ord"
  processes := Dict.ofList [("app", { mount := some ⟨"cache", "/cache", none⟩ }), ("web", {})]

/-- A deployment that replaces a machine for its volume and creates one. -/
def cachingDeployment : Deployment :=
  deployment [loneMachine] [loneVolume "cache"]

def cachingPlan : Plan := (Plan.deploy cachingDeployment cachingApp.resolver).toOption.getD {}

/-- The fleet that is left, with numbers for the machines that were created. -/
def cachingFleet : List Machine :=
  (cachingPlan.updates.map fun update => newMachine 0 update.plan.input) ++
    cachingPlan.launches.map fun launch => newMachine 1 launch.input

theorem cachingPlan_converges :
    Plan.deploy cachingDeployment cachingApp.resolver = .ok cachingPlan ∧
      cachingPlan.replacementCount = 1 ∧ cachingPlan.launches.length = 1 ∧
      cachingPlan.Leaves (cachingDeployment.survivors cachingApp.resolver) cachingFleet ∧
      Plan.deploy { cachingDeployment with machines := cachingFleet, volumes := {} }
        cachingApp.resolver = .ok
          { updates := cachingFleet.map fun m =>
              ⟨m.processGroup,
                .update m.id (cachingDeployment.launch.input m.region m.config), []⟩ } := by
  have planned : Plan.deploy cachingDeployment cachingApp.resolver = .ok cachingPlan := rfl
  have leaves : cachingPlan.Leaves (cachingDeployment.survivors cachingApp.resolver)
      cachingFleet := by
    refine ⟨_, _, .refl _, ?_, ?_⟩
    · refine .cons ⟨_, List.mem_singleton_self _, rfl, rfl, rfl, fun kept => ?_⟩ .nil
      cases kept
    · exact .cons ⟨rfl, rfl⟩ .nil
  exact ⟨planned, by decide, by decide, leaves,
    Plan.deploy_converges cachingApp cachingDeployment cachingPlan rfl (by decide) planned
      cachingFleet leaves {}⟩

end Rehearsal

end Rollout
