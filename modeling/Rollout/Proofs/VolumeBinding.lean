import Rollout.Proofs.Desired
import Rollout.Proofs.Groups
import Rollout.Proofs.Pool
import Rollout.Rehearsal.Fixtures

/-!
# The volumes of a plan

A look at the pool takes nothing out of it. What a plan binds therefore depends on the names
of the mounts alone: every mount gets the first unattached volume of its name, two mounts of
one name get the same volume, and a name that no unattached volume has stops the plan.
-/

namespace Rollout

/-- A volume that has to be found, for a new machine of a group or for an existing one. -/
structure VolumeNeed where
  group : String
  machine : Option MachineId := none
  name : String
  deriving DecidableEq, Repr

namespace VolumeNeed

def error (need : VolumeNeed) : DeployError :=
  match need.machine with
  | none => .buildLaunch need.group (.volumeUnavailable need.group need.name)
  | some id => .buildPlan id (.volumeUnavailable need.group need.name)

def unmet (pool : VolumePool) (need : VolumeNeed) : Bool :=
  (pool.firstUnattached need.name).isNone

/-- A mount that was bound to the first unattached volume of the needed name. -/
def MetBy (pool : VolumePool) (need : VolumeNeed) (mount : Mount) : Prop :=
  mount.name = need.name ∧
    ∃ v, pool.firstUnattached need.name = some v ∧ mount.volume = some v.id

theorem MetBy.unmet_eq_false {pool : VolumePool} {need : VolumeNeed} {mount : Mount}
    (met : need.MetBy pool mount) : need.unmet pool = false := by
  obtain ⟨_, v, found, _⟩ := met
  rw [unmet, found]
  rfl

theorem unmet_eq_false_of_rel {pool : VolumePool} {need : Option VolumeNeed}
    {mount : Option Mount} (met : Option.Rel (MetBy pool) need mount) :
    ∀ n ∈ need, n.unmet pool = false := by
  intro n needed
  cases met with
  | none => cases needed
  | some met =>
    obtain rfl := Option.some.inj needed
    exact met.unmet_eq_false

theorem find?_unmet_of_met {pool : VolumePool} {needs : List VolumeNeed} {mounts : List Mount}
    (met : List.Forall₂ (MetBy pool) needs mounts) : needs.find? (·.unmet pool) = none := by
  rw [List.find?_eq_none]
  intro n needed missing
  obtain ⟨mount, _, met⟩ := exists_of_mem_left met needed
  rw [met.unmet_eq_false] at missing
  cases missing

end VolumeNeed

namespace AppConfig

def mountOf (app : AppConfig) (group : String) : Option Mount :=
  (app.processes.find? group).bind Config.mount

def launchNeed (app : AppConfig) (group : String) : Option VolumeNeed :=
  (app.mountOf group).map fun mount => { group, name := mount.name }

/-- The volume that an existing machine needs, where its own has to give way. -/
def updateNeed (app : AppConfig) (m : Machine) : Option VolumeNeed :=
  ((app.mountOf m.processGroup).filter (·.displaces m.config.mount)).map fun mount =>
    { group := m.processGroup, machine := some m.id, name := mount.name }

structure Named (app : AppConfig) : Prop where
  groups : "" ∉ app.processes.keys
  mounts : ∀ group, ∀ mount ∈ app.mountOf group, mount.name ≠ ""

end AppConfig

def PlannedLaunch.boundMount (launch : PlannedLaunch) : Option Mount := launch.input.config.mount

/-- The mount of a machine that is replaced. One that is updated in place keeps its volume. -/
def PlannedUpdate.boundMount (update : PlannedUpdate) : Option Mount :=
  if update.plan.isReplace then update.plan.input.config.mount else none

namespace Plan

/-- The volumes that have to be found for a deployment, in the order of the search. -/
def needs (d : Deployment) (app : AppConfig) : List VolumeNeed :=
  (diffOf d app.resolver).groupsNeedingMachines.filterMap app.launchNeed ++
    (remainingOf d app.resolver).filterMap app.updateNeed

def boundMounts (plan : Plan) : List Mount :=
  plan.launches.filterMap PlannedLaunch.boundMount ++
    plan.updates.filterMap PlannedUpdate.boundMount

def boundVolumes (plan : Plan) : List VolumeId := plan.boundMounts.filterMap Mount.volume

end Plan

section

variable {app : AppConfig} {ctx : LaunchContext} {volumes : VolumePool} {group : String}
  {base : Option Config} {config : Config}

theorem mount_of_derive
    (derived : LaunchBuilder.derive ⟨ctx, volumes, app.resolver⟩ group base = .ok config) :
    config.mount = (app.mountOf group).map Mount.unbound := by
  obtain ⟨template, mount, declared, wanted, rfl⟩ := derive_eq_ok_iff.mp derived
  have asked : app.mountOf group = template.mount := by
    rw [AppConfig.mountOf, declared, Option.bind_some]
  rw [asked]
  exact (desiredMount_eq_ok_iff.mp wanted).2

theorem processGroup_of_derive (named : group ≠ "")
    (derived : LaunchBuilder.derive ⟨ctx, volumes, app.resolver⟩ group base = .ok config) :
    config.processGroup = group := by
  obtain ⟨template, mount, _, _, rfl⟩ := derive_eq_ok_iff.mp derived
  exact LaunchContext.processGroup_desired named

/-- Where groups and volumes have names, every configuration can be derived. -/
theorem AppConfig.Named.derive_ne_error (named : app.Named)
    (declared : group ∈ app.resolver.processNames) {e : BuildError} :
    LaunchBuilder.derive ⟨ctx, volumes, app.resolver⟩ group base ≠ .error e := by
  obtain ⟨template, found⟩ := Dict.mem_keys_iff.mp declared
  have asked : app.mountOf group = template.mount := by
    rw [AppConfig.mountOf, found, Option.bind_some]
  have wanted : AppConfig.desiredMount group template.mount =
      .ok (template.mount.map Mount.unbound) := by
    rw [desiredMount_eq_ok_iff]
    refine ⟨fun mount mem => named.mounts group mount ?_, rfl⟩
    rw [asked]
    exact mem
  have derived : LaunchBuilder.derive ⟨ctx, volumes, app.resolver⟩ group base = .ok _ :=
    derive_eq_ok_iff.mpr ⟨template, _, found, wanted, rfl⟩
  intro failed
  rw [derived] at failed
  cases failed

variable {b : LaunchBuilder} {mount bound : Option Mount} (need : Mount → VolumeNeed)

theorem met_of_mapM (names : ∀ m, (need m).name = m.name)
    (ok : (mount.map Mount.unbound).mapM (b.bindVolume group) = .ok bound) :
    Option.Rel (VolumeNeed.MetBy b.volumes) (mount.map need) bound := by
  cases mount with
  | none =>
    cases ok
    exact .none
  | some m =>
    obtain ⟨m', binds, rfl⟩ := LaunchBuilder.mapM_some_eq_ok ok
    obtain ⟨v, found, rfl⟩ := LaunchBuilder.bindVolume_eq_ok binds
    refine .some ⟨(names m).symm, v, ?_, rfl⟩
    rw [names m]
    exact found

theorem unmet_of_mapM (names : ∀ m, (need m).name = m.name) {e : BuildError}
    (failed : (mount.map Mount.unbound).mapM (b.bindVolume group) = .error e) :
    ∃ n, mount.map need = some n ∧ n.unmet b.volumes = true ∧
      e = .volumeUnavailable group n.name := by
  cases mount with
  | none => cases failed
  | some m =>
    rcases bind_eq_error_iff.mp failed with binds | ⟨m', _, done⟩
    · obtain ⟨missing, rfl⟩ := LaunchBuilder.bindVolume_eq_error binds
      refine ⟨need m, rfl, ?_, ?_⟩
      · rw [VolumeNeed.unmet, names m]
        exact Option.isNone_iff_eq_none.mpr missing
      · rw [names m]
        rfl
    · cases done

end

namespace Plan

variable {app : AppConfig} {d : Deployment} {group : String} {m : Machine}

/-- A planned launch binds the volume that it needs. -/
theorem launchNeed_met {launch : PlannedLaunch}
    (planned : planLaunch d app.resolver group = .ok launch) :
    Option.Rel (VolumeNeed.MetBy d.volumes) (app.launchNeed group) launch.boundMount := by
  obtain ⟨_, built⟩ := planLaunch_eq_ok planned
  rw [LaunchBuilder.forLaunch_eq] at built
  split at built
  · cases built
  · obtain ⟨config, derived, built⟩ := bind_eq_ok_iff.mp built
    obtain ⟨bound, binds, done⟩ := bind_eq_ok_iff.mp built
    have mount : launch.boundMount = bound := by
      rw [PlannedLaunch.boundMount, ← Except.ok.inj done]
      rfl
    rw [mount_of_derive derived] at binds
    rw [mount]
    exact met_of_mapM _ (fun _ => rfl) binds

/-- A launch fails only if it needs a volume and none is there. -/
theorem launchNeed_unmet (named : app.Named) (declared : group ∈ app.resolver.processNames)
    {e : DeployError} (failed : planLaunch d app.resolver group = .error e) :
    ∃ n, app.launchNeed group = some n ∧ n.unmet d.volumes = true ∧ e = n.error := by
  have nonempty : group ≠ "" := by
    rintro rfl
    exact named.groups declared
  obtain ⟨cause, unbuilt, rfl⟩ := planLaunch_eq_error failed
  rw [LaunchBuilder.forLaunch_eq, if_neg nonempty] at unbuilt
  rcases bind_eq_error_iff.mp unbuilt with underived | ⟨config, derived, unbuilt⟩
  · exact absurd underived (named.derive_ne_error declared)
  · rcases bind_eq_error_iff.mp unbuilt with unbound | ⟨bound, _, done⟩
    · rw [mount_of_derive derived, processGroup_of_derive nonempty derived] at unbound
      obtain ⟨n, needed, unmet, rfl⟩ := unmet_of_mapM
        (fun mount => { group, name := mount.name }) (fun _ => rfl) unbound
      refine ⟨n, needed, unmet, ?_⟩
      obtain ⟨mount, _, rfl⟩ := Option.map_eq_some_iff.mp needed
      rfl
    · cases done

theorem boundMount_of_planned {update : PlannedUpdate} {b : LaunchBuilder} {config : Config}
    {outcome : MountOutcome} (eq : BuiltPlan.mk update.plan update.warnings = b.planned m config outcome) :
    update.boundMount = if outcome.replace then outcome.mount else none := by
  have plan : update.plan = (b.planned m config outcome).plan := congrArg BuiltPlan.plan eq
  rw [PlannedUpdate.boundMount, plan, LaunchBuilder.planned]
  cases outcome.replace with
  | false => rfl
  | true => rfl

/-- A machine is replaced with a mount exactly where a volume was bound. -/
theorem mount_of_settle (machine : MachineId) (existing : Option Mount)
    {desired bound : Option Mount} (unasked : desired = none → bound = none) :
    (if (MountOutcome.settle machine existing desired bound).replace then
      (MountOutcome.settle machine existing desired bound).mount else none) = bound := by
  cases existing with
  | none =>
    cases bound with
    | none => rfl
    | some bound => rfl
  | some existing =>
    cases desired with
    | none => exact (unasked rfl).symm
    | some desired =>
      cases bound with
      | some bound => rfl
      | none =>
        rw [MountOutcome.settle]
        split
        · rfl
        · rfl

/-- A planned update binds the volume that it needs. -/
theorem updateNeed_met {update : PlannedUpdate}
    (planned : planUpdate d app.resolver m = .ok update) :
    Option.Rel (VolumeNeed.MetBy d.volumes) (app.updateNeed m) update.boundMount := by
  obtain ⟨config, outcome, derived, reconciled, eq⟩ :=
    LaunchBuilder.forUpdate_eq_ok_iff.mp (planUpdate_eq_ok planned).2
  rw [LaunchBuilder.reconcileMount_eq] at reconciled
  obtain ⟨bound, binds, done⟩ := bind_eq_ok_iff.mp reconciled
  have unasked : config.mount = none → bound = none := by
    intro none
    rw [none] at binds
    cases binds
    rfl
  rw [mount_of_derive derived, Option.filter_map] at binds
  rw [boundMount_of_planned eq, ← Except.ok.inj done, mount_of_settle m.id m.config.mount unasked]
  exact met_of_mapM _ (fun _ => rfl) binds

/-- An update fails only if it needs a volume and none is there. -/
theorem updateNeed_unmet (named : app.Named)
    (declared : m.processGroup ∈ app.resolver.processNames) {e : DeployError}
    (failed : planUpdate d app.resolver m = .error e) :
    ∃ n, app.updateNeed m = some n ∧ n.unmet d.volumes = true ∧ e = n.error := by
  obtain ⟨cause, unbuilt, rfl⟩ := planUpdate_eq_error failed
  rw [LaunchBuilder.forUpdate_eq] at unbuilt
  rcases bind_eq_error_iff.mp unbuilt with underived | ⟨config, derived, unbuilt⟩
  · exact absurd underived (named.derive_ne_error declared)
  · rcases bind_eq_error_iff.mp unbuilt with unsettled | ⟨outcome, _, done⟩
    · rw [LaunchBuilder.reconcileMount_eq, mount_of_derive derived, Option.filter_map,
        processGroup_of_derive (Config.processGroup_ne_empty m.config) derived] at unsettled
      rcases bind_eq_error_iff.mp unsettled with unbound | ⟨bound, _, done⟩
      · obtain ⟨n, needed, unmet, rfl⟩ := unmet_of_mapM
          (fun mount => { group := m.processGroup, machine := some m.id, name := mount.name })
          (fun _ => rfl) unbound
        refine ⟨n, needed, unmet, ?_⟩
        obtain ⟨mount, _, rfl⟩ := Option.map_eq_some_iff.mp needed
        rfl
      · cases done
    · cases done

theorem launchNeeds_met {groups : List String} {launches : List PlannedLaunch}
    (planned : groups.mapM (planLaunch d app.resolver) = .ok launches) :
    List.Forall₂ (VolumeNeed.MetBy d.volumes) (groups.filterMap app.launchNeed)
      (launches.filterMap PlannedLaunch.boundMount) :=
  forall₂_filterMap ((mapM_eq_ok_iff.mp planned).imp fun _ _ => launchNeed_met)

/-- A plan binds what is needed, in order. -/
theorem needs_met {plan : Plan} (planned : deploy d app.resolver = .ok plan) :
    List.Forall₂ (VolumeNeed.MetBy d.volumes) (needs d app) plan.boundMounts := by
  obtain ⟨launches, updates, launched, updated, rfl⟩ := deploy_eq_ok_iff.mp planned
  have met := forall₂_filterMap ((mapM_eq_ok_iff.mp updated).imp fun _ _ => updateNeed_met)
  exact List.rel_append (launchNeeds_met launched) met

/-- A plan that fails, fails for the first need that is not met. -/
theorem needs_unmet (named : app.Named) {e : DeployError}
    (failed : deploy d app.resolver = .error e) :
    ∃ n, (needs d app).find? (·.unmet d.volumes) = some n ∧ e = n.error := by
  rw [needs, List.find?_append]
  rcases deploy_eq_error_iff.mp failed with unlaunched | ⟨launches, launched, unplanned⟩
  · obtain ⟨n, found, rfl⟩ := find?_of_mapM_eq_error
      (fun group mem e => launchNeed_unmet named
        (GroupDiff.mem_groupsNeedingMachines.mp mem).1)
      (fun group _ launch planned => VolumeNeed.unmet_eq_false_of_rel (launchNeed_met planned))
      unlaunched
    have first : ((diffOf d app.resolver).groupsNeedingMachines.filterMap app.launchNeed).find?
        (·.unmet d.volumes) = some n := found
    rw [first, Option.some_or]
    exact ⟨n, rfl, rfl⟩
  · obtain ⟨n, found, rfl⟩ := find?_of_mapM_eq_error
      (fun m mem e => updateNeed_unmet named (GroupDiff.declared_of_mem_remaining mem))
      (fun m _ update planned => VolumeNeed.unmet_eq_false_of_rel (updateNeed_met planned))
      unplanned
    rw [VolumeNeed.find?_unmet_of_met (launchNeeds_met launched), Option.none_or]
    exact ⟨n, found, rfl⟩

structure BindsByName (listing : List Volume) (needs : List VolumeNeed) (plan : Plan) : Prop where
  /-- Every need is met, in order, by the first unattached volume of its name. -/
  met : List.Forall₂ (fun need mount => mount.name = need.name ∧
    ∃ v, listing.find? (·.serves need.name) = some v ∧ mount.volume = some v.id)
      needs plan.boundMounts
  /-- Two mounts share a volume exactly if they share its name. -/
  shared : ∀ a ∈ plan.boundMounts, ∀ b ∈ plan.boundMounts, a.volume = b.volume ↔ a.name = b.name
  /-- No volume is handed out twice exactly if no name is needed twice. -/
  nodup : plan.boundVolumes.Nodup ↔ (needs.map VolumeNeed.name).Nodup

variable {listing : List Volume} {plan : Plan}

theorem met_of_listed (listed : d.volumes = VolumePool.ofVolumes listing)
    (planned : deploy d app.resolver = .ok plan) :
    List.Forall₂ (fun need mount => mount.name = need.name ∧
      ∃ v, listing.find? (·.serves need.name) = some v ∧ mount.volume = some v.id)
        (needs d app) plan.boundMounts := by
  refine (needs_met planned).imp ?_
  rintro need mount ⟨name, v, found, bound⟩
  rw [listed, VolumePool.firstUnattached_ofVolumes] at found
  exact ⟨name, v, found, bound⟩

/-- Every bound mount has the first unattached volume of its own name. -/
theorem volume_of_boundMount (listed : d.volumes = VolumePool.ofVolumes listing)
    (planned : deploy d app.resolver = .ok plan) {mount : Mount}
    (bound : mount ∈ plan.boundMounts) : ∃ v ∈ listing, v.name = mount.name ∧
      listing.find? (·.serves mount.name) = some v ∧ mount.volume = some v.id := by
  obtain ⟨need, _, name, v, found, volume⟩ :=
    exists_of_mem_right (met_of_listed listed planned) bound
  rw [← name] at found
  have serves := List.find?_some found
  rw [Volume.serves, Bool.and_eq_true, beq_iff_eq] at serves
  exact ⟨v, List.mem_of_find?_eq_some found, serves.2, found, volume⟩

/-- With distinct volumes, a volume tells its name. -/
theorem volume_eq_iff (distinct : (listing.map Volume.id).Nodup)
    (listed : d.volumes = VolumePool.ofVolumes listing)
    (planned : deploy d app.resolver = .ok plan) {a b : Mount}
    (boundA : a ∈ plan.boundMounts) (boundB : b ∈ plan.boundMounts) :
    a.volume = b.volume ↔ a.name = b.name := by
  obtain ⟨v, listedV, nameV, foundV, volumeA⟩ := volume_of_boundMount listed planned boundA
  obtain ⟨w, listedW, nameW, foundW, volumeB⟩ := volume_of_boundMount listed planned boundB
  constructor
  · intro same
    rw [volumeA, volumeB] at same
    have eq : v = w :=
      List.inj_on_of_nodup_map distinct listedV listedW (Option.some.inj same)
    rw [← nameV, ← nameW, eq]
  · intro same
    rw [same, foundW] at foundV
    rw [volumeA, volumeB, Option.some.inj foundV]

/-- A plan for distinct volumes binds them by name. -/
theorem bindsByName_of_deploy (distinct : (listing.map Volume.id).Nodup)
    (listed : d.volumes = VolumePool.ofVolumes listing)
    (planned : deploy d app.resolver = .ok plan) :
    plan.BindsByName listing (needs d app) := by
  have met := met_of_listed listed planned
  have names : (needs d app).map VolumeNeed.name = plan.boundMounts.map Mount.name := by
    rw [← List.forall₂_eq_eq_eq, List.forall₂_map_left_iff, List.forall₂_map_right_iff]
    exact met.imp fun _ _ met => met.1.symm
  refine ⟨met, fun a boundA b boundB => volume_eq_iff distinct listed planned boundA boundB, ?_⟩
  rw [names, boundVolumes, List.Nodup, List.pairwise_filterMap, List.Nodup, List.pairwise_map]
  refine List.Pairwise.iff_of_mem ?_
  intro a b boundA boundB
  obtain ⟨v, _, _, _, volumeA⟩ := volume_of_boundMount listed planned boundA
  obtain ⟨w, _, _, _, volumeB⟩ := volume_of_boundMount listed planned boundB
  have same := volume_eq_iff distinct listed planned boundA boundB
  rw [volumeA, volumeB] at same ⊢
  constructor
  · intro differ sameName
    exact differ v.id rfl w.id rfl (Option.some.inj (same.mpr sameName))
  · intro differ id first id' second sameId
    obtain rfl := Option.some.inj first
    obtain rfl := Option.some.inj second
    exact differ (same.mp (congrArg some sameId))

/-- Volumes are bound by name, and a name that no unattached volume has stops the plan. -/
theorem deploy_bindsByName (app : AppConfig) (d : Deployment) (listing : List Volume)
    (distinct : (listing.map Volume.id).Nodup)
    (listed : d.volumes = VolumePool.ofVolumes listing) :
    (∀ plan, deploy d app.resolver = .ok plan → plan.BindsByName listing (needs d app)) ∧
    (app.Named →
      match (needs d app).find? fun need => !listing.any (·.serves need.name) with
      | none => ∃ plan, deploy d app.resolver = .ok plan
      | some need => deploy d app.resolver = .error need.error) := by
  refine ⟨fun plan planned => bindsByName_of_deploy distinct listed planned, fun named => ?_⟩
  have unmet : (fun need : VolumeNeed => !listing.any (·.serves need.name)) =
      VolumeNeed.unmet d.volumes := by
    funext need
    rw [VolumeNeed.unmet, listed, VolumePool.firstUnattached_ofVolumes, ← List.isSome_find?,
      Option.not_isSome]
  rw [unmet]
  cases planned : deploy d app.resolver with
  | ok plan =>
    rw [VolumeNeed.find?_unmet_of_met (needs_met planned)]
    exact ⟨plan, rfl⟩
  | error e =>
    obtain ⟨n, found, rfl⟩ := needs_unmet named planned
    rw [found]

end Plan

namespace Rehearsal

def twinApp : AppConfig where
  primaryRegion := "ord"
  processes := Dict.ofList
    [("api", { mount := some ⟨"data", "/data", none⟩ }),
      ("worker", { mount := some ⟨"data", "/data", none⟩ })]

def twinVolumes : List Volume := [loneVolume "data"]

def twinPlan : Plan :=
  (Plan.deploy (deployment [] twinVolumes) twinApp.resolver).toOption.getD {}

theorem twinApp_named : twinApp.Named := by
  constructor
  · decide
  · intro group mount asked
    obtain ⟨template, declared, wanted⟩ := Option.bind_eq_some_iff.mp asked
    have names : ∀ entry ∈ twinApp.processes.entries, ∀ m ∈ entry.2.mount, m.name ≠ "" := by
      decide
    exact names (group, template) (Dict.mem_entries_iff.mpr declared) mount wanted

/-- With the one volume the plan succeeds, without it the first group stops it. -/
theorem twinPlan_bindsByName :
    twinPlan.BindsByName twinVolumes (Plan.needs (deployment [] twinVolumes) twinApp) ∧
      Plan.deploy (deployment [] []) twinApp.resolver =
        .error (.buildLaunch "api" (.volumeUnavailable "api" "data")) := by
  constructor
  · exact (Plan.deploy_bindsByName twinApp (deployment [] twinVolumes) twinVolumes
      (by decide) rfl).1 twinPlan rfl
  · exact (Plan.deploy_bindsByName twinApp (deployment [] []) [] (by decide) rfl).2 twinApp_named

/-- An app whose first group does not name its volume. -/
def unnamedApp : AppConfig where
  primaryRegion := "ord"
  processes := Dict.ofList
    [("api", { mount := some ⟨"", "/data", none⟩ }),
      ("worker", { mount := some ⟨"data", "/data", none⟩ })]

/-- One volume is handed out twice, and a missing one is not what stops a plan first. -/
theorem twinPlan_sharesVolume :
    ((twinVolumes.map Volume.id).Nodup ∧
      Plan.deploy (deployment [] twinVolumes) twinApp.resolver = .ok twinPlan ∧
      ¬ twinPlan.boundVolumes.Nodup) ∧
    ({ group := "worker", name := "data" } ∈ Plan.needs (deployment [] []) unnamedApp ∧
      Plan.deploy (deployment [] []) unnamedApp.resolver =
        .error (.buildLaunch "api" (.resolve "api"
          (.invalid "api" "mount at '/data' has no volume name")))) := by
  refine ⟨⟨by decide, rfl, by decide⟩, by decide, rfl⟩

end Rehearsal

end Rollout
