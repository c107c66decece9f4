import Rollout.Proofs.Desired
import Rollout.Rehearsal.Fixtures

/-!
# What an update does to a mount

A volume that is attached to a machine cannot be exchanged in place. So a machine is replaced exactly
when it must get, lose or exchange a volume, and only a replacement looks for one. The main statement
says this for every machine and every resolver, also for one that answers with a mount that has a
volume already: that volume is not looked at.
-/

namespace Rollout

/-- Whether a machine with one mount must be replaced to have another one. A mount without a name
may be the desired one, and is kept. -/
inductive MustReplace : Option Mount → Option Mount → Prop
  | added {desired} : MustReplace none (some desired)
  | removed {existing} : MustReplace (some existing) none
  | exchanged {existing desired} : existing.name ≠ "" → desired.name ≠ existing.name →
    MustReplace (some existing) (some desired)

/-- What there is to tell about a machine with one mount that should have another one. -/
inductive Warns (machine : MachineId) : Option Mount → Option Mount → BuildWarning → Prop
  | removed {existing} :
    Warns machine (some existing) none (.mountRemoved machine existing.volume)
  | exchanged {existing desired} : existing.name ≠ "" → desired.name ≠ existing.name →
    Warns machine (some existing) (some desired)
      (.volumeSwap machine existing.name desired.name)
  | moved {existing desired} : existing.name ≠ "" → desired.name = existing.name →
    desired.path ≠ existing.path →
    Warns machine (some existing) (some desired)
      (.mountPathChanged machine existing.volume existing.path desired.path)

section Tables

variable {machine : MachineId} {existing desired : Mount} {warning : BuildWarning}

theorem mustReplace_some_iff : MustReplace (some existing) (some desired) ↔
    existing.name ≠ "" ∧ desired.name ≠ existing.name := by
  constructor
  · rintro (_ | _ | ⟨named, other⟩)
    exact ⟨named, other⟩
  · rintro ⟨named, other⟩
    exact .exchanged named other

theorem not_warns_none {wanted : Option Mount} : ¬ Warns machine none wanted warning := by
  rintro ⟨⟩

theorem warns_removed_iff : Warns machine (some existing) none warning ↔
    warning = .mountRemoved machine existing.volume := by
  constructor
  · rintro ⟨⟩
    rfl
  · rintro rfl
    exact .removed

theorem not_warns_of_unnamed (unnamed : existing.name = "") :
    ¬ Warns machine (some existing) (some desired) warning := by
  rintro (_ | ⟨named, _⟩ | ⟨named, _, _⟩)
  · exact named unnamed
  · exact named unnamed

theorem warns_exchanged_iff (named : existing.name ≠ "") (other : desired.name ≠ existing.name) :
    Warns machine (some existing) (some desired) warning ↔
      warning = .volumeSwap machine existing.name desired.name := by
  constructor
  · rintro (_ | _ | ⟨_, same, _⟩)
    · rfl
    · exact absurd same other
  · rintro rfl
    exact .exchanged named other

theorem warns_same_iff (named : existing.name ≠ "") (same : desired.name = existing.name) :
    Warns machine (some existing) (some desired) warning ↔ desired.path ≠ existing.path ∧
      warning = .mountPathChanged machine existing.volume existing.path desired.path := by
  constructor
  · rintro (_ | ⟨_, other⟩ | ⟨_, _, moved⟩)
    · exact absurd same other
    · exact ⟨moved, rfl⟩
  · rintro ⟨moved, rfl⟩
    exact .moved named same moved

end Tables

/-- A desired mount with the first volume that its name finds. -/
def BoundFrom (pool : VolumePool) (desired mount : Mount) : Prop :=
  ∃ volume, pool.firstUnattached desired.name = some volume ∧
    mount = ⟨desired.name, desired.path, some volume.id⟩

inductive MountRuling (pool : VolumePool) (machine : MachineId) (group : String)
    (existing : Option Mount) : Option Mount → Except BuildError MountOutcome → Prop
  | unavailable {desired} : MustReplace existing (some desired) →
    pool.firstUnattached desired.name = none →
    MountRuling pool machine group existing (some desired)
      (.error (.volumeUnavailable group desired.name))
  | replaced {desired mount warning} : MustReplace existing desired →
    Option.Rel (BoundFrom pool) desired mount →
    (∀ w, w ∈ warning ↔ Warns machine existing desired w) →
    MountRuling pool machine group existing desired (.ok ⟨mount, true, warning⟩)
  | kept {desired mount warning} : ¬ MustReplace existing desired →
    mount.map Mount.volume = existing.map Mount.volume →
    (∀ w, w ∈ warning ↔ Warns machine existing desired w) →
    MountRuling pool machine group existing desired (.ok ⟨mount, false, warning⟩)

/-- A configuration whose mount has another volume, or none. -/
def Config.remount (config : Config) (volume : Mount → Option VolumeId) : Config :=
  { config with mount := config.mount.map fun mount => { mount with volume := volume mount } }

namespace LaunchBuilder

variable {b : LaunchBuilder} {m : Machine} {machine : MachineId} {group : String}

/-- A mount that needs a volume is bound to one, unless there is none. -/
theorem ruling_of_binds {existing : Option Mount} {desired : Mount} {warning : Option BuildWarning}
    {result : Except BuildError MountOutcome}
    (binds : result = (b.bindVolume group desired >>= fun mount => .ok ⟨some mount, true, warning⟩))
    (must : MustReplace existing (some desired))
    (tells : ∀ w, w ∈ warning ↔ Warns machine existing (some desired) w) :
    MountRuling b.volumes machine group existing (some desired) result := by
  rw [binds, bindVolume]
  cases found : b.volumes.firstUnattached desired.name with
  | none => exact .unavailable must found
  | some volume => exact .replaced must (.some ⟨volume, found, rfl⟩) tells

/-- Every way in which a mount is settled. -/
theorem reconcileMount_ruling (b : LaunchBuilder) (machine : MachineId) (group : String)
    (existing desired : Option Mount) :
    MountRuling b.volumes machine group existing desired
      (b.reconcileMount machine group existing desired) := by
  cases existing with
  | none =>
    cases desired with
    | none => exact .kept (by rintro ⟨⟩) rfl (by simp [not_warns_none])
    | some desired => exact ruling_of_binds rfl .added (by simp [not_warns_none])
  | some existing =>
    cases desired with
    | none => exact .replaced .removed .none (by simp [warns_removed_iff, eq_comm])
    | some desired =>
      rw [reconcileMount]
      by_cases unnamed : existing.name = ""
      · rw [if_pos unnamed]
        exact .kept (by simp [mustReplace_some_iff, unnamed]) rfl
          (by simp [not_warns_of_unnamed unnamed])
      · rw [if_neg unnamed]
        by_cases same : desired.name = existing.name
        · have stays : ¬ MustReplace (some existing) (some desired) := by
            simp [mustReplace_some_iff, same]
          rw [if_neg (not_not.mpr same)]
          by_cases moved : desired.path ≠ existing.path
          · rw [if_pos moved]
            exact .kept stays rfl (by simp [warns_same_iff unnamed same, moved, eq_comm])
          · rw [if_neg moved]
            exact .kept stays rfl (by simp [warns_same_iff unnamed same, moved])
        · rw [if_pos same]
          exact ruling_of_binds rfl (.exchanged unnamed same)
            (by simp [warns_exchanged_iff unnamed same, eq_comm])

/-- The volume of a desired mount is not looked at. -/
theorem reconcileMount_remount (b : LaunchBuilder) (machine : MachineId) (group : String)
    (existing desired : Option Mount) (volume : Mount → Option VolumeId) :
    b.reconcileMount machine group existing
        (desired.map fun mount => { mount with volume := volume mount }) =
      b.reconcileMount machine group existing desired := by
  cases desired with
  | none => rfl
  | some desired => cases existing <;> rfl

/-- What is planned for the mount of a machine whose group asks for another one. -/
structure SettlesMount (b : LaunchBuilder) (m : Machine) (desired : Option Mount)
    (group : String) : Prop where
  /-- A machine is replaced exactly when it must be and the volume that it needs is there. -/
  replaces : (∃ built, b.forUpdate m = .ok built ∧ built.plan.isReplace = true) ↔
    MustReplace m.config.mount desired ∧
      ∀ mount ∈ desired, (b.volumes.firstUnattached mount.name).isSome
  /-- Every other machine is updated in place, and needs no volume. -/
  updates : (∃ built, b.forUpdate m = .ok built ∧ built.plan.isReplace = false) ↔
    ¬ MustReplace m.config.mount desired
  /-- The only error is that a volume is needed and none is there. -/
  fails : ∀ e, b.forUpdate m = .error e ↔
    MustReplace m.config.mount desired ∧ ∃ mount ∈ desired,
      b.volumes.firstUnattached mount.name = none ∧ e = .volumeUnavailable group mount.name
  /-- In place the volume is never touched. -/
  keeps : ∀ built, b.forUpdate m = .ok built → built.plan.isReplace = false →
    built.plan.input.config.mount.map Mount.volume = m.config.mount.map Mount.volume
  /-- A replacement gets the desired mount, with the first volume that its name finds. -/
  binds : ∀ built, b.forUpdate m = .ok built → built.plan.isReplace = true →
    Option.Rel (BoundFrom b.volumes) desired built.plan.input.config.mount
  /-- There is one thing to tell at most, -/
  tells_once : ∀ built, b.forUpdate m = .ok built → built.warnings.length ≤ 1
  /-- and it is told. -/
  tells : ∀ built, b.forUpdate m = .ok built →
    ∀ w, w ∈ built.warnings ↔ Warns m.id m.config.mount desired w

theorem derive_of_resolve {config : Config} {base : Option Config}
    (resolved : b.resolver.resolve group base = .ok config) :
    b.derive group base = .ok (b.ctx.release.stamp { config with image := b.ctx.image }) := by
  rw [derive, resolved]

/-- The plan for a machine whose configuration can be derived is what is planned for its mount. -/
theorem forUpdate_of_resolve {config : Config}
    (resolved : b.resolver.resolve m.processGroup (some m.config) = .ok config) :
    b.forUpdate m =
      (b.reconcileMount m.id config.processGroup m.config.mount config.mount >>= fun outcome =>
        .ok (b.planned m (b.ctx.release.stamp { config with image := b.ctx.image }) outcome)) := by
  rw [forUpdate_eq, derive_of_resolve resolved]
  change (b.reconcileMount m.id (b.ctx.release.stamp _).processGroup _ _ >>= _) = _
  rw [Release.processGroup_stamp]
  rfl

section Planned

variable (b : LaunchBuilder) (m : Machine) (config : Config) (outcome : MountOutcome)

@[simp] theorem isReplace_planned : (b.planned m config outcome).plan.isReplace = outcome.replace := by
  rw [planned]
  cases outcome.replace <;> rfl

@[simp] theorem mount_planned :
    (b.planned m config outcome).plan.input.config.mount = outcome.mount := by
  rw [planned]
  cases outcome.replace <;> rfl

@[simp] theorem warnings_planned :
    (b.planned m config outcome).warnings = outcome.warning.toList := rfl

end Planned

theorem settlesMount_of_ruling {config : Config} {desired : Option Mount}
    {result : Except BuildError MountOutcome}
    (ruling : MountRuling b.volumes m.id group m.config.mount desired result)
    (eq : b.forUpdate m = result >>= fun outcome => .ok (b.planned m config outcome)) :
    b.SettlesMount m desired group := by
  cases ruling with
  | @unavailable desired must missing =>
    have failed : b.forUpdate m = .error (.volumeUnavailable group desired.name) := eq
    constructor
    · simp [failed, missing]
    · simp [failed, must]
    · simp [failed, must, missing, eq_comm (b := BuildError.volumeUnavailable group desired.name)]
    all_goals simp [failed]
  | @replaced _ mount warning must bound tells =>
    have planned : b.forUpdate m = .ok (b.planned m config ⟨mount, true, warning⟩) := eq
    have found : ∀ wanted ∈ desired, b.volumes.firstUnattached wanted.name ≠ none := by
      rintro wanted ⟨⟩
      cases bound with
      | some binds =>
        obtain ⟨volume, found, _⟩ := binds
        simp [found]
    constructor
    · simpa [planned, must, Option.isSome_iff_ne_none] using found
    · simp [planned, must]
    · intro e
      constructor
      · simp [planned]
      · rintro ⟨_, wanted, mem, missing, _⟩
        exact absurd missing (found wanted mem)
    · simp [planned]
    · simpa [planned] using bound
    · simp [planned]
    · simpa [planned] using tells
  | @kept _ mount warning stays same tells =>
    have planned : b.forUpdate m = .ok (b.planned m config ⟨mount, false, warning⟩) := eq
    constructor
    · simp [planned, stays]
    · simp [planned, stays]
    · simp [planned, stays]
    · simpa [planned] using same
    · simp [planned]
    · simp [planned]
    · simpa [planned] using tells

theorem settlesMount_of_resolve {config : Config}
    (resolved : b.resolver.resolve m.processGroup (some m.config) = .ok config) :
    b.SettlesMount m config.mount config.processGroup :=
  settlesMount_of_ruling (b.reconcileMount_ruling m.id config.processGroup _ _)
    (forUpdate_of_resolve resolved)

/-- The plan for a machine settles its mount as its group asks for it, whatever volume the resolver
answers with. -/
theorem forUpdate_settlesMount (b : LaunchBuilder) (m : Machine) (config : Config)
    (resolved : b.resolver.resolve m.processGroup (some m.config) = .ok config) :
    b.SettlesMount m config.mount config.processGroup ∧
    ∀ (resolver : Resolver) (volume : Mount → Option VolumeId),
      resolver.resolve m.processGroup (some m.config) = .ok (config.remount volume) →
        LaunchBuilder.forUpdate { b with resolver } m = b.forUpdate m := by
  refine ⟨settlesMount_of_resolve resolved, fun resolver volume resolved' => ?_⟩
  have same := b.reconcileMount_remount m.id config.processGroup m.config.mount config.mount volume
  rw [forUpdate_of_resolve resolved, forUpdate_of_resolve (b := { b with resolver }) resolved',
    ← same]
  rfl

end LaunchBuilder

namespace Rehearsal

def diskMachine : Machine :=
  { loneMachine with
    config := { loneMachine.config with
      mount := some ⟨"data", "/data", some (loneVolume "data").id⟩ } }

def spareVolume : Volume where
  id := ⟨"vol_2", idGrammar_of_all (by decide) (by decide)⟩
  name := "logs"

/-- What a group asks for that wants a mount of a name. A volume comes with it that nobody knows. -/
def wanting (name : String) : Config :=
  { fixtureConfig "app" with
    mount := some ⟨name, "/var", some ⟨"vol_9", idGrammar_of_all (by decide) (by decide)⟩⟩ }

def mountBuilder (name : String) : LaunchBuilder :=
  (deployment [diskMachine] [spareVolume]).builder ⟨fun _ _ => .ok (wanting name), ["app"], "ord"⟩

/-- A volume of another name takes the place of the machine, one that nobody has stops the plan, and
the one that the machine has is kept where it is. The volume that comes with the answer is never
planned. -/
theorem mountBuilder_settlesMount :
    (∃ built, (mountBuilder "logs").forUpdate diskMachine = .ok built ∧
      built.plan.isReplace = true ∧
      Option.Rel (BoundFrom (VolumePool.ofVolumes [spareVolume])) (wanting "logs").mount
        built.plan.input.config.mount) ∧
    (mountBuilder "cache").forUpdate diskMachine =
      .error (.volumeUnavailable "app" "cache") ∧
    (∃ built, (mountBuilder "data").forUpdate diskMachine = .ok built ∧
      built.plan.isReplace = false ∧
      built.plan.input.config.mount.map Mount.volume = some (some (loneVolume "data").id)) := by
  obtain ⟨swapped, _⟩ := LaunchBuilder.forUpdate_settlesMount (mountBuilder "logs") diskMachine
    (wanting "logs") rfl
  obtain ⟨missing, _⟩ := LaunchBuilder.forUpdate_settlesMount (mountBuilder "cache") diskMachine
    (wanting "cache") rfl
  obtain ⟨kept, _⟩ := LaunchBuilder.forUpdate_settlesMount (mountBuilder "data") diskMachine
    (wanting "data") rfl
  refine ⟨?_, ?_, ?_⟩
  · obtain ⟨built, ok, replaces⟩ := swapped.replaces.mpr
      ⟨.exchanged (by decide) (by decide), by rintro mount ⟨⟩; rfl⟩
    exact ⟨built, ok, replaces, swapped.binds built ok replaces⟩
  · exact (missing.fails _).mpr ⟨.exchanged (by decide) (by decide), _, rfl, rfl, rfl⟩
  · have stays : ¬ MustReplace diskMachine.config.mount (wanting "data").mount := by
      rintro (_ | _ | ⟨_, other⟩)
      exact other rfl
    obtain ⟨built, ok, updates⟩ := kept.updates.mpr stays
    exact ⟨built, ok, updates, kept.keeps built ok updates⟩

end Rehearsal

end Rollout
