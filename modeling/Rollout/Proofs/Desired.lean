import Rollout.Proofs.Planning
import Rollout.Proofs.Stamping

/-!
# Desired configurations

What a template makes of a configuration, made once more, is the same. The stamp hides what a
template says about the stamped keys, the template hides what was there, and a mount that fits
the template is kept.
-/

namespace Rollout

theorem Config.processGroup_ne_empty (config : Config) : config.processGroup ≠ "" := by
  rw [Config.processGroup]
  split
  · decide
  · decide
  · rename_i named _
    exact fun empty => named (by rw [empty])

namespace LaunchContext

def desiredMetadata (ctx : LaunchContext) (group : String) (template base : Config) :
    Dict String :=
  ctx.release.stampMetadata
    ((base.metadata.insertMany template.metadata.entries).insert processGroupKey group)

/-- The configuration that a group's template and the release make of an older one. -/
def desired (ctx : LaunchContext) (group : String) (template base : Config)
    (mount : Option Mount) : Config where
  image := ctx.image
  guest := if template.guest.isSome then template.guest else base.guest
  mount
  metadata := ctx.desiredMetadata group template base
  extra := base.extra.insertMany template.extra.entries

variable {ctx : LaunchContext} {group : String} {template base : Config}
  {mount mount' : Option Mount}

theorem find?_desiredMetadata (ctx : LaunchContext) (group : String) (template base : Config)
    (key : String) : (ctx.desiredMetadata group template base).find? key =
      if key = managedPostgresKey then
        if ctx.release.managedPostgres then some "true" else none
      else if key = processGroupKey then some group
      else if key = platformVersionKey then
        some (((findEntry key template.metadata.entries.reverse).or
          (base.metadata.find? key)).getD defaultPlatformVersion)
      else if key = releaseVersionKey then some ctx.release.version.toText
      else if key = releaseIdKey then some ctx.release.id.text
      else (findEntry key template.metadata.entries.reverse).or (base.metadata.find? key) := by
  have other : platformVersionKey ≠ processGroupKey := by decide
  rw [desiredMetadata]
  rw [Release.find?_stampMetadata]
  by_cases grouped : key = processGroupKey
  · simp [Dict.find?_insert, grouped]
  · by_cases platform : key = platformVersionKey
    · simp [Dict.find?_insert, Dict.find?_insertMany, platform, other]
    · simp [Dict.find?_insert, Dict.find?_insertMany, grouped, platform]

/-- Metadata made once more are the same. -/
theorem desiredMetadata_desired : ctx.desiredMetadata group template
    (ctx.desired group template base mount) = ctx.desiredMetadata group template base := by
  refine Dict.ext_find? fun key => ?_
  have kept : (ctx.desired group template base mount).metadata.find? key =
      (ctx.desiredMetadata group template base).find? key := rfl
  simp only [find?_desiredMetadata] at kept ⊢
  rw [kept]
  cases findEntry key template.metadata.entries.reverse with
  | some v => simp
  | none =>
    simp only [Option.none_or]
    split_ifs <;> simp

/-- A configuration made once more is the same, whatever became of its mount meanwhile. -/
theorem desired_desired : ctx.desired group template
    { ctx.desired group template base mount with mount := mount' } mount =
      ctx.desired group template base mount := by
  have metadata : ctx.desiredMetadata group template
      { ctx.desired group template base mount with mount := mount' } =
        ctx.desiredMetadata group template base := desiredMetadata_desired
  have guest : (if template.guest.isSome then template.guest
      else if template.guest.isSome then template.guest else base.guest) =
        if template.guest.isSome then template.guest else base.guest := by
    split <;> rfl
  change Config.mk ctx.image _ mount
    (ctx.desiredMetadata group template { ctx.desired group template base mount with
      mount := mount' })
    ((base.extra.insertMany template.extra.entries).insertMany template.extra.entries) = _
  rw [metadata, Dict.insertMany_insertMany]
  exact congrArg (fun guest => Config.mk ctx.image guest mount _ _) guest

/-- The configuration belongs to the group that it was made for. -/
theorem processGroup_desired (named : group ≠ "") :
    (ctx.desired group template base mount).processGroup = group := by
  have found : (ctx.desired group template base mount).metadata.find? processGroupKey =
      some group := by
    have other : processGroupKey ≠ managedPostgresKey := by decide
    change (ctx.desiredMetadata group template base).find? processGroupKey = some group
    simp [find?_desiredMetadata, other]
  rw [Config.processGroup]
  rw [found]
  split
  · rename_i none
    cases none
  · rename_i empty
    exact absurd (Option.some.inj empty) named
  · rename_i same
    exact (Option.some.inj same).symm

end LaunchContext

def AppConfig.merged (group : String) (template base : Config) (mount : Option Mount) :
    Config where
  image := if template.image = "" then base.image else template.image
  guest := if template.guest.isSome then template.guest else base.guest
  mount
  metadata := (base.metadata.insertMany template.metadata.entries).insert processGroupKey group
  extra := base.extra.insertMany template.extra.entries

theorem AppConfig.merge_eq (group : String) (template base : Config) :
    AppConfig.merge group template base = (AppConfig.desiredMount group template.mount >>=
      fun mount => .ok (AppConfig.merged group template base mount)) := rfl

section

variable {app : AppConfig} {ctx : LaunchContext} {volumes : VolumePool} {group : String}

theorem resolve_eq_ok_iff {base : Option Config} {config : Config} :
    app.resolve group base = .ok config ↔ ∃ template mount,
      app.processes.find? group = some template ∧
      AppConfig.desiredMount group template.mount = .ok mount ∧
      config = AppConfig.merged group template (base.getD {}) mount := by
  rw [AppConfig.resolve]
  cases app.processes.find? group with
  | none => simp
  | some template => simp [AppConfig.merge_eq, bind_eq_ok_iff, eq_comm (a := config)]

theorem derive_eq_ok_iff {base : Option Config} {config : Config} :
    LaunchBuilder.derive ⟨ctx, volumes, app.resolver⟩ group base = .ok config ↔
      ∃ template mount, app.processes.find? group = some template ∧
        AppConfig.desiredMount group template.mount = .ok mount ∧
        config = ctx.desired group template (base.getD {}) mount := by
  rw [LaunchBuilder.derive]
  constructor
  · intro derived
    split at derived
    · rename_i merged resolved
      obtain ⟨template, mount, declared, wanted, rfl⟩ := resolve_eq_ok_iff.mp resolved
      cases derived
      exact ⟨template, mount, declared, wanted, rfl⟩
    · cases derived
  · rintro ⟨template, mount, declared, wanted, rfl⟩
    have resolved : app.resolver.resolve group base = .ok _ :=
      resolve_eq_ok_iff.mpr ⟨template, mount, declared, wanted, rfl⟩
    rw [resolved]
    rfl

end

/-- A mount as a template asks for it, before a volume is found. -/
def Mount.unbound (mount : Mount) : Mount := ⟨mount.name, mount.path, none⟩

theorem desiredMount_eq_ok_iff {group : String} {mount desired : Option Mount} :
    AppConfig.desiredMount group mount = .ok desired ↔
      (∀ m ∈ mount, m.name ≠ "") ∧ desired = mount.map Mount.unbound := by
  cases mount with
  | none => simp [AppConfig.desiredMount, eq_comm (a := desired)]
  | some mount =>
    by_cases unnamed : mount.name = ""
    · simp [AppConfig.desiredMount, unnamed]
    · simp [AppConfig.desiredMount, Mount.unbound, unnamed, eq_comm (a := desired)]

/-- Whether an existing mount gives way to the volume of a desired one. -/
def Mount.displaces (desired : Mount) : Option Mount → Bool
  | none => true
  | some existing => existing.name ≠ "" ∧ desired.name ≠ existing.name

theorem Mount.name_cases_of_stays {desired existing : Mount}
    (stays : ¬ desired.displaces (some existing) = true) :
    existing.name = "" ∨ existing.name ≠ "" ∧ desired.name = existing.name := by
  by_cases unnamed : existing.name = ""
  · exact .inl unnamed
  · refine .inr ⟨unnamed, ?_⟩
    by_contra other
    exact stays (decide_eq_true ⟨unnamed, other⟩)

/-- What becomes of a mount, given the one that was bound to a volume, if any had to be. -/
def MountOutcome.settle (machine : MachineId) :
    Option Mount → Option Mount → Option Mount → MountOutcome
  | none, _, none => { mount := none }
  | none, _, some bound => { mount := some bound, replace := true }
  | some existing, none, _ =>
    { mount := none
      replace := true
      warning := some (.mountRemoved machine existing.volume) }
  | some existing, some desired, some bound =>
    { mount := some bound
      replace := true
      warning := some (.volumeSwap machine existing.name desired.name) }
  | some existing, some desired, none =>
    if existing.name ≠ "" ∧ desired.path ≠ existing.path then
      { mount := some { desired with volume := existing.volume }
        warning := some
          (.mountPathChanged machine existing.volume existing.path desired.path) }
    else { mount := some existing }

/-- An existing mount that is kept under a desired one. -/
inductive MountFits : Option Mount → Option Mount → Prop
  | none : MountFits none none
  | unnamed {desired existing : Mount} : existing.name = "" →
    MountFits (some desired) (some existing)
  | same {desired existing : Mount} : existing.name = desired.name →
    existing.path = desired.path → MountFits (some desired) (some existing)

namespace LaunchBuilder

variable {b : LaunchBuilder} {machine : MachineId} {group : String}
  {existing desired : Option Mount}

theorem bindVolume_eq_ok {mount bound : Mount} (ok : b.bindVolume group mount = .ok bound) :
    ∃ volume, b.volumes.firstUnattached mount.name = some volume ∧
      bound = { mount with volume := some volume.id } := by
  rw [bindVolume] at ok
  split at ok
  · rename_i volume found
    cases ok
    exact ⟨volume, found, rfl⟩
  · cases ok

theorem bindVolume_eq_error {mount : Mount} {e : BuildError}
    (failed : b.bindVolume group mount = .error e) :
    b.volumes.firstUnattached mount.name = none ∧ e = .volumeUnavailable group mount.name := by
  rw [bindVolume] at failed
  split at failed
  · cases failed
  · rename_i missing
    cases failed
    exact ⟨missing, rfl⟩

theorem bindVolume_fits {mount bound : Mount} (ok : b.bindVolume group mount = .ok bound) :
    MountFits (some mount) (some bound) := by
  obtain ⟨volume, _, rfl⟩ := bindVolume_eq_ok ok
  exact .same rfl rfl

theorem mapM_some_eq_ok {mount : Mount} {bound : Option Mount}
    (ok : (some mount).mapM (b.bindVolume group) = .ok bound) :
    ∃ mount', b.bindVolume group mount = .ok mount' ∧ bound = some mount' := by
  obtain ⟨mount', binds, eq⟩ := bind_eq_ok_iff.mp ok
  cases eq
  exact ⟨mount', binds, rfl⟩

/-- A mount is settled after a volume was bound to it, where it needs another one. -/
theorem reconcileMount_eq : b.reconcileMount machine group existing desired =
    ((desired.filter (·.displaces existing)).mapM (b.bindVolume group) >>= fun bound =>
      .ok (MountOutcome.settle machine existing desired bound)) := by
  cases existing with
  | none =>
    cases desired with
    | none => rfl
    | some desired =>
      change (b.bindVolume group desired >>= _) = ((b.bindVolume group desired >>= _) >>= _)
      cases b.bindVolume group desired with
      | error e => rfl
      | ok bound => rfl
  | some existing =>
    cases desired with
    | none => rfl
    | some desired =>
      by_cases displaces : desired.displaces (some existing) = true
      · obtain ⟨named, other⟩ := of_decide_eq_true displaces
        rw [reconcileMount, if_neg named, if_pos other, Option.filter_some, if_pos displaces]
        change (b.bindVolume group desired >>= _) = ((b.bindVolume group desired >>= _) >>= _)
        cases b.bindVolume group desired with
        | error e => rfl
        | ok bound => rfl
      · rw [Option.filter_some, if_neg displaces]
        rcases Mount.name_cases_of_stays displaces with unnamed | ⟨named, same⟩
        · simp [reconcileMount, MountOutcome.settle, unnamed]
        · rw [reconcileMount, if_neg named, if_neg (not_not.mpr same)]
          change _ = Except.ok (MountOutcome.settle machine (some existing) (some desired) none)
          by_cases moved : desired.path ≠ existing.path
          · rw [if_pos moved, MountOutcome.settle, if_pos ⟨named, moved⟩]
          · rw [if_neg moved, MountOutcome.settle, if_neg fun both => moved both.2]

/-- Whatever becomes of a mount fits. -/
theorem reconcileMount_fits {outcome : MountOutcome}
    (ok : b.reconcileMount machine group existing desired = .ok outcome) :
    MountFits desired outcome.mount := by
  rw [reconcileMount_eq] at ok
  obtain ⟨bound, binds, eq⟩ := bind_eq_ok_iff.mp ok
  cases eq
  cases desired with
  | none =>
    cases binds
    cases existing with
    | none => exact .none
    | some existing => exact .none
  | some desired =>
    by_cases displaces : desired.displaces existing = true
    · rw [Option.filter_some, if_pos displaces] at binds
      obtain ⟨mount, taken, rfl⟩ := mapM_some_eq_ok binds
      cases existing with
      | none => exact bindVolume_fits taken
      | some existing => exact bindVolume_fits taken
    · rw [Option.filter_some, if_neg displaces] at binds
      cases binds
      cases existing with
      | none => exact absurd rfl displaces
      | some existing =>
        rcases Mount.name_cases_of_stays displaces with unnamed | ⟨named, same⟩
        · rw [MountOutcome.settle, if_neg fun both => both.1 unnamed]
          exact .unnamed unnamed
        · by_cases moved : desired.path ≠ existing.path
          · rw [MountOutcome.settle, if_pos ⟨named, moved⟩]
            exact .same rfl rfl
          · rw [MountOutcome.settle, if_neg fun both => moved both.2]
            exact .same same.symm (not_not.mp moved).symm

/-- A mount that fits is kept, in place and without a word, and without a look at the volumes. -/
theorem reconcileMount_of_fits (fits : MountFits desired existing) :
    b.reconcileMount machine group existing desired = .ok { mount := existing } := by
  cases fits with
  | none => rfl
  | unnamed empty => simp [reconcileMount, empty]
  | same name path => simp [reconcileMount, name, path]

end LaunchBuilder

end Rollout
