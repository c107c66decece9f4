import Rollout.AppConfig
import Rollout.Release

/-!
# Launch inputs

The exact configuration that a machine should run, for the three kinds of work of a rollout. A
restart stamps the machine's own configuration and changes nothing else. A launch creates the
first machine of a group. An update brings an existing machine to its desired configuration.

A volume that is attached to a live machine cannot be exchanged, only its path can change in
place. Adding, removing or exchanging a volume therefore replaces the machine.
-/

namespace Rollout

/-- What all launch inputs of one rollout share. -/
structure LaunchContext where
  app : String
  orgSlug : String
  image : String
  release : Release
  deriving Repr

def LaunchContext.input (ctx : LaunchContext) (region : String) (config : Config) :
    LaunchInput :=
  ⟨ctx.app, ctx.orgSlug, region, config⟩

/-- Something to tell about a planned change. -/
inductive BuildWarning
  | mountRemoved (machine : MachineId) (volume : Option VolumeId)
  | volumeSwap (machine : MachineId) (attached desired : String)
  | mountPathChanged (machine : MachineId) (volume : Option VolumeId) (oldPath newPath : String)
  deriving DecidableEq, Repr

/-- A volume's name for a reader, who may not be told it. -/
def volumeText (volume : Option VolumeId) : String := (volume.map Id.text).getD "(unknown)"

def BuildWarning.message : BuildWarning → String
  | .mountRemoved machine volume =>
    "machine " ++ machine.text ++ " has volume " ++ volumeText volume ++
      " attached but the app config has no mount; it will be replaced"
  | .volumeSwap machine attached desired =>
    "machine " ++ machine.text ++ " has volume '" ++ attached ++
      "' attached but the app config names '" ++ desired ++ "'; it will be replaced"
  | .mountPathChanged machine volume oldPath newPath =>
    "updating the mount path for volume " ++ volumeText volume ++ " on machine " ++
      machine.text ++ " from " ++ oldPath ++ " to " ++ newPath

inductive BuildError
  | volumeUnavailable (group volumeName : String)
  | emptyProcessGroup
  | resolve (group : String) (cause : ResolveError)
  deriving DecidableEq, Repr

namespace BuildError

def message : BuildError → String
  | .volumeUnavailable group volumeName =>
    "machine in group '" ++ group ++ "' needs an unattached volume named '" ++ volumeName ++ "'"
  | .emptyProcessGroup => "cannot launch a machine for an empty process group name"
  | .resolve group _ => "failed to derive machine config for group '" ++ group ++ "'"

def causes : BuildError → List String
  | .resolve _ cause => [cause.message]
  | _ => []

def isVolumeUnavailable : BuildError → Bool
  | .volumeUnavailable .. => true
  | _ => false

end BuildError

/-- What becomes of a machine's mount. -/
structure MountOutcome where
  mount : Option Mount
  replace : Bool := false
  warning : Option BuildWarning := none
  deriving Repr

structure BuiltPlan where
  plan : MachinePlan
  warnings : List BuildWarning
  deriving Repr

/-- What launch inputs are built from: one snapshot of the fleet. -/
structure LaunchBuilder where
  ctx : LaunchContext
  volumes : VolumePool
  resolver : Resolver

namespace LaunchBuilder

/-- A mount bound to the first unattached volume of its name. -/
def bindVolume (b : LaunchBuilder) (group : String) (mount : Mount) : Except BuildError Mount :=
  match b.volumes.firstUnattached mount.name with
  | some volume => .ok { mount with volume := some volume.id }
  | none => .error (.volumeUnavailable group mount.name)

/-- The configuration derived for a group, with the image and the release of the rollout. -/
def derive (b : LaunchBuilder) (group : String) (base : Option Config) :
    Except BuildError Config :=
  match b.resolver.resolve group base with
  | .ok config => .ok (b.ctx.release.stamp { config with image := b.ctx.image })
  | .error cause => .error (.resolve group cause)

def forRestart (b : LaunchBuilder) (m : Machine) : MachinePlan :=
  .update m.id (b.ctx.input m.region (b.ctx.release.stamp m.config))

def forLaunch (b : LaunchBuilder) (group : String) (guest : Option Guest) :
    Except BuildError LaunchInput := do
  if group = "" then .error .emptyProcessGroup
  else
    let config ← b.derive group none
    let mount ← config.mount.mapM (b.bindVolume config.processGroup)
    .ok (b.ctx.input b.resolver.primaryRegion
      { config with guest := if guest.isSome then guest else config.guest, mount })

/-- What becomes of the mount of an existing machine, given the desired one. A mount whose
volume's name is not known is kept, since it cannot be told whether it is the desired one. -/
def reconcileMount (b : LaunchBuilder) (machine : MachineId) (group : String) :
    Option Mount → Option Mount → Except BuildError MountOutcome
  | none, none => .ok { mount := none }
  | some existing, none =>
    .ok
      { mount := none
        replace := true
        warning := some (.mountRemoved machine existing.volume) }
  | some existing, some desired =>
    if existing.name = "" then .ok { mount := some existing }
    else if desired.name ≠ existing.name then do
      .ok
        { mount := some (← b.bindVolume group desired)
          replace := true
          warning := some (.volumeSwap machine existing.name desired.name) }
    else if desired.path ≠ existing.path then
      .ok
        { mount := some { desired with volume := existing.volume }
          warning := some
            (.mountPathChanged machine existing.volume existing.path desired.path) }
    else .ok { mount := some existing }
  | none, some desired => do
    .ok { mount := some (← b.bindVolume group desired), replace := true }

def forUpdate (b : LaunchBuilder) (m : Machine) : Except BuildError BuiltPlan := do
  let config ← b.derive m.processGroup (some m.config)
  let outcome ← b.reconcileMount m.id config.processGroup m.config.mount config.mount
  let input := b.ctx.input m.region { config with mount := outcome.mount }
  .ok
    { plan := if outcome.replace then .replace m.id input else .update m.id input
      warnings := outcome.warning.toList }

end LaunchBuilder

end Rollout
