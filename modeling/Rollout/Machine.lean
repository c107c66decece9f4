import Rollout.Id
import Rollout.Json.Value

/-!
# Machines and volumes

A machine is known by its last reported state. The rollout understands four parts of its
configuration, the image, the guest, the mount and the metadata, and carries every other part
along unread. A machine belongs to the process group that its metadata names.
-/

namespace Rollout

/-- The keys of the metadata that the rollout reads or writes. -/
def releaseIdKey : String := "fly_release_id"
def releaseVersionKey : String := "fly_release_version"
def platformVersionKey : String := "fly_platform_version"
def processGroupKey : String := "fly_process_group"
def managedPostgresKey : String := "fly-managed-postgres"

/-- The platform generation of machines that do not declare one. -/
def defaultPlatformVersion : String := "v2"

/-- The process group of machines that do not name one. -/
def defaultProcessGroup : String := "app"

structure Guest where
  cpuKind : String
  cpus : UInt32
  memoryMb : UInt32
  deriving DecidableEq, Repr

/-- One attached volume. The name is empty where it was not reported; a mount that has not
been bound yet has no volume. -/
structure Mount where
  name : String
  path : String
  volume : Option VolumeId := none
  deriving DecidableEq, Repr

structure Config where
  image : String := ""
  guest : Option Guest := none
  mount : Option Mount := none
  metadata : Dict String := ∅
  extra : Dict Json := ∅
  deriving Repr

instance : Inhabited Config := ⟨{}⟩

namespace Config

/-- The process group that a configuration belongs to. An empty name counts as none. -/
def processGroup (config : Config) : String :=
  match config.metadata.find? processGroupKey with
  | none => defaultProcessGroup
  | some "" => defaultProcessGroup
  | some group => group

end Config

inductive MachineState
  | created
  | starting
  | started
  | stopping
  | stopped
  | replacing
  | destroying
  | destroyed
  | unknown
  deriving DecidableEq, Repr

namespace MachineState

def word : MachineState → String
  | .created => "created"
  | .starting => "starting"
  | .started => "started"
  | .stopping => "stopping"
  | .stopped => "stopped"
  | .replacing => "replacing"
  | .destroying => "destroying"
  | .destroyed => "destroyed"
  | .unknown => "unknown"

/-- The states that have a name of their own. -/
def named : List MachineState :=
  [.created, .starting, .started, .stopping, .stopped, .replacing, .destroying, .destroyed]

/-- The state of a name; one that is not known is the unknown state. -/
def ofWord (s : String) : MachineState :=
  (named.find? fun state => state.word == s).getD .unknown

end MachineState

structure Machine where
  id : MachineId
  region : String
  state : MachineState := .unknown
  config : Config
  deriving Repr

def Machine.processGroup (m : Machine) : String := m.config.processGroup

structure Volume where
  id : VolumeId
  name : String
  attachedTo : Option MachineId := none
  deriving DecidableEq, Repr

def Volume.isAttached (v : Volume) : Bool := v.attachedTo.isSome

/-- The unattached volumes by name, each name's in listing order. Looking up a volume does not
take it out. -/
structure VolumePool where
  byName : Dict (List Volume) := ∅
  deriving Repr

namespace VolumePool

/-- Adds a volume behind the others of its name, unless it is attached. -/
def add (pool : VolumePool) (v : Volume) : VolumePool :=
  if v.isAttached then pool else ⟨pool.byName.modify v.name [] (· ++ [v])⟩

def ofVolumes (volumes : List Volume) : VolumePool := volumes.foldl add {}

def named (pool : VolumePool) (name : String) : List Volume :=
  (pool.byName.find? name).getD []

def firstUnattached (pool : VolumePool) (name : String) : Option Volume :=
  (pool.named name).head?

def available (pool : VolumePool) (name : String) : Nat := (pool.named name).length

end VolumePool

/-- What the control plane needs to create or update a machine. -/
structure LaunchInput where
  app : String
  orgSlug : String
  region : String
  config : Config
  deriving Repr

inductive MachinePlan
  | update (id : MachineId) (input : LaunchInput)
  | replace (replaces : MachineId) (input : LaunchInput)
  deriving Repr

namespace MachinePlan

def input : MachinePlan → LaunchInput
  | .update _ input => input
  | .replace _ input => input

/-- The existing machine that the plan is about. -/
def machineId : MachinePlan → MachineId
  | .update id _ => id
  | .replace id _ => id

def isReplace : MachinePlan → Bool
  | .update .. => false
  | .replace .. => true

end MachinePlan

end Rollout
