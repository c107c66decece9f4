import Rollout.AppConfig
import Rollout.Json.Decoder
import Rollout.Release
import Rollout.Strategy

/-!
# Reading the fleet

The decoders of the written forms. A record's members may come in any order but each only
once; members that a record does not know are passed over, except in a configuration, which
keeps them. Identifiers are checked against their grammar wherever they stand.
-/

namespace Rollout

open Json

def Id.decoder (kind : IdKind) : Decoder (Id kind) :=
  checked fun s => (Id.parse kind s).mapError IdError.message

def Version.decoder : Decoder Version := fun depth r => (uint32 depth r).map Version.mk

namespace Guest

/-- A guest while its members are read. -/
structure Draft where
  cpuKind : Option String := none
  cpus : Option UInt32 := none
  memoryMb : Option UInt32 := none

def step (depth : Nat) (g : Draft) (key : String) (r : Reading) : Decoded Draft :=
  if key = "cpu_kind" then do
    .ok { g with cpuKind := ← once key g.cpuKind string depth r }
  else if key = "cpus" then do
    .ok { g with cpus := ← once key g.cpus uint32 depth r }
  else if key = "memory_mb" then do
    .ok { g with memoryMb := ← once key g.memoryMb uint32 depth r }
  else do
    r.passOver
    .ok g

def finish (g : Draft) : Decoded Guest := do
  .ok
    { cpuKind := ← required "cpu_kind" g.cpuKind
      cpus := ← required "cpus" g.cpus
      memoryMb := ← required "memory_mb" g.memoryMb }

def decoder : Decoder Guest
  | depth, .obj members tail => do
    let depth ← enter depth
    let draft ← foldMembers (step depth) {} members
    tail.finish
    finish draft
  | depth, .arr items tail => do
    let depth ← enter depth
    let expected := recordOf "Guest" 3
    let total := items.length
    let (cpuKind, items) ← requiredItem 0 expected string depth items tail
    let (cpus, items) ← requiredItem 1 expected uint32 depth items tail
    let (memoryMb, items) ← requiredItem 2 expected uint32 depth items tail
    finishItems total items tail
    .ok { cpuKind, cpus, memoryMb }
  | _, r => mismatch "struct Guest" r

end Guest

namespace Mount

structure Draft where
  name : Option String := none
  path : Option String := none
  volume : Option (Option VolumeId) := none

def step (depth : Nat) (m : Draft) (key : String) (r : Reading) : Decoded Draft :=
  if key = "name" then do
    .ok { m with name := ← once key m.name string depth r }
  else if key = "path" then do
    .ok { m with path := ← once key m.path string depth r }
  else if key = "volume" then do
    .ok { m with volume := ← once key m.volume (optional (Id.decoder .volume)) depth r }
  else do
    r.passOver
    .ok m

def finish (m : Draft) : Decoded Mount := do
  .ok
    { name := m.name.getD ""
      path := ← required "path" m.path
      volume := m.volume.getD none }

def decoder : Decoder Mount
  | depth, .obj members tail => do
    let depth ← enter depth
    let draft ← foldMembers (step depth) {} members
    tail.finish
    finish draft
  | depth, .arr items tail => do
    let depth ← enter depth
    let total := items.length
    let (name, items) ← defaultItem "" string depth items tail
    let (path, items) ← requiredItem 1 (recordOf "Mount" 3) string depth items tail
    let (volume, items) ← defaultItem none (optional (Id.decoder .volume)) depth items tail
    finishItems total items tail
    .ok { name, path, volume }
  | _, r => mismatch "struct Mount" r

end Mount

namespace Config

/-- A configuration while its members are read. -/
structure Draft where
  image : Option String := none
  guest : Option (Option Guest) := none
  mount : Option (Option Mount) := none
  metadata : Option (Dict String) := none
  extra : Dict Json := ∅

def step (depth : Nat) (c : Draft) (key : String) (r : Reading) : Decoded Draft :=
  if key = "image" then do
    .ok { c with image := ← once key c.image string depth r }
  else if key = "guest" then do
    .ok { c with guest := ← once key c.guest (optional Guest.decoder) depth r }
  else if key = "mount" then do
    .ok { c with mount := ← once key c.mount (optional Mount.decoder) depth r }
  else if key = "metadata" then do
    .ok { c with metadata := ← once key c.metadata (dict string) depth r }
  else do
    .ok { c with extra := c.extra.insert key (← any depth r) }

def finish (c : Draft) : Config :=
  { image := c.image.getD ""
    guest := c.guest.getD none
    mount := c.mount.getD none
    metadata := c.metadata.getD ∅
    extra := c.extra }

def decoder : Decoder Config
  | depth, .obj members tail => do
    let depth ← enter depth
    let draft ← foldMembers (step depth) {} members
    tail.finish
    .ok (finish draft)
  | _, r => mismatch "struct MachineConfig" r

end Config

def MachineState.decoder : Decoder MachineState := variant fun name => .ok (ofWord name)

/-- Names of variants with the variants. -/
def named {α : Type} (word : α → String) (variants : List α) : List (String × α) :=
  variants.map fun a => (word a, a)

def ReleaseStatus.decoder : Decoder ReleaseStatus :=
  closedVariant (named word [.running, .complete, .failed])

def Strategy.decoder : Decoder Strategy := closedVariant (named word [.rolling, .immediate])

namespace Machine

structure Draft where
  id : Option MachineId := none
  region : Option String := none
  state : Option MachineState := none
  config : Option Config := none

def step (depth : Nat) (m : Draft) (key : String) (r : Reading) : Decoded Draft :=
  if key = "id" then do
    .ok { m with id := ← once key m.id (Id.decoder .machine) depth r }
  else if key = "region" then do
    .ok { m with region := ← once key m.region string depth r }
  else if key = "state" then do
    .ok { m with state := ← once key m.state MachineState.decoder depth r }
  else if key = "config" then do
    .ok { m with config := ← once key m.config Config.decoder depth r }
  else do
    r.passOver
    .ok m

def finish (m : Draft) : Decoded Machine := do
  .ok
    { id := ← required "id" m.id
      region := ← required "region" m.region
      state := m.state.getD .unknown
      config := ← required "config" m.config }

def decoder : Decoder Machine
  | depth, .obj members tail => do
    let depth ← enter depth
    let draft ← foldMembers (step depth) {} members
    tail.finish
    finish draft
  | depth, .arr items tail => do
    let depth ← enter depth
    let expected := recordOf "Machine" 4
    let total := items.length
    let (id, items) ← requiredItem 0 expected (Id.decoder .machine) depth items tail
    let (region, items) ← requiredItem 1 expected string depth items tail
    let (state, items) ← defaultItem .unknown MachineState.decoder depth items tail
    let (config, items) ← requiredItem 3 expected Config.decoder depth items tail
    finishItems total items tail
    .ok { id, region, state, config }
  | _, r => mismatch "struct Machine" r

end Machine

namespace Volume

structure Draft where
  id : Option VolumeId := none
  name : Option String := none
  attachedTo : Option (Option MachineId) := none

def step (depth : Nat) (v : Draft) (key : String) (r : Reading) : Decoded Draft :=
  if key = "id" then do
    .ok { v with id := ← once key v.id (Id.decoder .volume) depth r }
  else if key = "name" then do
    .ok { v with name := ← once key v.name string depth r }
  else if key = "attached_machine_id" then do
    .ok { v with attachedTo := ← once key v.attachedTo (optional (Id.decoder .machine)) depth r }
  else do
    r.passOver
    .ok v

def finish (v : Draft) : Decoded Volume := do
  .ok
    { id := ← required "id" v.id
      name := ← required "name" v.name
      attachedTo := v.attachedTo.getD none }

def decoder : Decoder Volume
  | depth, .obj members tail => do
    let depth ← enter depth
    let draft ← foldMembers (step depth) {} members
    tail.finish
    finish draft
  | depth, .arr items tail => do
    let depth ← enter depth
    let expected := recordOf "Volume" 3
    let total := items.length
    let (id, items) ← requiredItem 0 expected (Id.decoder .volume) depth items tail
    let (name, items) ← requiredItem 1 expected string depth items tail
    let (attachedTo, items) ←
      defaultItem none (optional (Id.decoder .machine)) depth items tail
    finishItems total items tail
    .ok { id, name, attachedTo }
  | _, r => mismatch "struct Volume" r

end Volume

namespace AppConfig

structure Draft where
  primaryRegion : Option String := none
  processes : Option (Dict Config) := none

def step (depth : Nat) (a : Draft) (key : String) (r : Reading) : Decoded Draft :=
  if key = "primary_region" then do
    .ok { a with primaryRegion := ← once key a.primaryRegion string depth r }
  else if key = "processes" then do
    .ok { a with processes := ← once key a.processes (dict Config.decoder) depth r }
  else do
    r.passOver
    .ok a

def finish (a : Draft) : Decoded AppConfig := do
  .ok
    { primaryRegion := ← required "primary_region" a.primaryRegion
      processes := ← required "processes" a.processes }

def decoder : Decoder AppConfig
  | depth, .obj members tail => do
    let depth ← enter depth
    let draft ← foldMembers (step depth) {} members
    tail.finish
    finish draft
  | depth, .arr items tail => do
    let depth ← enter depth
    let expected := recordOf "StaticAppConfig" 2
    let total := items.length
    let (primaryRegion, items) ← requiredItem 0 expected string depth items tail
    let (processes, items) ← requiredItem 1 expected (dict Config.decoder) depth items tail
    finishItems total items tail
    .ok { primaryRegion, processes }
  | _, r => mismatch "struct StaticAppConfig" r

end AppConfig

end Rollout
