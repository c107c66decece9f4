import Rollout.AppConfig
import Rollout.Launch
import Rollout.Strategy

/-!
# The written form of the fleet

Machines, volumes and configurations as JSON. Optional parts that are absent are left out; an
image and metadata are always written. The parts of a configuration that the rollout does not
understand stand beside those that it does.
-/

namespace Rollout

def Id.toJson {kind : IdKind} (id : Id kind) : Json := .str id.text

def Version.toJson (v : Version) : Json := Json.ofNat v.number.toNat

/-- An optional member, left out where it is none. -/
def optionalMember (key : String) : Option Json → List (String × Json)
  | none => []
  | some value => [(key, value)]

def Guest.toJson (g : Guest) : Json :=
  .obj
    [("cpu_kind", .str g.cpuKind), ("cpus", Json.ofNat g.cpus.toNat),
      ("memory_mb", Json.ofNat g.memoryMb.toNat)]

def Mount.toJson (m : Mount) : Json :=
  .obj
    ([("name", .str m.name), ("path", .str m.path)] ++
      optionalMember "volume" (m.volume.map Id.toJson))

def Dict.toJson (d : Dict String) : Json :=
  .obj (d.entries.map fun entry => (entry.1, .str entry.2))

namespace Config

/-- The members of a configuration that the rollout understands. -/
def knownMembers (c : Config) : List (String × Json) :=
  [("image", .str c.image)] ++ optionalMember "guest" (c.guest.map Guest.toJson) ++
    optionalMember "mount" (c.mount.map Mount.toJson) ++ [("metadata", c.metadata.toJson)]

def toJson (c : Config) : Json := Json.ofMembers (c.knownMembers ++ c.extra.entries)

end Config

def MachineState.toJson (s : MachineState) : Json := .str s.word

def ReleaseStatus.toJson (s : ReleaseStatus) : Json := .str s.word

def Strategy.toJson (s : Strategy) : Json := .str s.word

def Machine.toJson (m : Machine) : Json :=
  .obj
    [("config", m.config.toJson), ("id", m.id.toJson), ("region", .str m.region),
      ("state", m.state.toJson)]

def Volume.toJson (v : Volume) : Json :=
  .obj
    (optionalMember "attached_machine_id" (v.attachedTo.map Id.toJson) ++
      [("id", v.id.toJson), ("name", .str v.name)])

def AppConfig.toJson (app : AppConfig) : Json :=
  .obj
    [("primary_region", .str app.primaryRegion),
      ("processes", .obj (app.processes.entries.map fun entry => (entry.1, entry.2.toJson)))]

def LaunchInput.toJson (input : LaunchInput) : Json :=
  .obj
    [("app", .str input.app), ("config", input.config.toJson), ("org_slug", .str input.orgSlug),
      ("region", .str input.region)]

end Rollout
