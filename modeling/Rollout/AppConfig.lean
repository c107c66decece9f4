import Rollout.Machine

/-!
# The desired configuration of an app

An app declares process groups. A resolver answers, for a group and optionally the current
configuration of a machine, what a machine of that group should run. The resolver that comes
with the library holds one template for every group and merges it over what is there.
-/

namespace Rollout

inductive ResolveError
  | unknownProcessGroup (group : String)
  | invalid (group message : String)
  deriving DecidableEq, Repr

def ResolveError.message : ResolveError → String
  | .unknownProcessGroup group =>
    "process group '" ++ group ++ "' is not declared in the app config"
  | .invalid group message =>
    "invalid config for process group '" ++ group ++ "': " ++ message

/-- A source of desired configurations. -/
structure Resolver where
  /-- The configuration of a machine in the group, over that of an existing machine. -/
  resolve : String → Option Config → Except ResolveError Config
  /-- The declared groups. -/
  processNames : List String
  /-- Where new machines are created. -/
  primaryRegion : String

/-- An app whose groups are given by templates. -/
structure AppConfig where
  primaryRegion : String
  processes : Dict Config := ∅
  deriving Repr

namespace AppConfig

/-- The mount that a template asks for, without a volume: volumes are bound later. -/
def desiredMount (group : String) : Option Mount → Except ResolveError (Option Mount)
  | none => .ok none
  | some mount =>
    if mount.name = "" then
      .error (.invalid group ("mount at '" ++ mount.path ++ "' has no volume name"))
    else .ok (some ⟨mount.name, mount.path, none⟩)

/-- A template merged over a configuration. Image and guest are taken if the template has
them, the mount always, metadata and other fields key by key, and the group is written down. -/
def merge (group : String) (template base : Config) : Except ResolveError Config := do
  let mount ← desiredMount group template.mount
  .ok
    { image := if template.image = "" then base.image else template.image
      guest := if template.guest.isSome then template.guest else base.guest
      mount
      metadata := (base.metadata.insertMany template.metadata.entries).insert processGroupKey group
      extra := base.extra.insertMany template.extra.entries }

def resolve (app : AppConfig) (group : String) (base : Option Config) :
    Except ResolveError Config :=
  match app.processes.find? group with
  | none => .error (.unknownProcessGroup group)
  | some template => merge group template (base.getD {})

def resolver (app : AppConfig) : Resolver where
  resolve := app.resolve
  processNames := app.processes.keys
  primaryRegion := app.primaryRegion

end AppConfig

end Rollout
