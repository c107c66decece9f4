import Rollout.Machine

/-!
# Differences between the fleet and the declared groups

Machines of groups that are no longer declared have to go, and declared groups without a
machine need one.
-/

namespace Rollout

/-- What has to change so that the fleet has the declared groups. -/
structure GroupDiff where
  /-- Machines of undeclared groups, in the order of the snapshot. -/
  machinesToRemove : List Machine := []
  /-- How many machines each undeclared group loses. -/
  groupsToRemove : Dict Nat := ∅
  /-- Declared groups without a machine. -/
  groupsNeedingMachines : List String := []
  deriving Repr

namespace GroupDiff

instance : Inhabited GroupDiff := ⟨{}⟩

def addMachine (declared : List String) (diff : GroupDiff) (m : Machine) : GroupDiff :=
  if m.processGroup ∈ declared then diff
  else
    { diff with
      machinesToRemove := diff.machinesToRemove ++ [m]
      groupsToRemove := diff.groupsToRemove.modify m.processGroup 0 (· + 1) }

/-- A list of names, each once, in byte order. -/
def sortedNames (names : List String) : List String :=
  (Dict.ofList (names.map fun name => (name, ()))).keys

def compute (machines : List Machine) (declared : List String) : GroupDiff :=
  let staffed := machines.map Machine.processGroup
  { machines.foldl (addMachine declared) {} with
    groupsNeedingMachines := sortedNames (declared.filter fun group => group ∉ staffed) }

def isEmpty (diff : GroupDiff) : Bool :=
  diff.machinesToRemove.isEmpty && diff.groupsNeedingMachines.isEmpty

/-- The machines that stay: those that share their identifier with no removed machine. -/
def remaining (diff : GroupDiff) (machines : List Machine) : List Machine :=
  let removed := diff.machinesToRemove.map Machine.id
  machines.filter fun m => m.id ∉ removed

def destroyLine (group : String) (count : Nat) : String :=
  " * destroy " ++ toString count ++ " \"" ++ group ++ "\" machine" ++
    (if count = 1 then "" else "s")

def createLine (group : String) : String :=
  " * create 1 \"" ++ group ++ "\" machine"

def summaryLines (diff : GroupDiff) : List String :=
  "Process groups have changed. This will:" ::
    (diff.groupsToRemove.entries.map fun entry => destroyLine entry.1 entry.2) ++
    diff.groupsNeedingMachines.map createLine

def summary (diff : GroupDiff) : Option String :=
  if diff.isEmpty then none
  else some (String.join (diff.summaryLines.map fun line => line ++ "\n"))

end GroupDiff

end Rollout
