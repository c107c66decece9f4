import Rollout.Failure
import Rollout.GroupDiff

/-!
# Rollout plans

A plan says what a pass would do to the fleet, computed from the same snapshot and in the same
order, without touching anything. An error that would stop the pass fails the plan.
-/

namespace Rollout

/-- What is rolled out, and the fleet that it is rolled out to. -/
structure Deployment where
  launch : LaunchContext
  /-- The size of machines created in empty groups, over that of their template. -/
  guest : Option Guest := none
  machines : List Machine
  volumes : VolumePool
  deriving Repr

def Deployment.builder (d : Deployment) (resolver : Resolver) : LaunchBuilder :=
  ⟨d.launch, d.volumes, resolver⟩

/-- A machine to be created in an empty group. -/
structure PlannedLaunch where
  group : String
  input : LaunchInput
  deriving Repr

/-- What is to be done with an existing machine, and the group it is in. -/
structure PlannedUpdate where
  group : String
  plan : MachinePlan
  warnings : List BuildWarning := []
  deriving Repr

structure PlanRow where
  machine : String
  group : String
  action : String
  region : String
  mount : String
  deriving DecidableEq, Repr

structure Plan where
  diff : GroupDiff := {}
  launches : List PlannedLaunch := []
  updates : List PlannedUpdate := []
  deriving Repr

namespace Plan

/-- The plan of a restart: every machine is stamped and updated. -/
def restart (d : Deployment) (resolver : Resolver) : Plan where
  updates := d.machines.map fun m =>
    { group := m.processGroup, plan := (d.builder resolver).forRestart m }

def planLaunch (d : Deployment) (resolver : Resolver) (group : String) :
    Except DeployError PlannedLaunch :=
  match (d.builder resolver).forLaunch group d.guest with
  | .ok input => .ok ⟨group, input⟩
  | .error cause => .error (.buildLaunch group cause)

def planUpdate (d : Deployment) (resolver : Resolver) (m : Machine) :
    Except DeployError PlannedUpdate :=
  match (d.builder resolver).forUpdate m with
  | .ok built => .ok ⟨m.processGroup, built.plan, built.warnings⟩
  | .error cause => .error (.buildPlan m.id cause)

/-- The plan that brings the fleet to the desired configuration. -/
def deploy (d : Deployment) (resolver : Resolver) : Except DeployError Plan := do
  let diff := GroupDiff.compute d.machines resolver.processNames
  let launches ← diff.groupsNeedingMachines.mapM (planLaunch d resolver)
  let updates ← (diff.remaining d.machines).mapM (planUpdate d resolver)
  .ok { diff, launches, updates }

def warnings (plan : Plan) : List BuildWarning := plan.updates.flatMap (·.warnings)

/-- The machines to be destroyed because their group is gone. -/
def removals (plan : Plan) : List MachineId := plan.diff.machinesToRemove.map Machine.id

/-- How many machines will be destroyed and created anew. -/
def replacementCount (plan : Plan) : Nat := plan.updates.countP (·.plan.isReplace)

def describeMount : Option Mount → String
  | none => "-"
  | some mount =>
    mount.name ++ ":" ++ mount.path ++
      (match mount.volume with
      | some volume => " (" ++ volume.text ++ ")"
      | none => "")

def removalRow (m : Machine) : PlanRow :=
  ⟨m.id.text, m.processGroup, "destroy", m.region, describeMount m.config.mount⟩

def launchRow (launch : PlannedLaunch) : PlanRow :=
  ⟨"(new)", launch.group, "create", launch.input.region,
    describeMount launch.input.config.mount⟩

def updateRow (update : PlannedUpdate) : PlanRow :=
  let input := update.plan.input
  ⟨update.plan.machineId.text, update.group,
    if update.plan.isReplace then "replace" else "update", input.region,
    describeMount input.config.mount⟩

/-- The rows of a plan: removals, new machines, then machines that stay. -/
def rows (plan : Plan) : List PlanRow :=
  plan.diff.machinesToRemove.map removalRow ++ plan.launches.map launchRow ++
    plan.updates.map updateRow

end Plan

end Rollout
