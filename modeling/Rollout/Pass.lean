import Rollout.Plan
import Rollout.Script
import Rollout.Settings
import Rollout.Text.Blank
import Rollout.Text.Decimal

/-!
# The passes of a rollout

A rollout makes one of two passes over a snapshot of the fleet. The restart pass stamps every
machine with the release. The deploy pass runs the release command, destroys the machines of
undeclared groups, creates a machine for every empty group and then brings the remaining
machines to the desired configuration, one at a time.

Both passes hold leases on all machines of the snapshot and release them however they end. The
strategy decides whether a failed machine ends the pass and whether the pass waits for each
machine to become healthy. The state of the release is written before and after.
-/

namespace Rollout

/-- The release command of an app, if it has one, and whether it ran on a machine of its own. -/
structure ReleaseCommand where
  declared : Bool := true
  usedMachine : Bool := false
  deriving DecidableEq, Repr

/-- What is rolled out, and how. -/
structure Order where
  settings : Settings
  deployment : Deployment
  resolver : Resolver
  releaseCommand : ReleaseCommand := {}

/-- The position of a step among all, padded to equal width. -/
def formatIndex (n total : Nat) : String :=
  "[" ++ Text.zeroPadded (toString total).length (n + 1) ++ "/" ++ toString total ++ "]"

/-- What a failed launch says when the account has reached its limit. -/
def paymentMethodText : String := "please add a payment method"

def releaseCommandHint : String :=
  "Please note that release commands run in their own ephemeral machine, and therefore " ++
    "count towards the machine limit."

def containsList (needle : List Char) : List Char → Bool
  | [] => needle.isEmpty
  | c :: rest => needle.isPrefixOf (c :: rest) || containsList needle rest

def containsText (needle text : String) : Bool := containsList needle.toList text.toList

/-- An existing machine and what is to be done with it. -/
structure Entry where
  machine : Machine
  plan : MachinePlan
  deriving Repr

namespace Order

open Script

def builder (o : Order) : LaunchBuilder := o.deployment.builder o.resolver

def strategy (o : Order) : Strategy := o.settings.strategy

def machineIds (o : Order) : List MachineId := o.deployment.machines.map Machine.id

/-- Waits until a machine has started and, unless that is skipped, is healthy. -/
def waitUntilReady (o : Order) (m : Machine) (index : String) : Script Unit := do
  request (.wait m.id .started)
    (.waitForState m .started o.settings.startTimeout)
  if o.settings.skipHealthChecks then pure ()
  else do
    request (.wait m.id .healthy)
      (.waitForHealthchecks m o.settings.healthTimeout)
    progress ("  " ++ index ++ " Machine " ++ m.id.text ++ " update finished: success")

/-- Waits for a machine if the strategy asks for it. -/
def gate (o : Order) (m : Machine) (index : String) : Script Unit :=
  if o.strategy.isHealthGated then o.waitUntilReady m index else pure ()

/-- The hint for a failed creation: a release command's own machine counts as well. -/
def createHint (o : Order) (failure : Failure) : Option String :=
  if o.releaseCommand.usedMachine && containsText paymentMethodText failure.full then
    some releaseCommandHint
  else none

/-- Creates the first machine of an empty group. Whatever fails here ends the pass. -/
def createIn (o : Order) (group : String) (i total : Nat) : Script Unit := do
  progress ("No machines in group '" ++ group ++ "', launching one new machine")
  match o.builder.forLaunch group o.deployment.guest with
  | .error cause => fail (.buildLaunch group cause)
  | .ok input => do
    let m ← request (fun failure => .create group (o.createHint failure) failure)
      (.launch input)
    let index := formatIndex i total
    log .info "Created machine" [("machine_id", .text m.id.text), ("group", .text group)]
    progress ("  " ++ index ++ " Created machine " ++ m.id.text ++ " in group '" ++ group ++ "'")
    o.gate m index

def createAll (o : Order) (total : Nat) : Nat → List String → Script Unit
  | _, [] => pure ()
  | i, group :: rest => do
    o.createIn group i total
    o.createAll total (i + 1) rest

def destroyAll : List Machine → Script Unit
  | [] => pure ()
  | m :: rest => do
    log .info "Destroying machine in removed process group"
      [("machine_id", .text m.id.text), ("group", .text m.processGroup)]
    request (.destroy m.id) (.destroy m true)
    destroyAll rest

/-- Updates a machine in place, or destroys it and launches its replacement. The value is the
machine that runs the new configuration. -/
def apply (entry : Entry) (index : String) : Script Machine :=
  let m := entry.machine
  match entry.plan with
  | .replace _ input => do
    progress ("  " ++ index ++ " Replacing " ++ m.id.text ++ " by new machine")
    request (.destroy m.id) (.destroy m true)
    let created ← request (.launch m.id) (.launch input)
    log .info "Replaced machine"
      [("machine_id", .text created.id.text), ("replaces", .text m.id.text)]
    progress ("  " ++ index ++ " Created machine " ++ created.id.text)
    pure created
  | .update _ input => do
    progress ("  " ++ index ++ " Updating " ++ m.id.text)
    request (.update m.id) (.update m input)
    log .debug "Updated machine" [("machine_id", .text m.id.text)]
    pure m

/-- Goes through the entries one at a time, counted from `i`. A failed entry ends the pass or
is reported and left behind, as the strategy says; cancellation always ends it. -/
def applyAll (o : Order) (total : Nat) : Nat → List Entry → Script Unit
  | _, [] => pure ()
  | i, entry :: rest => do
    let index := formatIndex i total
    match ← (apply entry index).attempt with
    | .ok m => do
      o.gate m index
      o.applyAll total (i + 1) rest
    | .panic text => .done (.panic text)
    | .error .cancelled => fail .cancelled
    | .error e =>
      match o.strategy.failurePolicy with
      | .failFast => fail e
      | .bestEffort => do
        log .warn "Continuing after error"
          [("machine_id", .text entry.machine.id.text), ("error", .text e.message)]
        progress ("Continuing after error: " ++ e.message)
        o.applyAll total (i + 1) rest

def updateMachines (o : Order) (entries : List Entry) : Script Unit := do
  progress ("Updating existing machines in '" ++ o.deployment.launch.app ++ "' with " ++
    o.strategy.word ++ " strategy")
  o.applyAll entries.length 0 entries
  progress "  Finished deploying"

def tellWarnings (m : Machine) : List BuildWarning → Script Unit
  | [] => pure ()
  | w :: rest => do
    log .warn w.message [("machine_id", .text m.id.text)]
    progress ("WARNING " ++ w.message)
    tellWarnings m rest

/-- Plans the update of every machine that stays, and tells the warnings. -/
def planEntries (o : Order) : List Machine → Script (List Entry)
  | [] => pure []
  | m :: rest =>
    match o.builder.forUpdate m with
    | .error cause => fail (.buildPlan m.id cause)
    | .ok built => do
      tellWarnings m built.warnings
      let entries ← o.planEntries rest
      pure (⟨m, built.plan⟩ :: entries)

def tellChanges (diff : GroupDiff) : Script Unit :=
  match diff.summary with
  | none => pure ()
  | some summary => do
    log .info "Process groups have changed"
      [("machines_to_remove", .count diff.machinesToRemove.length),
        ("groups_needing_machines", .count diff.groupsNeedingMachines.length)]
    progressLines (Text.lines summary)

def converge (o : Order) : Script Unit := do
  let diff := GroupDiff.compute o.deployment.machines o.resolver.processNames
  tellChanges diff
  destroyAll diff.machinesToRemove
  if diff.groupsNeedingMachines.isEmpty then pure ()
  else do
    o.createAll diff.groupsNeedingMachines.length 0 diff.groupsNeedingMachines
    progress "Finished launching new machines"
  let entries ← o.planEntries (diff.remaining o.deployment.machines)
  o.updateMachines entries

/-- Does the work of a pass while holding leases on all machines. The leases are renewed in
the background meanwhile, and released however the work ends. -/
def withLeases (o : Order) (body : Script Unit) : Script Unit := do
  let ids := o.machineIds
  let ttl := o.settings.leaseTtl
  request .leaseAcquisition (.acquire ids ttl)
  log .info "Acquired leases"
    [("machine_count", .count ids.length), ("ttl_secs", .count ttl.toSecs)]
  .startRenewal ids ttl o.settings.leaseRenewInterval (pure ())
  let exit ← body.attempt
  .stopRenewal (pure ())
  match ← carryThrough (.release ids) with
  | .ok _ => log .debug "Released leases" [("machine_count", .count ids.length)]
  | .error failure => log .warn "Failed to release leases" [("error", .text failure.message)]
  .done exit

def restartPass (o : Order) : Script Unit :=
  o.withLeases <| o.updateMachines <| o.deployment.machines.map fun m =>
    ⟨m, o.builder.forRestart m⟩

def runReleaseCommand (o : Order) : Script Unit :=
  if o.releaseCommand.declared then request .releaseCommand .releaseCommand
  else .checkpoint fun raised => if raised then cancel else pure ()

def deployPass (o : Order) : Script Unit := do
  o.runReleaseCommand
  o.withLeases o.converge

def pass (o : Order) : Script Unit :=
  if o.settings.restartOnly then o.restartPass else o.deployPass

/-- Writes the final state of the release and settles the result: a failed pass keeps its own
error. -/
def conclude (o : Order) (exit : Exit Unit) : Script Unit := do
  let release := o.deployment.launch.release.id
  match exit with
  | .panic text => .done (.panic text)
  | .ok () => do
    match ← carryThrough (.setStatus release .complete) with
    | .ok _ => log .info "Rollout complete" [("release_id", .text release.text)]
    | .error failure => fail (.finalReleaseStatus failure)
  | .error e => do
    match ← carryThrough (.setStatus release .failed) with
    | .ok _ =>
      log .error "Rollout failed" [("release_id", .text release.text), ("error", .text e.message)]
    | .error failure =>
      log .warn "Failed to set final release status after deployment failure"
        [("release_id", .text release.text), ("error", .text failure.message)]
    fail e

def script (o : Order) : Script Unit := do
  let release := o.deployment.launch.release
  log .info "Starting rollout"
    [("app", .text o.deployment.launch.app), ("release_id", .text release.id.text),
      ("release_version", .text release.version.toText), ("strategy", .text o.strategy.word),
      ("restart_only", .flag o.settings.restartOnly),
      ("machine_count", .count o.deployment.machines.length)]
  request .releaseStatus (.setStatus release.id .running)
  let exit ← o.pass.attempt
  o.conclude exit

end Order

end Rollout
