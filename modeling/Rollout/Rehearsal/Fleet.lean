import Rollout.Pass
import Rollout.Rehearsal.Answer

/-!
# A rehearsal fleet

A rehearsal can also play a whole fleet that behaves well except where it is told otherwise:
single machines that cannot be updated or destroyed, a group that cannot be launched into,
waits that run out or never end, leases that are taken. It keeps a log of the calls made to it,
in which a launch is told by the machine that came of it.
-/

namespace Rollout.Rehearsal

/-- How a rehearsal fleet misbehaves. -/
structure Faults where
  failUpdate : List String := []
  failDestroy : List String := []
  panicUpdate : List String := []
  /-- A group that cannot be launched into, and what is said then. -/
  failLaunch : Option (String × String) := none
  failWait : List (String × WaitKind) := []
  /-- Every wait goes on for ever. -/
  hangWaits : Bool := false
  leasesFailing : Bool := false
  /-- Every acquisition after the first one goes on for ever. -/
  hangRenewals : Bool := false
  releaseCommandFailing : Bool := false
  reject : List ReleaseStatus := []
  deriving Repr

inductive LoggedCall
  | setStatus (status : ReleaseStatus)
  | releaseCommand
  | acquire (machines : List MachineId)
  | release (machines : List MachineId)
  | launch (group : String) (machine : MachineId)
  | update (machine : MachineId)
  | destroy (machine : MachineId)
  | wait (machine : MachineId) (kind : WaitKind)
  deriving DecidableEq, Repr

/-- A rehearsal fleet. The latest call of the log comes first. -/
structure Fleet where
  faults : Faults := {}
  log : List LoggedCall := []
  launched : Nat := 0
  acquired : Nat := 0
  deriving Repr

namespace Fleet

def push (f : Fleet) (call : LoggedCall) : Fleet := { f with log := call :: f.log }

def calls (f : Fleet) : List LoggedCall := f.log.reverse

def updated (f : Fleet) : List MachineId :=
  f.calls.filterMap fun
    | .update id => some id
    | _ => none

def statuses (f : Fleet) : List ReleaseStatus :=
  f.calls.filterMap fun
    | .setStatus status => some status
    | _ => none

def count (f : Fleet) (p : LoggedCall → Bool) : Nat := f.calls.countP p

def isWait : LoggedCall → Bool
  | .wait .. => true
  | _ => false

def waits (f : Fleet) : Nat := f.count isWait

def ranReleaseCommand (f : Fleet) : Bool := f.calls.contains .releaseCommand

def succeedUnless (failing : Bool) (message : String) : Reaction Unit :=
  if failing then .fail ⟨message, []⟩ else .succeed ()

def wait (f : Fleet) (m : Machine) (kind : WaitKind) : Fleet × Reaction Unit :=
  (f.push (.wait m.id kind),
    if f.faults.hangWaits then .hang
    else succeedUnless (f.faults.failWait.contains (m.id.text, kind))
      ("timeout reached waiting for machine " ++ m.id.text ++ " to be " ++ kind.word))

/-- A launch. One that fails leaves nothing in the log. -/
def launch (f : Fleet) (input : LaunchInput) : Fleet × Reaction Machine :=
  let group := input.config.processGroup
  match f.faults.failLaunch with
  | some (failing, message) =>
    if failing = group then (f, .fail ⟨message, []⟩) else accept group
  | none => accept group
where
  /-- The launch of the next machine. -/
  accept (group : String) : Fleet × Reaction Machine :=
    let m := newMachine (f.launched + 1) input
    ({ f with launched := f.launched + 1 }.push (.launch group m.id), .succeed m)

def update (f : Fleet) (m : Machine) : Fleet × Reaction Unit :=
  (f.push (.update m.id),
    if f.faults.panicUpdate.contains m.id.text then
      .panic ("machine client bug while updating " ++ m.id.text)
    else succeedUnless (f.faults.failUpdate.contains m.id.text)
      ("failed to update VM " ++ m.id.text ++ ": unavailable"))

def acquire (f : Fleet) (machines : List MachineId) : Fleet × Reaction Unit :=
  ({ f with acquired := f.acquired + 1 }.push (.acquire machines),
    if f.acquired ≠ 0 && f.faults.hangRenewals then .hang
    else succeedUnless f.faults.leasesFailing "machine is leased by another deployment")

def react (f : Fleet) : (call : Call) → Fleet × Reaction call.Answer
  | .setStatus _ status =>
    (f.push (.setStatus status),
      succeedUnless (f.faults.reject.contains status) "release store unavailable")
  | .releaseCommand =>
    (f.push .releaseCommand,
      succeedUnless f.faults.releaseCommandFailing "release command exited with code 1")
  | .acquire machines _ => f.acquire machines
  | .release machines => (f.push (.release machines), .succeed ())
  | .launch input => f.launch input
  | .update m _ => f.update m
  | .destroy m _ =>
    (f.push (.destroy m.id),
      succeedUnless (f.faults.failDestroy.contains m.id.text)
        ("could not destroy machine " ++ m.id.text))
  | .waitForState m .. => f.wait m .started
  | .waitForHealthchecks m _ => f.wait m .healthy

def collaborators : Collaborators Fleet where
  react f _ call := f.react call

end Fleet

def tells (lines : List String) (needle : String) : Bool := lines.any (containsText needle)

end Rollout.Rehearsal
