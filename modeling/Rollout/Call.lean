import Rollout.Duration
import Rollout.Failure
import Rollout.Log
import Rollout.Signal

/-!
# Calls to collaborators

A rollout works through collaborators: the machines' control plane, the lease manager, the
runner of the release command and the store of release states. Every request to one of them is
a call with an answer of its own type.

A collaborator's behaviour during one call is a reaction: it takes its time, may change the
shutdown signal on the way, and succeeds, fails, panics or never ends.
-/

namespace Rollout

/-- A request to a collaborator. -/
inductive Call
  | setStatus (release : ReleaseId) (status : ReleaseStatus)
  | releaseCommand
  | acquire (machines : List MachineId) (ttl : Duration)
  | release (machines : List MachineId)
  | launch (input : LaunchInput)
  | update (machine : Machine) (input : LaunchInput)
  | destroy (machine : Machine) (force : Bool)
  | waitForState (machine : Machine) (state : MachineState) (timeout : Duration)
  | waitForHealthchecks (machine : Machine) (timeout : Duration)
  deriving Repr

namespace Call

/-- What a call returns when it succeeds. A launch returns the new machine. -/
@[reducible] def Answer : Call → Type
  | .launch _ => Machine
  | .setStatus .. => Unit
  | .releaseCommand => Unit
  | .acquire .. => Unit
  | .release _ => Unit
  | .update .. => Unit
  | .destroy .. => Unit
  | .waitForState .. => Unit
  | .waitForHealthchecks .. => Unit

/-- Whether shutdown interrupts the call. Releasing the leases and writing the final state of
the release are carried through: neither may be left undone. -/
def cancellable : Call → Bool
  | .release _ => false
  | .setStatus _ .complete => false
  | .setStatus _ .failed => false
  | _ => true

end Call

/-- How a call ends for the one who made it. -/
inductive Reply (α : Type)
  | ok (answer : α)
  | failed (failure : Failure)
  | panicked (text : String)
  | cancelled
  deriving Repr

/-- What a collaborator does during a call. -/
inductive Reaction (α : Type)
  | succeed (answer : α)
  | fail (failure : Failure)
  | panic (text : String)
  | hang
  | sleep (ms : Nat) (next : Reaction α)
  | signal (change : SignalChange) (next : Reaction α)
  deriving Repr, Inhabited

/-- Where a reaction is when it waits or has ended. -/
inductive Halt (α : Type)
  | ended (reply : Reply α)
  | asleep (ms : Nat) (next : Reaction α)
  | hung
  deriving Repr

/-- Follows a reaction for as long as no time passes: the changes of the signal on the way, and
where it halts. -/
def Reaction.settle {α : Type} : Reaction α → List SignalChange × Halt α
  | .succeed answer => ([], .ended (.ok answer))
  | .fail failure => ([], .ended (.failed failure))
  | .panic text => ([], .ended (.panicked text))
  | .hang => ([], .hung)
  | .sleep 0 next => next.settle
  | .sleep (ms + 1) next => ([], .asleep (ms + 1) next)
  | .signal change next => (change :: next.settle.1, next.settle.2)

/-- Collaborators with a state of their own. What they do during a call may depend on every
call so far and on the time at which it begins. -/
structure Collaborators (σ : Type) where
  react : σ → Nat → (call : Call) → σ × Reaction call.Answer

end Rollout
