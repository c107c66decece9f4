import Rollout.Pass
import Rollout.World

/-!
# Runs

A run follows a script through a world. Collaborators are asked in the order of the script.
While one of them takes its time the world goes on; shutdown ends the wait for any call that
may be cancelled, at once and whatever the collaborator would still have done.

A run is watched up to a horizon. One that waits then, or begins to wait, is cut off, and its
renewal loop ends with it. To stop a renewal loop is to wait for its end, at the horizon too.
-/

namespace Rollout

/-- Up to when a run is watched. -/
structure Horizon where
  time : Nat
  /-- Whether changes of the signal that are due at the horizon still reach the run. -/
  inclusive : Bool := false
  deriving DecidableEq, Repr

inductive RunEnd (α : Type)
  | exit (e : Exit α)
  /-- Still waited at the horizon. -/
  | hung
  deriving Repr

namespace World

variable {σ α : Type}

def isOver (w : World σ) (horizon : Horizon) : Bool := horizon.time ≤ w.now

/-- Waits at the horizon. Only a change of the signal can still end the wait. -/
def cutOff (horizon : Horizon) (interruptible : Bool) (w : World σ) :
    World σ × Option (Reply α) :=
  let w := w.moveTo horizon.time
  let w := if horizon.inclusive then w.catchUp else w
  (w, if horizon.inclusive && interruptible && w.signal.raised then some .cancelled else none)

/-- Waits for a collaborator. There is no reply if the horizon comes first. -/
def await (c : Collaborators σ) (horizon : Horizon) (interruptible : Bool) :
    Reaction α → World σ → World σ × Option (Reply α)
  | .succeed answer, w => (w, some (.ok answer))
  | .fail failure, w => (w, some (.failed failure))
  | .panic text, w => (w, some (.panicked text))
  | .signal change next, w => await c horizon interruptible next (w.change change)
  | .hang, w =>
    if w.isOver horizon then (w, none)
    else
      let w := w.advance c interruptible horizon.time
      if interruptible && w.signal.raised then (w, some .cancelled)
      else w.cutOff horizon interruptible
  | .sleep 0 next, w => await c horizon interruptible next w
  | .sleep (ms + 1) next, w =>
    if w.isOver horizon then (w, none)
    else
      let target := w.now + (ms + 1)
      let w := w.advance c interruptible (min target horizon.time)
      if interruptible && w.signal.raised then (w, some .cancelled)
      else if horizon.time < target then w.cutOff horizon interruptible
      else await c horizon interruptible next (w.moveTo target)

/-- Makes a call and waits for the reply. A call that may be cancelled is not even begun when
shutdown is already requested. -/
def perform (c : Collaborators σ) (horizon : Horizon) (w : World σ) (call : Call) :
    World σ × Option (Reply call.Answer) :=
  if call.cancellable && w.signal.raised then (w, some .cancelled)
  else
    let w := w.record (.began .pass call)
    let (memory, reaction) := c.react w.memory w.now call
    match await c horizon call.cancellable reaction { w with memory } with
    | (w, some reply) => (w.record (.ended .pass call reply), some reply)
    | (w, none) => (w, none)

end World

def Script.run {σ α : Type} (c : Collaborators σ) (horizon : Horizon) :
    Script α → World σ → World σ × RunEnd α
  | .done exit, w => (w, .exit exit)
  | .note n next, w => next.run c horizon (w.record (.note n))
  | .checkpoint next, w => (next w.signal.raised).run c horizon w
  | .startRenewal machines ttl interval next, w =>
    next.run c horizon (w.startRenewal machines ttl interval)
  | .stopRenewal next, w =>
    if w.isOver horizon && w.renewalIsLive then (w.dropRenewal, .hung)
    else next.run c horizon w.stopRenewal
  | .call made next, w =>
    match w.perform c horizon made with
    | (w, some reply) => (next reply).run c horizon w
    | (w, none) => (w.dropRenewal, .hung)

def Order.run {σ : Type} (o : Order) (c : Collaborators σ) (horizon : Horizon) (w : World σ) :
    World σ × RunEnd Unit :=
  o.script.run c horizon w

end Rollout
