import Rollout.Renewal
import Rollout.Trace

/-!
# The world of a run

While a pass waits for a collaborator, time goes on: the shutdown signal changes as scheduled,
and the renewal loop does its work. Time is counted in milliseconds and jumps from one thing
that happens to the next; nothing but waiting takes time.

`World.step` does the next thing that happens before a limit and `World.advance` does all of
them. Of things due at the same time the schedule comes before the loop, and a loop that sees
a raised signal ends before anything else happens.
-/

namespace Rollout

/-- The state of a run apart from the pass itself. -/
structure World (σ : Type) where
  now : Nat := 0
  signal : Signal := {}
  /-- The changes of the signal that are to come, with their times. -/
  schedule : List (Nat × SignalChange) := []
  /-- The state of the collaborators. -/
  memory : σ
  renewal : Option Renewal := none
  /-- What happened so far, the latest event first. -/
  history : List Timed := []

namespace World

variable {σ : Type}

def trace (w : World σ) : Trace := w.history.reverse

def record (w : World σ) (e : Event) : World σ := { w with history := ⟨w.now, e⟩ :: w.history }

/-- Lets time pass up to a time that may be over. -/
def moveTo (w : World σ) (time : Nat) : World σ := { w with now := max w.now time }

def change (w : World σ) (c : SignalChange) : World σ :=
  { w with signal := w.signal.change c }.record (.signal c)

def changeAll (w : World σ) : List SignalChange → World σ
  | [] => w
  | c :: rest => (w.change c).changeAll rest

/-- Makes the changes of the signal that are due by now. -/
def catchUp (w : World σ) : World σ :=
  let isDue := fun (entry : Nat × SignalChange) => decide (entry.1 ≤ w.now)
  let due := (w.schedule.takeWhile isDue).map (·.2)
  { w with schedule := w.schedule.dropWhile isDue }.changeAll due

def logAll (w : World σ) : List LogRecord → World σ
  | [] => w
  | record :: rest => (w.record (.renewalLog record)).logAll rest

def setRenewal (w : World σ) (r : Renewal × List LogRecord) : World σ :=
  { w with renewal := some r.1 }.logAll r.2

def startRenewal (w : World σ) (machines : List MachineId) (ttl interval : Duration) : World σ :=
  w.setRenewal (Renewal.begin w.now machines ttl interval)

/-- Lets a renewal go on until it waits or ends. -/
def goOn (w : World σ) (r : Renewal) (reaction : Reaction Unit) : World σ :=
  let w := w.changeAll reaction.settle.1
  match reaction.settle.2 with
  | .ended reply => (w.record (.ended .renewal r.call reply)).setRenewal (r.finish reply)
  | .asleep ms rest => w.setRenewal (r.acquiring (some (w.now + ms)) rest, [])
  | .hung => w.setRenewal (r.acquiring none .hang, [])

def fire (c : Collaborators σ) (w : World σ) (r : Renewal) : World σ :=
  match r.phase with
  | .waiting =>
    let w := w.record (.began .renewal r.call)
    let (memory, reaction) := c.react w.memory w.now r.call
    { w with memory }.goOn r.nextTick reaction
  | .inFlight _ rest => w.goOn r rest
  | .ended | .crashed => w

/-- Ends the loop if it is still there; a renewal under way is abandoned. -/
def endRenewal (w : World σ) : World σ :=
  match w.renewal with
  | none => w
  | some r =>
    match r.phase with
    | .waiting => w.setRenewal r.leave
    | .inFlight .. =>
      (w.record (.ended .renewal r.call .cancelled)).setRenewal (r.finish .cancelled)
    | .ended | .crashed => w

def dropRenewal (w : World σ) : World σ := { w.endRenewal with renewal := none }

/-- Tells the loop to stop, waits for its end and forgets it. -/
def stopRenewal (w : World σ) : World σ :=
  match w.renewal with
  | none => w
  | some r => w.dropRenewal.logAll r.stopLog

def renewalDue? (w : World σ) : Option Nat := w.renewal.bind Renewal.due?

def renewalIsLive (w : World σ) : Bool := w.renewal.any Renewal.isLive

def renewalStep (c : Collaborators σ) (limit : Nat) (w : World σ) : Option (World σ) :=
  match w.renewal with
  | none => none
  | some r =>
    match r.due? with
    | none => none
    | some time => if time < limit then some ((w.moveTo time).fire c r) else none

/-- Whether a time comes before another one, if that comes at all. -/
def notAfter (time : Nat) : Option Nat → Bool
  | none => true
  | some other => time ≤ other

/-- Does the next thing that happens before the limit, if there is one. -/
def step (c : Collaborators σ) (limit : Nat) (w : World σ) : Option (World σ) :=
  if w.signal.raised && w.renewalIsLive then some w.endRenewal
  else
    match w.schedule with
    | [] => w.renewalStep c limit
    | (time, next) :: rest =>
      if time < limit && notAfter time w.renewalDue? then
        some (({ w with schedule := rest }.moveTo time).change next)
      else w.renewalStep c limit

/-- How many things can happen before the limit. Every step takes a change off the schedule,
fires a tick, wakes up a renewal that slept for at least a millisecond, or ends the loop. -/
def stepBound (limit : Nat) (w : World σ) : Nat :=
  w.schedule.length + (w.renewal.map (·.ticksBefore limit)).getD 0 + (limit - w.now) + 2

/-- Does everything that happens before the limit, in at most so many steps. A wait that can be
interrupted is over once the signal is raised. -/
def advanceBy (c : Collaborators σ) (interruptible : Bool) (limit : Nat) :
    Nat → World σ → World σ
  | 0, w => w
  | bound + 1, w =>
    if interruptible && w.signal.raised then w
    else
      match w.step c limit with
      | none => w
      | some w => advanceBy c interruptible limit bound w

def advance (c : Collaborators σ) (interruptible : Bool) (limit : Nat) (w : World σ) : World σ :=
  w.advanceBy c interruptible limit (w.stepBound limit)

def advanceThrough (c : Collaborators σ) (time : Nat) (w : World σ) : World σ :=
  (w.advance c false (time + 1)).moveTo time

/-- Waits for so many milliseconds, or for the longest wait if that is shorter. -/
def wait (c : Collaborators σ) (ms : Nat) (w : World σ) : World σ :=
  w.advanceThrough c (w.now + min ms longestWait)

end World

end Rollout
