import Rollout.Script

/-!
# Traces

A trace tells what happened during a run, and when: calls that began and ended, what the pass
told on its way, what the renewal loop logged, and changes of the shutdown signal. A call that
was abandoned ends with the reply that it was cancelled.
-/

namespace Rollout

inductive Actor
  | pass
  | renewal
  deriving DecidableEq, Repr

inductive Event
  | began (actor : Actor) (call : Call)
  | ended (actor : Actor) (call : Call) (reply : Reply call.Answer)
  | note (n : Note)
  | renewalLog (record : LogRecord)
  | signal (change : SignalChange)

structure Timed where
  time : Nat
  event : Event

/-- Events in the order in which they happen. -/
abbrev Trace := List Timed

namespace Trace

def calls (t : Trace) : List (Nat × Call) :=
  t.filterMap fun
    | ⟨time, .began _ call⟩ => some (time, call)
    | _ => none

/-- What the pass told on its way. -/
def notes (t : Trace) : List Note :=
  t.filterMap fun
    | ⟨_, .note n⟩ => some n
    | _ => none

def progress (t : Trace) : List String :=
  t.notes.filterMap fun
    | .progress line => some line
    | .log _ => none

def logs (t : Trace) : List LogRecord :=
  t.notes.filterMap fun
    | .progress _ => none
    | .log record => some record

def renewalLogs (t : Trace) : List LogRecord :=
  t.filterMap fun
    | ⟨_, .renewalLog record⟩ => some record
    | _ => none

end Trace

end Rollout
