/-!
# The shutdown signal

Somebody outside can ask a rollout to stop and can take the request back. Once that party is
gone the signal stays as it is; a signal that was not raised then never will be.
-/

namespace Rollout

inductive SignalChange
  | raise
  | lower
  /-- The party that can change the signal goes away. -/
  | detach
  deriving DecidableEq, Repr

structure Signal where
  raised : Bool := false
  detached : Bool := false
  deriving DecidableEq, Repr, Inhabited

namespace Signal

def change (s : Signal) : SignalChange → Signal
  | .raise => if s.detached then s else { s with raised := true }
  | .lower => if s.detached then s else { s with raised := false }
  | .detach => { s with detached := true }

/-- Whether somebody who waits for shutdown may go on. -/
def isReady (s : Signal) : Bool := s.raised

end Signal

end Rollout
