import Rollout.Text.Blank

/-!
# Strategies

A rolling rollout waits for every machine to become healthy and stops at the first failure. An
immediate one waits for nothing and goes on after a machine that failed.
-/

namespace Rollout

inductive Strategy
  | rolling
  | immediate
  deriving DecidableEq, Repr, Inhabited

/-- What a failed machine does to the pass. -/
inductive FailurePolicy
  | bestEffort
  | failFast
  deriving DecidableEq, Repr

inductive StrategyError
  | unsupported (text : String)
  | unknown (text : String)
  deriving DecidableEq, Repr

def StrategyError.message : StrategyError → String
  | .unsupported text => "deployment strategy '" ++ text ++ "' is not supported yet"
  | .unknown text =>
    "unknown deployment strategy '" ++ text ++ "' (expected 'rolling' or 'immediate')"

namespace Strategy

def failurePolicy : Strategy → FailurePolicy
  | .rolling => .failFast
  | .immediate => .bestEffort

/-- Whether the pass waits for each machine before it goes on. -/
def isHealthGated : Strategy → Bool
  | .rolling => true
  | .immediate => false

def word : Strategy → String
  | .rolling => "rolling"
  | .immediate => "immediate"

/-- Reads a strategy's name, without regard to case and to blanks around it. -/
def parse (s : String) : Except StrategyError Strategy :=
  let name := Text.fold (Text.trim s)
  if name = "rolling" then .ok .rolling
  else if name = "immediate" then .ok .immediate
  else if name = "canary" ∨ name = "bluegreen" then .error (.unsupported s)
  else .error (.unknown s)

end Strategy

end Rollout
