import Rollout.Call

/-!
# Scripts

What a rollout does is a script: a tree of calls to collaborators, each with a continuation
for every reply, and of notes in between. A script is pure data, so everything that a rollout
may do under any behaviour of its collaborators can be read off it.

Scripts end well, with an error or in a panic, and are put together as a monad.
-/

namespace Rollout

/-- How a script, or a part of it, ends. -/
inductive Exit (α : Type)
  | ok (value : α)
  | error (e : DeployError)
  | panic (text : String)
  deriving Repr

/-- What a rollout tells on its way: lines of progress and log records. -/
inductive Note
  | progress (line : String)
  | log (record : LogRecord)
  deriving DecidableEq, Repr

/-- What a rollout does. -/
inductive Script (α : Type)
  | done (exit : Exit α)
  | note (n : Note) (next : Script α)
  /-- Looks whether shutdown is requested. -/
  | checkpoint (next : Bool → Script α)
  | call (c : Call) (next : Reply c.Answer → Script α)
  /-- Begins to renew leases in the background. -/
  | startRenewal (machines : List MachineId) (ttl interval : Duration) (next : Script α)
  /-- Ends the renewal of leases. -/
  | stopRenewal (next : Script α)

namespace Script

variable {α β : Type}

/-- Goes on with the value of a script that ends well. -/
def bind : Script α → (α → Script β) → Script β
  | .done (.ok a), f => f a
  | .done (.error e), _ => .done (.error e)
  | .done (.panic text), _ => .done (.panic text)
  | .note n next, f => .note n (next.bind f)
  | .checkpoint next, f => .checkpoint fun raised => (next raised).bind f
  | .call c next, f => .call c fun reply => (next reply).bind f
  | .startRenewal machines ttl interval next, f =>
    .startRenewal machines ttl interval (next.bind f)
  | .stopRenewal next, f => .stopRenewal (next.bind f)

instance : Monad Script where
  pure a := .done (.ok a)
  bind := bind

/-- The same script with its end, whatever it is, as its value. -/
def attempt : Script α → Script (Exit α)
  | .done exit => .done (.ok exit)
  | .note n next => .note n next.attempt
  | .checkpoint next => .checkpoint fun raised => (next raised).attempt
  | .call c next => .call c fun reply => (next reply).attempt
  | .startRenewal machines ttl interval next =>
    .startRenewal machines ttl interval next.attempt
  | .stopRenewal next => .stopRenewal next.attempt

def fail (e : DeployError) : Script α := .done (.error e)

def progress (line : String) : Script Unit := .note (.progress line) (pure ())

def progressLines : List String → Script Unit
  | [] => pure ()
  | line :: rest => do
    progress line
    progressLines rest

def log (level : LogLevel) (message : String) (fields : List (String × LogValue) := []) :
    Script Unit :=
  .note (.log ⟨level, message, fields⟩) (pure ())

def cancel : Script α := do
  log .info "Rollout cancelled"
  fail .cancelled

/-- Makes a call; the first argument turns a failure into the error of this step. -/
def request (blame : Failure → DeployError) (c : Call) : Script c.Answer :=
  .call c fun
    | .ok answer => pure answer
    | .failed failure => fail (blame failure)
    | .panicked text => .done (.panic text)
    | .cancelled => cancel

/-- Makes a call that is carried through, and hands its failure on as a value. -/
def carryThrough (c : Call) : Script (Except Failure c.Answer) :=
  .call c fun
    | .ok answer => pure (.ok answer)
    | .failed failure => pure (.error failure)
    | .panicked text => .done (.panic text)
    | .cancelled => cancel

end Script

end Rollout
