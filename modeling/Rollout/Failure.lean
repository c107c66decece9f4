import Rollout.Launch

/-!
# Failures

A failure is a text with the texts of what caused it, outermost first. A rollout fails with an
error that names the step that failed and, where there is one, the machine or group, and that
carries the failure of the collaborator or of the build.
-/

namespace Rollout

/-- A text and the texts of its causes, outermost first. -/
structure Failure where
  message : String
  causes : List String := []
  deriving DecidableEq, Repr, Inhabited

namespace Failure

def chain (f : Failure) : List String := f.message :: f.causes

/-- All texts in one line. -/
def full (f : Failure) : String := String.intercalate ": " f.chain

end Failure

inductive WaitKind
  | started
  | healthy
  deriving DecidableEq, Repr

def WaitKind.word : WaitKind → String
  | .started => "started"
  | .healthy => "healthy"

inductive DeployError
  | releaseStatus (cause : Failure)
  | finalReleaseStatus (cause : Failure)
  | releaseCommand (cause : Failure)
  | leaseAcquisition (cause : Failure)
  | destroy (machine : MachineId) (cause : Failure)
  | create (group : String) (hint : Option String) (cause : Failure)
  | launch (replaces : MachineId) (cause : Failure)
  | update (machine : MachineId) (cause : Failure)
  | wait (machine : MachineId) (kind : WaitKind) (cause : Failure)
  | buildPlan (machine : MachineId) (cause : BuildError)
  | buildLaunch (group : String) (cause : BuildError)
  | cancelled
  deriving DecidableEq, Repr

namespace DeployError

/-- How an error is worded. A hint stands on a line of its own. -/
def message : DeployError → String
  | .releaseStatus _ => "failed to set release status to 'running'"
  | .finalReleaseStatus _ => "failed to set final release status"
  | .releaseCommand _ => "release command failed - aborting deployment"
  | .leaseAcquisition _ => "failed to acquire leases"
  | .destroy machine _ => "failed to destroy machine " ++ machine.text
  | .create group hint _ =>
    "error creating a new machine in group '" ++ group ++ "'" ++
      (match hint with
      | some text => "\n" ++ text
      | none => "")
  | .launch replaces _ => "failed to launch replacement for machine " ++ replaces.text
  | .update machine _ => "failed to update machine " ++ machine.text
  | .wait machine kind _ => "machine " ++ machine.text ++ " did not become " ++ kind.word
  | .buildPlan machine _ => "failed to update machine configuration for " ++ machine.text
  | .buildLaunch group _ => "error creating machine configuration for group '" ++ group ++ "'"
  | .cancelled => "deployment cancelled"

def buildError? : DeployError → Option BuildError
  | .buildPlan _ cause => some cause
  | .buildLaunch _ cause => some cause
  | _ => none

def failure? : DeployError → Option Failure
  | .releaseStatus cause => some cause
  | .finalReleaseStatus cause => some cause
  | .releaseCommand cause => some cause
  | .leaseAcquisition cause => some cause
  | .destroy _ cause => some cause
  | .create _ _ cause => some cause
  | .launch _ cause => some cause
  | .update _ cause => some cause
  | .wait _ _ cause => some cause
  | .buildPlan .. | .buildLaunch .. | .cancelled => none

/-- The texts of what is behind the error, outermost first. -/
def causes (e : DeployError) : List String :=
  match e.buildError?, e.failure? with
  | some cause, _ => cause.message :: cause.causes
  | none, some cause => cause.chain
  | none, none => []

def isCancelled : DeployError → Bool
  | .cancelled => true
  | _ => false

end DeployError

end Rollout
