import Rollout.Command.LogLine
import Rollout.Command.Session

/-!
# The program

Looks up the variables and files that a request needs, hands them to a session and prints what
it comes to. Log records and remarks go to standard error. The exit status is 1 for a session
that fails and 2 for arguments that cannot be understood.
-/

namespace Rollout.Command

/-- The fault that a failed look-up stands for. -/
def fileFault : IO.Error → FileFault
  | .noFileOrDirectory .. => .missing
  | .permissionDenied .. => .denied
  | .inappropriateType _ code _ => if code = 20 then .notDirectory else .isDirectory
  | e => .other (toString e)

def readVariables : List String → IO (List (String × String))
  | [] => return []
  | name :: rest => do
    let later ← readVariables rest
    match ← IO.getEnv name with
    | some value => return (name, value) :: later
    | none => return later

def readFiles : List String → IO (List (String × Except FileFault ByteArray))
  | [] => return []
  | path :: rest => do
    let contents ← (IO.FS.readBinFile path).toBaseIO
    return (path, contents.mapError fileFault) :: (← readFiles rest)

def lookUp {α : Type} (entries : List (String × α)) (key : String) : Option α :=
  (entries.find? fun entry => entry.1 == key).map (·.2)

def filesOf (r : PlanRequest) : List String :=
  [r.machines, r.volumes, r.appConfig] ++ r.guest.toList

def runPlan (r : PlanRequest) : IO UInt32 := do
  let settings ← readVariables Surroundings.variableNames
  let files ← readFiles (filesOf r)
  let colours := wantsColours (lookUp settings) (← (← IO.getStdout).isTty)
  let outcome := Surroundings.answer
    { lookup := lookUp settings
      file := fun path => (lookUp files path).getD (.error .missing)
      colours } r
  for ignored in outcome.ignored do
    IO.eprintln ignored.message
  for record in outcome.logs do
    IO.eprintln (logDocument logTarget record).compact
  match outcome.result with
  | .ok printout =>
    IO.print printout.output
    IO.eprint printout.remarks
  | .error e => IO.eprint (errorLine colours e.failure.full)
  return UInt32.ofNat outcome.exitCode

end Rollout.Command

open Rollout.Command

def main (args : List String) : IO UInt32 := do
  match readArguments args with
  | .error e =>
    IO.eprintln ("error: " ++ e.message)
    return 2
  | .ok .help =>
    IO.print usageText
    return 0
  | .ok .version =>
    IO.print versionText
    return 0
  | .ok (.plan request) => runPlan request
