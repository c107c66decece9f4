import Rollout.Command.Arguments
import Rollout.Command.Directory
import Rollout.Command.Report
import Rollout.LogFilter
import Rollout.Settings
import Rollout.Wire.Decode

/-!
# Sessions

A session answers one request to plan a rollout from files that describe the fleet. It touches
nothing: files and variables come in as look-ups and what is to be printed goes out as text.
The settings are checked before any file is read, and the files are read in a fixed order; the
first fault ends the session.
-/

namespace Rollout.Command

/-- What a session can look up. -/
structure Surroundings where
  lookup : String → Option String
  /-- The contents of the file that a path leads to. -/
  file : String → Except FileFault ByteArray
  colours : Bool := false

inductive SessionError
  | settings (cause : SettingsError)
  | unreadable (path : String) (fault : FileFault)
  | unparsable (path : String) (cause : Json.DecodeError)
  | releaseId (cause : IdError)
  | plan (cause : DeployError)

def SessionError.failure : SessionError → Failure
  | .settings cause => cause.failure
  | .unreadable path fault => ⟨"failed to read " ++ path, [fault.message]⟩
  | .unparsable path cause => ⟨"failed to parse " ++ path, [cause.message]⟩
  | .releaseId cause => ⟨"invalid --release-id", [cause.message]⟩
  | .plan cause => ⟨cause.message, cause.causes⟩

/-- How the end of a failed session is told. -/
def errorLine (colours : Bool) (text : String) : String :=
  asLine (paint colours .boldRed "Error:" ++ " " ++ text)

structure Outcome where
  /-- The directives of the log filter that were left out. -/
  ignored : List LogFilter.Ignored := []
  logs : List LogRecord := []
  result : Except SessionError Printout

def Outcome.exitCode (o : Outcome) : Nat :=
  match o.result with
  | .ok _ => 0
  | .error _ => 1

def logTarget : String := "deployer"

namespace Surroundings

def load {α : Type} (s : Surroundings) (d : Json.Decoder α) (path : String) :
    Except SessionError α :=
  match s.file path with
  | .error fault => .error (.unreadable path fault)
  | .ok bytes =>
    match String.fromUTF8? bytes with
    | none => .error (.unreadable path .notText)
    | some text =>
      match Json.decode d text with
      | .ok a => .ok a
      | .error cause => .error (.unparsable path cause)

/-- The log filter: that of its own variable if it is right, else that of the settings. -/
def logFilter (s : Surroundings) (settings : Settings) : LogFilter × List LogFilter.Ignored :=
  match (s.lookup "RUST_LOG").map LogFilter.read with
  | some (.ok filter) => (filter, [])
  | _ => LogFilter.readSound settings.logLevel

def variableNames : List String :=
  ["FLEET_STRATEGY", "FLEET_START_TIMEOUT_SECS", "FLEET_HEALTH_TIMEOUT_SECS",
    "FLEET_LEASE_TTL_SECS", "FLEET_LEASE_RENEW_INTERVAL_SECS", "FLEET_SKIP_HEALTH_CHECKS",
    "FLEET_RESTART_ONLY", "FLEET_LOG_LEVEL", "RUST_LOG", "CLICOLOR", "CLICOLOR_FORCE",
    "NO_COLOR"]

/-- Reads the files of a request: the deployment and the resolver of the app. -/
def deployment (s : Surroundings) (r : PlanRequest) :
    Except SessionError (Deployment × Resolver) := do
  let machines ← s.load (Json.list Machine.decoder) r.machines
  let volumes ← s.load (Json.list Volume.decoder) r.volumes
  let appConfig ← s.load AppConfig.decoder r.appConfig
  let guest ←
    match r.guest with
    | none => .ok none
    | some path => (s.load Guest.decoder path).map some
  let id ← (Id.parse .release r.releaseId).mapError .releaseId
  let release : Release :=
    { id, version := r.releaseVersion, managedPostgres := r.managedPostgres }
  let launch : LaunchContext := { app := r.app, orgSlug := r.org, image := r.image, release }
  return ({ launch, guest, machines, volumes := VolumePool.ofVolumes volumes },
    appConfig.resolver)

def planningLog (d : Deployment) (restart : Bool) : LogRecord :=
  ⟨.info, "Planning rollout",
    [("app", .text d.launch.app), ("machine_count", .count d.machines.length),
      ("restart_only", .flag restart)]⟩

def planFor (d : Deployment) (resolver : Resolver) (restart : Bool) : Except SessionError Plan :=
  if restart then .ok (Plan.restart d resolver)
  else (Plan.deploy d resolver).mapError .plan

def report (s : Surroundings) (format : Format) (plan : Plan) : Printout :=
  match format with
  | .table => tableReport s.colours plan
  | .json => jsonReport plan

def answer (s : Surroundings) (r : PlanRequest) : Outcome :=
  match Settings.ofLookup s.lookup with
  | .error cause => { result := .error (.settings cause) }
  | .ok settings =>
    let (filter, ignored) := s.logFilter settings
    let restart := r.restartOnly || settings.restartOnly
    match s.deployment r with
    | .error e => { ignored, result := .error e }
    | .ok (d, resolver) =>
      let logs := [planningLog d restart].filter (filter.passes logTarget)
      { ignored, logs, result := (planFor d resolver restart).map (s.report r.format) }

end Surroundings

end Rollout.Command
