import Rollout.Id
import Rollout.Text.Decimal

/-!
# Arguments of the command line

The program has one subcommand, which plans a rollout. Its options have long names; a value
follows as the next argument or behind an equals sign, and every option may be given once. An
argument that starts with a hyphen is no value of the option before it, unless the hyphen
stands alone or the value is behind an equals sign. Arguments are read from left to right and
the first fault is reported, so a request for help wins over faults that come after it.
-/

namespace Rollout.Command

inductive Format
  | table
  | json
  deriving DecidableEq, Repr

/-- What a plan is asked for with. -/
structure PlanRequest where
  machines : String
  volumes : String
  appConfig : String
  guest : Option String := none
  image : String
  releaseId : String
  releaseVersion : Version
  app : String := "app"
  org : String := "personal"
  managedPostgres : Bool := false
  restartOnly : Bool := false
  format : Format := .table
  deriving DecidableEq, Repr

inductive ValueOption
  | machines
  | volumes
  | appConfig
  | guest
  | image
  | releaseId
  | releaseVersion
  | app
  | org
  | format
  deriving DecidableEq, Repr

inductive Switch
  | managedPostgres
  | restartOnly
  deriving DecidableEq, Repr

def ValueOption.all : List ValueOption :=
  [.machines, .volumes, .appConfig, .guest, .image, .releaseId, .releaseVersion, .app, .org,
    .format]

def ValueOption.name : ValueOption → String
  | .machines => "machines"
  | .volumes => "volumes"
  | .appConfig => "app-config"
  | .guest => "guest"
  | .image => "image"
  | .releaseId => "release-id"
  | .releaseVersion => "release-version"
  | .app => "app"
  | .org => "org"
  | .format => "format"

def Switch.all : List Switch := [.managedPostgres, .restartOnly]

def Switch.name : Switch → String
  | .managedPostgres => "managed-postgres"
  | .restartOnly => "restart-only"

inductive UsageError
  | noCommand
  | unknownCommand (text : String)
  | unexpected (argument : String)
  | valueMissing (option : ValueOption)
  | valueUnexpected (option : String)
  | repeated (option : String)
  | invalid (option : ValueOption) (value : String)
  | required (option : ValueOption)
  deriving DecidableEq, Repr

def UsageError.message : UsageError → String
  | .noCommand => "a command is required"
  | .unknownCommand text => "unrecognized command '" ++ text ++ "'"
  | .unexpected argument => "unexpected argument '" ++ argument ++ "'"
  | .valueMissing option => "a value is required for '--" ++ option.name ++ "'"
  | .valueUnexpected option => "unexpected value for '--" ++ option ++ "'"
  | .repeated option => "'--" ++ option ++ "' cannot be used multiple times"
  | .invalid option value => "invalid value '" ++ value ++ "' for '--" ++ option.name ++ "'"
  | .required option => "'--" ++ option.name ++ "' is required"

/-- The options given so far. -/
structure Given where
  values : List (ValueOption × String) := []
  switches : List Switch := []
  deriving Repr

def readFormat : String → Option Format
  | "table" => some .table
  | "json" => some .json
  | _ => none

/-- Reads a release version. It may have a sign, so zero has a second spelling. -/
def readVersion (s : String) : Option Version :=
  match s.toList with
  | '-' :: digit :: digits =>
    if (digit :: digits).all (· = '0') then some ⟨0⟩ else none
  | _ =>
    match Version.parse s with
    | .ok version => some version
    | .error _ => none

namespace Given

def value? (g : Given) (o : ValueOption) : Option String :=
  (g.values.find? fun entry => entry.1 == o).map (·.2)

/-- Whether an option can have a value. Names of files are not empty. -/
def fits : ValueOption → String → Bool
  | .machines, s | .volumes, s | .appConfig, s | .guest, s => s ≠ ""
  | .releaseVersion, s => (readVersion s).isSome
  | .format, s => (readFormat s).isSome
  | .image, _ | .releaseId, _ | .app, _ | .org, _ => true

def give (g : Given) (o : ValueOption) (s : String) : Except UsageError Given :=
  if (g.value? o).isSome then .error (.repeated o.name)
  else if fits o s then .ok { g with values := (o, s) :: g.values }
  else .error (.invalid o s)

def turnOn (g : Given) (s : Switch) : Except UsageError Given :=
  if g.switches.contains s then .error (.repeated s.name)
  else .ok { g with switches := s :: g.switches }

def need (g : Given) (o : ValueOption) : Except UsageError String :=
  match g.value? o with
  | some s => .ok s
  | none => .error (.required o)

def request (g : Given) : Except UsageError PlanRequest := do
  let machines ← g.need .machines
  let volumes ← g.need .volumes
  let appConfig ← g.need .appConfig
  let image ← g.need .image
  let releaseId ← g.need .releaseId
  let versionText ← g.need .releaseVersion
  match readVersion versionText with
  | none => .error (.invalid .releaseVersion versionText)
  | some releaseVersion =>
    .ok
      { machines, volumes, appConfig, image, releaseId, releaseVersion
        guest := g.value? .guest
        app := (g.value? .app).getD "app"
        org := (g.value? .org).getD "personal"
        managedPostgres := g.switches.contains .managedPostgres
        restartOnly := g.switches.contains .restartOnly
        format := ((g.value? .format).bind readFormat).getD .table }

end Given

inductive Request
  | plan (request : PlanRequest)
  | help
  | version
  deriving DecidableEq, Repr

/-- The name of a long option, and the value behind an equals sign. -/
def longOption? (argument : String) : Option (String × Option String) :=
  match argument.toList with
  | '-' :: '-' :: text =>
    let name := String.ofList (text.takeWhile (· ≠ '='))
    match text.dropWhile (· ≠ '=') with
    | [] => some (name, none)
    | _ :: value => some (name, some (String.ofList value))
  | _ => none

/-- Whether an argument can be the value of the option before it. -/
def isValue (argument : String) : Bool :=
  match argument.toList with
  | ['-'] => true
  | '-' :: _ => false
  | _ => true

/-- Whether an argument starts with a switch of one letter. What stands behind the letter would
be more such switches; it is not read. -/
def startsWithSwitch (letter : Char) (argument : String) : Bool :=
  ['-', letter].isPrefixOf argument.toList

/-- What an argument asks for that is not a value. -/
inductive Flag
  | help
  | switch (s : Switch)
  | awaits (o : ValueOption)
  | gives (o : ValueOption) (value : String)

def readFlag (argument : String) : Except UsageError Flag :=
  match longOption? argument with
  | none =>
    if startsWithSwitch 'h' argument then .ok .help else .error (.unexpected argument)
  | some (name, value?) =>
    match ValueOption.all.find? (·.name == name), value? with
    | some o, some value => .ok (.gives o value)
    | some o, none => .ok (.awaits o)
    | none, _ =>
      match Switch.all.find? (·.name == name) with
      | some s => if value?.isSome then .error (.valueUnexpected name) else .ok (.switch s)
      | none =>
        if name ≠ "help" then .error (.unexpected argument)
        else if value?.isSome then .error (.valueUnexpected name)
        else .ok .help

/-- Reads the arguments of a plan after the options so far. The first argument is the option
that still awaits its value. -/
def readOptions : Option ValueOption → Given → List String → Except UsageError Request
  | none, g, [] => g.request.map .plan
  | some o, _, [] => .error (.valueMissing o)
  | some o, g, argument :: rest =>
    if isValue argument then do
      let g ← g.give o argument
      readOptions none g rest
    else .error (.valueMissing o)
  | none, g, "--" :: rest =>
    match rest with
    | [] => g.request.map .plan
    | argument :: _ => .error (.unexpected argument)
  | none, g, argument :: rest => do
    match ← readFlag argument with
    | .help => .ok .help
    | .switch s => do
      let g ← g.turnOn s
      readOptions none g rest
    | .awaits o => readOptions (some o) g rest
    | .gives o value => do
      let g ← g.give o value
      readOptions none g rest

def readArguments : List String → Except UsageError Request
  | [] => .error .noCommand
  | "plan" :: rest => readOptions none {} rest
  | "help" :: rest =>
    match rest with
    | [] | ["plan"] | ["help"] => .ok .help
    | other :: _ => .error (.unknownCommand other)
  | "--help" :: _ => .ok .help
  | "--version" :: _ => .ok .version
  | ["--"] => .error .noCommand
  | argument :: _ =>
    if startsWithSwitch 'h' argument then .ok .help
    else if startsWithSwitch 'V' argument then .ok .version
    else if isValue argument then .error (.unknownCommand argument)
    else .error (.unexpected argument)

def usageText : String :=
  "Fleet rollout tooling.\n\n" ++
    "Usage: deployer plan --machines FILE --volumes FILE --app-config FILE --image IMAGE\n" ++
    "                     --release-id ID --release-version NUMBER [--guest FILE]\n" ++
    "                     [--app NAME] [--org NAME] [--managed-postgres] [--restart-only]\n" ++
    "                     [--format table|json]\n"

def versionText : String := "deployer 0.1.0\n"

end Rollout.Command
