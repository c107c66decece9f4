import Rollout.Command.Paint
import Rollout.Plan
import Rollout.Text.Blank
import Rollout.Text.Table

/-!
# Reports

A plan is reported as a table for an operator, with what it means for the fleet around it, or
as one JSON document. Warnings about a table are kept apart from it.
-/

namespace Rollout.Command

/-- What is printed, and what is printed beside it for the operator alone. -/
structure Printout where
  output : String := ""
  remarks : String := ""
  deriving DecidableEq, Repr

def asLine (s : String) : String := s ++ "\n"

/-- The cells of a row, under the header. -/
def rowCells (row : PlanRow) : List String :=
  [row.machine, row.group, row.action, row.region, row.mount]

def tableHeader : List String := ["MACHINE", "GROUP", "ACTION", "REGION", "MOUNT"]

def rowsText (colours : Bool) (rows : List PlanRow) : String :=
  if rows.isEmpty then paint colours .dimmed "No machines to deploy."
  else Text.table (tableHeader :: rows.map rowCells)

/-- What changes about the groups, set off from what follows. -/
def summaryText (colours : Bool) : Option String → String
  | none => ""
  | some summary => asLine (paint colours .yellow (Text.trimEnd summary)) ++ "\n"

def replacementText (colours : Bool) (count : Nat) : String :=
  if count = 0 then ""
  else
    asLine (paint colours .boldBlue "Info:" ++ " " ++ toString count ++
      " machine(s) will be destroyed and replaced")

def warningText (colours : Bool) (w : BuildWarning) : String :=
  asLine (paint colours .boldYellow "Warning:" ++ " " ++ w.message)

def tableReport (colours : Bool) (plan : Plan) : Printout where
  output :=
    summaryText colours plan.diff.summary ++ asLine (rowsText colours plan.rows) ++
      replacementText colours plan.replacementCount
  remarks := String.join (plan.warnings.map (warningText colours))

def rowDocument (row : PlanRow) : Json :=
  Json.ofMembers
    [("machine", .str row.machine), ("group", .str row.group), ("action", .str row.action),
      ("region", .str row.region), ("mount", .str row.mount)]

def document (plan : Plan) : Json :=
  let summary :=
    match plan.diff.summary with
    | none => Json.null
    | some text => .str text
  Json.ofMembers
    [("summary", summary), ("machines", .arr (plan.rows.map rowDocument)),
      ("warnings", Json.ofStrings (plan.warnings.map BuildWarning.message))]

def jsonReport (plan : Plan) : Printout where
  output := asLine ((document plan).pretty 0)

end Rollout.Command
