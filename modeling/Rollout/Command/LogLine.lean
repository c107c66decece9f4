import Rollout.Json.Value
import Rollout.Log

/-!
# Log lines

A log record is written as a JSON document on one line. The message is one of the fields.
-/

namespace Rollout.Command

def fieldDocument : LogValue → Json
  | .text s => .str s
  | .count n => Json.ofNat n
  | .flag b => .bool b

/-- A record of a target as JSON. -/
def logDocument (target : String) (r : LogRecord) : Json :=
  Json.ofMembers
    [("level", .str r.level.word), ("target", .str target),
      ("fields", Json.ofMembers
        (("message", .str r.message) :: r.fields.map fun f => (f.1, fieldDocument f.2)))]

end Rollout.Command
