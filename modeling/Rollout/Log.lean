/-!
# Log records

A record has a level, a message and named fields, in the order in which they are given.
-/

namespace Rollout

inductive LogLevel
  | error
  | warn
  | info
  | debug
  | trace
  deriving DecidableEq, Repr

def LogLevel.word : LogLevel → String
  | .error => "ERROR"
  | .warn => "WARN"
  | .info => "INFO"
  | .debug => "DEBUG"
  | .trace => "TRACE"

inductive LogValue
  | text (value : String)
  | count (value : Nat)
  | flag (value : Bool)
  deriving DecidableEq, Repr

structure LogRecord where
  level : LogLevel
  message : String
  fields : List (String × LogValue) := []
  deriving DecidableEq, Repr

/-- The names under which a record holds something, its message among them. -/
def LogRecord.fieldNames (r : LogRecord) : List String := "message" :: r.fields.map (·.1)

end Rollout
