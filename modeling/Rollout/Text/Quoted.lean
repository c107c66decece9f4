import Rollout.Text.Decimal
import Rollout.Text.Extending
import Rollout.Text.Unprintable

/-!
# Quoted characters and strings

Messages show a foreign character or string between quotes, so that a reader can tell exactly
what it was: the common controls and the backslash by their short escapes, the quote itself
behind a backslash, and what has no printed form, or attaches to its neighbour, by number.
-/

namespace Rollout.Text

/-- One character as it stands between the given quotes. -/
def quotedChar (quote c : Char) : String :=
  if c = '\x00' then "\\0"
  else if c = '\t' then "\\t"
  else if c = '\r' then "\\r"
  else if c = '\n' then "\\n"
  else if c = '\\' then "\\\\"
  else if c = quote then String.ofList ['\\', quote]
  else if isExtending c || isUnprintable c then "\\u\x7b" ++ hexadecimal c.toNat ++ "\x7d"
  else String.singleton c

def quoteChar (c : Char) : String :=
  "'" ++ quotedChar '\'' c ++ "'"

def quoteString (s : String) : String :=
  "\"" ++ String.join (s.toList.map (quotedChar '"')) ++ "\""

end Rollout.Text
