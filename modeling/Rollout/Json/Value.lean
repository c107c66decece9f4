import Rollout.Dict
import Rollout.Json.Binary64
import Rollout.Text.Decimal

/-!
# JSON values and their text

A number is held as an integer where its text is one and it fits 64 bits, signed or unsigned,
and as a binary floating-point number otherwise. An object's members are in key order.

Printing is compact or indented by two spaces. Strings keep every character but the quote, the
backslash and the controls.
-/

namespace Rollout

namespace Json

/-- A number as JSON texts hold them. -/
inductive Number
  | integer (value : Int)
  | real (value : Binary64)
  deriving DecidableEq, Repr, Inhabited

def Number.toText : Number → String
  | .integer z => toString z
  | .real x => x.toText

end Json

/-- A JSON value. -/
inductive Json
  | null
  | bool (value : Bool)
  | num (value : Json.Number)
  | str (value : String)
  | arr (items : List Json)
  | obj (members : List (String × Json))
  deriving Repr, Inhabited

namespace Json

def escapeChar (c : Char) : List Char :=
  if c = '"' then ['\\', '"']
  else if c = '\\' then ['\\', '\\']
  else if c = '\x08' then ['\\', 'b']
  else if c = '\x0c' then ['\\', 'f']
  else if c = '\n' then ['\\', 'n']
  else if c = '\r' then ['\\', 'r']
  else if c = '\t' then ['\\', 't']
  else if c.toNat < 32 then '\\' :: 'u' :: (Text.hexadecimal4 c.toNat).toList
  else [c]

def quote (s : String) : String :=
  "\"" ++ String.ofList (s.toList.flatMap escapeChar) ++ "\""

mutual

def compact : Json → String
  | .null => "null"
  | .bool true => "true"
  | .bool false => "false"
  | .num n => n.toText
  | .str s => quote s
  | .arr items => "[" ++ compactItems items ++ "]"
  | .obj members => "\x7b" ++ compactMembers members ++ "\x7d"

def compactItems : List Json → String
  | [] => ""
  | [item] => compact item
  | item :: rest => compact item ++ "," ++ compactItems rest

def compactMembers : List (String × Json) → String
  | [] => ""
  | [(key, value)] => quote key ++ ":" ++ compact value
  | (key, value) :: rest => quote key ++ ":" ++ compact value ++ "," ++ compactMembers rest

end

def lineBreak (level : Nat) : String :=
  "\n" ++ String.ofList (List.replicate (2 * level) ' ')

mutual

/-- The text of a value with one item or member a line. -/
def pretty (level : Nat) : Json → String
  | .arr [] => "[]"
  | .arr (item :: rest) =>
    "[" ++ prettyItems (level + 1) (item :: rest) ++ lineBreak level ++ "]"
  | .obj [] => "\x7b\x7d"
  | .obj (member :: rest) =>
    "\x7b" ++ prettyMembers (level + 1) (member :: rest) ++ lineBreak level ++ "\x7d"
  | .null => "null"
  | .bool true => "true"
  | .bool false => "false"
  | .num n => n.toText
  | .str s => quote s

def prettyItems (level : Nat) : List Json → String
  | [] => ""
  | [item] => lineBreak level ++ pretty level item
  | item :: rest => lineBreak level ++ pretty level item ++ "," ++ prettyItems level rest

def prettyMembers (level : Nat) : List (String × Json) → String
  | [] => ""
  | [(key, value)] => lineBreak level ++ quote key ++ ": " ++ pretty level value
  | (key, value) :: rest =>
    lineBreak level ++ quote key ++ ": " ++ pretty level value ++ "," ++
      prettyMembers level rest

end

def ofNat (n : Nat) : Json := .num (.integer n)

def ofStrings (texts : List String) : Json := .arr (texts.map .str)

/-- An object with the given members, put in key order. -/
def ofMembers (members : List (String × Json)) : Json :=
  .obj (Dict.ofList members).entries

end Json

end Rollout
