import Rollout.Text.Ranges

/-!
# Blanks and letter case

Trimming removes the characters with the property White_Space from both ends. Words of the
program's own vocabulary are compared without regard to case; they are made of ASCII letters,
so folding needs the ASCII letters and the one other character whose lower case is an ASCII
letter, the Kelvin sign.
-/

namespace Rollout.Text

/-- The code points with the property White_Space. -/
def blankRanges : List (Nat × Nat) :=
  [(0x9, 0xd), (0x20, 0x20), (0x85, 0x85), (0xa0, 0xa0), (0x1680, 0x1680), (0x2000, 0x200a),
   (0x2028, 0x2029), (0x202f, 0x202f), (0x205f, 0x205f), (0x3000, 0x3000)]

def isBlank (c : Char) : Bool := inRanges blankRanges c

def trimEnd (s : String) : String :=
  String.ofList (s.toList.reverse.dropWhile isBlank).reverse

def trim (s : String) : String :=
  String.ofList ((s.toList.dropWhile isBlank).reverse.dropWhile isBlank).reverse

/-- Lower case, as far as it can decide whether a text spells an ASCII word. -/
def foldChar (c : Char) : Char :=
  if c = '\u212a' then 'k' else c.toLower

def fold (s : String) : String := s.map foldChar

/-- A reversed line without the carriage return that stood before its line feed. -/
def dropReturn : List Char → List Char
  | '\r' :: line => line
  | line => line

/-- Cuts at line feeds; the first argument is the line so far, reversed. -/
def cutLines : List Char → List Char → List (List Char)
  | [], [] => []
  | line, [] => [line.reverse]
  | line, '\n' :: rest => (dropReturn line).reverse :: cutLines [] rest
  | line, c :: rest => cutLines (c :: line) rest

/-- The lines of a text. A line ends at a line feed, with or without a carriage return before
it; what follows the last line feed is a line of its own unless it is empty. -/
def lines (s : String) : List String :=
  (cutLines [] s.toList).map String.ofList

end Rollout.Text
