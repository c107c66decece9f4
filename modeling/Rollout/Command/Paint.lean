/-!
# Emphasis in a terminal

Parts of the output are emphasised by the control sequences of terminals when colours are
wanted. Colours can be forced and refused through variables; otherwise they are for terminals.
-/

namespace Rollout.Command

/-- How a part of the output stands out. -/
inductive Emphasis
  | yellow
  | dimmed
  | boldYellow
  | boldBlue
  | boldRed
  deriving DecidableEq, Repr

def Emphasis.parameters : Emphasis → String
  | .yellow => "33"
  | .dimmed => "2"
  | .boldYellow => "1;33"
  | .boldBlue => "1;34"
  | .boldRed => "1;31"

def Emphasis.start (e : Emphasis) : String := "\x1b[" ++ e.parameters ++ "m"

def emphasisEnd : String := "\x1b[0m"

/-- A text with an emphasis, if colours are wanted. Where the text itself ends emphasis it is
started anew. -/
def paint (colours : Bool) (e : Emphasis) (s : String) : String :=
  if colours then e.start ++ s.replace emphasisEnd (emphasisEnd ++ e.start) ++ emphasisEnd
  else s

/-- Whether a variable is set to anything but zero, if it is set. -/
def isOn (value : String) : Bool := value ≠ "0"

def wantsColours (lookup : String → Option String) (terminal : Bool) : Bool :=
  if (lookup "CLICOLOR_FORCE").any isOn then true
  else if (lookup "NO_COLOR").isSome then false
  else ((lookup "CLICOLOR").all isOn) && terminal

end Rollout.Command
