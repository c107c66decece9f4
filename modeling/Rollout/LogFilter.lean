import Rollout.LogFilter.Directive

/-!
# Log filters

A filter is a list of directives with commas between them. Of the directives that speak about a
record the one with the longest target decides; of those with the same target one that names a
field, and of several fields the last in order; of equals the later one. A filter without
directives lets errors pass.
-/

namespace Rollout

structure LogFilter where
  directives : List Directive := []
  deriving DecidableEq, Repr

namespace LogFilter

def texts (s : String) : List String := (Text.split ',' s).filter (· ≠ "")

/-- Reads a filter all of whose directives must be right. -/
def read (s : String) : Except FilterFault LogFilter := do
  return ⟨← (texts s).mapM Directive.read⟩

/-- A directive that is left out, and why. -/
structure Ignored where
  text : String
  fault : FilterFault
  deriving DecidableEq, Repr

def Ignored.message (i : Ignored) : String :=
  "ignoring `" ++ i.text ++ "`: " ++ i.fault.message

/-- Reads a filter from the directives that are right, and names the others. -/
def readSound (s : String) : LogFilter × List Ignored :=
  let answers := (texts s).map fun text => (text, Directive.read text)
  (⟨answers.filterMap fun
      | (_, .ok d) => some d
      | (_, .error _) => none⟩,
    answers.filterMap fun
      | (_, .ok _) => none
      | (text, .error fault) => some ⟨text, fault⟩)

/-- The closer of two directives; of two equally close ones the later. -/
def closer (best : Option Directive) (d : Directive) : Option Directive :=
  match best with
  | none => some d
  | some b => if b.noCloser d then some d else some b

/-- The directive that decides about records of a target that have the given fields. -/
def decisive (f : LogFilter) (target : String) (fields : List String) : Option Directive :=
  (f.directives.filter (·.covers target fields)).foldl closer none

def passes (f : LogFilter) (target : String) (r : LogRecord) : Bool :=
  if f.directives.isEmpty then r.level.verbosity ≤ LogLevel.error.verbosity
  else
    match f.decisive target r.fieldNames with
    | none => false
    | some d => r.level.verbosity ≤ d.verbosity

end LogFilter

end Rollout
