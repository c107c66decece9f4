import Rollout.Text.Pieces
import Rollout.Text.Width

/-!
# Tables

A table is drawn with plain characters: a rule above and below every row and a bar on either
side of every cell. A column is as wide as the widest line of its cells, a row as high as its
highest cell, and cells are filled up on the right and below.
-/

namespace Rollout.Text

def cellLines (cell : String) : List String := split '\n' cell

/-- The columns that a cell takes. -/
def cellWidth (cell : String) : Nat :=
  (cellLines cell).foldl (fun widest line => max widest (width line)) 0

/-- The widths of columns that are to hold a row as well. -/
def widen : List Nat → List String → List Nat
  | widths, [] => widths
  | [], cell :: cells => cellWidth cell :: widen [] cells
  | w :: widths, cell :: cells => max w (cellWidth cell) :: widen widths cells

def columnWidths (rows : List (List String)) : List Nat := rows.foldl widen []

def tableRule (widths : List Nat) : String :=
  "+" ++ String.join (widths.map fun w => String.ofList (List.replicate (w + 2) '-') ++ "+")

def padTo (w : Nat) (s : String) : String := s ++ String.ofList (List.replicate (w - width s) ' ')

def tableLine (widths : List Nat) (texts : List String) : String :=
  "|" ++ String.join (List.zipWith (fun w s => " " ++ padTo w s ++ " |") widths texts)

def rowHeight (cells : List String) : Nat :=
  cells.foldl (fun highest cell => max highest (cellLines cell).length) 1

def rowLines (widths : List Nat) (cells : List String) : List String :=
  (List.range (rowHeight cells)).map fun i =>
    tableLine widths (cells.map fun cell => ((cellLines cell)[i]?).getD "")

def tableLines (rows : List (List String)) : List String :=
  let widths := columnWidths rows
  tableRule widths :: rows.flatMap fun row => rowLines widths row ++ [tableRule widths]

/-- A table as text, without a line break at its end. -/
def table (rows : List (List String)) : String := String.intercalate "\n" (tableLines rows)

end Rollout.Text
