import BlockTransfer.Path
import BlockTransfer.Text.Width
/-!
# Tables drawn with lines

A table is drawn in a frame with round corners, a double line under the header
and dashed lines between the rows. Every column is as wide as its widest cell,
and every cell has one blank on both sides. A cell with line breaks makes its row
as high as it has lines.

Key definitions: `Table`, `Table.render`.
-/

namespace BlockTransfer

/-- The cells of a table, row by row. -/
structure Table where
  header : Option (List String) := none
  rows : List (List String)
  deriving DecidableEq, Repr

namespace Table

/-- The lines of a cell. -/
def cellLines (cell : String) : List (List Char) := Path.pieces (· == '\n') cell.toList

/-- The columns that a cell takes. -/
def cellWidth (cell : String) : Nat := ((cellLines cell).map Width.ofText).foldl max 0

/-- The widest cell of each column, for rows over the widths so far. -/
def widen : List Nat → List String → List Nat
  | w :: ws, c :: cs => max w (cellWidth c) :: widen ws cs
  | [], cs => cs.map cellWidth
  | ws, [] => ws

/-- The widths of the columns. -/
def widths (t : Table) : List Nat := (t.header.toList ++ t.rows).foldl widen []

/-- A text repeated. -/
def times (n : Nat) (s : String) : String := String.join (List.replicate n s)

/-- A horizontal line: its left end, what it is made of, its crossings, and its
right end. -/
def rule (ws : List Nat) (left line crossing right : String) : String :=
  left ++ crossing.intercalate (ws.map fun w => times (w + 2) line) ++ right

/-- One line of a cell, filled up to the column's width. -/
def padded (w : Nat) (line : List Char) : String :=
  " " ++ String.ofList line ++ times (w - Width.ofText line) " " ++ " "

/-- The lines of a row. -/
def rowLines (ws : List Nat) (row : List String) : List String :=
  let cells := row.map cellLines
  let height := (cells.map List.length).foldl max 1
  (List.range height).map fun i =>
    "│" ++ "┆".intercalate ((ws.zip cells).map fun (w, cell) => padded w ((cell[i]?).getD [])) ++
      "│"

/-- The lines of the table. -/
def lines (t : Table) : List String :=
  let ws := t.widths
  let header := match t.header with
    | none => []
    | some cells => rowLines ws cells ++ [rule ws "╞" "═" "╪" "╡"]
  let rows := (t.rows.map (rowLines ws)).intersperse [rule ws "├" "╌" "┼" "┤"]
  [rule ws "╭" "─" "┬" "╮"] ++ header ++ rows.flatten ++ [rule ws "╰" "─" "┴" "╯"]

/-- The drawing, without a line break at the end. -/
def render (t : Table) : String := "\n".intercalate t.lines

end Table
end BlockTransfer
