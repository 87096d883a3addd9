import Timeshare.Display
import Timeshare.Text.Blank

/-!
# A screen of character cells

The screen has 25 rows of 80 cells.  Painting changes the cells of one row and
stops at its right edge.
-/

namespace Timeshare.Machine

/-- One character of the screen. -/
structure Cell where
  char : Char
  style : Style
  deriving DecidableEq

/-- A cell without text. -/
def Cell.blank : Cell := ⟨' ', .plain⟩

/-- The cells of the screen, row by row. -/
structure Screen where
  cells : Vector Cell (25 * 80)
  deriving DecidableEq

namespace Screen

/-- The number of rows. -/
abbrev rows : Nat := 25

/-- The number of cells in a row. -/
abbrev columns : Nat := 80

/-- An empty screen. -/
def blank : Screen := ⟨Vector.replicate (25 * 80) .blank⟩

/-- Write characters into the cells of a row from `column` on. -/
def writeRow (cells : Vector Cell (25 * 80)) (row : Fin rows) (column : Nat) (style : Style) :
    List Char → Vector Cell (25 * 80)
  | [] => cells
  | c :: rest =>
      if h : column < columns then
        have inside : row.val * columns + column < 25 * 80 := by
          have := row.isLt
          simp only [rows, columns] at *
          omega
        writeRow (cells.set (row.val * columns + column) ⟨c, style⟩) row (column + 1) style rest
      else cells

/-- Paint text at a place; a row below the screen is not painted. -/
def paint (screen : Screen) (row column : Nat) (style : Style) (text : String) : Screen :=
  if h : row < rows then ⟨writeRow screen.cells ⟨row, h⟩ column style text.toList⟩ else screen

/-- The number of the first cell of a row, if that number is a machine word. -/
def rowStart (row : Nat) : Except Fault Nat := Word.mulSize row columns

/-- The characters of a row without the blanks at its end. -/
def rowText (screen : Screen) (row : Nat) : Except Fault String := do
  let first ← rowStart row
  let last ← Word.addSize first columns
  if last ≤ 25 * 80 then
    let cells := (screen.cells.toList.drop first).take columns
    return String.ofList (Text.trimEnd (cells.map Cell.char))
  else .error .outOfBounds

/-- The style of the cell that lies `column` cells after the start of a row. -/
def styleAt (screen : Screen) (row column : Nat) : Except Fault Style := do
  let first ← rowStart row
  let cell ← Word.addSize first column
  match screen.cells[cell]? with
  | none => .error .outOfBounds
  | some cell => return cell.style

/-- The styles of the cells of a row, from left to right. -/
def rowStyles (screen : Screen) (row : Nat) : Except Fault (List Style) :=
  (List.range columns).mapM fun column => screen.styleAt row column

/-- The rows that hold text, each with its number, from the top. -/
def lines (screen : Screen) : Except Fault (List (Nat × String)) := do
  let texts ← (List.range rows).mapM fun row => return (row, ← screen.rowText row)
  return texts.filter fun line => !line.2.isEmpty

end Screen

end Timeshare.Machine
