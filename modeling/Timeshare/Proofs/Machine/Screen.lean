import Timeshare.Machine.Screen

/-!
# The cells of a screen

A screen is looked at cell by cell.  Painting a text changes the cells that its characters
reach and no others; two screens are the same if all their cells are.
-/

namespace Timeshare.Machine.Screen

variable {row column : Nat} {style : Style} {text : List Char}

/-- The number of the cell in a column of a row. -/
def place (row : Fin rows) (column : Fin columns) : Fin (25 * 80) :=
  ⟨row.val * columns + column.val, by
    have := row.isLt
    have := column.isLt
    simp only [rows, columns] at *
    omega⟩

/-- The cell in a column of a row. -/
def cellAt (screen : Screen) (row : Fin rows) (column : Fin columns) : Cell :=
  screen.cells[place row column]

/-- The cell that a painted text leaves at a place, if it reaches the place. -/
def inked? (row column : Nat) (style : Style) (text : List Char) (r : Fin rows)
    (c : Fin columns) : Option Cell :=
  if r.val = row ∧ column ≤ c.val then (text[c.val - column]?).map (⟨·, style⟩) else none

theorem inked?_nil (r : Fin rows) (c : Fin columns) : inked? row column style [] r c = none := by
  simp [inked?]

/-- A text reaches the cell of its first character, and then those behind it. -/
theorem inked?_cons (char : Char) (r : Fin rows) (c : Fin columns) :
    inked? row column style (char :: text) r c
      = if r.val = row ∧ c.val = column then some ⟨char, style⟩
        else inked? row (column + 1) style text r c := by
  unfold inked?
  by_cases hrow : r.val = row
  · rcases Nat.lt_trichotomy c.val column with hlt | heq | hgt
    · simp [hrow, Nat.ne_of_lt hlt, Nat.not_le.2 hlt, show ¬ column + 1 ≤ c.val by omega]
    · simp [hrow, heq]
    · simp [hrow, Nat.ne_of_gt hgt, Nat.le_of_lt hgt, show column + 1 ≤ c.val from hgt,
        show c.val - column = c.val - (column + 1) + 1 by omega]
  · simp [hrow]

/-- A text does not reach a cell in front of it. -/
theorem inked?_of_lt {r : Fin rows} {c : Fin columns} (h : c.val < column) :
    inked? row column style text r c = none :=
  if_neg fun hreach => Nat.not_le.2 h hreach.2

theorem place_eq_iff {r r' : Fin rows} {c : Fin columns} (h : column < columns) :
    r'.val * columns + column = (place r c).val ↔ r.val = r'.val ∧ c.val = column := by
  have := c.isLt
  simp only [place, columns] at *
  omega

theorem exists_place (i : Fin (25 * 80)) : ∃ row column, place row column = i := by
  have hrow : i.val / columns < rows := by
    have := i.isLt
    simp only [rows, columns]
    omega
  exact ⟨⟨i.val / columns, hrow⟩, ⟨i.val % columns, Nat.mod_lt _ (by decide)⟩,
    Fin.ext (Nat.div_add_mod' ..)⟩

section

variable {cells : Vector Cell (25 * 80)} {at' : Fin rows} {char : Char}

theorem writeRow_nil : writeRow cells at' column style [] = cells := rfl

/-- In front of the right edge a character is written and then those behind it. -/
theorem writeRow_cons_of_lt (h : column < columns)
    (inside : at'.val * columns + column < 25 * 80) :
    writeRow cells at' column style (char :: text)
      = writeRow (cells.set (at'.val * columns + column) ⟨char, style⟩ inside) at' (column + 1)
          style text :=
  dif_pos h

/-- Behind the right edge nothing is written. -/
theorem writeRow_cons_of_le (h : columns ≤ column) :
    writeRow cells at' column style (char :: text) = cells :=
  dif_neg (Nat.not_lt.2 h)

end

theorem getElem_writeRow (cells : Vector Cell (25 * 80)) (row : Fin rows) (column : Nat)
    (style : Style) (text : List Char) (r : Fin rows) (c : Fin columns) :
    (writeRow cells row column style text)[place r c]
      = (inked? row column style text r c).getD cells[place r c] := by
  induction text generalizing cells column with
  | nil => rw [inked?_nil, writeRow_nil, Option.getD_none]
  | cons char rest ih =>
      rw [inked?_cons]
      rcases Nat.lt_or_ge column columns with hinside | hedge
      · have hplace : row.val * columns + column < 25 * 80 := (place row ⟨column, hinside⟩).isLt
        rw [writeRow_cons_of_lt hinside hplace]
        simp only [ih, Fin.getElem_fin, Vector.getElem_set, place_eq_iff hinside]
        split
        · rename_i hhere
          rw [inked?_of_lt (hhere.2 ▸ Nat.lt_succ_self _), Option.getD_none, Option.getD_some]
        · rfl
      · -- behind the right edge there is no cell to reach
        have hfront : c.val < column := Nat.lt_of_lt_of_le c.isLt hedge
        rw [writeRow_cons_of_le hedge, if_neg fun hhere => Nat.ne_of_lt hfront hhere.2,
          inked?_of_lt (Nat.lt_succ_of_lt hfront), Option.getD_none]

/-- Painting a text changes the cells that it reaches. -/
theorem cellAt_paint (screen : Screen) (row column : Nat) (style : Style) (text : String)
    (r : Fin rows) (c : Fin columns) :
    (screen.paint row column style text).cellAt r c
      = (inked? row column style text.toList r c).getD (screen.cellAt r c) := by
  unfold paint
  split
  · exact getElem_writeRow ..
  · rename_i hbelow
    have houtside : inked? row column style text.toList r c = none := by
      refine if_neg ?_
      rintro ⟨rfl, _⟩
      exact hbelow r.isLt
    rw [houtside, Option.getD_none]

theorem cellAt_blank (r : Fin rows) (c : Fin columns) : blank.cellAt r c = .blank := by
  simp [cellAt, blank]

/-- Screens whose cells are the same are the same. -/
theorem eq_of_cellAt {screen screen' : Screen}
    (h : ∀ r c, screen.cellAt r c = screen'.cellAt r c) : screen = screen' := by
  obtain ⟨cells⟩ := screen
  obtain ⟨cells'⟩ := screen'
  congr 1
  refine Vector.ext fun i hi => ?_
  obtain ⟨r, c, hplace⟩ := exists_place ⟨i, hi⟩
  simpa [cellAt, hplace] using h r c

end Timeshare.Machine.Screen
