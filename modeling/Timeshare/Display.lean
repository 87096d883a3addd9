import Timeshare.Word

/-!
# Painted text

The kernel paints text with a style that says what it shows.  A terminal
is told where to put the text and in which colours by escape sequences.
-/

namespace Timeshare

/-- What a painted text shows. -/
inductive Style where
  /-- Plain text. -/
  | plain
  /-- The head of a column. -/
  | header
  /-- The process that has the processor. -/
  | active
  /-- A sleeping process. -/
  | sleeping
  /-- A process that waits for a mutex or a message. -/
  | waiting
  deriving DecidableEq, Inhabited

namespace Style

/-- The escape sequence that selects the colours of a style. -/
def select : Style → String
  | plain => "\x1b[37;40m"
  | header => "\x1b[30;46m"
  | active => "\x1b[97;42m"
  | sleeping => "\x1b[33;40m"
  | waiting => "\x1b[36;40m"

end Style

namespace Display

/-- The escape sequence that resets the colours. -/
def reset : String := "\x1b[0m"

/-- The escape sequence that erases the terminal. -/
def erase : String := "\x1b[2J\x1b[H"

/-- The characters that paint `text` on a terminal, whose rows and columns
count from one. -/
def painted (row column : Nat) (style : Style) (text : String) : Except Fault String := do
  let row ← Word.addSize row 1
  let column ← Word.addSize column 1
  return s!"\x1b[{row};{column}H" ++ style.select ++ text ++ reset

end Display

end Timeshare
