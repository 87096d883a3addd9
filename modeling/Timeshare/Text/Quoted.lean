import Timeshare.Text.Layout
import Timeshare.Text.Shapeless

/-!
# Text in quotes

Text is written between double quotes.  A quote, a backslash and some control
characters are escaped by a letter, and every other character without a shape
of its own by its code point.
-/

namespace Timeshare.Text

/-- A character as it is written between double quotes. -/
def escape (c : Char) : String :=
  match c with
  | '\x00' => "\\0"
  | '\t' => "\\t"
  | '\r' => "\\r"
  | '\n' => "\\n"
  | '"' => "\\\""
  | '\\' => "\\\\"
  | c => if isShapeless c then "\\u\x7b" ++ hexDigits c.toNat ++ "\x7d" else String.singleton c

/-- A text in double quotes. -/
def quote (text : String) : String :=
  "\"" ++ String.join (text.toList.map escape) ++ "\""

end Timeshare.Text
