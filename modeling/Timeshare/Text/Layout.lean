/-!
# Columns and hexadecimal numbers

Text is padded with blanks to a column width, and addresses are written in
hexadecimal after `0x`.  A text wider than its column is kept whole.
-/

namespace Timeshare.Text

/-- `text` pushed to the right edge of a column of `width` characters. -/
def alignRight (width : Nat) (text : String) : String :=
  String.ofList (List.replicate (width - text.length) ' ') ++ text

/-- `text` at the left edge of a column of `width` characters. -/
def alignLeft (width : Nat) (text : String) : String :=
  text ++ String.ofList (List.replicate (width - text.length) ' ')

/-- `text` filled up on the left with the digit zero. -/
def zeroFill (width : Nat) (text : String) : String :=
  String.ofList (List.replicate (width - text.length) '0') ++ text

/-- The lower-case hexadecimal digits of `n`, without leading zeros. -/
def hexDigits (n : Nat) : String :=
  String.ofList (Nat.toDigits 16 n)

/-- An address as diagnostics write it. -/
def address (a : UInt64) : String :=
  "0x" ++ hexDigits a.toNat

end Timeshare.Text
