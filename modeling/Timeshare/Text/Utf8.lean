/-!
# Text as bytes

Text is stored as UTF-8.  Text that has to fit a number of bytes is cut at a
character boundary, and bytes from elsewhere are read up to the first byte that
does not continue valid text.
-/

namespace Timeshare.Text

/-- The UTF-8 bytes of a list of characters. -/
def encode (text : List Char) : List UInt8 :=
  text.flatMap String.utf8EncodeChar

/-- The longest start of `text` whose bytes fit into `room`. -/
def fitting (room : Nat) : List Char → List Char
  | [] => []
  | c :: rest => if c.utf8Size ≤ room then c :: fitting (room - c.utf8Size) rest else []

/-- The first character of `bytes`, if they start with valid text. -/
def decodeHead? (bytes : List UInt8) : Option Char :=
  bytes.toByteArray.utf8DecodeChar? 0

/-- Bytes that start with a character are the bytes of that character and a rest. -/
theorem eq_append_of_decodeHead? {bytes : List UInt8} {c : Char}
    (h : decodeHead? bytes = some c) :
    bytes = String.utf8EncodeChar c ++ bytes.drop c.utf8Size := by
  obtain ⟨rest, split⟩ := ByteArray.exists_of_utf8DecodeChar?_eq_some h
  have split : bytes = String.utf8EncodeChar c ++ rest.data.toList := by
    simpa using congrArg (fun b => b.data.toList) split
  have drop : bytes.drop c.utf8Size = rest.data.toList := by
    rw [split, List.drop_append_of_le_length (by simp)]
    simp
  rw [drop]
  exact split

/-- Bytes that start with a character get shorter when it is taken off. -/
theorem length_drop_lt {bytes : List UInt8} {c : Char} (h : decodeHead? bytes = some c) :
    (bytes.drop c.utf8Size).length < bytes.length := by
  have split := congrArg List.length (eq_append_of_decodeHead? h)
  have size := c.utf8Size_pos
  simp at split ⊢
  omega

/-- The longest start of `bytes` that is valid text. -/
def decodeValid (bytes : List UInt8) : List Char :=
  match _ : decodeHead? bytes with
  | none => []
  | some c => c :: decodeValid (bytes.drop c.utf8Size)
termination_by bytes.length
decreasing_by exact length_drop_lt ‹_›

/-- The text that `bytes` are the encoding of, if they are valid throughout. -/
def decode? (bytes : List UInt8) : Option (List Char) :=
  let text := decodeValid bytes
  if (encode text).length = bytes.length then some text else none

end Timeshare.Text
