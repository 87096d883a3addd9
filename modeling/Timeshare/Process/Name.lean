import Timeshare.Capacity
import Timeshare.Text.Utf8

/-!
# Process names

A name is kept as at most thirty-two bytes.  A longer text is cut at the last
character boundary that fits, so a name made from text is valid text again.
-/

namespace Timeshare

/-- The bytes of a process's name. -/
structure ProcessName where
  /-- The UTF-8 bytes of the name. -/
  bytes : List UInt8
  /-- A name fits its field of the process table. -/
  length_le : bytes.length ≤ nameCapacity
  deriving DecidableEq

namespace Text

/-- What was fitted into a room takes no more bytes than the room has. -/
theorem length_encode_fitting (room : Nat) (text : List Char) :
    (encode (fitting room text)).length ≤ room := by
  induction text generalizing room with
  | nil => simp [fitting, encode]
  | cons c rest ih =>
    unfold fitting
    split
    · have := ih (room - c.utf8Size)
      simp [encode] at this ⊢
      omega
    · simp [encode]

end Text

namespace ProcessName

/-- The name of a place that holds no process. -/
def empty : ProcessName := ⟨[], Nat.zero_le _⟩

instance : Inhabited ProcessName := ⟨empty⟩

/-- The name for a given text. -/
def ofText (text : String) : ProcessName where
  bytes := Text.encode (Text.fitting nameCapacity text.toList)
  length_le := Text.length_encode_fitting _ _

/-- The name as text; bytes that are not valid text show as a question mark. -/
def text (name : ProcessName) : String :=
  match Text.decode? name.bytes with
  | none => "?"
  | some text => String.ofList text

end ProcessName

end Timeshare
