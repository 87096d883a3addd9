import Timeshare.Text.Utf8
import Timeshare.User.Message

/-!
# Words in messages

The stock programs send one word a message.  The payload holds a sequence
number and then the bytes of the word, filled up with zeros; at least one zero
follows the word.
-/

namespace Timeshare.User

/-- The bytes set aside for a word and the zero behind it. -/
abbrev wordCapacity : Nat := 24

/-- A numbered word. -/
structure WordRecord where
  sequence : UInt32
  bytes : Vector UInt8 wordCapacity
  deriving DecidableEq

namespace WordRecord

/-- A numbered word whose bytes are cut off where the room ends. -/
def new (sequence : UInt32) (word : String) : WordRecord where
  sequence
  bytes :=
    ⟨(((Text.encode word.toList).take (wordCapacity - 1)
        ++ List.replicate wordCapacity 0).take wordCapacity).toArray, by simp⟩

/-- The word; bytes that are not valid text read as no word. -/
def word (r : WordRecord) : String :=
  match Text.decode? (r.bytes.toList.takeWhile (· != 0)) with
  | none => ""
  | some text => String.ofList text

/-- The message that carries the word. -/
def toMessage (r : WordRecord) : Message :=
  Message.withPayload (Text.littleEndian 4 r.sequence.toNat ++ r.bytes.toList)

/-- The word that a message carries. -/
def ofMessage (m : Message) : WordRecord where
  sequence := UInt32.ofNat (Text.ofLittleEndian (m.data.toList.take 4))
  bytes :=
    Vector.ofFn fun i =>
      m.data.get ⟨4 + i.val,
        Nat.lt_of_lt_of_le (Nat.add_lt_add_left i.isLt 4) (by decide)⟩

end WordRecord

end Timeshare.User
