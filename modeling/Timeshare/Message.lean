import Timeshare.Capacity
import Timeshare.Text.LittleEndian

/-!
# Messages

A message carries who sent it, when it was sent and received, and a payload of
fixed size.  In the memory of a process it takes 280 bytes, numbers with their
lowest byte first: the sender, four bytes of padding, the two times, and the
payload.
-/

namespace Timeshare

/-- The payload of a message. -/
abbrev Payload : Type := Vector UInt8 payloadSize

/-- The bytes of a message in the memory of a process. -/
abbrev Wire : Type := Vector UInt8 wireSize

/-- The first bytes of `bytes`, filled up with zeros to the size of a payload. -/
def Payload.ofBytes (bytes : List UInt8) : Payload :=
  ⟨((bytes ++ List.replicate payloadSize 0).take payloadSize).toArray, by simp⟩

/-- A message between processes. -/
structure Message where
  /-- The pid of the sender. -/
  sender : UInt32
  /-- Four bytes that carry nothing and are not stored. -/
  padding : UInt32 := 0
  /-- The tick at which the message was sent. -/
  timeSent : UInt64
  /-- The tick at which the message was received. -/
  timeReceived : UInt64
  data : Payload
  deriving DecidableEq

namespace Message

/-- A message in which everything is zero. -/
def empty : Message where
  sender := 0
  timeSent := 0
  timeReceived := 0
  data := Vector.replicate payloadSize 0

instance : Inhabited Message := ⟨empty⟩

/-- A message with a payload and nothing else. -/
def withPayload (bytes : List UInt8) : Message :=
  { empty with data := Payload.ofBytes bytes }

/-- The message as it is laid out in memory. -/
def encode (m : Message) : Wire :=
  ⟨(Text.littleEndian 4 m.sender.toNat ++ Text.littleEndian 4 0
      ++ Text.littleEndian 8 m.timeSent.toNat ++ Text.littleEndian 8 m.timeReceived.toNat
      ++ m.data.toList).toArray, by simp [payloadSize, wireSize]⟩

/-- The number stored in `width` bytes from `offset` on. -/
def field (wire : Wire) (offset width : Nat) : Nat :=
  Text.ofLittleEndian ((wire.toList.drop offset).take width)

/-- The payload that is laid out in memory, behind the sender and the times. -/
def payload (wire : Wire) : Payload :=
  Vector.ofFn fun i => wire.get ⟨24 + i.val, Nat.add_lt_add_left i.isLt 24⟩

/-- The message that is laid out in memory; its padding is ignored. -/
def decode (wire : Wire) : Message where
  sender := UInt32.ofNat (field wire 0 4)
  timeSent := UInt64.ofNat (field wire 8 8)
  timeReceived := UInt64.ofNat (field wire 16 8)
  data := payload wire

end Message

end Timeshare
