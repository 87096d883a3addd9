import Timeshare.Message

/-!
# Messages in the memory of a process

A process keeps a message as a record in its own memory: the sender in the
first four bytes, four unused bytes, the two times, and the payload.  The
kernel reads and writes that record.
-/

namespace Timeshare.User

/-- A message as a process keeps it. -/
structure Message where
  sender : UInt32
  unused : UInt32
  timeSent : UInt64
  timeReceived : UInt64
  data : Payload
  deriving DecidableEq

namespace Message

/-- A message in which everything is zero. -/
def empty : Message := ⟨0, 0, 0, 0, Vector.replicate payloadSize 0⟩

/-- A message with a payload, cut off or filled up with zeros. -/
def withPayload (bytes : List UInt8) : Message := { empty with data := Payload.ofBytes bytes }

/-- The byte of a number that lies `i` bytes from its lowest. -/
def byteOf (number : UInt64) (i : Nat) : UInt8 := (number >>> UInt64.ofNat (8 * i)).toUInt8

/-- The bytes of the record in memory. -/
def image (m : Message) : Wire :=
  Vector.ofFn fun i : Fin wireSize =>
    if i.val < 4 then byteOf m.sender.toUInt64 i.val
    else if i.val < 8 then byteOf m.unused.toUInt64 (i.val - 4)
    else if i.val < 16 then byteOf m.timeSent (i.val - 8)
    else if i.val < 24 then byteOf m.timeReceived (i.val - 16)
    else m.data.toList.getD (i.val - 24) 0

/-- The record that lies in memory. -/
def ofImage (image : Wire) : Message where
  sender := UInt32.ofNat (Timeshare.Message.field image 0 4)
  unused := UInt32.ofNat (Timeshare.Message.field image 4 4)
  timeSent := UInt64.ofNat (Timeshare.Message.field image 8 8)
  timeReceived := UInt64.ofNat (Timeshare.Message.field image 16 8)
  data := Timeshare.Message.payload image

end Message

end Timeshare.User
