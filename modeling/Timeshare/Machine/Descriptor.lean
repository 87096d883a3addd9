import Timeshare.Text.LittleEndian

/-!
# Interrupt descriptors

The processor finds the handler of an interrupt vector in a table of 256
descriptors of sixteen bytes.  A descriptor splits the handler's address into
three parts; a vector without a handler has a descriptor that is not present.
-/

namespace Timeshare.Machine

/-- A descriptor, its parts in the order in which they lie in memory. -/
structure Descriptor where
  offsetLow : UInt16
  selector : UInt16
  options : UInt16
  offsetMiddle : UInt16
  offsetHigh : UInt32
  reserved : UInt32
  deriving DecidableEq

namespace Descriptor

/-- The option of a descriptor that is present. -/
def presentBit : UInt16 := 0x8000

/-- The options of an interrupt gate that is entered with interrupts disabled. -/
def interruptGate : UInt16 := 0x8E00

/-- The descriptor of a vector without a handler. -/
def missing : Descriptor := ⟨0, 0, 0, 0, 0, 0⟩

instance : Inhabited Descriptor := ⟨missing⟩

/-- The descriptor of a handler in a code segment. -/
def ofHandler (handler : UInt64) (selector : UInt16) : Descriptor where
  offsetLow := handler.toUInt16
  selector
  options := interruptGate
  offsetMiddle := (handler >>> 16).toUInt16
  offsetHigh := (handler >>> 32).toUInt32
  reserved := 0

/-- The address of the handler. -/
def handler (d : Descriptor) : UInt64 :=
  d.offsetLow.toUInt64 ||| (d.offsetMiddle.toUInt64 <<< 16) ||| (d.offsetHigh.toUInt64 <<< 32)

/-- Whether the vector has a handler. -/
def isPresent (d : Descriptor) : Bool := d.options &&& presentBit != 0

/-- The descriptor as it lies in memory. -/
def bytes (d : Descriptor) : List UInt8 :=
  Text.littleEndian 2 d.offsetLow.toNat ++ Text.littleEndian 2 d.selector.toNat
    ++ Text.littleEndian 2 d.options.toNat ++ Text.littleEndian 2 d.offsetMiddle.toNat
    ++ Text.littleEndian 4 d.offsetHigh.toNat ++ Text.littleEndian 4 d.reserved.toNat

end Descriptor

/-- The descriptors of all vectors. -/
structure DescriptorTable where
  descriptors : Vector Descriptor 256

namespace DescriptorTable

/-- A table without handlers. -/
def empty : DescriptorTable := ⟨Vector.replicate 256 .missing⟩

/-- The descriptor of a vector. -/
def get (table : DescriptorTable) (vector : UInt8) : Descriptor :=
  table.descriptors.get ⟨vector.toNat, vector.toNat_lt⟩

/-- Replace the descriptor of a vector. -/
def set (table : DescriptorTable) (vector : UInt8) (descriptor : Descriptor) : DescriptorTable :=
  ⟨table.descriptors.set vector.toNat descriptor vector.toNat_lt⟩

/-- The vectors that have a handler. -/
def present (table : DescriptorTable) : List UInt8 :=
  ((List.finRange 256).filter fun i => table.descriptors[i].isPresent).map fun i => UInt8.ofNat i.val

end DescriptorTable

end Timeshare.Machine
