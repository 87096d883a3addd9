import Timeshare.Word

/-!
# Process memory

The memory of processes is a block of bytes that starts at a fixed address, so
the addresses below it, null among them, are never valid.  An access is valid or
not as a whole.

Ranges of memory may be guarded against writing.  The simulated machine guards
nothing by itself: guarded regions stand for a platform that refuses writes to
ranges that can be read.  Without them (`write_of_unguarded`) memory is the
simulated machine's plain block, where what can be read can be written.
-/

namespace Timeshare.Machine

/-- A range of addresses. -/
structure Region where
  first : UInt64
  size : Nat
  deriving DecidableEq

/-- Whether two regions have an address in common. -/
def Region.overlaps (r s : Region) : Bool :=
  0 < r.size && 0 < s.size && r.first.toNat < s.first.toNat + s.size
    && s.first.toNat < r.first.toNat + r.size

/-- The memory of processes. -/
structure Memory where
  bytes : Array UInt8
  /-- The regions that cannot be written, although they can be read. -/
  guarded : List Region

namespace Memory

/-- The lowest valid address. -/
def base : UInt64 := 0x1000

/-- Zeroed memory without guarded regions. -/
def zero (size : Nat) : Memory := ⟨Array.replicate size 0, []⟩

/-- The index of the first byte of a region that lies within memory. -/
def locate (memory : Memory) (region : Region) : Except MemoryFault Nat :=
  if base ≤ region.first
      ∧ (region.first - base).toNat + region.size ≤ memory.bytes.size then
    .ok (region.first - base).toNat
  else .error ⟨region.first, region.size⟩

/-- Replace the bytes from `index` on by `data`, as far as there are bytes. -/
def overwrite (bytes : Array UInt8) (index : Nat) : List UInt8 → Array UInt8
  | [] => bytes
  | b :: rest => overwrite (bytes.setIfInBounds index b) (index + 1) rest

/-- The bytes of a region. -/
def read (memory : Memory) (address : UInt64) (size : Nat) :
    Except MemoryFault (Vector UInt8 size) := do
  let start ← memory.locate ⟨address, size⟩
  return Vector.ofFn fun i => memory.bytes.getD (start + i.val) 0

/-- Write a region, guarded or not. -/
def poke (memory : Memory) (address : UInt64) (data : List UInt8) :
    Except MemoryFault Unit × Memory :=
  match memory.locate ⟨address, data.length⟩ with
  | .error fault => (.error fault, memory)
  | .ok start => (.ok (), { memory with bytes := overwrite memory.bytes start data })

/-- Write a region that is not guarded. -/
def write (memory : Memory) (address : UInt64) (data : List UInt8) :
    Except MemoryFault Unit × Memory :=
  if memory.guarded.any (Region.overlaps ⟨address, data.length⟩) then
    (.error ⟨address, data.length⟩, memory)
  else memory.poke address data

/-- Without guarded regions every valid write is carried out. -/
theorem write_of_unguarded {memory : Memory} (hguarded : memory.guarded = []) (address : UInt64)
    (data : List UInt8) : memory.write address data = memory.poke address data := by
  rw [write, hguarded]
  rfl

/-- Guard a region against writing. -/
def guardRegion (memory : Memory) (region : Region) : Memory :=
  { memory with guarded := region :: memory.guarded }

/-- Lift every guard. -/
def unguard (memory : Memory) : Memory := { memory with guarded := [] }

end Memory

end Timeshare.Machine
