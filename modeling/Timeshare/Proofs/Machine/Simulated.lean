import Timeshare.Machine.Simulated
import Timeshare.Proofs.Kernel.Served

/-!
# What the kernel leaves of the simulated machine

The kernel writes memory, but memory stays as large as it is.  An address range that can be
read in a memory of less than 2⁶³ bytes does not wrap around.
-/

namespace Timeshare.Machine

open Platform (Operation Reaches)

theorem Memory.size_overwrite (bytes : Array UInt8) (index : Nat) (data : List UInt8) :
    (overwrite bytes index data).size = bytes.size := by
  induction data generalizing bytes index with
  | nil => rfl
  | cons b rest ih => rw [overwrite, ih, Array.size_setIfInBounds]

theorem Memory.size_write (memory : Memory) (address : UInt64) (data : List UInt8) :
    (memory.write address data).2.bytes.size = memory.bytes.size := by
  unfold write
  split
  · rfl
  unfold poke
  split
  · rfl
  · exact size_overwrite _ _ _

namespace Simulated

variable {m m' : Simulated}

/-- Memory stays as large as it is. -/
theorem size_of_reaches (hreach : Reaches m m') :
    m'.memory.bytes.size = m.memory.bytes.size := by
  refine hreach.keeps (Q := fun q => q.memory.bytes.size = m.memory.bytes.size) ?_ rfl
  intro p q hoperation hkept
  cases hoperation with
  | enableLine line =>
      show (p.enableLine line).memory.bytes.size = _
      unfold enableLine
      split <;> exact hkept
  | acknowledge => exact hkept
  | pollKey =>
      show p.takeKey.2.memory.bytes.size = _
      unfold takeKey
      split <;> exact hkept
  | clearScreen => exact hkept
  | paint => exact hkept
  | halt => exact hkept
  | writeMemory address data => exact (p.memory.size_write address data).trans hkept
  | log => exact hkept

theorem bounded (hsize : m.memory.bytes.size < 2 ^ 63) : Platform.Bounded m := by
  intro address size bytes hread
  replace hread : m.memory.read address size = .ok bytes := hread
  unfold Memory.read at hread
  obtain ⟨start, hlocate, _⟩ := bind_eq_ok_iff.1 hread
  unfold Memory.locate at hlocate
  split at hlocate
  · rename_i hinside
    obtain ⟨hbase, hend⟩ := hinside
    dsimp only at hbase hend
    have hoffset : (address - Memory.base).toNat = address.toNat - Memory.base.toNat :=
      UInt64.toNat_sub_of_le _ _ hbase
    have hvalue : Memory.base.toNat = 4096 := rfl
    simp only [Word.range]
    omega
  · contradiction

end Simulated

end Timeshare.Machine
