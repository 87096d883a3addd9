import Timeshare.Proofs.Machine.Simulated

/-!
# Reading and writing process memory

A write changes the bytes of its region and no others, so what was written is
read back.  A region that can be read can be written as well, unless it meets a
guarded one; then nothing is written.
-/

namespace Timeshare.Machine.Memory

variable {memory after : Memory} {address : UInt64} {size : Nat} {bytes : Vector UInt8 size}

/-- Whether a guarded region forbids a write. -/
def forbids (memory : Memory) (address : UInt64) (size : Nat) : Bool :=
  memory.guarded.any (Region.overlaps ⟨address, size⟩)

/-- The region can be read and must not be written. -/
def ReadOnly (memory : Memory) (address : UInt64) (size : Nat) : Prop :=
  (∃ bytes, memory.read address size = .ok bytes) ∧ memory.forbids address size = true

instance (memory : Memory) (address : UInt64) (size : Nat) :
    Decidable (memory.ReadOnly address size) :=
  decidable_of_iff ((memory.read address size).toBool = true ∧ memory.forbids address size = true)
    (and_congr_left fun _ => by cases memory.read address size <;> simp [Except.toBool])

/-- What can be read depends on the size of memory only. -/
theorem exists_read_iff : (∃ bytes : Vector UInt8 size, memory.read address size = .ok bytes) ↔
    base ≤ address ∧ (address - base).toNat + size ≤ memory.bytes.size := by
  constructor
  · rintro ⟨bytes, hread⟩
    obtain ⟨start, hlocate, _⟩ := bind_eq_ok_iff.1 hread
    unfold locate at hlocate
    split at hlocate
    · assumption
    · contradiction
  · intro hinside
    rw [read, locate, if_pos hinside]
    exact ⟨_, rfl⟩

theorem forbids_of_guarded (hguarded : memory.guarded = []) :
    memory.forbids address size = false := by
  rw [forbids, hguarded]
  rfl

theorem guarded_write (memory : Memory) (address : UInt64) (data : List UInt8) :
    (memory.write address data).2.guarded = memory.guarded := by
  unfold write
  split
  · rfl
  unfold poke
  split <;> rfl

/-- Only the bytes that are written change. -/
theorem getElem?_overwrite (cells : Array UInt8) (index : Nat) (data : List UInt8) (i : Nat) :
    (overwrite cells index data)[i]? =
      if index ≤ i ∧ i < index + data.length ∧ i < cells.size then data[i - index]?
      else cells[i]? := by
  induction data generalizing cells index with
  | nil =>
      rw [overwrite, if_neg]
      rw [List.length_nil]
      omega
  | cons b rest ih =>
      rw [overwrite, ih, Array.size_setIfInBounds, List.length_cons]
      rcases Nat.lt_trichotomy i index with hi | hi | hi
      · -- before the region
        rw [if_neg (by omega), if_neg (by omega), Array.getElem?_setIfInBounds_ne (by omega)]
      · -- the first byte is written now and left alone by the rest
        subst hi
        rw [if_neg (by omega)]
        by_cases hinside : i < cells.size
        · rw [if_pos (by omega), Array.getElem?_setIfInBounds_self_of_lt hinside, Nat.sub_self,
            List.getElem?_cons_zero]
        · rw [if_neg (by omega), Array.getElem?_eq_none (by simpa using hinside),
            Array.getElem?_eq_none (by simpa using hinside)]
      · have hnext : i - index = i - (index + 1) + 1 := by omega
        rw [Array.getElem?_setIfInBounds_ne (by omega), hnext, List.getElem?_cons_succ]
        by_cases hregion : i < index + (rest.length + 1) ∧ i < cells.size
        · rw [if_pos (by omega), if_pos (by omega)]
        · rw [if_neg (by omega), if_neg (by omega)]

/-- The null address cannot be read. -/
theorem read_null (memory : Memory) (size : Nat) :
    ∃ fault, memory.read 0 size = .error fault := by
  have hbase : ¬ base ≤ 0 := by decide
  refine ⟨⟨0, size⟩, ?_⟩
  rw [read, locate, if_neg fun h => hbase h.1]
  rfl

/-- A forbidden write changes nothing. -/
theorem write_of_forbids {data : List UInt8}
    (hforbids : memory.forbids address data.length = true) :
    memory.write address data = (.error ⟨address, data.length⟩, memory) :=
  if_pos hforbids

/-- A write that fails changes nothing. -/
theorem write_of_error {data : List UInt8} {fault : MemoryFault}
    (hwrite : (memory.write address data).1 = .error fault) :
    (memory.write address data).2 = memory := by
  unfold write at hwrite ⊢
  split
  · rfl
  rename_i hfree
  rw [if_neg hfree] at hwrite
  unfold poke at hwrite ⊢
  split
  · rfl
  · rename_i hlocate
    rw [hlocate] at hwrite
    contradiction

/-- What can be read and is not guarded can be written. -/
theorem exists_write {data : List UInt8} (hread : memory.read address size = .ok bytes)
    (hsize : data.length = size) (hforbids : memory.forbids address size = false) :
    ∃ after, memory.write address data = (.ok (), after) := by
  subst hsize
  obtain ⟨start, hlocate, _⟩ := bind_eq_ok_iff.1 hread
  have hguard : ¬ memory.guarded.any (Region.overlaps ⟨address, data.length⟩) = true := by
    show ¬ memory.forbids address data.length = true
    rw [hforbids]
    exact Bool.false_ne_true
  refine ⟨{ memory with bytes := overwrite memory.bytes start data }, ?_⟩
  rw [write, if_neg hguard, poke, hlocate]

/-- What was written is read back. -/
theorem read_of_write (hwrite : memory.write address bytes.toList = (.ok (), after)) :
    after.read address size = .ok bytes := by
  have hlength : bytes.toList.length = size := by simp
  unfold write at hwrite
  split at hwrite
  · injection hwrite with hresult
    contradiction
  unfold poke at hwrite
  split at hwrite
  · injection hwrite with hresult
    contradiction
  rename_i start hlocate
  injection hwrite with _ hafter
  subst hafter
  rw [hlength] at hlocate
  -- memory is as large as before, so the region is found where it was
  have hsame : locate { memory with bytes := overwrite memory.bytes start bytes.toList }
      ⟨address, size⟩ = .ok start := by
    rw [← hlocate, locate, locate, size_overwrite]
  have hinside : start + size ≤ memory.bytes.size := by
    unfold locate at hlocate
    split at hlocate
    · rename_i hregion
      injection hlocate with hstart
      rw [← hstart]
      exact hregion.2
    · contradiction
  rw [read, hsame]
  show Except.ok _ = Except.ok bytes
  congr 1
  apply Vector.ext
  intro i hi
  rw [Vector.getElem_ofFn, Array.getD_eq_getD_getElem?, getElem?_overwrite, if_pos (by omega),
    Nat.add_sub_cancel_left]
  simp [hi]

end Timeshare.Machine.Memory
