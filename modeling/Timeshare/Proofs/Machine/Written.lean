import Timeshare.Proofs.Machine.Memory

/-!
# Writes as a whole

A region is found in memory exactly when it lies there as a range of natural numbers, so
no access wraps around.  A write replaces its region as a whole or changes nothing, and a
sequence of writes changes nothing outside of its regions.
-/

namespace Timeshare.Machine

variable {memory middle after : Memory} {region : Region} {regions more : List Region}
  {data : List UInt8}

/-- The byte at an index of memory lies in the region; addresses are counted without bound. -/
def Region.Covers (region : Region) (index : Nat) : Prop :=
  region.first.toNat ≤ Memory.base.toNat + index ∧
    Memory.base.toNat + index < region.first.toNat + region.size

namespace Memory

/-- Every address of the region lies in memory; addresses are counted without bound. -/
def Holds (memory : Memory) (region : Region) : Prop :=
  base.toNat ≤ region.first.toNat ∧
    region.first.toNat + region.size ≤ base.toNat + memory.bytes.size

instance (memory : Memory) (region : Region) : Decidable (memory.Holds region) :=
  inferInstanceAs (Decidable (_ ∧ _))

/-- A region is found where it begins, if memory holds it. -/
theorem locate_eq (memory : Memory) (region : Region) :
    memory.locate region =
      if memory.Holds region then .ok (region.first.toNat - base.toNat)
      else .error ⟨region.first, region.size⟩ := by
  unfold locate
  by_cases hbase : base ≤ region.first
  · have hnatural := UInt64.le_iff_toNat_le.1 hbase
    rw [UInt64.toNat_sub_of_le _ _ hbase]
    refine if_congr (and_congr (iff_of_true hbase hnatural) ?_) rfl rfl
    omega
  · rw [if_neg fun h => hbase h.1, if_neg fun h => hbase (UInt64.le_iff_toNat_le.2 h.1)]

/-- What is read are the bytes from where the region begins. -/
theorem read_eq (memory : Memory) (address : UInt64) (size : Nat) :
    memory.read address size =
      if memory.Holds ⟨address, size⟩ then
        .ok (Vector.ofFn fun i => memory.bytes.getD (address.toNat - base.toNat + i.val) 0)
      else .error ⟨address, size⟩ := by
  rw [read, locate_eq]
  split <;> rfl

/-! ## One write -/

/-- The region holds new data as a whole, and everything else is as before. -/
structure Replaced (memory : Memory) (region : Region) (data : List UInt8) (after : Memory) :
    Prop where
  holds : memory.Holds region
  free : memory.forbids region.first region.size = false
  length : data.length = region.size
  inside : ∀ i < region.size, after.bytes[region.first.toNat - base.toNat + i]? = data[i]?
  outside : ∀ index, ¬ region.Covers index → after.bytes[index]? = memory.bytes[index]?
  size : after.bytes.size = memory.bytes.size
  guarded : after.guarded = memory.guarded

theorem replaced_of_write {address : UInt64}
    (hwrite : memory.write address data = (.ok (), after)) :
    memory.Replaced ⟨address, data.length⟩ data after := by
  have hafter : after = (memory.write address data).2 := by rw [hwrite]
  have hsize := memory.size_write address data
  have hguarded := memory.guarded_write address data
  rw [← hafter] at hsize hguarded
  unfold write at hwrite
  split at hwrite
  · injection hwrite with hresult
    contradiction
  rename_i hfree
  unfold poke at hwrite
  rw [locate_eq] at hwrite
  by_cases hholds : memory.Holds ⟨address, data.length⟩
  · rw [if_pos hholds] at hwrite
    injection hwrite with _ hwritten
    obtain ⟨hfirst, hend⟩ := hholds
    dsimp only at hfirst hend hwritten
    refine ⟨⟨hfirst, hend⟩, eq_false_of_ne_true hfree, rfl, ?_, ?_, hsize, hguarded⟩
    · intro i hi
      dsimp only at hi ⊢
      rw [← hwritten, getElem?_overwrite, if_pos (by omega), Nat.add_sub_cancel_left]
    · intro index hindex
      rw [← hwritten, getElem?_overwrite, if_neg]
      intro hinside
      refine hindex ⟨?_, ?_⟩ <;> dsimp only <;> omega
  · rw [if_neg hholds] at hwrite
    injection hwrite with hresult
    contradiction

/-- What memory holds and no guard forbids is replaced by a write. -/
theorem exists_replaced {address : UInt64} {data : List UInt8}
    (hholds : memory.Holds ⟨address, data.length⟩)
    (hfree : memory.forbids address data.length = false) :
    ∃ after, memory.write address data = (.ok (), after) ∧
      memory.Replaced ⟨address, data.length⟩ data after := by
  have hread := memory.read_eq address data.length
  rw [if_pos hholds] at hread
  obtain ⟨after, hwrite⟩ := exists_write hread rfl hfree
  exact ⟨after, hwrite, replaced_of_write hwrite⟩

/-- What is read at a region that was replaced starts with the new data. -/
theorem Replaced.read_starts {address : UInt64} {length size : Nat} {image : Vector UInt8 size}
    (h : memory.Replaced ⟨address, length⟩ data after) (hsize : length ≤ size)
    (hread : after.read address size = .ok image) : data <+: image.toList := by
  have hlength : data.length = length := h.length
  have hholds : after.Holds ⟨address, size⟩ := by
    rw [read_eq] at hread
    split at hread
    · assumption
    · contradiction
  rw [read_eq, if_pos hholds] at hread
  injection hread with himage
  rw [List.prefix_iff_getElem?]
  intro i hi
  have hbyte : after.bytes[address.toNat - base.toNat + i]? = data[i]? :=
    h.inside i (hlength ▸ hi)
  have himage : image[i]? = some (after.bytes.getD (address.toNat - base.toNat + i) 0) := by
    rw [← himage, Vector.getElem?_ofFn, dif_pos (by omega)]
  rw [Vector.getElem?_toList, himage, Array.getD_eq_getD_getElem?, hbyte,
    List.getElem?_eq_getElem hi, Option.getD_some]

/-! ## Several writes -/

/-- The regions were written one after another, each as a whole or not at all. -/
inductive Written : List Region → Memory → Memory → Prop
  | nil {memory : Memory} : Written [] memory memory
  | skip {region : Region} {regions : List Region} {memory after : Memory}
      (hrest : Written regions memory after) : Written (region :: regions) memory after
  | replace {region : Region} {regions : List Region} {data : List UInt8}
      {memory middle after : Memory} (hfirst : memory.Replaced region data middle)
      (hrest : Written regions middle after) : Written (region :: regions) memory after

namespace Written

theorem refl (regions : List Region) (memory : Memory) : Written regions memory memory := by
  induction regions with
  | nil => exact .nil
  | cons _ _ ih => exact .skip ih

theorem append (h : Written regions memory middle) (h' : Written more middle after) :
    Written (regions ++ more) memory after := by
  induction h with
  | nil => exact h'
  | skip _ ih => exact .skip (ih h')
  | replace hfirst _ ih => exact .replace hfirst (ih h')

/-- Whether it succeeds or fails, a write concerns its region only. -/
theorem write (memory : Memory) (address : UInt64) (data : List UInt8) :
    Written [⟨address, data.length⟩] memory (memory.write address data).2 := by
  cases hresult : (memory.write address data).1 with
  | ok => exact .replace (replaced_of_write (Prod.ext hresult rfl)) .nil
  | error fault =>
      rw [write_of_error hresult]
      exact .refl _ memory

theorem outside (h : Written regions memory after) {index : Nat}
    (hindex : ∀ region ∈ regions, ¬ region.Covers index) :
    after.bytes[index]? = memory.bytes[index]? := by
  induction h with
  | nil => rfl
  | skip _ ih => exact ih fun region hregion => hindex region (List.mem_cons_of_mem _ hregion)
  | replace hfirst _ ih =>
      exact (ih fun region hregion => hindex region (List.mem_cons_of_mem _ hregion)).trans
        (hfirst.outside index (hindex _ List.mem_cons_self))

theorem size (h : Written regions memory after) : after.bytes.size = memory.bytes.size := by
  induction h with
  | nil => rfl
  | skip _ ih => exact ih
  | replace hfirst _ ih => exact ih.trans hfirst.size

theorem guarded (h : Written regions memory after) : after.guarded = memory.guarded := by
  induction h with
  | nil => rfl
  | skip _ ih => exact ih
  | replace hfirst _ ih => exact ih.trans hfirst.guarded

end Written

end Memory

end Timeshare.Machine
