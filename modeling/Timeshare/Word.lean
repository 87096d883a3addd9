import Timeshare.Fault

/-!
# Checked arithmetic on machine words

A sum, difference, product or quotient that a machine word cannot hold is a
fault.  The saturating forms stop at the largest word instead.
-/

namespace Timeshare.Word

/-- The number of values of a machine word. -/
abbrev range : Nat := 18446744073709551616

/-- The number of values of a half word. -/
abbrev halfRange : Nat := 4294967296

/-- The largest machine word. -/
def top : UInt64 := 0xFFFFFFFFFFFFFFFF

/-- The sum of two words. -/
def add (a b : UInt64) : Except Fault UInt64 :=
  if a.toNat + b.toNat < range then .ok (a + b) else .error (.arithmetic .add)

/-- The successor of a half word. -/
def next32 (a : UInt32) : Except Fault UInt32 :=
  if a.toNat + 1 < halfRange then .ok (a + 1) else .error (.arithmetic .add)

/-- The product of two half words. -/
def mul32 (a b : UInt32) : Except Fault UInt32 :=
  if a.toNat * b.toNat < halfRange then .ok (a * b) else .error (.arithmetic .multiply)

/-- The difference of two words. -/
def sub (a b : UInt64) : Except Fault UInt64 :=
  if b ≤ a then .ok (a - b) else .error (.arithmetic .subtract)

/-- The quotient of two words. -/
def div (a b : UInt64) : Except Fault UInt64 :=
  if b = 0 then .error (.arithmetic .divide) else .ok (a / b)

/-- The sum of two words, or the largest word if that is smaller. -/
def addSaturating (a b : UInt64) : UInt64 :=
  if a.toNat + b.toNat < range then a + b else top

/-- The product of two words, or the largest word if that is smaller. -/
def mulSaturating (a b : UInt64) : UInt64 :=
  if a.toNat * b.toNat < range then a * b else top

/-- The sum of two sizes, which has to fit a machine word. -/
def addSize (a b : Nat) : Except Fault Nat :=
  if a + b < range then .ok (a + b) else .error (.arithmetic .add)

/-- The product of two sizes, which has to fit a machine word. -/
def mulSize (a b : Nat) : Except Fault Nat :=
  if a * b < range then .ok (a * b) else .error (.arithmetic .multiply)

/-- A saturated sum is the exact sum cut off at the largest word. -/
theorem toNat_addSaturating (a b : UInt64) :
    (addSaturating a b).toNat = min (a.toNat + b.toNat) (range - 1) := by
  unfold addSaturating
  split
  · rename_i h
    rw [UInt64.toNat_add, Nat.mod_eq_of_lt h]
    simp only [range] at h ⊢
    omega
  · rename_i h
    show (18446744073709551615 : Nat) = _
    simp only [range] at h ⊢
    omega

/-- A saturated product is the exact product cut off at the largest word. -/
theorem toNat_mulSaturating (a b : UInt64) :
    (mulSaturating a b).toNat = min (a.toNat * b.toNat) (range - 1) := by
  unfold mulSaturating
  split
  · rename_i h
    rw [UInt64.toNat_mul, Nat.mod_eq_of_lt h]
    simp only [range] at h ⊢
    omega
  · rename_i h
    show (18446744073709551615 : Nat) = _
    simp only [range] at h ⊢
    omega

end Timeshare.Word
