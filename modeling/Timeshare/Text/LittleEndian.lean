/-!
# Numbers as bytes

A number of a fixed width is stored with its lowest byte first.
-/

namespace Timeshare.Text

/-- The lowest `width` bytes of `n`, the lowest first. -/
def littleEndian : (width : Nat) → Nat → List UInt8
  | 0, _ => []
  | width + 1, n => UInt8.ofNat n :: littleEndian width (n / 256)

/-- The number whose bytes are given, the lowest first. -/
def ofLittleEndian : List UInt8 → Nat
  | [] => 0
  | b :: rest => b.toNat + 256 * ofLittleEndian rest

@[simp] theorem length_littleEndian (width n : Nat) : (littleEndian width n).length = width := by
  induction width generalizing n with
  | zero => rfl
  | succ width ih => simp [littleEndian, ih]

/-- Bytes are the number they make up, written with as many bytes. -/
theorem littleEndian_ofLittleEndian (bytes : List UInt8) :
    littleEndian bytes.length (ofLittleEndian bytes) = bytes := by
  induction bytes with
  | nil => rfl
  | cons b rest ih =>
    have low : UInt8.ofNat (b.toNat + 256 * ofLittleEndian rest) = b := by
      apply UInt8.toNat_inj.1
      have := b.toNat_lt
      rw [UInt8.toNat_ofNat']
      omega
    have high : (b.toNat + 256 * ofLittleEndian rest) / 256 = ofLittleEndian rest := by
      have := b.toNat_lt
      omega
    rw [ofLittleEndian, List.length_cons, littleEndian, low, high, ih]

/-- A half word is read back from its four bytes. -/
theorem ofLittleEndian_littleEndian_four (n : UInt32) :
    ofLittleEndian (littleEndian 4 n.toNat) = n.toNat := by
  have := n.toNat_lt
  simp only [littleEndian, ofLittleEndian, UInt8.toNat_ofNat']
  omega

/-- A word is read back from its eight bytes. -/
theorem ofLittleEndian_littleEndian_eight (n : UInt64) :
    ofLittleEndian (littleEndian 8 n.toNat) = n.toNat := by
  have := n.toNat_lt
  simp only [littleEndian, ofLittleEndian, UInt8.toNat_ofNat']
  omega

end Timeshare.Text
