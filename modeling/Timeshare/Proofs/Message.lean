import Mathlib.Algebra.Group.Nat.Defs
import Mathlib.Data.Set.Function
import Timeshare.User.Message

/-!
# The layout of messages

What is left of a message that goes through the memory of a process, and of the
bytes that go through a message.  Only the padding is lost, in both directions.
The bytes are those of the record that a process keeps, so the two descriptions
of the layout, by offsets and by fields, agree.
-/

namespace Timeshare

namespace Text

/-- The byte that lies `i` bytes from the lowest. -/
theorem getElem_littleEndian (width n i : Nat) (h : i < (littleEndian width n).length) :
    (littleEndian width n)[i] = UInt8.ofNat (n / 256 ^ i) := by
  induction width generalizing n i with
  | zero => simp at h
  | succ width ih =>
    cases i with
    | zero => simp [littleEndian]
    | succ i =>
      simp only [littleEndian, List.getElem_cons_succ, ih]
      rw [Nat.div_div_eq_div_mul, Nat.pow_succ']

/-- A number fits in as many bytes as it was read from. -/
theorem ofLittleEndian_lt (bytes : List UInt8) : ofLittleEndian bytes < 256 ^ bytes.length := by
  induction bytes with
  | nil => simp [ofLittleEndian]
  | cons b rest ih =>
    have := b.toNat_lt
    rw [ofLittleEndian, List.length_cons, Nat.pow_succ']
    omega

end Text

namespace Message

/-! ### Decoding an encoded message -/

theorem toList_encode (m : Message) :
    m.encode.toList = Text.littleEndian 4 m.sender.toNat ++ (List.replicate 4 0
      ++ (Text.littleEndian 8 m.timeSent.toNat ++ (Text.littleEndian 8 m.timeReceived.toNat
      ++ m.data.toList))) := by
  simp [encode, Vector.toList, Text.littleEndian, List.replicate]

/-- A field is the number whose bytes stand at its offset. -/
theorem field_eq {wire : Wire} {offset : Nat} {bytes rest : List UInt8}
    (h : wire.toList.drop offset = bytes ++ rest) :
    field wire offset bytes.length = Text.ofLittleEndian bytes := by
  rw [field, h, List.take_left]

/-- The payload is what lies behind the sender and the times. -/
theorem toList_payload (wire : Wire) : (payload wire).toList = wire.toList.drop 24 := by
  apply List.ext_getElem
  · simp [payloadSize, wireSize]
  · intro i h h'
    simp only [payload, Vector.getElem_toList, Vector.getElem_ofFn, List.getElem_drop]
    rfl

/-- Decoding recovers every field of an encoded message but the padding. -/
theorem decode_encode_eq (m : Message) : decode m.encode = { m with padding := 0 } := by
  have hsender : field m.encode 0 4 = m.sender.toNat := by
    have h := field_eq (m.encode.toList.drop_zero.trans m.toList_encode)
    rwa [Text.length_littleEndian, Text.ofLittleEndian_littleEndian_four] at h
  have hsent : field m.encode 8 8 = m.timeSent.toNat := by
    have h : m.encode.toList.drop 8 = Text.littleEndian 8 m.timeSent.toNat
        ++ (Text.littleEndian 8 m.timeReceived.toNat ++ m.data.toList) := by
      rw [toList_encode]
      rfl
    simpa [Text.ofLittleEndian_littleEndian_eight] using field_eq h
  have hreceived : field m.encode 16 8 = m.timeReceived.toNat := by
    have h : m.encode.toList.drop 16
        = Text.littleEndian 8 m.timeReceived.toNat ++ m.data.toList := by
      rw [toList_encode]
      rfl
    simpa [Text.ofLittleEndian_littleEndian_eight] using field_eq h
  have hdata : payload m.encode = m.data := by
    apply Vector.toList_inj.1
    rw [toList_payload, toList_encode]
    rfl
  rw [decode, hsender, hsent, hreceived, hdata]
  simp

/-! ### Encoding a decoded message -/

/-- The byte of an encoded message at an offset, by the field that the offset falls into. -/
theorem getElem_encode (m : Message) (i : Nat) (h : i < wireSize) :
    m.encode[i] =
      if i < 4 then UInt8.ofNat (m.sender.toNat / 256 ^ i)
      else if i < 8 then 0
      else if i < 16 then UInt8.ofNat (m.timeSent.toNat / 256 ^ (i - 8))
      else if i < 24 then UInt8.ofNat (m.timeReceived.toNat / 256 ^ (i - 16))
      else m.data.toList.getD (i - 24) 0 := by
  have hlength : i < m.encode.toList.length := by simpa using h
  have hlist : m.encode[i] = m.encode.toList[i] := by simp
  rw [hlist]
  simp only [toList_encode, List.getElem_append, Text.getElem_littleEndian,
    Text.length_littleEndian, List.length_replicate, List.getElem_replicate, Nat.sub_sub]
  by_cases hsender : i < 4
  · simp [hsender]
  by_cases hpadding : i < 8
  · simp [hsender, hpadding, show i - 4 < 4 by omega]
  by_cases hsent : i < 16
  · simp [hsender, hpadding, hsent, show ¬ i - 4 < 4 by omega, show i - 8 < 8 by omega]
  by_cases hreceived : i < 24
  · simp [hsender, hpadding, hsent, hreceived, show ¬ i - 4 < 4 by omega,
      show ¬ i - 8 < 8 by omega, show i - 16 < 8 by omega]
  · have hdata : i - 24 < payloadSize := by
      change i < 280 at h
      change i - 24 < 256
      omega
    simp [hsender, hpadding, hsent, hreceived, hdata, show ¬ i - 4 < 4 by omega,
      show ¬ i - 8 < 8 by omega, show ¬ i - 16 < 8 by omega]

/-- The bytes of a message with those of the padding zeroed. -/
def blanked (wire : Wire) : Wire :=
  Vector.ofFn fun i => if 4 ≤ i.val ∧ i.val < 8 then 0 else wire.get i

theorem field_lt (wire : Wire) (offset width : Nat) : field wire offset width < 256 ^ width :=
  Nat.lt_of_lt_of_le (Text.ofLittleEndian_lt _)
    (Nat.pow_le_pow_right (by decide) (List.length_take_le ..))

/-- The bytes of the number in a field are the bytes of the field. -/
theorem byte_of_field (wire : Wire) {offset width i : Nat} (h : offset + width ≤ wireSize)
    (hi : i < width) :
    UInt8.ofNat (field wire offset width / 256 ^ i) = wire[offset + i] := by
  have hlength : ((wire.toList.drop offset).take width).length = width := by
    simp
    omega
  have hbytes := Text.littleEndian_ofLittleEndian ((wire.toList.drop offset).take width)
  rw [hlength] at hbytes
  have hbyte := Text.getElem_littleEndian width (field wire offset width) i (by simpa using hi)
  rw [← hbyte]
  simp only [field, hbytes]
  simp

/-- Encoding brings back every byte that was decoded but those of the padding. -/
theorem encode_decode_eq (wire : Wire) : (decode wire).encode = blanked wire := by
  have hsender : (UInt32.ofNat (field wire 0 4)).toNat = field wire 0 4 :=
    UInt32.toNat_ofNat_of_lt' (field_lt wire 0 4)
  have hsent : (UInt64.ofNat (field wire 8 8)).toNat = field wire 8 8 :=
    UInt64.toNat_ofNat_of_lt' (field_lt wire 8 8)
  have hreceived : (UInt64.ofNat (field wire 16 8)).toNat = field wire 16 8 :=
    UInt64.toNat_ofNat_of_lt' (field_lt wire 16 8)
  ext i h
  have hget : (blanked wire)[i] = if 4 ≤ i ∧ i < 8 then 0 else wire[i] := by
    rw [blanked, Vector.getElem_ofFn]
    rfl
  rw [getElem_encode, hget, decode, hsender, hsent, hreceived]
  dsimp only
  by_cases hfour : i < 4
  · rw [if_pos hfour, if_neg (by omega), byte_of_field wire (by decide) hfour]
    simp only [Nat.zero_add]
  by_cases height : i < 8
  · rw [if_neg hfour, if_pos height, if_pos (by omega)]
  rw [if_neg hfour, if_neg height, if_neg (show ¬ (4 ≤ i ∧ i < 8) by omega)]
  by_cases hsixteen : i < 16
  · rw [if_pos hsixteen, byte_of_field wire (by decide) (by omega)]
    simp only [show 8 + (i - 8) = i by omega]
  by_cases htwenty : i < 24
  · rw [if_neg hsixteen, if_pos htwenty, byte_of_field wire (by decide) (by omega)]
    simp only [show 16 + (i - 16) = i by omega]
  · rw [if_neg hsixteen, if_neg htwenty, toList_payload]
    simp [show 24 + (i - 24) = i by omega, h]

end Message

/-! ### The record of a process -/

namespace User.Message

theorem byteOf_eq (number : UInt64) {i : Nat} (h : i < 8) :
    byteOf number i = UInt8.ofNat (number.toNat / 256 ^ i) := by
  have hshift : (UInt64.ofNat (8 * i)).toNat % 64 = 8 * i := by
    rw [UInt64.toNat_ofNat_of_lt' (Nat.lt_of_lt_of_le (by omega : 8 * i < 64) (by decide))]
    omega
  apply UInt8.toNat_inj.1
  rw [byteOf, UInt64.toNat_toUInt8, UInt64.toNat_shiftRight, hshift, Nat.shiftRight_eq_div_pow,
    UInt8.toNat_ofNat', Nat.pow_mul]

/-- A message is laid out as the record in which a process keeps its fields. -/
theorem encode_eq_image (m : Timeshare.Message) :
    m.encode = (Message.mk m.sender 0 m.timeSent m.timeReceived m.data).image := by
  ext i h
  rw [Timeshare.Message.getElem_encode, image, Vector.getElem_ofFn]
  dsimp only
  by_cases hfour : i < 4
  · rw [if_pos hfour, if_pos hfour, byteOf_eq _ (by omega), UInt32.toNat_toUInt64]
  rw [if_neg hfour, if_neg hfour]
  by_cases height : i < 8
  · rw [if_pos height, if_pos height, byteOf_eq _ (by omega)]
    simp
  rw [if_neg height, if_neg height]
  by_cases hsixteen : i < 16
  · rw [if_pos hsixteen, if_pos hsixteen, byteOf_eq _ (by omega)]
  rw [if_neg hsixteen, if_neg hsixteen]
  by_cases htwenty : i < 24
  · rw [if_pos htwenty, if_pos htwenty, byteOf_eq _ (by omega)]
  · rw [if_neg htwenty, if_neg htwenty]

end User.Message

/-- The first bytes of a payload are those it was made of, the others are zero. -/
theorem Payload.toList_ofBytes (bytes : List UInt8) :
    (Payload.ofBytes bytes).toList
      = (bytes ++ List.replicate payloadSize 0).take payloadSize := rfl

namespace Message

/-- Messages keep all but their padding through the memory of a process, and memory keeps all but
the four bytes of the padding through a message; so messages without padding are told apart by
their bytes, and encoding what was decoded settles after one round.  A message is laid out as the
record of a process with the same fields; both make the same payload of any bytes, which are cut
off or filled up with zeros. -/
theorem wire_format_round_trips :
    (∀ m : Message, decode m.encode = { m with padding := 0 })
      ∧ (∀ wire : Wire, (decode wire).encode = blanked wire)
      ∧ Set.InjOn encode { m | m.padding = 0 }
      ∧ (∀ wire : Wire, (decode (decode wire).encode).encode = (decode wire).encode)
      ∧ (∀ m : Message,
          m.encode = (User.Message.mk m.sender 0 m.timeSent m.timeReceived m.data).image)
      ∧ ∀ bytes : List UInt8,
          (withPayload bytes).encode = (User.Message.withPayload bytes).image
            ∧ (withPayload bytes).encode.toList
              = List.replicate 24 0 ++
                  (bytes ++ List.replicate payloadSize 0).take payloadSize := by
  refine ⟨decode_encode_eq, encode_decode_eq, ?_, ?_, User.Message.encode_eq_image, ?_⟩
  · intro m hm m' hm' h
    have hdecode := congrArg decode h
    rw [decode_encode_eq, decode_encode_eq] at hdecode
    obtain ⟨sender, padding, sent, received, data⟩ := m
    obtain ⟨sender', padding', sent', received', data'⟩ := m'
    cases hm
    cases hm'
    exact hdecode
  · intro wire
    rw [decode_encode_eq]
    rfl
  · intro bytes
    refine ⟨User.Message.encode_eq_image _, ?_⟩
    have hfour : Text.littleEndian 4 0 = List.replicate 4 0 := rfl
    have height : Text.littleEndian 8 0 = List.replicate 8 0 := rfl
    have h : (withPayload bytes).encode.toList = Text.littleEndian 4 0 ++ (List.replicate 4 0
        ++ (Text.littleEndian 8 0 ++ (Text.littleEndian 8 0
        ++ (Payload.ofBytes bytes).toList))) := toList_encode _
    rw [h, hfour, height, Payload.toList_ofBytes]
    simp only [← List.append_assoc, List.replicate_append_replicate]

end Message

end Timeshare
