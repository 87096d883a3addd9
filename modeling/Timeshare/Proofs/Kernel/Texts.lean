import Timeshare.Proofs.Kernel.Stages
import Timeshare.Proofs.Machine.Written
import Timeshare.Proofs.Text.Utf8

/-!
# Text in process memory

Text is read byte by byte up to a zero byte, and no further than there is room for it.  So it
is read if its own bytes lie in memory, whatever is behind them, and a process is started
under a name that ends with the last byte of memory like under any other.
-/

namespace Timeshare

namespace Machine.Memory

variable {memory : Memory} {address room : Nat} {text : List UInt8} {b : UInt8}

/-- The byte at an address, if the address is a word and lies in memory. -/
def byteAt? (memory : Memory) (address : Nat) : Option UInt8 :=
  if base.toNat ≤ address ∧ address < Word.range then memory.bytes[address - base.toNat]?
  else none

/-- The text from an address on: the bytes up to the first zero, or as many as there is room
for. -/
structure TextAt (memory : Memory) (address room : Nat) (text : List UInt8) : Prop where
  length_le : text.length ≤ room
  bytes : ∀ i < text.length, memory.byteAt? (address + i) = text[i]?
  nonzero : ∀ b ∈ text, b ≠ 0
  ends : text.length < room → memory.byteAt? (address + text.length) = some 0

theorem lt_of_byteAt? (hbyte : memory.byteAt? address = some b) : address < Word.range := by
  unfold byteAt? at hbyte
  split at hbyte
  · rename_i hinside
    exact hinside.2
  · contradiction

theorem textAt_nil_iff :
    memory.TextAt address room [] ↔ room = 0 ∨ memory.byteAt? address = some 0 := by
  constructor
  · intro h
    rcases Nat.eq_zero_or_pos room with hroom | hroom
    · exact .inl hroom
    · exact .inr (h.ends hroom)
  · intro h
    refine ⟨Nat.zero_le _, fun i hi => absurd hi (Nat.not_lt_zero i), fun b hb => ?_,
      fun hroom => h.resolve_left (Nat.ne_of_gt hroom)⟩
    exact absurd hb List.not_mem_nil

theorem textAt_cons_iff :
    memory.TextAt address (room + 1) (b :: text) ↔
      memory.byteAt? address = some b ∧ b ≠ 0 ∧ memory.TextAt (address + 1) room text := by
  constructor
  · intro h
    refine ⟨h.bytes 0 (Nat.zero_lt_succ _), h.nonzero b List.mem_cons_self,
      Nat.le_of_succ_le_succ h.length_le, fun i hi => ?_,
      fun c hc => h.nonzero c (List.mem_cons_of_mem _ hc), fun hroom => ?_⟩
    · have hbyte := h.bytes (i + 1) (Nat.succ_lt_succ hi)
      rwa [List.getElem?_cons_succ, ← Nat.add_assoc, Nat.add_right_comm] at hbyte
    · have hzero := h.ends (Nat.succ_lt_succ hroom)
      rwa [List.length_cons, ← Nat.add_assoc, Nat.add_right_comm] at hzero
  · rintro ⟨hbyte, hb, h⟩
    refine ⟨Nat.succ_le_succ h.length_le, fun i hi => ?_, fun c hc => ?_, fun hroom => ?_⟩
    · cases i with
      | zero => exact hbyte
      | succ i =>
          rw [List.getElem?_cons_succ, ← Nat.add_assoc, Nat.add_right_comm]
          exact h.bytes i (Nat.lt_of_succ_lt_succ hi)
    · rcases List.mem_cons.1 hc with rfl | hrest
      · exact hb
      · exact h.nonzero c hrest
    · rw [List.length_cons, ← Nat.add_assoc, Nat.add_right_comm]
      exact h.ends (Nat.lt_of_succ_lt_succ hroom)

/-- Text begins with a zero byte, and then it is empty, or with another byte. -/
theorem textAt_succ_iff :
    memory.TextAt address (room + 1) text ↔
      ∃ b, memory.byteAt? address = some b ∧ (b = 0 ∧ text = [] ∨
        b ≠ 0 ∧ ∃ rest, text = b :: rest ∧ memory.TextAt (address + 1) room rest) := by
  constructor
  · intro h
    cases text with
    | nil =>
        have hzero := (textAt_nil_iff.1 h).resolve_left (Nat.succ_ne_zero room)
        exact ⟨0, hzero, .inl ⟨rfl, rfl⟩⟩
    | cons b rest =>
        obtain ⟨hbyte, hb, hrest⟩ := textAt_cons_iff.1 h
        exact ⟨b, hbyte, .inr ⟨hb, rest, rfl, hrest⟩⟩
  · rintro ⟨b, hbyte, ⟨rfl, rfl⟩ | ⟨hb, rest, rfl, hrest⟩⟩
    · exact textAt_nil_iff.2 (.inr hbyte)
    · exact textAt_cons_iff.2 ⟨hbyte, hb, hrest⟩

/-- Where there is room for text, the text begins in memory. -/
theorem TextAt.base_le (h : memory.TextAt address (room + 1) text) : base.toNat ≤ address := by
  obtain ⟨b, hbyte, _⟩ := textAt_succ_iff.1 h
  unfold byteAt? at hbyte
  split at hbyte
  · rename_i hinside
    exact hinside.1
  · contradiction

/-- Reading one byte. -/
theorem read_one (memory : Memory) (address : UInt64) :
    memory.read address 1 =
      match memory.byteAt? address.toNat with
      | some b => .ok #v[b]
      | none => .error ⟨address, 1⟩ := by
  have hword : address.toNat < Word.range := address.toNat_lt
  rw [read_eq, byteAt?]
  by_cases hholds : memory.Holds ⟨address, 1⟩
  · have hfirst : base.toNat ≤ address.toNat := hholds.1
    have hend : address.toNat + 1 ≤ base.toNat + memory.bytes.size := hholds.2
    have hinside : address.toNat - base.toNat < memory.bytes.size := by omega
    rw [if_pos hholds, if_pos ⟨hfirst, hword⟩, Array.getElem?_eq_getElem hinside]
    refine congrArg Except.ok (Vector.ext fun i hi => ?_)
    obtain rfl : i = 0 := by omega
    rw [Vector.getElem_ofFn, Array.getD_eq_getD_getElem?, Nat.add_zero,
      Array.getElem?_eq_getElem hinside]
    rfl
  · rw [if_neg hholds]
    by_cases hfirst : base.toNat ≤ address.toNat
    · have hend : ¬ address.toNat + 1 ≤ base.toNat + memory.bytes.size :=
        fun hend => hholds ⟨hfirst, hend⟩
      rw [if_pos ⟨hfirst, hword⟩, Array.getElem?_eq_none (by omega)]
    · rw [if_neg fun h => hfirst h.1]

end Machine.Memory

namespace Kernel

open Machine (Memory Simulated)

variable {k k' : Kernel Simulated} {address offset : UInt64} {room : Nat} {text : List UInt8}

/-- Where there is a byte, reading ends at it or goes on behind it. -/
theorem readText_of_byteAt? {b : UInt8}
    (hbyte : k.platform.memory.byteAt? (address.toNat + offset.toNat) = some b) :
    readText address offset (room + 1) k =
      if b = 0 then .ok [] k
      else (do return b :: (← readText address (offset + 1) room) : Handler Simulated _) k := by
  have hfits := Memory.lt_of_byteAt? hbyte
  have hhere : (address + offset).toNat = address.toNat + offset.toNat :=
    Word.toNat_add (if_pos hfits)
  have hread : Platform.readMemory k.platform (address + offset) 1 = .ok #v[b] := by
    rw [show Platform.readMemory k.platform (address + offset) 1 = _ from
      k.platform.memory.read_one _, hhere, hbyte]
  rw [readText, orFault_check_bind, Word.add, if_pos hfits]
  dsimp only
  rw [read_bind, hread]
  dsimp only
  rw [show (#v[b] : Vector UInt8 1)[0] = b from rfl]
  split <;> rfl

/-- Where there is no byte, nothing is read. -/
theorem readText_ne_ok
    (hnone : k.platform.memory.byteAt? (address.toNat + offset.toNat) = none) :
    readText address offset (room + 1) k ≠ .ok text k' := by
  rw [readText, orFault_check_bind]
  by_cases hfits : address.toNat + offset.toNat < Word.range
  · have hhere : (address + offset).toNat = address.toNat + offset.toNat :=
      Word.toNat_add (if_pos hfits)
    rw [Word.add, if_pos hfits]
    dsimp only
    rw [read_bind, show Platform.readMemory k.platform (address + offset) 1 = _ from
      k.platform.memory.read_one _, hhere, hnone]
    exact fun h => by contradiction
  · rw [Word.add, if_neg hfits]
    exact fun h => by contradiction

/-- One round of reading text. -/
theorem readText_succ_eq_ok_iff :
    readText address offset (room + 1) k = .ok text k' ↔
      ∃ b, k.platform.memory.byteAt? (address.toNat + offset.toNat) = some b ∧
        (b = 0 ∧ text = [] ∧ k' = k ∨ b ≠ 0 ∧ ∃ rest, text = b :: rest ∧
          readText address (offset + 1) room k = .ok rest k') := by
  cases hbyte : k.platform.memory.byteAt? (address.toNat + offset.toNat) with
  | none => exact iff_of_false (readText_ne_ok hbyte) fun ⟨_, h, _⟩ => by contradiction
  | some b =>
      rw [readText_of_byteAt? hbyte]
      by_cases hb : b = 0
      · rw [if_pos hb]
        constructor
        · intro h
          injection h with htext hk
          exact ⟨b, rfl, .inl ⟨hb, htext.symm, hk.symm⟩⟩
        · rintro ⟨c, hc, ⟨_, rfl, rfl⟩ | ⟨hc', _⟩⟩
          · rfl
          · exact absurd (Option.some.inj hc ▸ hb) hc'
      · rw [if_neg hb, bind_eq_ok_iff]
        constructor
        · rintro ⟨rest, k₁, hrest, h⟩
          injection h with htext hk
          subst htext hk
          exact ⟨b, rfl, .inr ⟨hb, rest, rfl, hrest⟩⟩
        · rintro ⟨c, hc, ⟨hc', _⟩ | ⟨_, rest, rfl, hrest⟩⟩
          · exact absurd (Option.some.inj hc ▸ hc') hb
          · obtain rfl := Option.some.inj hc
            exact ⟨rest, k', hrest, rfl⟩

/-- What is read is the text at the address, and it is read if there is one. -/
theorem readText_eq_ok_iff (hoffset : offset.toNat + room < Word.range) :
    readText address offset room k = .ok text k' ↔
      k' = k ∧ k.platform.memory.TextAt (address.toNat + offset.toNat) room text := by
  -- each round moves the offset on by one and leaves room for one byte less
  induction room generalizing offset text with
  | zero =>
      constructor
      · intro h
        injection h with htext hk
        subst htext hk
        exact ⟨rfl, Memory.textAt_nil_iff.2 (.inl rfl)⟩
      · rintro ⟨rfl, h⟩
        rw [List.eq_nil_of_length_eq_zero (Nat.le_zero.1 h.length_le)]
        rfl
  | succ room ih =>
      have hnext : (offset + 1).toNat = offset.toNat + 1 := by
        simp only [Word.range] at hoffset
        rw [UInt64.toNat_add, UInt64.toNat_one, Nat.mod_eq_of_lt (by omega)]
      have hrest {rest : List UInt8} : readText address (offset + 1) room k = .ok rest k' ↔
          k' = k ∧ k.platform.memory.TextAt (address.toNat + offset.toNat + 1) room rest := by
        rw [ih (by rw [hnext]; omega), hnext, Nat.add_assoc]
      rw [readText_succ_eq_ok_iff, Memory.textAt_succ_iff]
      simp only [hrest]
      constructor
      · rintro ⟨b, hbyte, ⟨hb, htext, hk⟩ | ⟨hb, rest, htext, hk, h⟩⟩
        · exact ⟨hk, b, hbyte, .inl ⟨hb, htext⟩⟩
        · exact ⟨hk, b, hbyte, .inr ⟨hb, rest, htext, h⟩⟩
      · rintro ⟨hk, b, hbyte, ⟨hb, htext⟩ | ⟨hb, rest, htext, h⟩⟩
        · exact ⟨b, hbyte, .inl ⟨hb, htext, hk⟩⟩
        · exact ⟨b, hbyte, .inr ⟨hb, rest, htext, hk, h⟩⟩

/-! ## Starting a process by name -/

/-- Whoever is started is called by the longest valid start of the text at the pointer. -/
theorem exec_eq_ok {pointer entry : UInt64} {value : Int64}
    (hexec : exec pointer entry k = .ok value k') :
    ∃ text pid, k.platform.memory.TextAt pointer.toNat nameCapacity text ∧
      spawn entry (String.ofList (Text.decodeValid text)) k = .ok pid k' ∧
      value = pid.number.toUInt64.toInt64 := by
  unfold exec at hexec
  split at hexec
  · contradiction
  obtain ⟨text, k₁, hread, hexec⟩ := bind_eq_ok_iff.1 hexec
  obtain ⟨pid, k₂, hspawn, hexec⟩ := bind_eq_ok_iff.1 hexec
  injection hexec with hvalue hk
  subst hk
  obtain ⟨rfl, htext⟩ := (readText_eq_ok_iff (by decide)).1 hread
  exact ⟨text, pid, htext, hspawn, hvalue.symm⟩

/-- Where there is text at the pointer, starting a process by that name is creating it. -/
theorem exec_of_textAt {pointer entry : UInt64}
    (htext : k.platform.memory.TextAt pointer.toNat nameCapacity text) (hentry : entry ≠ 0) :
    exec pointer entry k = (do
      let pid ← spawn entry (String.ofList (Text.decodeValid text))
      return pid.number.toUInt64.toInt64 : Handler Simulated Int64) k := by
  -- no memory is mapped at null, so there is no text there
  have hpointer : pointer ≠ 0 := by
    rintro rfl
    exact absurd (Memory.TextAt.base_le htext) (by decide)
  have hread : readText pointer 0 nameCapacity k = .ok text k :=
    (readText_eq_ok_iff (by decide)).2 ⟨rfl, htext⟩
  unfold exec
  rw [if_neg fun h => h.elim hpointer hentry]
  show EStateM.bind (readText pointer 0 nameCapacity) _ k = _
  rw [EStateM.bind, hread]

end Kernel

end Timeshare
