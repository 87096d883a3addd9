import Mathlib.Logic.Basic
import Timeshare.Machine.Simulated
import Timeshare.Proofs.Machine.Ports

/-!
# Interrupt lines on both machines

The computer holds its lines back by the masks of two controllers, the simulated machine by one
word.  Any orders that a kernel gives to both leave the same lines open, as long as none of them
is for the line on which the second controller reports.

The invariant speaks of single bits: the bits of the two masks are those of the word, and the line
on which the second controller reports is open as soon as one of its own lines is.
-/

namespace Timeshare.Platform

/-- One order of a kernel to its machine. -/
inductive Order
  /-- Hold a line back or let it through. -/
  | setLine (line : UInt8) (masked : Bool)
  | acknowledge (line : UInt8)
  | pollKey
  | clearScreen
  | paint (row column : Nat) (style : Style) (text : String)
  | halt
  | writeMemory (address : UInt64) (data : List UInt8)
  | log (event : Journal.Event)

variable {P : Type} [Platform P]

/-- Carry out an order. -/
def Order.run (order : Order) (p : P) : P :=
  match order with
  | setLine line masked =>
      if masked then Platform.disableLine line p else Platform.enableLine line p
  | acknowledge line => Platform.acknowledge line p
  | pollKey => (Platform.pollKey p).2
  | clearScreen => Platform.clearScreen p
  | paint row column style text => (Platform.paint row column style text p).2
  | halt => Platform.halt p
  | writeMemory address data => (Platform.writeMemory address data p).2
  | log event => Platform.log event p

/-- The line that an order holds back or lets through. -/
def Order.line? : Order → Option UInt8
  | setLine line _ => some line
  | _ => none

/-- Carry out orders, one after the other. -/
def runAll (orders : List Order) (p : P) : P := orders.foldl (fun p order => order.run p) p

end Timeshare.Platform

namespace Timeshare.Machine

open Platform (Order runAll)
open Ports (Spares)

/-! ## Single bits -/

/-- A mask after one bit was set or cleared. -/
def adjusted {w : Nat} (mask : BitVec w) (i : Nat) (held : Bool) : BitVec w :=
  if held then mask ||| BitVec.twoPow w i else mask &&& ~~~ BitVec.twoPow w i

theorem getLsbD_adjusted {w i j : Nat} (mask : BitVec w) (held : Bool) (hj : j < w) :
    (adjusted mask i held).getLsbD j = if j = i then held else mask.getLsbD j := by
  unfold adjusted
  by_cases hij : j = i
  · subst hij
    cases held <;> simp [hj]
  · cases held <;> simp [hj, hij]

theorem and_twoPow_eq_zero_iff {w i : Nat} (mask : BitVec w) (hi : i < w) :
    mask &&& BitVec.twoPow w i = 0#w ↔ mask.getLsbD i = false := by
  have hbit : (BitVec.twoPow w i).getLsbD i = true := by simp [hi]
  rw [BitVec.and_twoPow]
  cases mask.getLsbD i with
  | false => simp
  | true =>
      rw [if_pos rfl]
      refine iff_of_false (fun hzero => ?_) (by decide)
      rw [hzero, BitVec.getLsbD_zero] at hbit
      contradiction

theorem toBitVec_bit {bit : UInt8} (hbit : bit < 8) :
    ((1 : UInt8) <<< bit).toBitVec = BitVec.twoPow 8 bit.toNat := by
  have hlt : bit.toNat < 8 := UInt8.lt_iff_toNat_lt.1 hbit
  rw [UInt8.toBitVec_shiftLeft, BitVec.shiftLeft_eq', BitVec.twoPow_eq]
  congr 1
  simp
  omega

theorem toBitVec_wideBit {line : UInt8} (hline : line < 16) :
    ((1 : UInt16) <<< line.toUInt16).toBitVec = BitVec.twoPow 16 line.toNat := by
  have hlt : line.toNat < 16 := UInt8.lt_iff_toNat_lt.1 hline
  rw [UInt16.toBitVec_shiftLeft, BitVec.shiftLeft_eq', BitVec.twoPow_eq]
  congr 1
  simp
  omega

/-! ## The simulated machine -/

namespace Simulated

variable {line : UInt8} (m : Simulated)

theorem mask_setLine (hline : line < 16) (masked : Bool) :
    ((Order.setLine line masked).run m).mask.toBitVec
      = adjusted m.mask.toBitVec line.toNat masked := by
  have hbit : lineBit? line = some (1 <<< line.toUInt16) := if_pos hline
  cases masked with
  | false =>
      show (m.enableLine line).mask.toBitVec = _
      rw [enableLine, hbit, UInt16.toBitVec_and, UInt16.toBitVec_not, toBitVec_wideBit hline]
      rfl
  | true =>
      show (m.disableLine line).mask.toBitVec = _
      rw [disableLine, hbit, UInt16.toBitVec_or, toBitVec_wideBit hline]
      rfl

theorem lineEnabled_eq (hline : line < 16) :
    m.lineEnabled line = !m.mask.toBitVec.getLsbD line.toNat := by
  have hbit : lineBit? line = some (1 <<< line.toUInt16) := if_pos hline
  have hlt : line.toNat < 16 := UInt8.lt_iff_toNat_lt.1 hline
  rw [lineEnabled, hbit, Option.any_some, Bool.eq_iff_iff, beq_iff_eq, Bool.not_eq_true',
    ← and_twoPow_eq_zero_iff _ hlt, ← toBitVec_wideBit hline, ← UInt16.toBitVec_and]
  exact UInt16.toBitVec_inj.symm

theorem lineBit?_of_le (hline : 16 ≤ line) : lineBit? line = none :=
  if_neg (UInt8.not_lt.2 hline)

theorem setLine_of_le (hline : 16 ≤ line) (masked : Bool) :
    (Order.setLine line masked).run m = m := by
  cases masked with
  | false =>
      show m.enableLine line = m
      rw [enableLine, lineBit?_of_le hline]
  | true =>
      show m.disableLine line = m
      rw [disableLine, lineBit?_of_le hline]

/-- An order that is for no line leaves the mask as it is. -/
theorem mask_run {order : Order} (hline : order.line? = none) : (order.run m).mask = m.mask := by
  cases order with
  | setLine => contradiction
  | pollKey =>
      show m.takeKey.2.mask = _
      unfold takeKey
      split <;> rfl
  | _ => rfl

end Simulated

/-! ## The computer -/

namespace InterruptController

variable {ports : Ports} {port other : UInt16} {line bit : UInt8}

/-- Whether the controllers let an interrupt of a line through.  The byte last written to port 0x21
holds back the lines from 0 on, bit by bit, and the one last written to port 0xA1 the lines from 8
on.  A line of the second controller gets through only if line 2 does. -/
def delivers (ports : Ports) (line : UInt8) : Bool :=
  let first := (ports.latch 0x21).toBitVec
  let second := (ports.latch 0xA1).toBitVec
  if line.toNat < 8 then !first.getLsbD line.toNat
  else if line.toNat < 16 then !second.getLsbD (line.toNat - 8) && !first.getLsbD 2
  else false

/-- A read of a data port yields the mask that was last written to it. -/
def ReadsMasks (ports : Ports) : Prop :=
  ∀ port ∈ maskPorts, (ports.input port).1 = ports.latch port

theorem toBitVec_withBit (mask : UInt8) (hbit : bit < 8) (masked : Bool) :
    (withBit mask bit masked).toBitVec = adjusted mask.toBitVec bit.toNat masked := by
  cases masked with
  | false =>
      show (mask &&& ~~~(1 <<< bit)).toBitVec = _
      rw [UInt8.toBitVec_and, UInt8.toBitVec_not, toBitVec_bit hbit]
      rfl
  | true =>
      show (mask ||| (1 <<< bit)).toBitVec = _
      rw [UInt8.toBitVec_or, toBitVec_bit hbit]
      rfl

theorem getLsbD_withBit (mask : UInt8) (hbit : bit < 8) (masked : Bool) {i : Nat} (hi : i < 8) :
    (withBit mask bit masked).toBitVec.getLsbD i
      = if i = bit.toNat then masked else mask.toBitVec.getLsbD i := by
  rw [toBitVec_withBit mask hbit, getLsbD_adjusted _ _ hi]

theorem place?_of_lt (hline : line < 8) : place? line = some (mask1, line) := if_pos hline

theorem place?_of_second (hfirst : 8 ≤ line) (hline : line < 16) :
    place? line = some (mask2, line - 8) := by
  rw [place?, if_neg (UInt8.not_lt.2 hfirst), if_pos hline]

theorem place?_of_le (hline : 16 ≤ line) : place? line = none := by
  rw [place?, if_neg (UInt8.not_lt.2 (UInt8.le_trans (by decide) hline)),
    if_neg (UInt8.not_lt.2 hline)]

/-- The lines of the second controller are counted from eight on. -/
theorem toNat_sub_eight (hfirst : 8 ≤ line) (hline : line < 16) :
    line - 8 < 8 ∧ 8 + (line - 8).toNat = line.toNat := by
  have hlow : 8 ≤ line.toNat := UInt8.le_iff_toNat_le.1 hfirst
  have hhigh : line.toNat < 16 := UInt8.lt_iff_toNat_lt.1 hline
  have hsub : (line - 8).toNat = line.toNat - 8 := UInt8.toNat_sub_of_le _ _ hfirst
  refine ⟨UInt8.lt_iff_toNat_lt.2 ?_, ?_⟩
  · rw [hsub]
    show line.toNat - 8 < 8
    omega
  · omega

theorem readsMasks_of_unscripted (hscripts : ∀ port ∈ maskPorts, ports.script port = []) :
    ReadsMasks ports := by
  intro port hport
  have hplain : port ≠ lineStatusPort := ne_of_mem_maskPorts hport (by decide)
  unfold Ports.input
  rw [hscripts port hport]
  exact if_neg hplain

/-! ### Updates of one mask -/

/-- A mask that is read back changes in one bit. -/
theorem latch_updateMask_self (hread : (ports.input port).1 = ports.latch port)
    (bit : UInt8) (masked : Bool) :
    (updateMask ports port bit masked).latch port = withBit (ports.latch port) bit masked := by
  unfold updateMask
  simp only [Ports.latch_output_self, hread]

theorem spares_updateMask (hother : port ≠ other) (ports : Ports) (bit : UInt8) (masked : Bool) :
    Spares port ports (updateMask ports other bit masked) :=
  ((Spares.refl ..).input hother).output hother _

/-- The masks after a line of the first controller was held back or let through. -/
theorem latch_setMasked_first (hreads : ReadsMasks ports) (hline : line < 8) (masked : Bool) :
    (setMasked ports line masked).latch mask1 = withBit (ports.latch mask1) line masked ∧
      (setMasked ports line masked).latch mask2 = ports.latch mask2 := by
  have hsecond : ¬ (8 ≤ line ∧ (!masked) = true) := fun h => UInt8.not_le.2 hline h.1
  unfold setMasked
  simp only [place?_of_lt hline, if_neg hsecond]
  exact ⟨latch_updateMask_self (hreads mask1 (by decide)) line masked,
    (spares_updateMask (by decide) ports line masked).latch⟩

/-- The masks after a line of the second controller was held back or let through.  The line that
the second controller reports on is let through with it, and never held back. -/
theorem latch_setMasked_second (hreads : ReadsMasks ports) (hfirst : 8 ≤ line)
    (hline : line < 16) (masked : Bool) :
    (setMasked ports line masked).latch mask2
        = withBit (ports.latch mask2) (line - 8) masked ∧
      (setMasked ports line masked).latch mask1
        = if masked then ports.latch mask1 else withBit (ports.latch mask1) cascadeLine false := by
  have hmask2 := latch_updateMask_self (hreads mask2 (by decide)) (line - 8) masked
  have hspares : Spares mask1 ports (updateMask ports mask2 (line - 8) masked) :=
    spares_updateMask (by decide) ..
  unfold setMasked
  simp only [place?_of_second hfirst hline]
  cases masked with
  | true =>
      rw [if_neg (by simp)]
      exact ⟨hmask2, hspares.latch⟩
  | false =>
      rw [if_pos ⟨hfirst, rfl⟩]
      -- the first mask is read only after the second was written
      have hread : ((updateMask ports mask2 (line - 8) false).input mask1).1
          = (updateMask ports mask2 (line - 8) false).latch mask1 := by
        rw [hspares.input_eq, hspares.latch]
        exact hreads mask1 (by decide)
      refine ⟨(spares_updateMask (by decide) ..).latch.trans hmask2, ?_⟩
      rw [latch_updateMask_self hread, hspares.latch]
      rfl

theorem setMasked_of_le (hline : 16 ≤ line) (ports : Ports) (masked : Bool) :
    setMasked ports line masked = ports := by
  unfold setMasked
  rw [place?_of_le hline]

theorem script_updateMask (hscript : ports.script port = []) (other : UInt16) (bit : UInt8)
    (masked : Bool) : (updateMask ports other bit masked).script port = [] := by
  by_cases hother : port = other
  · subst hother
    exact Ports.script_input_self hscript
  · exact (spares_updateMask hother ports bit masked).script.trans hscript

theorem script_setMasked (hscript : ports.script port = []) (line : UInt8) (masked : Bool) :
    (setMasked ports line masked).script port = [] := by
  unfold setMasked
  split
  · exact hscript
  · simp only
    split
    · exact script_updateMask (script_updateMask hscript ..) ..
    · exact script_updateMask hscript ..

/-- After remapping, all lines are held back. -/
theorem latch_remap (ports : Ports) :
    ∀ port ∈ maskPorts, (remap ports).latch port = 0xFF := by
  have hmask1 : (remap ports).latch mask1 = 0xFF := by
    refine ((Spares.refl mask1 _).output (by decide) _).latch.trans ?_
    exact Ports.latch_output_self ..
  have hmask2 : (remap ports).latch mask2 = 0xFF := Ports.latch_output_self ..
  simp [maskPorts, hmask1, hmask2]

end InterruptController

open InterruptController

/-! ## One order -/

/-- The masks of both controllers hold back the lines that one word holds back. -/
structure SameLines (ports : Ports) (mask : UInt16) : Prop where
  first : ∀ i < 8, i ≠ cascadeLine.toNat →
    (ports.latch mask1).toBitVec.getLsbD i = mask.toBitVec.getLsbD i
  second : ∀ i < 8, (ports.latch mask2).toBitVec.getLsbD i = mask.toBitVec.getLsbD (8 + i)
  /-- As soon as a line of the second controller is open, so is the line it reports on. -/
  cascade : ∀ i < 8, (ports.latch mask2).toBitVec.getLsbD i = false →
    (ports.latch mask1).toBitVec.getLsbD cascadeLine.toNat = false

namespace SameLines

variable {ports : Ports} {sim : Simulated} {line : UInt8}

/-- Bit by bit the same lines get through. -/
theorem delivers_eq (hsame : SameLines ports sim.mask) (hline : line ≠ cascadeLine) :
    delivers ports line = sim.lineEnabled line := by
  unfold delivers
  dsimp only
  by_cases hfirst : line.toNat < 8
  · have hlow : line < 8 := UInt8.lt_iff_toNat_lt.2 hfirst
    have hne : line.toNat ≠ cascadeLine.toNat := fun h => hline (UInt8.toNat_inj.1 h)
    rw [if_pos hfirst, sim.lineEnabled_eq (UInt8.lt_trans hlow (by decide)),
      ← hsame.first _ hfirst hne]
    rfl
  by_cases hsecond : line.toNat < 16
  · have hplace : 8 + (line.toNat - 8) = line.toNat := Nat.add_sub_of_le (Nat.not_lt.1 hfirst)
    have hlt : line.toNat - 8 < 8 := by omega
    have hheld := hsame.second _ hlt
    rw [hplace] at hheld
    rw [if_neg hfirst, if_pos hsecond, sim.lineEnabled_eq (UInt8.lt_iff_toNat_lt.2 hsecond),
      ← hheld]
    show (!(ports.latch mask2).toBitVec.getLsbD (line.toNat - 8) &&
      !(ports.latch mask1).toBitVec.getLsbD cascadeLine.toNat) = _
    cases hopen : (ports.latch mask2).toBitVec.getLsbD (line.toNat - 8) with
    | false =>
        rw [hsame.cascade _ hlt hopen]
        rfl
    | true => rfl
  · have hnone : 16 ≤ line := UInt8.le_iff_toNat_le.2 (Nat.not_lt.1 hsecond)
    rw [if_neg hfirst, if_neg hsecond, Simulated.lineEnabled, Simulated.lineBit?_of_le hnone]
    rfl

/-- A line of the first controller has its bit in the first mask. -/
theorem setLine_first (hsame : SameLines ports sim.mask) (hreads : ReadsMasks ports)
    (hline : line ≠ cascadeLine) (hfirst : line < 8) (masked : Bool) :
    SameLines (setMasked ports line masked) ((Order.setLine line masked).run sim).mask := by
  have hlt : line.toNat < 8 := UInt8.lt_iff_toNat_lt.1 hfirst
  have hne : cascadeLine.toNat ≠ line.toNat := fun h => hline (UInt8.toNat_inj.1 h.symm)
  have hword := sim.mask_setLine (UInt8.lt_trans hfirst (by decide)) masked
  obtain ⟨hmask1, hmask2⟩ := latch_setMasked_first hreads hfirst masked
  refine ⟨fun i hi hcascade => ?_, fun i hi => ?_, fun i hi hopen => ?_⟩
  · rw [hmask1, getLsbD_withBit _ hfirst _ hi, hword, getLsbD_adjusted _ _ (by omega),
      hsame.first i hi hcascade]
  · rw [hmask2, hword, getLsbD_adjusted _ _ (by omega), if_neg (by omega), hsame.second i hi]
  · rw [hmask2] at hopen
    rw [hmask1, getLsbD_withBit _ hfirst _ (by decide), if_neg hne, hsame.cascade i hi hopen]

/-- A line of the second controller has its bit in the second mask.  To let it through clears a bit
of the first mask, but not one that the machines have to agree on. -/
theorem setLine_second (hsame : SameLines ports sim.mask) (hreads : ReadsMasks ports)
    (hfirst : 8 ≤ line) (hsecond : line < 16) (masked : Bool) :
    SameLines (setMasked ports line masked) ((Order.setLine line masked).run sim).mask := by
  obtain ⟨hbit, hplace⟩ := toNat_sub_eight hfirst hsecond
  have hword := sim.mask_setLine hsecond masked
  obtain ⟨hmask2, hmask1⟩ := latch_setMasked_second hreads hfirst hsecond masked
  have hcascade : (cascadeLine : UInt8) < 8 := by decide
  refine ⟨fun i hi hother => ?_, fun i hi => ?_, fun i hi hopen => ?_⟩
  · rw [hword, getLsbD_adjusted _ _ (by omega), if_neg (by omega), ← hsame.first i hi hother,
      hmask1]
    split
    · rfl
    · rw [getLsbD_withBit _ hcascade _ hi, if_neg hother]
  · rw [hmask2, getLsbD_withBit _ hbit _ hi, hword, getLsbD_adjusted _ _ (by omega),
      hsame.second i hi]
    exact if_congr (by omega) rfl rfl
  · rw [hmask1]
    cases masked with
    | false => rw [if_neg (by decide), getLsbD_withBit _ hcascade _ (by decide), if_pos rfl]
    | true =>
        -- a line that is open after another was held back was open before
        rw [hmask2, getLsbD_withBit _ hbit _ hi] at hopen
        split at hopen
        · contradiction
        · exact hsame.cascade i hi hopen

/-- Holding a line back or letting it through keeps the machines in step. -/
theorem setLine (hsame : SameLines ports sim.mask) (hreads : ReadsMasks ports)
    (hline : line ≠ cascadeLine) (masked : Bool) :
    SameLines (setMasked ports line masked) ((Order.setLine line masked).run sim).mask := by
  rcases UInt8.lt_or_le line 8 with hfirst | hfirst
  · exact hsame.setLine_first hreads hline hfirst masked
  rcases UInt8.lt_or_le line 16 with hsecond | hnone
  · exact hsame.setLine_second hreads hfirst hsecond masked
  · rw [setMasked_of_le hnone, sim.setLine_of_le hnone]
    exact hsame

theorem congr {after : Ports} {mask : UInt16} (hsame : SameLines ports mask)
    (hports : ∀ port ∈ maskPorts, after.latch port = ports.latch port) : SameLines after mask := by
  have hmask1 := hports mask1 (by decide)
  have hmask2 := hports mask2 (by decide)
  exact ⟨hmask1 ▸ hsame.first, hmask2 ▸ hsame.second, hmask1 ▸ hmask2 ▸ hsame.cascade⟩

/-- Both machines start with every line held back. -/
theorem held (hports : ∀ port ∈ maskPorts, ports.latch port = 0xFF) : SameLines ports 0xFFFF := by
  have hmask1 := hports mask1 (by decide)
  have hmask2 := hports mask2 (by decide)
  refine ⟨?_, ?_, ?_⟩
  · rw [hmask1]
    decide
  · rw [hmask2]
    decide
  · rw [hmask1, hmask2]
    decide

end SameLines

namespace Pc

/-- An order that is for no line leaves the masks alone. -/
theorem spares_run {port : UInt16} (hport : port ∈ maskPorts) {order : Order}
    (hline : order.line? = none) (m : Pc) : Spares port m.ports (order.run m).ports := by
  cases order with
  | setLine => contradiction
  | acknowledge line => exact m.spares_endOfInterrupt hport line
  | pollKey => exact m.spares_keyboardPoll hport
  | clearScreen => exact m.spares_serialWrite hport _
  | paint row column style text => exact m.spares_paint hport row column style text
  | halt => exact .refl ..
  | writeMemory address data =>
      show Spares port m.ports (m.writeMemory address data).2.ports
      rw [ports_writeMemory]
      exact .refl ..
  | log event => exact m.spares_logRecord hport event.record

theorem run_setLine (m : Pc) (line : UInt8) (masked : Bool) :
    (Order.setLine line masked).run m = m.setMasked line masked := by
  cases masked <;> rfl

end Pc

/-! ## Any orders -/

variable {m : Pc} {sim : Simulated}

/-- One order keeps the machines in step. -/
theorem SameLines.run {order : Order} (hsame : SameLines m.ports sim.mask)
    (hreads : ReadsMasks m.ports) (hcascade : order.line? ≠ some cascadeLine) :
    SameLines (order.run m).ports (order.run sim).mask := by
  cases hline : order.line? with
  | none =>
      rw [sim.mask_run hline]
      exact hsame.congr fun port hport => (m.spares_run hport hline).latch
  | some line =>
      cases order with
      | setLine line masked =>
          rw [m.run_setLine]
          exact hsame.setLine hreads (fun heq => hcascade (congrArg some heq)) masked
      | _ => contradiction

/-- Any orders keep the machines in step. -/
theorem SameLines.runAll {orders : List Order} (hsame : SameLines m.ports sim.mask)
    (hcascade : ∀ order ∈ orders, order.line? ≠ some cascadeLine)
    (hreads : ∀ front, front <+: orders → ReadsMasks (runAll front m).ports) :
    SameLines (Platform.runAll orders m).ports (Platform.runAll orders sim).mask := by
  induction orders generalizing m sim with
  | nil => exact hsame
  | cons order rest ih =>
      have hnow : ReadsMasks m.ports := hreads [] List.nil_prefix
      refine ih (hsame.run hnow (hcascade order List.mem_cons_self))
        (fun later hlater => hcascade later (List.mem_cons_of_mem _ hlater)) ?_
      intro front hfront
      exact hreads (order :: front) (List.prefix_cons_inj order |>.2 hfront)

/-- Data ports without scripts read as they were last written, whatever the orders. -/
theorem readsMasks_runAll (hscripts : ∀ port ∈ maskPorts, m.ports.script port = [])
    (orders : List Order) : ReadsMasks (runAll orders m).ports := by
  suffices hkept : ∀ port ∈ maskPorts, (runAll orders m).ports.script port = [] from
    readsMasks_of_unscripted hkept
  induction orders generalizing m with
  | nil => exact hscripts
  | cons order rest ih =>
      refine ih fun port hport => ?_
      have hscript := hscripts port hport
      cases hline : order.line? with
      | none => exact (m.spares_run hport hline).script.trans hscript
      | some line =>
          cases order with
          | setLine line masked =>
              show ((Order.setLine line masked).run m).ports.script port = []
              rw [m.run_setLine]
              exact script_setMasked hscript line masked
          | _ => contradiction

/-- The lines were just moved to their vectors, or the computer was just brought up. -/
inductive Remapped : Pc → Prop
  | remap (m : Pc) : Remapped m.remap
  | init (m : Pc) (timerRate : UInt32) : Remapped (m.init timerRate)

/-- Every line is held back then. -/
theorem Remapped.latch (hstart : Remapped m) : ∀ port ∈ maskPorts, m.ports.latch port = 0xFF := by
  intro port hport
  cases hstart with
  | remap => exact latch_remap _ port hport
  | init m timerRate =>
      exact (Pc.spares_setTimer hport _ timerRate).latch.trans (latch_remap _ port hport)

/-- Between a computer whose lines were just moved and a fresh simulated machine there is no
difference in the lines that get through: not after any orders, if none of them is for the line on
which the second controller reports, and if the controllers' data ports read as they were last
written.  Lines from sixteen on change nothing on either machine. -/
theorem same_lines_delivered {start : Pc} (hstart : Remapped start) (memorySize : Nat)
    (orders : List Order) (hcascade : ∀ order ∈ orders, order.line? ≠ some cascadeLine)
    (hreads : ∀ front, front <+: orders → ReadsMasks (runAll front start).ports) :
    (∀ line, line ≠ cascadeLine →
      delivers (runAll orders start).ports line
        = (runAll orders (Simulated.ofMemorySize memorySize)).lineEnabled line) ∧
    ∀ line, 16 ≤ line → ∀ (masked : Bool) (pc : Pc) (sim : Simulated),
      (Order.setLine line masked).run pc = pc ∧ (Order.setLine line masked).run sim = sim := by
  have hsame : SameLines start.ports (Simulated.ofMemorySize memorySize).mask :=
    .held hstart.latch
  refine ⟨fun line hline => (hsame.runAll hcascade hreads).delivers_eq hline, ?_⟩
  intro line hline masked pc sim
  refine ⟨?_, sim.setLine_of_le hline masked⟩
  rw [pc.run_setLine, Pc.setMasked, setMasked_of_le hline]

/-- Lines of both controllers are opened and closed between other orders. -/
def shift : List Order :=
  [.setLine 12 false, .paint 0 0 .plain "on", .setLine 0 false, .setLine 12 true, .acknowledge 12,
    .setLine 9 false, .pollKey, .setLine 40 true, .setLine 4 false, .setLine 4 true, .clearScreen]

/-- After that, the two machines let the same line of each controller through. -/
theorem same_lines_after_shift :
    Remapped ((Pc.ofScripts []).init 100) ∧
    (∀ order ∈ shift, order.line? ≠ some cascadeLine) ∧
    (∀ front, front <+: shift → ReadsMasks (runAll front ((Pc.ofScripts []).init 100)).ports) ∧
    delivers (runAll shift ((Pc.ofScripts []).init 100)).ports 0 = true ∧
    delivers (runAll shift ((Pc.ofScripts []).init 100)).ports 4 = false ∧
    delivers (runAll shift ((Pc.ofScripts []).init 100)).ports 9 = true ∧
    delivers (runAll shift ((Pc.ofScripts []).init 100)).ports 12 = false := by
  have hstart : Remapped ((Pc.ofScripts []).init 100) := .init ..
  have hcascade : ∀ order ∈ shift, order.line? ≠ some cascadeLine := by decide
  have hreads : ∀ front, front <+: shift →
      ReadsMasks (runAll front ((Pc.ofScripts []).init 100)).ports :=
    fun front _ => readsMasks_runAll (fun _ _ => rfl) front
  have hsame := (same_lines_delivered hstart 4096 shift hcascade hreads).1
  refine ⟨hstart, hcascade, hreads, ?_⟩
  rw [hsame 0 (by decide), hsame 4 (by decide), hsame 9 (by decide), hsame 12 (by decide)]
  decide

end Timeshare.Machine
