import Timeshare.Machine.Pc

/-!
# Ports that are left alone

What lies behind a port changes only by accesses to that port.  Two ports hold the masks of the
interrupt controllers.  Of all that a computer does, only holding lines back and letting them
through comes to these: the terminal, the keyboard, the timer and the end of an interrupt leave
them alone.
-/

namespace Timeshare.Machine

namespace Ports

variable {port other : UInt16} {before middle after : Ports}

theorem lookup_assign_self {α : Type} (key : UInt16) (value : α) (entries : List (UInt16 × α)) :
    (assign key value entries).lookup key = some value := by
  induction entries with
  | nil => simp [assign]
  | cons entry rest ih =>
      obtain ⟨k, old⟩ := entry
      by_cases hkey : k = key
      · simp [assign, hkey]
      · rw [assign, if_neg hkey, List.lookup_cons, beq_false_of_ne (Ne.symm hkey)]
        exact ih

theorem lookup_assign_of_ne {α : Type} {key other : UInt16} (hother : other ≠ key) (value : α)
    (entries : List (UInt16 × α)) :
    (assign key value entries).lookup other = entries.lookup other := by
  induction entries with
  | nil => simp [assign, hother]
  | cons entry rest ih =>
      obtain ⟨k, old⟩ := entry
      by_cases hkey : k = key
      · simp [assign, hkey, List.lookup_cons, beq_false_of_ne hother]
      · rw [assign, if_neg hkey, List.lookup_cons, List.lookup_cons, ih]

/-- A port holds the byte that was last written to it. -/
@[simp] theorem latch_output_self (ports : Ports) (port : UInt16) (value : UInt8) :
    (ports.output port value).latch port = value := by
  rw [latch, output, lookup_assign_self, Option.getD_some]

/-- Reading changes no byte that was written. -/
@[simp] theorem latch_input (ports : Ports) (port other : UInt16) :
    (ports.input port).2.latch other = ports.latch other := by
  unfold input
  split <;> rfl

/-- A port without a script keeps none. -/
theorem script_input_self (hscript : before.script port = []) :
    (before.input port).2.script port = [] := by
  unfold input
  rw [hscript]
  exact hscript

/-- What lies behind a port is as before. -/
structure Spares (port : UInt16) (before after : Ports) : Prop where
  latch : after.latch port = before.latch port
  script : after.script port = before.script port

namespace Spares

theorem refl (port : UInt16) (ports : Ports) : Spares port ports ports := ⟨rfl, rfl⟩

theorem trans (hfirst : Spares port before middle) (hlast : Spares port middle after) :
    Spares port before after :=
  ⟨hlast.latch.trans hfirst.latch, hlast.script.trans hfirst.script⟩

/-- Another port is read. -/
theorem input (hspares : Spares port before after) (hother : port ≠ other) :
    Spares port before (after.input other).2 := by
  refine hspares.trans ⟨latch_input .., ?_⟩
  unfold Ports.input
  split
  · rfl
  · rw [Ports.script, lookup_assign_of_ne hother]
    rfl

/-- Another port is written. -/
theorem output (hspares : Spares port before after) (hother : port ≠ other) (value : UInt8) :
    Spares port before (after.output other value) := by
  refine hspares.trans ⟨?_, rfl⟩
  rw [Ports.latch, Ports.output, lookup_assign_of_ne hother]
  rfl

/-- A read of the port yields what it would have yielded before. -/
theorem input_eq (hspares : Spares port before after) :
    (after.input port).1 = (before.input port).1 := by
  unfold Ports.input resting
  rw [hspares.script, hspares.latch]
  split <;> rfl

end Spares

end Ports

/-- What each byte keeps is kept by all bytes of an array. -/
theorem keeps_foldl {β : Type} {Q : β → Prop} {f : β → UInt8 → β}
    (hkeep : ∀ b byte, Q b → Q (f b byte)) (bytes : ByteArray) {b : β} (hb : Q b) :
    Q (bytes.foldl f b) := by
  -- the loop counts `i` down while `j` walks through the array
  have loop (stop : Nat) (hstop : stop ≤ bytes.size) (i j : Nat) (b : β) (hb : Q b) :
      Q (ByteArray.foldlM.loop (m := Id) (fun b byte => pure (f b byte)) bytes stop hstop i j
        b).run := by
    induction i generalizing j b with
    | zero =>
        unfold ByteArray.foldlM.loop
        split <;> exact hb
    | succ i ih =>
        unfold ByteArray.foldlM.loop
        split
        · exact ih _ _ (hkeep _ _ hb)
        · exact hb
  unfold ByteArray.foldl ByteArray.foldlM
  simp only
  split <;> exact loop _ _ _ _ _ hb

open Ports (Spares)

namespace InterruptController

/-- The ports that hold the masks. -/
def maskPorts : List UInt16 := [mask1, mask2]

variable {port other : UInt16}

theorem ne_of_mem_maskPorts (hport : port ∈ maskPorts) (hother : other ∉ maskPorts) :
    port ≠ other :=
  fun heq => hother (heq ▸ hport)

end InterruptController

/-! ## The computer -/

open InterruptController (maskPorts ne_of_mem_maskPorts)

namespace Pc

theorem ports_keyboardDecode (m : Pc) (byte : UInt8) :
    (m.keyboardDecode byte).2.ports = m.ports := by
  unfold keyboardDecode
  split <;> rfl

theorem ports_writeMemory (m : Pc) (address : UInt64) (data : List UInt8) :
    (m.writeMemory address data).2.ports = m.ports := by
  unfold writeMemory
  split <;> rfl

end Pc

variable {port : UInt16} (hport : port ∈ maskPorts)

include hport

namespace SerialPort

theorem spares_awaitEmpty (tries : Nat) (ports : Ports) :
    Spares port ports (awaitEmpty tries ports) := by
  induction tries generalizing ports with
  | zero => exact .refl ..
  | succ tries ih =>
      have hread : Spares port ports (ports.input lineStatusPort).2 :=
        (Spares.refl ..).input (ne_of_mem_maskPorts hport (by decide))
      unfold awaitEmpty
      simp only
      split
      · exact hread.trans (ih _)
      · exact hread

theorem spares_transmitText (ports : Ports) (text : String) :
    Spares port ports (transmitText ports text) := by
  refine keeps_foldl (Q := Spares port ports) (fun sent byte hsent => ?_) _ (.refl ..)
  exact (hsent.trans (spares_awaitEmpty hport _ _)).output
    (ne_of_mem_maskPorts hport (by decide)) byte

end SerialPort

namespace Pc

theorem spares_serialWrite (m : Pc) (text : String) :
    Spares port m.ports (m.serialWrite text).ports := by
  unfold serialWrite
  split
  · exact SerialPort.spares_transmitText hport ..
  · exact .refl ..

theorem spares_paint (m : Pc) (row column : Nat) (style : Style) (text : String) :
    Spares port m.ports (m.paint row column style text).2.ports := by
  unfold paint
  split
  · exact .refl ..
  · exact spares_serialWrite hport ..

theorem spares_logRecord (m : Pc) (record : Journal.Record) :
    Spares port m.ports (m.logRecord record).ports := by
  unfold logRecord
  split
  · exact spares_serialWrite hport ..
  · exact .refl ..

theorem spares_keyboardPoll (m : Pc) : Spares port m.ports m.keyboardPoll.2.ports := by
  have hstatus : Spares port m.ports (m.ports.input keyboardStatusPort).2 :=
    (Spares.refl ..).input (ne_of_mem_maskPorts hport (by decide))
  unfold keyboardPoll
  simp only
  split
  · exact hstatus
  · rw [ports_keyboardDecode]
    exact hstatus.input (ne_of_mem_maskPorts hport (by decide))

theorem spares_endOfInterrupt (m : Pc) (line : UInt8) :
    Spares port m.ports (m.endOfInterrupt line).ports := by
  unfold endOfInterrupt InterruptController.endOfInterrupt
  refine .output ?_ (ne_of_mem_maskPorts hport (by decide)) _
  split
  · exact (Spares.refl ..).output (ne_of_mem_maskPorts hport (by decide)) _
  · exact .refl ..

theorem spares_setTimer (m : Pc) (rate : UInt32) :
    Spares port m.ports (m.setTimer rate).ports := by
  have hcommand : port ≠ IntervalTimer.commandPort := ne_of_mem_maskPorts hport (by decide)
  have hdata : port ≠ IntervalTimer.dataPort := ne_of_mem_maskPorts hport (by decide)
  exact (((Spares.refl ..).output hcommand _).output hdata _).output hdata _

end Pc

end Timeshare.Machine
