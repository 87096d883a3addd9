import Timeshare.Display
import Timeshare.Journal.Event

/-!
# The machine below the kernel

The kernel reaches interrupt lines, the keyboard, the display and the memory of
processes only through the operations collected here.  Each of them yields the
machine's next state.
-/

namespace Timeshare

/-- The operations that a machine offers to the kernel. -/
class Platform (P : Type) where
  /-- Let an interrupt line through. -/
  enableLine (line : UInt8) : P → P
  /-- Hold an interrupt line back. -/
  disableLine (line : UInt8) : P → P
  /-- Tell the controller that an interrupt has been served. -/
  acknowledge (line : UInt8) : P → P
  /-- The next character typed, if there is one. -/
  pollKey : P → Option Char × P
  /-- Blank the display. -/
  clearScreen : P → P
  /-- Paint text on the display. -/
  paint (row column : Nat) (style : Style) (text : String) : P → Except Fault Unit × P
  /-- Stop the machine. -/
  halt : P → P
  /-- Read the memory of processes. -/
  readMemory (machine : P) (address : UInt64) (size : Nat) : Except MemoryFault (Vector UInt8 size)
  /-- Write the memory of processes; a faulting write changes nothing. -/
  writeMemory (address : UInt64) (data : List UInt8) : P → Except MemoryFault Unit × P
  /-- Take down what the kernel reports. -/
  log (event : Journal.Event) : P → P

end Timeshare
