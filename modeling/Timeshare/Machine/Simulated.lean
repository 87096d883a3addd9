import Timeshare.Machine.Memory
import Timeshare.Machine.Screen
import Timeshare.Platform

/-!
# The simulated machine

A machine to run the kernel on without hardware: its memory is a block of
bytes, its keyboard a list of characters still to be typed and its display a
screen whose cells can be read back.
-/

namespace Timeshare.Machine

/-- The interrupt lines of a controller pair; lines from here on do not exist. -/
def lineCount : UInt8 := 16

/-- The state of the simulated machine. -/
structure Simulated where
  memory : Memory
  /-- A line whose bit is set is held back. -/
  mask : UInt16
  /-- The interrupts that were acknowledged, oldest first. -/
  acknowledged : Array UInt8
  /-- The characters still to be typed. -/
  keys : List Char
  screen : Screen
  /-- How often the screen was blanked. -/
  clears : Nat
  halted : Bool
  /-- What the kernel reported, oldest first. -/
  journal : Array Journal.Event

namespace Simulated

/-- A machine with `memorySize` bytes of process memory.  Every line is held
back. -/
def ofMemorySize (memorySize : Nat) : Simulated where
  memory := .zero memorySize
  mask := 0xFFFF
  acknowledged := #[]
  keys := []
  screen := .blank
  clears := 0
  halted := false
  journal := #[]

/-- A machine with 64 KiB of process memory. -/
def standard : Simulated := ofMemorySize (64 * 1024)

/-- The mask bit of a line that exists. -/
def lineBit? (line : UInt8) : Option UInt16 :=
  if line < lineCount then some (1 <<< line.toUInt16) else none

/-- Whether an interrupt line is let through. -/
def lineEnabled (m : Simulated) (line : UInt8) : Bool :=
  (lineBit? line).any fun bit => m.mask &&& bit == 0

/-- Let an interrupt line through. -/
def enableLine (m : Simulated) (line : UInt8) : Simulated :=
  match lineBit? line with
  | none => m
  | some bit => { m with mask := m.mask &&& ~~~bit }

/-- Hold an interrupt line back. -/
def disableLine (m : Simulated) (line : UInt8) : Simulated :=
  match lineBit? line with
  | none => m
  | some bit => { m with mask := m.mask ||| bit }

/-- Type a character. -/
def typeKey (m : Simulated) (key : Char) : Simulated := { m with keys := m.keys ++ [key] }

/-- The oldest character that was typed and not yet taken. -/
def takeKey (m : Simulated) : Option Char × Simulated :=
  match m.keys with
  | [] => (none, m)
  | key :: keys => (some key, { m with keys })

/-- The lines that are let through, lowest first. -/
def enabledLines (m : Simulated) : List Nat :=
  (List.range 256).filter fun line => m.lineEnabled (UInt8.ofNat line)

/-- What the kernel reported since the last taking. -/
def takeJournal (m : Simulated) : List Journal.Event × Simulated :=
  (m.journal.toList, { m with journal := #[] })

instance : Platform Simulated where
  enableLine line m := m.enableLine line
  disableLine line m := m.disableLine line
  acknowledge line m := { m with acknowledged := m.acknowledged.push line }
  pollKey m := m.takeKey
  clearScreen m := { m with screen := .blank, clears := m.clears + 1 }
  paint row column style text m := (.ok (), { m with screen := m.screen.paint row column style text })
  halt m := { m with halted := true }
  readMemory m address size := m.memory.read address size
  writeMemory address data m :=
    let (result, memory) := m.memory.write address data
    (result, { m with memory })
  log event m := { m with journal := m.journal.push event }

end Simulated

end Timeshare.Machine
