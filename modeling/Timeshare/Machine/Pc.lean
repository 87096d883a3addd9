import Timeshare.Machine.InterruptController
import Timeshare.Machine.IntervalTimer
import Timeshare.Machine.Keyboard
import Timeshare.Machine.SerialPort
import Timeshare.Platform

/-!
# The personal computer

The kernel shares one address space with all processes, so every address
outside the lowest page is taken for valid.  The display is a terminal at the
serial port, which the log shares.  The log is silent until it is installed.
-/

namespace Timeshare.Machine

/-- The state of the computer. -/
structure Pc where
  ports : Ports
  /-- Whether the serial port has been set up. -/
  serialReady : Bool
  /-- The keyboard decoder, once it has been set up. -/
  keyboard : Option Keyboard
  /-- Whether the log writes to the serial port. -/
  logInstalled : Bool
  /-- The level up to which the log writes. -/
  logLimit : Option Journal.Level
  memory : UInt64 → UInt8
  halted : Bool

namespace Pc

/-- A computer that has just been switched on. -/
def ofScripts (scripts : List (UInt16 × List UInt8)) : Pc where
  ports := .ofScripts scripts
  serialReady := false
  keyboard := none
  logInstalled := false
  logLimit := none
  memory := fun _ => 0
  halted := false

/-! ## Devices -/

/-- Set the serial port up. -/
def serialInit (m : Pc) : Pc :=
  { m with ports := SerialPort.setUp m.ports, serialReady := true }

/-- Write text to the serial port; nothing is written before it is set up. -/
def serialWrite (m : Pc) (text : String) : Pc :=
  if m.serialReady then { m with ports := SerialPort.transmitText m.ports text } else m

/-- Set the keyboard decoder up. -/
def keyboardInit (m : Pc) : Pc := { m with keyboard := some .initial }

/-- Decode a byte from the keyboard; nothing comes of it before the decoder is
set up. -/
def keyboardDecode (m : Pc) (byte : UInt8) : Option Char × Pc :=
  match m.keyboard with
  | none => (none, m)
  | some keyboard =>
      let (char, keyboard) := keyboard.decode byte
      (char, { m with keyboard := some keyboard })

/-- The status port of the keyboard. -/
def keyboardStatusPort : UInt16 := 0x64

/-- The data port of the keyboard. -/
def keyboardDataPort : UInt16 := 0x60

/-- Take a byte from the keyboard if one is there, and decode it. -/
def keyboardPoll (m : Pc) : Option Char × Pc :=
  let (status, ports) := m.ports.input keyboardStatusPort
  if status &&& 1 == 0 then (none, { m with ports })
  else
    let (byte, ports) := ports.input keyboardDataPort
    keyboardDecode { m with ports } byte

/-- Hold an interrupt line back or let it through. -/
def setMasked (m : Pc) (line : UInt8) (masked : Bool) : Pc :=
  { m with ports := InterruptController.setMasked m.ports line masked }

/-- Tell the interrupt controllers that an interrupt has been served. -/
def endOfInterrupt (m : Pc) (line : UInt8) : Pc :=
  { m with ports := InterruptController.endOfInterrupt m.ports line }

/-- Move the interrupt lines to their vectors and hold every line back. -/
def remap (m : Pc) : Pc := { m with ports := InterruptController.remap m.ports }

/-- Make the timer interrupt `rate` times a second. -/
def setTimer (m : Pc) (rate : UInt32) : Pc :=
  { m with ports := IntervalTimer.setRate m.ports rate }

/-- Bring the computer up: terminal, keyboard, interrupts and timer. -/
def init (m : Pc) (timerRate : UInt32) : Pc :=
  (m.serialInit.keyboardInit.remap).setTimer timerRate

/-! ## The log -/

/-- Let the log write records up to a level.  The first time, the serial port is
set up and the log installed. -/
def logInit (m : Pc) (limit : Option Journal.Level) : Pc :=
  let m := if m.logInstalled then m else { m.serialInit with logInstalled := true }
  { m with logLimit := limit }

/-- Write a record to the log, if it is installed and the level passes. -/
def logRecord (m : Pc) (record : Journal.Record) : Pc :=
  if m.logInstalled && record.level.passes m.logLimit then m.serialWrite record.line else m

/-! ## Memory -/

/-- The first address behind the lowest page. -/
def nullPageEnd : UInt64 := 0x1000

/-- Refuse an access to the lowest page or past the end of the address space. -/
def validate (address : UInt64) (size : Nat) : Except MemoryFault Unit :=
  if address < nullPageEnd ∨ Word.range ≤ address.toNat + size then .error ⟨address, size⟩
  else .ok ()

/-- The bytes of a valid range. -/
def readMemory (m : Pc) (address : UInt64) (size : Nat) :
    Except MemoryFault (Vector UInt8 size) := do
  validate address size
  return Vector.ofFn fun i => m.memory (address + UInt64.ofNat i.val)

/-- Write a valid range. -/
def writeMemory (m : Pc) (address : UInt64) (data : List UInt8) :
    Except MemoryFault Unit × Pc :=
  match validate address data.length with
  | .error fault => (.error fault, m)
  | .ok () =>
      let memory := fun a =>
        if address ≤ a then (data[(a - address).toNat]?).getD (m.memory a) else m.memory a
      (.ok (), { m with memory })

/-- Paint text on the terminal. -/
def paint (m : Pc) (row column : Nat) (style : Style) (text : String) : Except Fault Unit × Pc :=
  match Display.painted row column style text with
  | .error fault => (.error fault, m)
  | .ok painted => (.ok (), m.serialWrite painted)

instance : Platform Pc where
  enableLine line m := m.setMasked line false
  disableLine line m := m.setMasked line true
  acknowledge line m := m.endOfInterrupt line
  pollKey m := m.keyboardPoll
  clearScreen m := m.serialWrite Display.erase
  paint row column style text m := m.paint row column style text
  halt m := { m with halted := true }
  readMemory m address size := m.readMemory address size
  writeMemory address data m := m.writeMemory address data
  log event m := m.logRecord event.record

end Pc

end Timeshare.Machine
