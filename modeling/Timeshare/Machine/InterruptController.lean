import Timeshare.Machine.Ports

/-!
# The interrupt controller pair

Two chained controllers serve eight lines each.  A set bit of a controller's
mask holds a line back.  The second controller reports through line 2 of the
first, so a line of the second gets through only if line 2 does.
-/

namespace Timeshare.Machine.InterruptController

/-- The command port of the first controller. -/
def command1 : UInt16 := 0x20

/-- The data port of the first controller, which holds its mask. -/
def mask1 : UInt16 := 0x21

/-- The command port of the second controller. -/
def command2 : UInt16 := 0xA0

/-- The data port of the second controller, which holds its mask. -/
def mask2 : UInt16 := 0xA1

/-- A port without a device; writing it takes the time a controller needs. -/
def pausePort : UInt16 := 0x80

/-- The line of the first controller that the second reports on. -/
def cascadeLine : UInt8 := 2

/-- The vector of line 0 after remapping. -/
def vector1 : UInt8 := 0x20

/-- The vector of line 8 after remapping. -/
def vector2 : UInt8 := 0x28

/-- The command that ends an interrupt. -/
def endCommand : UInt8 := 0x20

/-- The words that set the controllers up, each followed by a pause. -/
def setupWords : List (UInt16 × UInt8) :=
  [(command1, 0x11), (command2, 0x11), (mask1, vector1), (mask2, vector2),
   (mask1, 1 <<< cascadeLine), (mask2, cascadeLine), (mask1, 0x01), (mask2, 0x01)]

/-- Move the lines to the vectors from 0x20 on and hold every line back. -/
def remap (ports : Ports) : Ports :=
  (ports.outputAll (setupWords.flatMap fun word => [word, (pausePort, 0)])).outputAll
    [(mask1, 0xFF), (mask2, 0xFF)]

/-- The data port and the bit of a line that exists. -/
def place? (line : UInt8) : Option (UInt16 × UInt8) :=
  if line < 8 then some (mask1, line)
  else if line < 16 then some (mask2, line - 8)
  else none

/-- A mask with one bit set or cleared. -/
def withBit (mask bit : UInt8) (masked : Bool) : UInt8 :=
  if masked then mask ||| (1 <<< bit) else mask &&& ~~~(1 <<< bit)

/-- Set or clear one bit of the mask behind a port. -/
def updateMask (ports : Ports) (port : UInt16) (bit : UInt8) (masked : Bool) : Ports :=
  let (mask, ports) := ports.input port
  ports.output port (withBit mask bit masked)

/-- Hold a line back or let it through.  Letting a line of the second controller
through opens the line it reports on as well. -/
def setMasked (ports : Ports) (line : UInt8) (masked : Bool) : Ports :=
  match place? line with
  | none => ports
  | some (port, bit) =>
      let ports := updateMask ports port bit masked
      if 8 ≤ line ∧ !masked then updateMask ports mask1 cascadeLine false else ports

/-- Tell the controllers that the interrupt of a line has been served. -/
def endOfInterrupt (ports : Ports) (line : UInt8) : Ports :=
  let ports := if 8 ≤ line then ports.output command2 endCommand else ports
  ports.output command1 endCommand

end Timeshare.Machine.InterruptController
