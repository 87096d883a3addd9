import Timeshare.Machine.Ports

/-!
# The serial port

The serial port carries the log and the painted text.  Before each byte the
line status is read until the transmitter is empty.
-/

namespace Timeshare.Machine.SerialPort

/-- The data register; the other registers follow it. -/
def base : UInt16 := 0x3F8

/-- The register writes that set the port up for 115200 baud. -/
def setupWrites : List (UInt16 × UInt8) :=
  [(base + 1, 0x00), (base + 3, 0x80), (base, 0x01), (base + 1, 0x00), (base + 3, 0x03),
   (base + 2, 0xC7), (base + 4, 0x0B)]

/-- Set the port up. -/
def setUp (ports : Ports) : Ports := ports.outputAll setupWrites

/-- Read the line status until the transmitter is empty, at most `tries` times. -/
def awaitEmpty : (tries : Nat) → Ports → Ports
  | 0, ports => ports
  | tries + 1, ports =>
      let (status, ports) := ports.input lineStatusPort
      if status &&& transmitterEmpty == 0 then awaitEmpty tries ports else ports

/-- Transmit one byte.  The transmitter is empty at the latest when the script
of the line status has run out. -/
def transmit (ports : Ports) (byte : UInt8) : Ports :=
  (awaitEmpty ((ports.script lineStatusPort).length + 1) ports).output base byte

/-- Transmit the bytes of a text. -/
def transmitText (ports : Ports) (text : String) : Ports :=
  text.toUTF8.foldl transmit ports

end Timeshare.Machine.SerialPort
