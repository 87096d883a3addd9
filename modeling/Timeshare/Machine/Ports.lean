/-!
# Input and output ports

A port space remembers the byte last written to each port.  Devices are given
as scripts: the bytes that reads of a port yield, in order.  A port whose script
has run out yields the byte last written to it, except that the line status of
the serial port then reports an empty transmitter.  Every access is recorded.
-/

namespace Timeshare.Machine

/-- One access to a port. -/
inductive PortAccess where
  | input (port : UInt16) (value : UInt8)
  | output (port : UInt16) (value : UInt8)
  deriving DecidableEq

/-- The line status register of the serial port. -/
def lineStatusPort : UInt16 := 0x3FD

/-- The status bit of an empty transmitter. -/
def transmitterEmpty : UInt8 := 0x20

/-- The ports of the machine. -/
structure Ports where
  /-- What the next reads of a port yield. -/
  scripts : List (UInt16 × List UInt8)
  /-- The byte last written to a port. -/
  latches : List (UInt16 × UInt8)
  /-- Every access, oldest first. -/
  accesses : Array PortAccess

namespace Ports

/-- Ports with the given scripts that were never written. -/
def ofScripts (scripts : List (UInt16 × List UInt8)) : Ports := ⟨scripts, [], #[]⟩

/-- What the next reads of a port yield. -/
def script (ports : Ports) (port : UInt16) : List UInt8 := (ports.scripts.lookup port).getD []

/-- The byte last written to a port, or zero. -/
def latch (ports : Ports) (port : UInt16) : UInt8 := (ports.latches.lookup port).getD 0

/-- What a read of a port without a script yields. -/
def resting (ports : Ports) (port : UInt16) : UInt8 :=
  if port = lineStatusPort then transmitterEmpty else ports.latch port

/-- `entries` with `key` at `value`. -/
def assign {α : Type} (key : UInt16) (value : α) : List (UInt16 × α) → List (UInt16 × α)
  | [] => [(key, value)]
  | (other, old) :: rest =>
      if other = key then (key, value) :: rest else (other, old) :: assign key value rest

/-- Read a byte from a port. -/
def input (ports : Ports) (port : UInt16) : UInt8 × Ports :=
  match ports.script port with
  | [] =>
      let value := ports.resting port
      (value, { ports with accesses := ports.accesses.push (.input port value) })
  | value :: rest =>
      (value, {
        ports with
        scripts := assign port rest ports.scripts
        accesses := ports.accesses.push (.input port value) })

/-- Write a byte to a port. -/
def output (ports : Ports) (port : UInt16) (value : UInt8) : Ports :=
  { ports with
    latches := assign port value ports.latches
    accesses := ports.accesses.push (.output port value) }

/-- Write bytes to ports, one after the other. -/
def outputAll (ports : Ports) (writes : List (UInt16 × UInt8)) : Ports :=
  writes.foldl (fun ports write => ports.output write.1 write.2) ports

end Ports

end Timeshare.Machine
