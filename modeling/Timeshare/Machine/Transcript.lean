import Timeshare.Machine.SerialPort

/-!
# Port traffic

A byte goes over the serial port in two accesses: the line status is found
empty and the byte is written.  In a transcript such pairs are joined to the
bytes they send, and all other accesses stand for themselves.
-/

namespace Timeshare.Machine

/-- One entry of a transcript. -/
inductive Traffic where
  /-- An access of its own. -/
  | access (access : PortAccess)
  /-- Bytes that went over the serial port, one directly after the other. -/
  | sent (bytes : List UInt8)
  deriving DecidableEq

namespace Traffic

/-- Put a byte sent in front of a transcript. -/
def sendFirst (byte : UInt8) : List Traffic → List Traffic
  | .sent bytes :: rest => .sent (byte :: bytes) :: rest
  | rest => .sent [byte] :: rest

/-- Whether two accesses that follow each other send a byte. -/
def sends? : PortAccess → PortAccess → Option UInt8
  | .input port status, .output target byte =>
      if port = lineStatusPort ∧ status &&& transmitterEmpty ≠ 0 ∧ target = SerialPort.base then
        some byte
      else none
  | _, _ => none

/-- The transcript of a list of accesses, latest first. -/
def ofReversed : List PortAccess → List Traffic → List Traffic
  | [], done => done
  | [first], done => .access first :: done
  | last :: first :: rest, done =>
      match sends? first last with
      | some byte => ofReversed rest (sendFirst byte done)
      | none => ofReversed (first :: rest) (.access last :: done)

/-- The transcript of a list of accesses. -/
def ofAccesses (accesses : List PortAccess) : List Traffic := ofReversed accesses.reverse []

end Traffic

end Timeshare.Machine
