import Timeshare.Machine.Ports

/-!
# The interval timer

The timer divides its clock by a sixteen-bit number and interrupts at the
resulting rate.
-/

namespace Timeshare.Machine.IntervalTimer

/-- The clock of the timer in hertz. -/
def clockRate : UInt32 := 1193182

/-- The data port of the channel that interrupts. -/
def dataPort : UInt16 := 0x40

/-- The command port. -/
def commandPort : UInt16 := 0x43

/-- The command for a periodic interrupt, low byte of the divisor first. -/
def periodicCommand : UInt8 := 0x34

/-- The divisor for `rate` interrupts a second, as close as sixteen bits allow. -/
def divisor (rate : UInt32) : UInt16 :=
  (min (max (clockRate / max rate 1) 1) 0xFFFF).toUInt16

/-- Make the timer interrupt `rate` times a second. -/
def setRate (ports : Ports) (rate : UInt32) : Ports :=
  let number := divisor rate
  ports.outputAll
    [(commandPort, periodicCommand), (dataPort, number.toUInt8), (dataPort, (number >>> 8).toUInt8)]

end Timeshare.Machine.IntervalTimer
