import Timeshare.Word

/-!
# The system clock

The clock counts timer ticks since boot.
-/

namespace Timeshare

/-- The time since boot, in ticks. -/
structure Clock where
  now : UInt64
  deriving DecidableEq, Inhabited

namespace Clock

/-- The time of boot. -/
def zero : Clock := ⟨0⟩

/-- One tick later. -/
def tick (clock : Clock) : Except Fault Clock := do
  let now ← Word.add clock.now 1
  return { now }

/-- Whole seconds since boot. -/
def seconds (clock : Clock) (ticksPerSecond : UInt64) : Except Fault UInt64 :=
  Word.div clock.now ticksPerSecond

end Clock

end Timeshare
