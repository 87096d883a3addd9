import Timeshare.Kernel.Trap

/-!
# Driving a kernel

The kernel runs only when something traps into it: the timer, or a system call
of the active process.
-/

namespace Timeshare.Kernel

variable {P : Type} [Platform P]

/-- The timer interrupts the active process. -/
def interrupt : Step P Frame := do
  let frame ← check (← get).activeContext
  trap { frame with vector := timerVector }

/-- The active process makes a system call.  The result is what the call has
left in the caller's registers, unless the caller is gone. -/
def callAsCurrent (number : UInt64) (arguments : Arguments) : Step P (Option Int64) := do
  let k ← get
  let frame ← check k.activeContext
  let _ ← trap {
    frame with
    vector := callVector
    rax := number
    rbx := arguments.first
    rcx := arguments.second
    rdx := arguments.third }
  let after ← get
  return (k.current.bind after.context?).map Frame.result

/-- Let the timer interrupt until `pid` is active, at most `limit` times.  The
result counts the interrupts, `count` included. -/
def runUntilFrom (pid : Pid) (count : Nat) : (limit : Nat) → Step P (Option Nat)
  | 0 => do
      if (← get).current = some pid then return some count else return none
  | limit + 1 => do
      if (← get).current = some pid then return some count
      else
        let _ ← interrupt
        runUntilFrom pid (count + 1) limit

/-- Let the timer interrupt until `pid` is active, at most `limit` times.  The
result counts the interrupts. -/
def runUntil (pid : Pid) (limit : Nat) : Step P (Option Nat) := runUntilFrom pid 0 limit

end Timeshare.Kernel
