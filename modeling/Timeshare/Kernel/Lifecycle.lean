import Timeshare.Kernel.Basic

/-!
# Starting and ending processes

Booting creates the idle process and the startup programs, lets the timer
through and chooses the first process to run.
-/

namespace Timeshare.Kernel

variable {P : Type} [Platform P]

/-- The interrupt line of the timer. -/
def timerLine : UInt8 := 0

/-- Create a process at `entry`. -/
def spawn (entry : UInt64) (name : String) : Handler P Pid := do
  let k ← get
  let (pid, tasks) ← perform (k.tasks.create entry name k.clock.now)
  modify fun k => { k with tasks }
  return pid

/-- Destroy a process. -/
def exit (pid : Option Pid) : Handler P Unit := do
  let tasks ← perform ((← get).tasks.destroy pid)
  modify fun k => { k with tasks }

/-- Carry out one scheduling pass. -/
def schedule : Step P Transition := do
  let k ← get
  let (transition, tasks) ← perform (k.tasks.reschedule k.clock.now k.config.timeSlice)
  modify fun k => { k with tasks }
  return transition

/-- Start the startup programs; one that is refused is left out. -/
def startAll : List Program → Step P Unit
  | [] => pure ()
  | program :: rest => do
      match ← attempt (spawn program.entry program.name) with
      | .ok _ => pure ()
      | .error reason => report (.startupRefused program.name reason)
      startAll rest

/-- Boot a fresh kernel.  The result is the process that runs first. -/
def boot (idleEntry : UInt64) (programs : List Program) : Step P Pid := do
  match ← attempt (spawn idleEntry "idle task") with
  | .error reason => breach (.idleRefused reason)
  | .ok idle =>
      if idle.isIdle then
        startAll programs
        onPlatform fun p => ((), Platform.enableLine timerLine p)
        report .scheduling
        return (← schedule).next
      else breach (.idleNotFirst idle)

end Timeshare.Kernel
