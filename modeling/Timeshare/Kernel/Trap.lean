import Timeshare.Kernel.Operator
import Timeshare.Kernel.Panel
import Timeshare.Kernel.Service

/-!
# Traps

Every entry into the kernel is a trap.  A trap saves the registers of the
interrupted process, serves the timer or a system call, acts on one key, paints
the statistics panel and carries out a scheduling pass.  Its result is the
frame to resume.
-/

namespace Timeshare.Kernel

variable {P : Type} [Platform P]

/-- The vector of the timer. -/
def timerVector : UInt64 := 0x20

/-- The vector of system calls. -/
def callVector : UInt64 := 0x80

/-- The frame with which the active process resumes.  Interrupts have to be
enabled in it, or the timer would never fire again. -/
def activeContext (k : Kernel P) : Except Fault Frame :=
  match k.current with
  | none => .error (.breach .nothingToResume)
  | some pid =>
      match k.context? pid with
      | none => .error (.breach (.resumeOfStranger pid))
      | some frame =>
          if frame.interruptible then .ok frame
          else .error (.breach (.interruptsDisabled pid))

/-- Charge the active process for one tick. -/
def charge (pid : Pid) : Step P Unit := do
  let k ← get
  let slot ← check (k.tasks.table.expect pid)
  let p := k.tasks.table.block slot
  let activeTime ← check (Word.add p.activeTime 1)
  let cpuTime ← check (Word.add p.cpuTime 1)
  modify fun k => { k with tasks := k.tasks.modify slot fun p => { p with activeTime, cpuTime } }

/-- Serve the timer: time advances and the active process is charged. -/
def timerTick : Step P Unit := do
  let clock ← check (← get).clock.tick
  modify fun k => { k with clock }
  match (← get).current with
  | none => pure ()
  | some pid => charge pid
  onPlatform fun p => ((), Platform.acknowledge timerLine p)

/-- Save the registers of the active process. -/
def saveContext (frame : Frame) : Step P Unit := do
  let k ← get
  match k.current with
  | none => pure ()
  | some pid => do
      let slot ← check (k.tasks.table.expect pid)
      modify fun k => { k with tasks := k.tasks.modify slot fun p => { p with context := frame } }

/-- Serve the system call in the saved registers of the active process.  The
result goes into the same registers, unless the process is gone by then. -/
def systemCall : Step P Unit := do
  let k ← get
  match k.current with
  | none => breach .callFromNobody
  | some pid => do
      let slot ← check (k.tasks.table.expect pid)
      let frame := (k.tasks.table.block slot).context
      let result ← dispatch frame.callNumber frame.arguments
      match (← get).tasks.table.find? pid with
      | none => pure ()
      | some slot =>
          modify fun k =>
            { k with
              tasks := k.tasks.modify slot fun p =>
                { p with context := p.context.withResult result } }

/-- Act on one typed key. -/
def serveOperator : Step P Unit := do
  match ← onPlatform Platform.pollKey with
  | none => pure ()
  | some key => handleKey key

/-- Serve a trap. -/
def trap (frame : Frame) : Step P Frame := do
  saveContext frame
  if frame.vector = timerVector then timerTick
  else if frame.vector = callVector then systemCall
  else breach (.unknownVector frame.vector)
  serveOperator
  if (← get).console.showStats then paintStats
  discard schedule
  check (activeContext (← get))

end Timeshare.Kernel
