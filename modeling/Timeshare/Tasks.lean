import Timeshare.Process.Table
import Timeshare.Run
import Timeshare.Scheduler

/-!
# Processes and the processor

The process table and the scheduler change together: a process that becomes
ready is queued and marked running, a process that has to wait is taken off the
queue and marked waiting, and the scheduling pass chooses who is active.
-/

namespace Timeshare

/-- The process table and the scheduler that serves it. -/
structure Tasks where
  table : ProcessTable
  sched : Scheduler

namespace Tasks

/-- No processes. -/
def empty : Tasks := ⟨.empty, .empty⟩

instance : Inhabited Tasks := ⟨empty⟩

/-- The process that has the processor. -/
def current (t : Tasks) : Option Pid := t.sched.current

/-- Change the control block at a place. -/
def modify (t : Tasks) (slot : Slot) (f : Process → Process) : Tasks :=
  { t with table := t.table.modify slot f }

/-- Change the control block of a process that has to live. -/
def amend (t : Tasks) (pid : Pid) (f : Process → Except Fault Process) : Except Fault Tasks := do
  let slot ← t.table.expect pid
  let block ← f (t.table.block slot)
  return t.modify slot fun _ => block

/-- Queue the process at a place and mark it running. -/
def enqueue (t : Tasks) (slot : Slot) : Except Fault Tasks := do
  let sched ← t.sched.enqueue (t.table.block slot).pid
  return { table := t.table.modify slot fun p => { p with state := .running }, sched }

/-- Take a process off the processor and mark it waiting. -/
def park (t : Tasks) (pid : Pid) : Except Fault Tasks := do
  let slot ← t.table.expect pid
  let sched ← t.sched.remove pid
  return {
    table := t.table.modify slot fun p => { p with state := .waiting }
    sched := sched.release pid }

/-! ## Creating and destroying processes -/

/-- Create a process that starts at `entry`.  It takes the free place that has
waited longest and is queued behind all others. -/
def create (t : Tasks) (entry : UInt64) (name : String) (now : UInt64) :
    Run Stop (Pid × Tasks) :=
  if entry = 0 then Run.stop (.fault (.breach (.nullEntry name)))
  else
    match t.table.free.pop with
    | none => do
        Run.report (.noPlace name)
        Run.refuse .tableFull
    | some (slot, free) => do
        let pid : Pid := ⟨t.table.nextPid⟩
        let nextPid ← Word.next32 t.table.nextPid
        let context ← Frame.start entry slot.stackTop
        let stored := ProcessName.ofText name
        let block := { Process.vacant with pid, name := stored, startTime := now, context }
        let table := { t.table.put slot block with free, nextPid }
        let t ← enqueue { t with table } slot
        Run.report (.created stored.text pid slot)
        return (pid, t)

/-- Destroy a process and clear its place.  The idle process stays. -/
def destroy (t : Tasks) (pid : Option Pid) : Run Stop Tasks :=
  match pid with
  | none => do
      Run.report .exitOfNobody
      Run.refuse .noCurrentProcess
  | some pid =>
      if pid.isIdle then do
        Run.report .exitOfIdle
        Run.refuse .idleProcess
      else
        match t.table.find? pid with
        | none => Run.stop (.fault (.breach (.exitOfStranger pid)))
        | some slot => do
            let sched ← t.sched.remove pid
            Run.report (.exiting (t.table.block slot).name.text pid slot)
            match t.table.free.push slot with
            | none => Run.stop (.fault (.breach (.placeNotReleased slot)))
            | some free =>
                let table := { t.table.put slot Process.vacant with free }
                return { table, sched := sched.release pid }

/-! ## The scheduling pass -/

/-- Whether a process lives and is active. -/
def isActive (t : Tasks) (pid : Pid) : Bool :=
  (t.table.get? pid).any fun p => p.state == .active

/-- Forget a recorded process that is no longer active. -/
def dropStale (t : Tasks) : Tasks :=
  match t.current with
  | none => t
  | some pid => if t.isActive pid then t else { t with sched := t.sched.clearCurrent }

/-- Take the processor from a process that has used up its time slice.  The idle
process is not queued. -/
def expire (t : Tasks) (slice : UInt64) : Except Fault Tasks :=
  match t.current with
  | none => .ok t
  | some pid => do
      let slot ← t.table.expect pid
      if (t.table.block slot).activeTime < slice then
        return t
      else
        let t := t.modify slot fun p => { p with activeTime := 0 }
        let t ←
          if pid.isIdle then pure (t.modify slot fun p => { p with state := .running })
          else t.enqueue slot
        return { t with sched := t.sched.clearCurrent }

/-- Wake the process at a place if it sleeps and its time has come. -/
def wakeAt (now : UInt64) (t : Tasks) (slot : Slot) : Run Fault Tasks :=
  let p := t.table.block slot
  if p.state = .sleeping ∧ p.wakeTime ≤ now then do
    Run.report (.waking p.pid now)
    enqueue (t.modify slot fun p => { p with wakeTime := 0, activeTime := 0 }) slot
  else pure t

/-- Wake every sleeper whose time has come, in table order. -/
def wake (t : Tasks) (now : UInt64) : Run Fault Tasks :=
  Slot.all.foldlM (wakeAt now) t

/-- Give a free processor to the head of the run queue, or to the idle process
if nobody is queued. -/
def pick (t : Tasks) : Except Fault (Pid × Tasks) :=
  match t.current with
  | some pid => .ok (pid, t)
  | none =>
      let (pid, runQueue) := t.sched.runQueue.pop.getD (Pid.idle, t.sched.runQueue)
      match t.table.find? pid with
      | none => .error (.breach (.nothingToRun pid))
      | some slot =>
          .ok (pid, {
            table := t.table.modify slot fun p => { p with state := .active }
            sched := { runQueue, current := some pid } })

/-- One scheduling pass at tick `now`. -/
def reschedule (t : Tasks) (now slice : UInt64) : Run Fault (Transition × Tasks) := do
  let previous := t.current
  let t ← t.dropStale.expire slice
  let t ← t.wake now
  let (next, t) ← t.pick
  if previous = some next then
    return (.keep next, t)
  else
    Run.report (.switched previous next)
    return (.switch previous next, t)

end Tasks

end Timeshare
