import Timeshare.Fault
import Timeshare.Ring

/-!
# The run queue and the active process

Ready processes wait in the run queue and run in turn; the process that has the
processor is recorded apart and is not queued.
-/

namespace Timeshare

/-- Who has the processor and who is waiting for it. -/
structure Scheduler where
  /-- The ready processes, in the order in which they run. -/
  runQueue : Ring Pid queueCapacity
  /-- The process that has the processor. -/
  current : Option Pid

/-- The outcome of a scheduling pass. -/
inductive Transition where
  /-- The process that had the processor keeps it. -/
  | keep (pid : Pid)
  /-- The processor goes to another process. -/
  | switch (previous : Option Pid) (next : Pid)
  deriving DecidableEq

/-- The process that runs after the pass. -/
def Transition.next : Transition → Pid
  | keep pid => pid
  | switch _ next => next

namespace Scheduler

/-- A scheduler that knows no process. -/
def empty : Scheduler where
  runQueue := Ring.empty
  current := none

instance : Inhabited Scheduler := ⟨empty⟩

/-- Forget the active process. -/
def clearCurrent (sched : Scheduler) : Scheduler := { sched with current := none }

/-- Forget the active process if it is `pid`. -/
def release (sched : Scheduler) (pid : Pid) : Scheduler :=
  if sched.current = some pid then sched.clearCurrent else sched

/-- Whether a process is queued. -/
def isQueued (sched : Scheduler) (pid : Pid) : Bool := sched.runQueue.contains pid

/-- Append a process that is not queued yet. -/
def enqueue (sched : Scheduler) (pid : Pid) : Except Fault Scheduler :=
  if sched.runQueue.contains pid then .error (.breach (.queuedTwice pid))
  else
    match sched.runQueue.push pid with
    | none => .error (.breach (.runQueueFull pid))
    | some runQueue => .ok { sched with runQueue }

/-- Take `steps` items from the front and put all but `pid` back at the end. -/
def cycle (pid : Pid) : (steps : Nat) → Ring Pid queueCapacity →
    Except Fault (Ring Pid queueCapacity)
  | 0, queue => .ok queue
  | steps + 1, queue =>
      match queue.pop with
      | none => .error (.breach .runQueueDry)
      | some (queued, queue) =>
          if queued = pid then cycle pid steps queue
          else
            match queue.push queued with
            | none => .error (.breach (.notRequeued queued))
            | some queue => cycle pid steps queue

/-- Take a process off the run queue.  The queue is cycled once around, so the
others stay in order. -/
def remove (sched : Scheduler) (pid : Pid) : Except Fault Scheduler := do
  let runQueue ← cycle pid sched.runQueue.size sched.runQueue
  return { sched with runQueue }

end Scheduler

end Timeshare
