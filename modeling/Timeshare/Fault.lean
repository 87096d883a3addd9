import Timeshare.Process.Pid
import Timeshare.Refusal

/-!
# Faults that stop the machine

A fault is not an answer to a process: arithmetic left the range of a machine
word, an index left its array, or the kernel found one of its own invariants
broken.  Nothing runs after a fault.
-/

namespace Timeshare

/-- The arithmetic steps that are checked. -/
inductive Arithmetic where
  | add
  | subtract
  | multiply
  | divide
  deriving DecidableEq

/-- The wording of a failed arithmetic step. -/
def Arithmetic.message : Arithmetic → String
  | .add => "attempt to add with overflow"
  | .subtract => "attempt to subtract with overflow"
  | .multiply => "attempt to multiply with overflow"
  | .divide => "attempt to divide by zero"

/-- The invariants of the kernel that its operations check. -/
inductive Breach where
  /-- A process was to start at the null address. -/
  | nullEntry (name : String)
  /-- A process that does not live was to exit. -/
  | exitOfStranger (pid : Pid)
  /-- The list of free places was full. -/
  | placeNotReleased (slot : Nat)
  /-- A process that must live does not. -/
  | missingProcess (pid : Pid)
  /-- A queued process was to be queued again. -/
  | queuedTwice (pid : Pid)
  /-- The run queue was full. -/
  | runQueueFull (pid : Pid)
  /-- The run queue ran dry while it was cycled. -/
  | runQueueDry
  /-- The run queue was full while it was cycled. -/
  | notRequeued (pid : Pid)
  /-- The process chosen to run does not live. -/
  | nothingToRun (pid : Pid)
  /-- The list of free mutexes was full. -/
  | mutexNotReleased (id : UInt64)
  /-- The wait queue of a mutex was full. -/
  | mutexQueueFull (pid : Pid) (id : UInt64)
  /-- A contended mutex had no waiter to go to. -/
  | noWaiter (id : UInt64) (lockCount : Nat)
  /-- The wait queue of a mailbox was full. -/
  | mailboxQueueFull (pid : Pid) (id : UInt64)
  /-- A waiting receiver had no address for its message. -/
  | noDestination (pid : Pid) (id : UInt64)
  /-- The message to hand over was gone. -/
  | messageLost (id : UInt64)
  /-- A kernel was set up without ticks in a second. -/
  | zeroTickRate
  /-- No process was active when one had to resume. -/
  | nothingToResume
  /-- The active process does not live. -/
  | resumeOfStranger (pid : Pid)
  /-- The process to resume had interrupts disabled. -/
  | interruptsDisabled (pid : Pid)
  /-- The idle process was refused. -/
  | idleRefused (reason : Refusal)
  /-- The idle process was not the first process. -/
  | idleNotFirst (pid : Pid)
  /-- A system call arrived while no process was active. -/
  | callFromNobody
  /-- No system call has this number. -/
  | unknownCall (number : UInt64)
  /-- No handler serves this interrupt vector. -/
  | unknownVector (vector : UInt64)
  deriving DecidableEq

/-- The complaint of a bounded queue that cannot take another item. -/
def queueFullMessage : String := "slot queue full"

/-- The wording of a broken invariant. -/
def Breach.message : Breach → String
  | nullEntry name => s!"invalid entry point for process '{name}'"
  | exitOfStranger pid => s!"unable to exit process {pid}: not in the process table"
  | placeNotReleased slot => s!"unable to release process entry {slot}: {queueFullMessage}"
  | missingProcess pid => s!"process {pid} missing from the process table"
  | queuedTwice pid => s!"pid {pid} queued twice"
  | runQueueFull pid => s!"unable to add pid {pid} to the run queue: {queueFullMessage}"
  | runQueueDry => "unable to dequeue from the run queue"
  | notRequeued pid => s!"unable to requeue pid {pid}: {queueFullMessage}"
  | nothingToRun pid => s!"unable to schedule a process (pid {pid})"
  | mutexNotReleased id => s!"unable to release mutex {id}: {queueFullMessage}"
  | mutexQueueFull pid id => s!"unable to queue pid {pid} on mutex {id}: {queueFullMessage}"
  | noWaiter id lockCount => s!"mutex {id} has lock count {lockCount} but no waiters"
  | mailboxQueueFull pid id => s!"unable to queue pid {pid} on mailbox {id}: {queueFullMessage}"
  | noDestination pid id => s!"pid {pid} waiting on mailbox {id} without a destination"
  | messageLost id => s!"mailbox {id} lost a message during hand-off"
  | zeroTickRate => "ticks_per_second must be non-zero"
  | nothingToResume => "no active process to resume"
  | resumeOfStranger pid => s!"active pid {pid} has no process"
  | interruptsDisabled pid => s!"pid {pid} would resume with interrupts disabled"
  | idleRefused reason => "unable to create the idle task: " ++ reason.message
  | idleNotFirst pid => s!"idle task got pid {pid}; boot must run on a fresh kernel"
  | callFromNobody => "system call with no current process"
  | unknownCall number => s!"invalid system call {number}"
  | unknownVector vector => "unhandled trap vector " ++ Text.address vector

/-- Why the machine stopped. -/
inductive Fault where
  /-- An arithmetic step left the range of its words. -/
  | arithmetic (step : Arithmetic)
  /-- An index or a range left its array. -/
  | outOfBounds
  /-- An invariant of the kernel was broken. -/
  | breach (what : Breach)
  deriving DecidableEq

/-- Why an operation ended without a result. -/
inductive Stop where
  /-- The request was turned down. -/
  | refused (reason : Refusal)
  /-- The machine stopped. -/
  | fault (fault : Fault)
  deriving DecidableEq

end Timeshare
