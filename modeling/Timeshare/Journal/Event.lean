import Timeshare.Kernel.Call
import Timeshare.Journal.Level
import Timeshare.Process.Pid
import Timeshare.Refusal

/-!
# What the kernel reports

Each report of the kernel is a value; its level, its source and its text are
functions of that value.
-/

namespace Timeshare.Journal

open Kernel (Call)

/-- The parts of the kernel that report. -/
inductive Source where
  | process
  | scheduler
  | mutex
  | mailbox
  | syscall
  | kernel
  | console
  deriving DecidableEq

/-- The name of a part of the kernel in the log. -/
def Source.path : Source → String
  | process => "sliceos_kernel::task::process"
  | scheduler => "sliceos_kernel::task::scheduler"
  | mutex => "sliceos_kernel::sync::mutex"
  | mailbox => "sliceos_kernel::ipc"
  | syscall => "sliceos_kernel::syscall"
  | kernel => "sliceos_kernel::kernel"
  | console => "sliceos_kernel::console"

/-- What can be reported. -/
inductive Event where
  /-- No place was left for a process. -/
  | noPlace (name : String)
  /-- A process was created. -/
  | created (name : String) (pid : Pid) (slot : Nat)
  /-- An exit named no process. -/
  | exitOfNobody
  /-- An exit named the idle process. -/
  | exitOfIdle
  /-- A process is about to be destroyed. -/
  | exiting (name : String) (pid : Pid) (slot : Nat)
  /-- A sleeper is about to be queued. -/
  | waking (pid : Pid) (now : UInt64)
  /-- The processor went to another process. -/
  | switched (previous : Option Pid) (next : Pid)
  /-- Every mutex was taken. -/
  | noMutex
  /-- A mutex was allocated. -/
  | mutexAllocated (id : Nat)
  /-- A locked mutex was to be freed. -/
  | mutexInUse (id : UInt64)
  /-- A mutex was freed. -/
  | mutexFreed (id : UInt64)
  /-- A process has to wait for a mutex. -/
  | mutexContended (pid : Pid) (id : UInt64) (lockCount : Nat)
  /-- A mutex was to be unlocked by a process that does not own it. -/
  | mutexNotOwned (pid : Pid) (id : UInt64) (owner : Option Pid)
  /-- A mutex went to its oldest waiter. -/
  | mutexHandedOver (id : UInt64) (next : Pid)
  /-- A message found its mailbox full. -/
  | mailboxFull (id : UInt64)
  /-- A message went straight to a waiting receiver. -/
  | delivered (id : UInt64) (sender receiver : Pid)
  /-- A process has to wait for a message. -/
  | mailboxEmpty (pid : Pid) (id : UInt64)
  /-- A system call was refused. -/
  | callFailed (call : Call) (reason : Refusal)
  /-- A process went to sleep. -/
  | sleeping (pid : Pid) (wake : UInt64)
  /-- A receiver's buffer could not be written. -/
  | messageDropped (receiver : Pid) (fault : MemoryFault)
  /-- A kernel is being set up. -/
  | initializing
  /-- A startup program was refused. -/
  | startupRefused (name : String) (reason : Refusal)
  /-- Booting is done. -/
  | scheduling
  /-- The operator's exit was refused. -/
  | exitRefused (reason : Refusal)
  /-- The operator halts the machine. -/
  | haltRequested
  /-- The operator started a program. -/
  | started (name : String) (pid : Pid)
  /-- The operator's program was refused. -/
  | startRefused (name : String) (reason : Refusal)
  deriving DecidableEq

namespace Event

/-- How important an event is. -/
def level : Event → Level
  | noPlace .. | exitOfNobody | exitOfIdle | noMutex | mutexInUse .. | mutexNotOwned ..
  | mailboxFull .. | callFailed .. | messageDropped .. | startupRefused .. | exitRefused ..
  | startRefused .. => .warn
  | created .. | exiting .. | initializing | scheduling | haltRequested | started .. => .info
  | waking .. | mutexAllocated .. | mutexFreed .. | mutexContended .. | mutexHandedOver ..
  | delivered .. | mailboxEmpty .. | sleeping .. => .debug
  | switched .. => .trace

/-- The part of the kernel that reports an event. -/
def source : Event → Source
  | noPlace .. | created .. | exitOfNobody | exitOfIdle | exiting .. => .process
  | waking .. | switched .. => .scheduler
  | noMutex | mutexAllocated .. | mutexInUse .. | mutexFreed .. | mutexContended ..
  | mutexNotOwned .. | mutexHandedOver .. => .mutex
  | mailboxFull .. | delivered .. | mailboxEmpty .. => .mailbox
  | callFailed .. | sleeping .. | messageDropped .. => .syscall
  | initializing | startupRefused .. | scheduling => .kernel
  | exitRefused .. | haltRequested | started .. | startRefused .. => .console

/-- The wording of an event. -/
def text : Event → String
  | noPlace name => s!"unable to allocate a process entry for '{name}'"
  | created name pid slot => s!"created process '{name}' (pid {pid}) in slot {slot}"
  | exitOfNobody => "exit requested with no process"
  | exitOfIdle => "cannot exit the idle task"
  | exiting name pid slot => s!"exiting process '{name}' (pid {pid}) in slot {slot}"
  | waking pid now => s!"waking pid {pid} at tick {now}"
  | switched previous next => "switch " ++ Pid.describe previous ++ s!" -> {next}"
  | noMutex => "no mutexes available"
  | mutexAllocated id => s!"allocated mutex {id}"
  | mutexInUse id => s!"mutex {id} is locked and cannot be freed"
  | mutexFreed id => s!"freed mutex {id}"
  | mutexContended pid id lockCount => s!"pid {pid} blocked on mutex {id} (count {lockCount})"
  | mutexNotOwned pid id owner =>
      s!"pid {pid} unlocking mutex {id} owned by " ++ Pid.describe owner
  | mutexHandedOver id next => s!"mutex {id} handed to pid {next}"
  | mailboxFull id => s!"mailbox {id} is full"
  | delivered id sender receiver => s!"mailbox {id}: pid {sender} -> pid {receiver}"
  | mailboxEmpty pid id => s!"pid {pid} waiting on mailbox {id}"
  | callFailed call reason => "[syscall] " ++ call.name ++ " failed: " ++ reason.message
  | sleeping pid wake => s!"pid {pid} sleeping until tick {wake}"
  | messageDropped receiver fault =>
      s!"[syscall] message for pid {receiver} dropped: " ++ fault.message
  | initializing => "initializing kernel data structures"
  | startupRefused name reason => s!"unable to start '{name}': " ++ reason.message
  | scheduling => "running the scheduler"
  | exitRefused reason => "[console] exit refused: " ++ reason.message
  | haltRequested => "[console] halt requested"
  | started name pid => s!"[console] started '{name}' as pid {pid}"
  | startRefused name reason => s!"[console] unable to start '{name}': " ++ reason.message

/-- An event as a record of the log. -/
def record (event : Event) : Record where
  level := event.level
  source := event.source.path
  text := event.text

end Event

end Timeshare.Journal
