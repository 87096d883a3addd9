/-!
# System calls

A process enters the kernel with the number of one of thirteen calls and three
argument words.
-/

namespace Timeshare.Kernel

/-- The calls a process can make. -/
inductive Call where
  /-- Whole seconds since boot. -/
  | getTime
  /-- Start a process from a name and an entry address. -/
  | exec
  /-- Destroy the caller. -/
  | exit
  /-- Copy the caller's name into a buffer. -/
  | getName
  /-- The caller's pid. -/
  | getPid
  /-- Sleep for a number of seconds. -/
  | sleep
  /-- Give up the rest of the time slice. -/
  | yield
  /-- Allocate a mutex. -/
  | mutexAlloc
  /-- Free an unlocked mutex. -/
  | mutexFree
  /-- Lock a mutex, waiting while another process holds it. -/
  | mutexLock
  /-- Unlock a mutex. -/
  | mutexUnlock
  /-- Send the message in a buffer. -/
  | send
  /-- Receive a message into a buffer, waiting while there is none. -/
  | receive
  deriving DecidableEq

namespace Call

/-- Every call, in the order of the numbers. -/
def all : List Call :=
  [getTime, exec, exit, getName, getPid, sleep, yield, mutexAlloc, mutexFree, mutexLock,
    mutexUnlock, send, receive]

/-- The number by which a process asks for a call. -/
def number : Call → UInt64
  | getTime => 0
  | exec => 1
  | exit => 2
  | getName => 3
  | getPid => 4
  | sleep => 5
  | yield => 6
  | mutexAlloc => 7
  | mutexFree => 8
  | mutexLock => 9
  | mutexUnlock => 10
  | send => 11
  | receive => 12

/-- The call with a given number. -/
def ofNumber? (number : UInt64) : Option Call := all[number.toNat]?

/-- The name of a call in the log. -/
def name : Call → String
  | getTime => "sys_get_time"
  | exec => "proc_exec"
  | exit => "proc_exit"
  | getName => "proc_get_name"
  | getPid => "proc_get_pid"
  | sleep => "proc_sleep"
  | yield => "proc_yield"
  | mutexAlloc => "mutex_alloc"
  | mutexFree => "mutex_free"
  | mutexLock => "mutex_lock"
  | mutexUnlock => "mutex_unlock"
  | send => "msg_send"
  | receive => "msg_recv"

/-- The name of the call with a given number, if there is one. -/
def nameOfNumber (number : UInt64) : String :=
  match ofNumber? number with
  | none => "unknown"
  | some call => call.name

/-- A call is found again by its number. -/
theorem ofNumber?_number (call : Call) : ofNumber? call.number = some call := by
  cases call <;> rfl

end Call

end Timeshare.Kernel
