import Timeshare.Fault
import Timeshare.Kernel.Call
import Timeshare.User.Message

/-!
# The way into the kernel

A process asks the kernel through a gate.  A request names a call, its
arguments and the memory that the kernel may change; the reply carries the
result and that memory afterwards.  What stands behind the gate is left open: a
kernel, a script, or anything else that answers or ends the run.
-/

namespace Timeshare.User

open Kernel (Call)

/-- The bytes a process sets aside for a name: the longest name and a zero. -/
abbrev NameBuffer : Type := Vector UInt8 (nameCapacity + 1)

/-- A call with its arguments and the memory they point to. -/
inductive Request where
  | getTime
  | exec (name : List UInt8) (entry : UInt64)
  | exit
  | getName (buffer : NameBuffer)
  | getPid
  | sleep (seconds : UInt64)
  | yield
  | mutexAlloc
  | mutexFree (id : UInt64)
  | mutexLock (id : UInt64)
  | mutexUnlock (id : UInt64)
  | send (mailbox : UInt64) (message : Message)
  | receive (mailbox : UInt64) (message : Message)

namespace Request

/-- The call that is asked for. -/
def call : Request → Call
  | getTime => .getTime
  | exec .. => .exec
  | exit => .exit
  | getName .. => .getName
  | getPid => .getPid
  | sleep .. => .sleep
  | yield => .yield
  | mutexAlloc => .mutexAlloc
  | mutexFree .. => .mutexFree
  | mutexLock .. => .mutexLock
  | mutexUnlock .. => .mutexUnlock
  | send .. => .send
  | receive .. => .receive

/-- The memory that the kernel may change. -/
def Memory : Request → Type
  | getName _ => NameBuffer
  | send _ _ => Message
  | receive _ _ => Message
  | _ => Unit

/-- The memory that the kernel may change, as it was before the call. -/
def memory : (request : Request) → request.Memory
  | getName buffer => buffer
  | send _ message => message
  | receive _ message => message
  | getTime | exec .. | exit | getPid | sleep _ | yield | mutexAlloc | mutexFree _ | mutexLock _
  | mutexUnlock _ => ()

end Request

/-- The answer to a request. -/
structure Reply (request : Request) where
  code : Int64
  memory : request.Memory

/-- Something that answers requests.  It may also end the run, for a reason of
type `ε`. -/
class Gate (G : Type) (ε : outParam Type) where
  /-- Answer one request. -/
  call (request : Request) : G → Except ε (Reply request) × G

/-- Why a program did not come to its end. -/
inductive Ending (ε : Type) where
  /-- The gate ended the run. -/
  | cutOff (reason : ε)
  /-- The program faulted. -/
  | fault (fault : Fault)
  /-- The program ran on for longer than it was watched. -/
  | unfinished
  deriving DecidableEq

end Timeshare.User
