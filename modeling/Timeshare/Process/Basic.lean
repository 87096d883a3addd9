import Timeshare.Process.Frame
import Timeshare.Process.Name
import Timeshare.Process.Pid

/-!
# Processes

Each place of the process table holds a process control block and a stack.  A
free place holds a block in which everything is zero.
-/

namespace Timeshare

/-- What a process is doing. -/
inductive ProcessState where
  /-- The place holds no process. -/
  | free
  /-- The process is ready to run. -/
  | running
  /-- The process has the processor. -/
  | active
  /-- The process waits for its wake-up tick. -/
  | sleeping
  /-- The process waits for a mutex or a message. -/
  | waiting
  deriving DecidableEq, Inhabited

/-- The letter of a state on the statistics panel. -/
def ProcessState.letter : ProcessState → Char
  | free => '-'
  | running => 'R'
  | active => 'A'
  | sleeping => 'S'
  | waiting => 'W'

/-- The memory of a stack. -/
abbrev Stack : Type := Vector UInt8 stackCapacity

/-- A stack of zero bytes. -/
def Stack.zero : Stack := Vector.replicate stackCapacity 0

/-- A process control block with its stack. -/
structure Process where
  pid : Pid
  state : ProcessState
  name : ProcessName
  /-- The tick of the process's creation. -/
  startTime : UInt64
  /-- The ticks the process has spent active in its life. -/
  cpuTime : UInt64
  /-- The ticks the process has spent active since it was last scheduled. -/
  activeTime : UInt64
  /-- The tick at which a sleeping process wakes. -/
  wakeTime : UInt64
  /-- The address to which a waiting receiver's message goes. -/
  destination : Option UInt64
  /-- The registers with which the process resumes. -/
  context : Frame
  stack : Stack
  deriving DecidableEq

namespace Process

/-- The contents of a free place. -/
def vacant : Process where
  pid := ⟨0⟩
  state := .free
  name := .empty
  startTime := 0
  cpuTime := 0
  activeTime := 0
  wakeTime := 0
  destination := none
  context := {}
  stack := Stack.zero

instance : Inhabited Process := ⟨vacant⟩

/-- Whether the place holds a process. -/
def isLive (p : Process) : Bool := p.state != .free

/-- The bytes of the stack that are not zero. -/
def stackUse (p : Process) : Nat := p.stack.toList.countP (· != 0)

/-- The stack with `value` written to `count` bytes from `first` on. -/
def fillStack (p : Process) (first count : Nat) (value : UInt8) : Except Fault Process := do
  let last ← Word.addSize first count
  if last ≤ stackCapacity then
    return { p with
      stack := Vector.ofFn fun i => if first ≤ i.val ∧ i.val < last then value else p.stack[i] }
  else .error .outOfBounds

/-- The stack with zero in every byte. -/
def clearStack (p : Process) : Process := { p with stack := Stack.zero }

end Process

/-- Where the stacks lie in memory, one behind the other. -/
def stackArea : UInt64 := 0x100000

/-- The address behind the stack of a place. -/
def Slot.stackTop (slot : Slot) : UInt64 :=
  stackArea + (UInt64.ofNat slot.val + 1) * UInt64.ofNat stackCapacity

end Timeshare
