import Timeshare.Word

/-!
# Register frames

A trap saves every register of the interrupted process in a frame.  A system
call passes its number and its result in `rax` and its arguments in `rbx`,
`rcx` and `rdx`.
-/

namespace Timeshare

/-- The registers saved by a trap. -/
structure Frame where
  r15 : UInt64 := 0
  r14 : UInt64 := 0
  r13 : UInt64 := 0
  r12 : UInt64 := 0
  r11 : UInt64 := 0
  r10 : UInt64 := 0
  r9 : UInt64 := 0
  r8 : UInt64 := 0
  rbp : UInt64 := 0
  rdi : UInt64 := 0
  rsi : UInt64 := 0
  rdx : UInt64 := 0
  rcx : UInt64 := 0
  rbx : UInt64 := 0
  rax : UInt64 := 0
  /-- The interrupt vector that caused the trap. -/
  vector : UInt64 := 0
  errorCode : UInt64 := 0
  rip : UInt64 := 0
  cs : UInt64 := 0
  rflags : UInt64 := 0
  rsp : UInt64 := 0
  ss : UInt64 := 0
  deriving DecidableEq, Inhabited

/-- The three arguments of a system call. -/
structure Arguments where
  first : UInt64
  second : UInt64
  third : UInt64
  deriving DecidableEq

namespace Frame

/-- The code segment of every process. -/
def codeSelector : UInt64 := 0x08

/-- The data and stack segment of every process. -/
def dataSelector : UInt64 := 0x10

/-- The flag bit that always reads as one. -/
def reservedFlag : UInt64 := 0x002

/-- The flag bit that lets interrupts through. -/
def interruptFlag : UInt64 := 0x200

/-- The frame that starts at `entry` with interrupts enabled, on an empty stack
that ends at `stackTop` and has room for a return address. -/
def start (entry stackTop : UInt64) : Except Fault Frame := do
  let rsp ← Word.sub stackTop 8
  return {
    rip := entry, cs := codeSelector, ss := dataSelector
    rflags := reservedFlag ||| interruptFlag, rsp }

/-- The flags the kernel knows, with all others cleared. -/
def flags (frame : Frame) : UInt64 := frame.rflags &&& (reservedFlag ||| interruptFlag)

/-- Whether the process runs with interrupts enabled. -/
def interruptible (frame : Frame) : Bool := frame.flags &&& interruptFlag == interruptFlag

/-- Whether the reserved flag is set, as it always should be. -/
def reservedSet (frame : Frame) : Bool := frame.flags &&& reservedFlag == reservedFlag

/-- The number of the requested system call. -/
def callNumber (frame : Frame) : UInt64 := frame.rax

/-- The arguments of the requested system call. -/
def arguments (frame : Frame) : Arguments := ⟨frame.rbx, frame.rcx, frame.rdx⟩

/-- The frame with the result of a system call in place. -/
def withResult (frame : Frame) (value : Int64) : Frame := { frame with rax := value.toUInt64 }

/-- The result of the last system call. -/
def result (frame : Frame) : Int64 := frame.rax.toInt64

/-- A stored result is read back as it was stored. -/
theorem result_withResult (frame : Frame) (value : Int64) :
    (frame.withResult value).result = value := by
  simp [withResult, result]

end Frame

end Timeshare
