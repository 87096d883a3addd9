import Timeshare.Text.Utf8
import Timeshare.User.Gate

/-!
# Calls as a process makes them

Each call asks the gate and reads the result.  A negative result says that the
kernel refused the call.
-/

namespace Timeshare.User

/-- The two mutexes that the stock programs share, once they are known.
Processes with an even pid use the first and the others the second. -/
structure Shared where
  pair : Option (UInt64 × UInt64)
  deriving DecidableEq

namespace Shared

/-- No mutexes are known yet. -/
def unknown : Shared := ⟨none⟩

/-- Make the mutexes known.  Only the first time counts. -/
def publish (shared : Shared) (even odd : UInt64) : Shared :=
  ⟨some (shared.pair.getD (even, odd))⟩

/-- The mutex that a process uses. -/
def mutexFor? (shared : Shared) (pid : UInt32) : Option UInt64 :=
  shared.pair.map fun (even, odd) => if pid % 2 = 0 then even else odd

end Shared

/-- What a running program acts on: its gate and the shared mutexes. -/
structure World (G : Type) where
  gate : G
  shared : Shared

/-- A part of a program. -/
abbrev Action (G ε α : Type) := EStateM (Ending ε) (World G) α

/-- The kernel refused the call. -/
inductive CallError where
  | failed
  deriving DecidableEq

/-- The wording of a refused call. -/
def CallError.message : CallError → String
  | failed => "system call failed"

/-- The result of a call, unless it is negative. -/
def accepted (code : Int64) : Except CallError UInt64 :=
  if code < 0 then .error .failed else .ok code.toUInt64

variable {G ε α : Type} [Gate G ε]

/-- Ask the gate. -/
def ask (request : Request) : Action G ε (Reply request) := fun world =>
  let (answer, gate) := Gate.call request world.gate
  match answer with
  | .ok reply => .ok reply { world with gate }
  | .error reason => .error (.cutOff reason) { world with gate }

/-- A checked step. -/
def check (r : Except Fault α) : Action G ε α := fun world =>
  match r with
  | .ok a => .ok a world
  | .error fault => .error (.fault fault) world

/-- Ask for something that either succeeds or not. -/
def request (r : Request) : Action G ε (Except CallError Unit) := do
  return (accepted (← ask r).code).map fun _ => ()

/-- Whole seconds since boot, or zero if the kernel does not tell. -/
def time : Action G ε UInt64 := do
  return (accepted (← ask .getTime).code).toOption.getD 0

/-- Start a process; the result is its pid. -/
def exec (name : List UInt8) (entry : UInt64) : Action G ε (Except CallError UInt32) := do
  return (accepted (← ask (.exec name entry)).code).map UInt64.toUInt32

/-- End the calling process.  A process that lives on regardless does nothing
more. -/
def exit : Action G ε α := do
  let _ ← ask .exit
  throw .unfinished

/-- The caller's pid, or zero if the kernel does not tell. -/
def pid : Action G ε UInt32 := do
  return ((accepted (← ask .getPid).code).map UInt64.toUInt32).toOption.getD 0

/-- The caller's name, read into a buffer. -/
def name (buffer : NameBuffer) : Action G ε (Except CallError String) := do
  let reply ← ask (.getName buffer)
  match accepted reply.code with
  | .error e => return .error e
  | .ok _ =>
      let bytes : NameBuffer := reply.memory
      match Text.decode? (bytes.toList.takeWhile (· != 0)) with
      | none => return .error .failed
      | some text => return .ok (String.ofList text)

/-- Sleep for a number of seconds. -/
def sleep (seconds : UInt64) : Action G ε Unit := do
  let _ ← ask (.sleep seconds)

/-- Give up the rest of the time slice. -/
def yield : Action G ε Unit := do
  let _ ← ask .yield

/-- Allocate a mutex. -/
def mutexAlloc : Action G ε (Except CallError UInt64) := do
  return accepted (← ask .mutexAlloc).code

/-- Free a mutex. -/
def mutexFree (id : UInt64) : Action G ε (Except CallError Unit) := request (.mutexFree id)

/-- Lock a mutex. -/
def mutexLock (id : UInt64) : Action G ε (Except CallError Unit) := request (.mutexLock id)

/-- Unlock a mutex. -/
def mutexUnlock (id : UInt64) : Action G ε (Except CallError Unit) := request (.mutexUnlock id)

/-- Send a message.  The second result is the caller's message afterwards, with
the stamps of the kernel. -/
def send (mailbox : UInt64) (message : Message) :
    Action G ε (Except CallError Unit × Message) := do
  let reply ← ask (.send mailbox message)
  return ((accepted reply.code).map fun _ => (), reply.memory)

/-- Receive a message in place of `message`.  The second result is the caller's
message afterwards. -/
def receive (mailbox : UInt64) (message : Message) :
    Action G ε (Except CallError Unit × Message) := do
  let reply ← ask (.receive mailbox message)
  return ((accepted reply.code).map fun _ => (), reply.memory)

end Timeshare.User
