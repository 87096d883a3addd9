import Timeshare.Proofs.Kernel.Undone
import Timeshare.Proofs.Stepwise.Mailbox
import Timeshare.Proofs.Stepwise.Mutex

/-!
# Calls, step by step

The calls that create and destroy processes, that lock and that carry messages are served on
the kernel's own tables.  Every call ends as it does with operations that return their
tables, so a refused call has changed nothing although nothing is put back.
-/

namespace Timeshare.Kernel.Stepwise

variable {P : Type} [Platform P] {k k' : Kernel P}

/-- Start a process whose name is read from memory. -/
def exec (namePointer entry : UInt64) : Handler P Int64 := do
  if namePointer = 0 ∨ entry = 0 then refuse (.badAddress namePointer)
  else
    let bytes ← readText namePointer 0 nameCapacity
    let pid ← create entry (String.ofList (Text.decodeValid bytes)) (← get).clock.now
    return pid.number.toUInt64.toInt64

/-- Destroy the caller. -/
def exitCaller : Handler P Int64 := do
  destroy (← get).current
  return 0

/-- Allocate a mutex. -/
def mutexAlloc : Handler P Int64 := do
  let id ← alloc
  return Int64.ofNat id

/-- Free a mutex. -/
def mutexFree (id : UInt64) : Handler P Int64 := do
  release id
  return 0

/-- Lock a mutex for the caller. -/
def mutexLock (id : UInt64) : Handler P Int64 := do
  let pid ← caller
  let previous ← lock id pid
  return Int64.ofNat previous

/-- Unlock a mutex for the caller. -/
def mutexUnlock (id : UInt64) : Handler P Int64 := do
  let pid ← caller
  let lockCount ← unlock id pid
  return Int64.ofNat lockCount

/-- Send the message at `pointer`; the caller's copy gets the stamps. -/
def sendFrom (mailbox pointer : UInt64) : Handler P Int64 := do
  let pid ← caller
  requirePointer pointer
  let message := Message.decode (← read pointer wireSize)
  let (stamped, handoff) ← send mailbox message pid (← get).clock.now
  write pointer stamped.encode.toList
  match handoff with
  | none => pure ()
  | some handoff => deliver handoff
  return 0

/-- Receive a message into the buffer at `pointer`. -/
def receiveInto (mailbox pointer : UInt64) : Handler P Int64 := do
  let pid ← caller
  requirePointer pointer
  let _ ← read pointer wireSize
  match ← receive mailbox pid pointer (← get).clock.now with
  | .message message => write pointer message.encode.toList
  | .blocked => pure ()
  return 0

/-- Serve a call with its arguments; the calls that use no table operation are served as
ever. -/
def serve (call : Call) (arguments : Arguments) : Handler P Int64 :=
  match call with
  | .exec => exec arguments.first arguments.second
  | .exit => exitCaller
  | .mutexAlloc => mutexAlloc
  | .mutexFree => mutexFree arguments.first
  | .mutexLock => mutexLock arguments.first
  | .mutexUnlock => mutexUnlock arguments.first
  | .send => sendFrom arguments.first arguments.second
  | .receive => receiveInto arguments.first arguments.second
  | .getTime => getTime
  | .getName => getName arguments.first
  | .getPid => getPid
  | .sleep => sleep arguments.first
  | .yield => yield

/-! ## The calls agree -/

theorem agrees_exec (namePointer entry : UInt64) (k : Kernel P) :
    Agrees (exec namePointer entry k) (Kernel.exec namePointer entry k) := by
  unfold exec Kernel.exec
  split
  · exact .refl _
  refine .bind_same _ fun bytes k₁ => ?_
  have hspawn (name : String) : Agrees (create entry name k₁.clock.now k₁) (spawn entry name k₁) :=
    agrees_create entry name k₁.clock.now k₁
  rw [get_bind]
  exact (hspawn _).bind fun pid k₂ => .refl _

theorem agrees_exitCaller (k : Kernel P) : Agrees (exitCaller k) (Kernel.exitCaller k) := by
  have hexit : Agrees (destroy k.current k) (exit k.current k) := agrees_destroy k.current k
  exact hexit.bind fun _ k' => .refl _

theorem agrees_mutexLock (id : UInt64) (k : Kernel P) :
    Agrees (mutexLock id k) (Kernel.mutexLock id k) :=
  .bind_same _ fun pid k' => (agrees_lock id pid k').bind_carry _

theorem agrees_mutexUnlock (id : UInt64) (k : Kernel P) :
    Agrees (mutexUnlock id k) (Kernel.mutexUnlock id k) :=
  .bind_same _ fun pid k' => (agrees_unlock id pid k').bind_carry _

theorem agrees_sendFrom (mailbox pointer : UInt64) (k : Kernel P) :
    Agrees (sendFrom mailbox pointer k) (Kernel.send mailbox pointer k) := by
  refine .bind_same _ fun pid k₁ => .bind_same _ fun _ k₂ => .bind_same _ fun bytes k₃ => ?_
  exact (agrees_send mailbox (Message.decode bytes) pid k₃.clock.now k₃).bind_carry _

theorem agrees_receiveInto (mailbox pointer : UInt64) (k : Kernel P) :
    Agrees (receiveInto mailbox pointer k) (Kernel.receive mailbox pointer k) := by
  refine .bind_same _ fun pid k₁ => .bind_same _ fun _ k₂ => .bind_same _ fun _ k₃ => ?_
  exact (agrees_receive mailbox pid pointer k₃.clock.now k₃).bind_carry _

theorem agrees_serve (call : Call) (arguments : Arguments) (k : Kernel P) :
    Agrees (serve call arguments k) (Kernel.serve call arguments k) := by
  cases call with
  | exec => exact agrees_exec ..
  | exit => exact agrees_exitCaller k
  | mutexAlloc => exact (agrees_alloc k).bind_carry _
  | mutexFree => exact (agrees_release arguments.first k).bind_carry _
  | mutexLock => exact agrees_mutexLock ..
  | mutexUnlock => exact agrees_mutexUnlock ..
  | send => exact agrees_sendFrom ..
  | receive => exact agrees_receiveInto ..
  | getTime | getName | getPid | sleep | yield => exact .refl _

/-- Serve the call with a given number for the active process. -/
def dispatch (number : UInt64) (arguments : Arguments) : Step P Int64 := do
  match Call.ofNumber? number with
  | none => breach (.unknownCall number)
  | some call =>
      match ← attempt (serve call arguments) with
      | .ok value => return value
      | .error reason => do
          report (.callFailed call reason)
          return reason.sentinel

/-- Every answer to a call, and the kernel behind it, is the one that is known. -/
theorem dispatch_ok_iff (number : UInt64) (arguments : Arguments) {value : Int64} :
    dispatch number arguments k = .ok value k' ↔
      Kernel.dispatch number arguments k = .ok value k' := by
  unfold dispatch Kernel.dispatch
  cases Call.ofNumber? number with
  | none => exact Iff.rfl
  | some call => exact attempt_bind_ok_iff (agrees_serve call arguments k) _

/-- A call that is refused on the way has only reported, and so has one that answers -1. -/
theorem undone_serve (call : Call) (arguments : Arguments) {k : Kernel Machine.Simulated}
    (hk : k.mutexes.Sound) (hwritable : k.Writable) :
    Leads (serve call arguments k) (Undone k) :=
  (agrees_serve call arguments k).leads (Kernel.undone_serve call arguments hk hwritable)
    fun _ _ => trivial

end Timeshare.Kernel.Stepwise
