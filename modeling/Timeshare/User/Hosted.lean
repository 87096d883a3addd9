import Timeshare.Kernel.Drive
import Timeshare.Machine.Simulated
import Timeshare.User.Gate
import Timeshare.User.Interruption

/-!
# Programs on a kernel

A program runs as one process of a kernel on the simulated machine.  The
process waits for its turn on the processor, puts the memory that a request
names into a scratch area of its own, traps, waits for its next turn and reads
the result and the memory back.
-/

namespace Timeshare.User

open Kernel (Call)
open Machine (Simulated)

/-- A request that was answered. -/
structure CallRecord where
  call : Call
  code : Int64
  /-- The time of the answer in ticks. -/
  now : UInt64
  deriving DecidableEq

/-- A process of a kernel. -/
structure Hosted where
  kernel : Kernel Simulated
  /-- The process. -/
  self : Pid
  /-- The requests that were answered, oldest first. -/
  calls : Array CallRecord
  /-- The requests that may be made. -/
  callLimit : Nat
  /-- The timer interrupts that may pass before the process has its turn. -/
  turnLimit : Nat

namespace Hosted

/-- The address of a process's scratch area. -/
def scratch (pid : Pid) : UInt64 := 0x1000 + 0x400 * (pid.number.toUInt64 + 1)

/-- The entry address of programs that are started by other programs. -/
def childEntry : UInt64 := 0x4000

/-- The bytes of a request that go into the scratch area. -/
def outgoing : Request → List UInt8
  | .exec name _ => name ++ [0]
  | .send _ message | .receive _ message => message.image.toList
  | _ => []

/-- The arguments of a request whose memory lies at `area`. -/
def argumentsAt (area : UInt64) : Request → Arguments
  | .exec _ _ => ⟨area, childEntry, 0⟩
  | .getName _ => ⟨area, 0, 0⟩
  | .sleep seconds => ⟨seconds, 0, 0⟩
  | .mutexFree id | .mutexLock id | .mutexUnlock id => ⟨id, 0, 0⟩
  | .send mailbox _ | .receive mailbox _ => ⟨mailbox, area, 0⟩
  | .getTime | .exit | .getPid | .yield | .mutexAlloc => ⟨0, 0, 0⟩

/-- The memory of a request, read back from `area`. -/
def incoming (machine : Simulated) (area : UInt64) : (request : Request) → request.Memory
  | .getName buffer =>
      ((machine.memory.read area (nameCapacity + 1)).toOption.getD buffer : NameBuffer)
  | .send _ message | .receive _ message =>
      match machine.memory.read area wireSize with
      | .ok image => Message.ofImage image
      | .error _ => message
  | .getTime | .exec .. | .exit | .getPid | .sleep _ | .yield | .mutexAlloc | .mutexFree _
  | .mutexLock _ | .mutexUnlock _ => ()

/-- A step of the kernel on the way to an answer. -/
abbrev Answering := EStateM Interruption (Kernel Simulated)

/-- A fault of the kernel ends the run. -/
def orEnd {α : Type} (step : Step Simulated α) : Answering α := fun k =>
  match step k with
  | .ok a k => .ok a k
  | .error f k => .error (.fault f) k

/-- Wait until the process is active. -/
def turn (self : Pid) (limit : Nat) : Answering Unit := do
  match ← orEnd (Kernel.runUntil self limit) with
  | none => throw .neverActive
  | some _ => pure ()

/-- Answer a request of the process `self`. -/
def answer (self : Pid) (limit : Nat) (request : Request) : Answering (Reply request) := do
  turn self limit
  let _ ← orEnd Kernel.interrupt
  turn self limit
  let area := scratch self
  modify fun k =>
    let (_, memory) := k.platform.memory.poke area (outgoing request)
    { k with platform := { k.platform with memory } }
  let _ ← orEnd (Kernel.callAsCurrent request.call.number (argumentsAt area request))
  if ((← get).context? self).isNone then
    return ⟨0, request.memory⟩
  else
    turn self limit
    let k ← get
    return ⟨((k.context? self).map Frame.result).getD 0, incoming k.platform area request⟩

instance : Gate Hosted Interruption where
  call request host :=
    if host.callLimit ≤ host.calls.size then (.error .callLimit, host)
    else
      match answer host.self host.turnLimit request host.kernel with
      | .ok reply kernel =>
          let record : CallRecord := ⟨request.call, reply.code, kernel.clock.now⟩
          (.ok reply, { host with kernel, calls := host.calls.push record })
      | .error reason kernel => (.error reason, { host with kernel })

end Hosted

end Timeshare.User
