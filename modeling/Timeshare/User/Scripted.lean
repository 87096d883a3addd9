import Timeshare.User.Gate
import Timeshare.User.Interruption
import Timeshare.Word

/-!
# Programs on a script

A program runs alone with a kernel that has one process.  Each call takes time,
sleeping moves the clock, and receiving fails when no message is left.  A
script may fix the results of calls; a fixed result has no other effect.
-/

namespace Timeshare.User

/-- A request, the result it got, and in which order. -/
structure Exchange where
  request : Request
  code : Int64

/-- A kernel with one process. -/
structure Scripted where
  self : UInt32
  ticks : UInt64
  /-- The ticks that a call takes. -/
  cost : UInt64
  ticksPerSecond : UInt64
  /-- The next mutex, and the number of processes started. -/
  nextId : UInt64
  name : List UInt8
  /-- The messages still to be received. -/
  inbox : List Message
  /-- The results that are fixed, by the number of the call. -/
  replies : List (Option Int64)
  /-- The calls that may be made. -/
  callLimit : Nat
  /-- The calls made. -/
  callCount : Nat
  /-- The latest calls, oldest first. -/
  exchanges : Array Exchange

namespace Scripted

/-- What the kernel does for a request. -/
def answer (s : Scripted) : (request : Request) → Except Fault (Reply request × Scripted)
  | .getTime => do
      let seconds ← Word.div s.ticks s.ticksPerSecond
      return (⟨seconds.toInt64, ()⟩, s)
  | .getPid => .ok (⟨s.self.toUInt64.toInt64, ()⟩, s)
  | .getName buffer =>
      let written : NameBuffer :=
        Vector.ofFn fun i => (s.name[i.val]?).getD (buffer.get i)
      .ok (⟨0, written⟩, s)
  | .sleep seconds =>
      let pause := Word.mulSaturating seconds s.ticksPerSecond
      .ok (⟨0, ()⟩, { s with ticks := Word.addSaturating s.ticks pause })
  | .exec _ _ => do
      let nextId ← Word.add s.nextId 1
      let child ← Word.add s.self.toUInt64 nextId
      return (⟨child.toInt64, ()⟩, { s with nextId })
  | .mutexAlloc => do
      let nextId ← Word.add s.nextId 1
      return (⟨s.nextId.toInt64, ()⟩, { s with nextId })
  | .send _ message =>
      let stamped : Message := { message with sender := s.self, timeSent := s.ticks }
      .ok (⟨0, stamped⟩, s)
  | .receive _ message =>
      match s.inbox with
      | [] => .ok (⟨-1, message⟩, s)
      | next :: inbox =>
          let received : Message := { next with timeReceived := s.ticks }
          .ok (⟨0, received⟩, { s with inbox })
  | .exit | .yield | .mutexFree _ | .mutexLock _ | .mutexUnlock _ => .ok (⟨0, ()⟩, s)

/-- Answer a request by the script, or by the kernel where the script is silent. -/
def reply (s : Scripted) (fixed : Option Int64) (request : Request) :
    Except Fault (Reply request × Scripted) :=
  match fixed with
  | some code => .ok (⟨code, request.memory⟩, s)
  | none => s.answer request

instance : Gate Scripted Interruption where
  call request s :=
    if s.callLimit ≤ s.callCount then (.error .callLimit, s)
    else
      let fixed := (s.replies[s.callCount]?).getD none
      let started :=
        { s with ticks := Word.addSaturating s.ticks s.cost, callCount := s.callCount + 1 }
      match started.reply fixed request with
      | .error f => (.error (.fault f), started)
      | .ok (reply, s) =>
          let s := { s with exchanges := s.exchanges.push ⟨request, reply.code⟩ }
          if request.call = .exit then (.error .exited, s) else (.ok reply, s)

end Scripted

end Timeshare.User
