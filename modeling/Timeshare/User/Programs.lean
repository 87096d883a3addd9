import Timeshare.User.Calls
import Timeshare.User.WordRecord
import Timeshare.Word

/-!
# The stock programs

The programs that are started at boot, up to the point where they exit.  Loops
that end only by the clock or by the gate are watched for a limited number of
rounds, `patience`; a program that needs more is unfinished.
-/

namespace Timeshare.User

variable {G ε : Type} [Gate G ε]

/-- The sentence that producers send. -/
def words : List String :=
  ["the", "quick", "brown", "fox", "jumps", "over", "the", "lazy", "dog"]

/-! ## Waiting -/

/-- Read the clock until it has reached `deadline`. -/
def spinUntil (deadline : UInt64) : (patience : Nat) → Action G ε Unit
  | 0 => throw .unfinished
  | patience + 1 => do
      if (← time) < deadline then spinUntil deadline patience else pure ()

/-- Wait for a number of seconds without giving up the processor. -/
def delay (patience : Nat) (seconds : UInt64) : Action G ε Unit := do
  let start ← time
  spinUntil (Word.addSaturating start seconds) patience

/-! ## The first program -/

/-- Start programs; one that is refused is left out. -/
def execAll : List (List UInt8 × UInt64) → Action G ε Unit
  | [] => pure ()
  | (name, entry) :: rest => do
      let _ ← exec name entry
      execAll rest

/-- Wait for five seconds, allocate the shared mutexes and start `children`. -/
def init (children : List (List UInt8 × UInt64)) : Action G ε (Except CallError Unit) := do
  sleep 5
  match ← mutexAlloc with
  | .error e => return .error e
  | .ok even =>
      match ← mutexAlloc with
      | .error e => return .error e
      | .ok odd =>
          modify fun world => { world with shared := world.shared.publish even odd }
          execAll children
          return .ok ()

/-! ## The mutex program -/

/-- Lock and unlock a mutex `rounds` times.  Between the two the program sleeps
for `hold` seconds if the clock reads an even second, and spins for as long
otherwise. -/
def lockRounds (mutex hold : UInt64) (patience : Nat) : (rounds : Nat) → Action G ε Unit
  | 0 => pure ()
  | rounds + 1 => do
      match ← mutexLock mutex with
      | .error _ => pure ()
      | .ok () =>
          let now ← time
          if now % 2 = 0 then sleep hold else delay patience hold
          match ← mutexUnlock mutex with
          | .error _ => pure ()
          | .ok () => lockRounds mutex hold patience rounds

/-- Take the caller's shared mutex again and again.  How often and how long
depends on the caller's pid. -/
def test (patience : Nat) : Action G ε Unit := do
  let self ← pid
  match (← get).shared.mutexFor? self with
  | none => pure ()
  | some mutex =>
      let hold := self % 5
      lockRounds mutex hold.toUInt64 patience ((hold.toNat + 1) * 3 + 1)

/-! ## Producers and consumers -/

/-- The mailbox a producer or consumer uses and the seconds it keeps going. -/
def channel (pid : UInt32) : Except Fault (UInt64 × UInt64) := do
  let double ← Word.mul32 pid 2
  return ((pid % 2).toUInt64, (double % 15).toUInt64)

/-- The seconds since `start`. -/
def elapsed (start : UInt64) : Action G ε UInt64 := do
  check (Word.sub (← time) start)

/-- Send numbered words, one a second, as long as the budget lasts and sending
succeeds. -/
def sendWords (mailbox budget start : UInt64) : List (String × Nat) → Action G ε Unit
  | [] => pure ()
  | (word, sequence) :: rest => do
      if budget < (← elapsed start) then pure ()
      else
        let message := (WordRecord.new (UInt32.ofNat sequence) word).toMessage
        match (← send mailbox message).1 with
        | .error _ => pure ()
        | .ok () =>
            sleep 1
            sendWords mailbox budget start rest

/-- Send the sentence to the caller's mailbox. -/
def producer : Action G ε Unit := do
  let (mailbox, budget) ← check (channel (← pid))
  let start ← time
  sendWords mailbox budget start words.zipIdx

/-- Receive words as long as the budget lasts and receiving succeeds. -/
def receiveWords (mailbox budget start : UInt64) : (patience : Nat) → Message →
    Action G ε (List (Message × WordRecord))
  | 0, _ => throw .unfinished
  | patience + 1, message => do
      if (← elapsed start) ≤ budget then
        match ← receive mailbox message with
        | (.error _, _) => return []
        | (.ok (), message) =>
            let rest ← receiveWords mailbox budget start patience message
            return (message, WordRecord.ofMessage message) :: rest
      else return []

/-- Receive words from the caller's mailbox.  The result lists the messages and
the words they carry. -/
def consumer (patience : Nat) : Action G ε (List (Message × WordRecord)) := do
  let (mailbox, budget) ← check (channel (← pid))
  let start ← time
  receiveWords mailbox budget start patience .empty

end Timeshare.User
