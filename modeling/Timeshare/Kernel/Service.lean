import Timeshare.Kernel.Lifecycle

/-!
# Serving system calls

Every access to the memory of a process goes through the machine, and a null
pointer is refused before the memory is touched.  A refused call answers with a
negative result; a call number that does not exist is a fault.
-/

namespace Timeshare.Kernel

variable {P : Type} [Platform P]

/-- The process that makes the call. -/
def caller : Handler P Pid := do
  match (← get).current with
  | none => refuse .noCurrentProcess
  | some pid => return pid

/-- The place of a process that has to live. -/
def placeOf (pid : Pid) : Handler P Slot := do
  let k ← get
  orFault (check (k.tasks.table.expect pid))

/-- Read the memory of processes. -/
def read (address : UInt64) (size : Nat) : Handler P (Vector UInt8 size) := do
  match Platform.readMemory (← get).platform address size with
  | .error fault => refuse (.ofMemoryFault fault)
  | .ok bytes => return bytes

/-- Write the memory of processes. -/
def write (address : UInt64) (data : List UInt8) : Handler P Unit := do
  match ← onPlatform (Platform.writeMemory address data) with
  | .error fault => refuse (.ofMemoryFault fault)
  | .ok () => return ()

/-- Read bytes up to a zero byte, one by one and at most `room` of them. -/
def readText (address offset : UInt64) : (room : Nat) → Handler P (List UInt8)
  | 0 => return []
  | room + 1 => do
      let here ← orFault (check (Word.add address offset))
      let byte := (← read here 1)[0]
      if byte = 0 then return []
      else return byte :: (← readText address (offset + 1) room)

/-- Refuse a null pointer. -/
def requirePointer (pointer : UInt64) : Handler P Unit :=
  if pointer = 0 then refuse (.badAddress pointer) else pure ()

/-! ## The calls -/

/-- Whole seconds since boot. -/
def getTime : Handler P Int64 := do
  let k ← get
  let seconds ← orFault (check (k.clock.seconds k.config.ticksPerSecond))
  return seconds.toInt64

/-- Start a process whose name is read from memory, as far as it is valid text. -/
def exec (namePointer entry : UInt64) : Handler P Int64 := do
  if namePointer = 0 ∨ entry = 0 then refuse (.badAddress namePointer)
  else
    let bytes ← readText namePointer 0 nameCapacity
    let pid ← spawn entry (String.ofList (Text.decodeValid bytes))
    return pid.number.toUInt64.toInt64

/-- Destroy the caller. -/
def exitCaller : Handler P Int64 := do
  exit (← get).current
  return 0

/-- Write the caller's name to memory, followed by a zero byte. -/
def getName (buffer : UInt64) : Handler P Int64 := do
  let pid ← caller
  requirePointer buffer
  let slot ← placeOf pid
  write buffer (((← get).tasks.table.block slot).name.bytes ++ [0])
  return 0

/-- The caller's pid. -/
def getPid : Handler P Int64 := do
  let pid ← caller
  return pid.number.toUInt64.toInt64

/-- Put the caller to sleep.  A wake-up tick past the end of time is the end of
time. -/
def sleep (seconds : UInt64) : Handler P Int64 := do
  let pid ← caller
  let k ← get
  let wake := Word.addSaturating k.clock.now
    (Word.mulSaturating seconds k.config.ticksPerSecond)
  let slot ← placeOf pid
  modify fun k =>
    let tasks := k.tasks.modify slot fun p =>
      { p with state := .sleeping, activeTime := 0, wakeTime := wake }
    { k with tasks := { tasks with sched := tasks.sched.clearCurrent } }
  report (.sleeping pid wake)
  return 0

/-- Queue the caller behind all others with a fresh time slice. -/
def yield : Handler P Int64 := do
  let pid ← caller
  let slot ← placeOf pid
  let k ← get
  let tasks ← orFault (check
    ((k.tasks.modify slot fun p => { p with activeTime := 0 }).enqueue slot))
  set { k with tasks := { tasks with sched := tasks.sched.clearCurrent } }
  return 0

/-- Allocate a mutex. -/
def mutexAlloc : Handler P Int64 := do
  let (id, mutexes) ← perform (← get).mutexes.alloc
  modify fun k => { k with mutexes }
  return Int64.ofNat id

/-- Free a mutex. -/
def mutexFree (id : UInt64) : Handler P Int64 := do
  let mutexes ← perform ((← get).mutexes.release id)
  modify fun k => { k with mutexes }
  return 0

/-- Lock a mutex.  The result is the lock count before the call. -/
def mutexLock (id : UInt64) : Handler P Int64 := do
  let pid ← caller
  let k ← get
  let (previous, mutexes, tasks) ← perform (k.mutexes.lock id pid k.tasks)
  modify fun k => { k with mutexes, tasks }
  return Int64.ofNat previous

/-- Unlock a mutex.  The result is the lock count after the call. -/
def mutexUnlock (id : UInt64) : Handler P Int64 := do
  let pid ← caller
  let k ← get
  let (lockCount, mutexes, tasks) ← perform (k.mutexes.unlock id pid k.tasks)
  modify fun k => { k with mutexes, tasks }
  return Int64.ofNat lockCount

/-- Write a handed-over message into the receiver's buffer.  A buffer that
cannot be written fails the receiver's call. -/
def deliver (handoff : Handoff) : Handler P Unit := do
  let data := handoff.message.encode.toList
  let result : Int64 ←
    match ← onPlatform (Platform.writeMemory handoff.destination data) with
    | .ok () => pure 0
    | .error fault => do
        report (.messageDropped handoff.receiver fault)
        pure (Refusal.ofMemoryFault fault).sentinel
  let slot ← placeOf handoff.receiver
  modify fun k =>
    { k with tasks := k.tasks.modify slot fun p => { p with context := p.context.withResult result } }

/-- Send the message at `pointer`; the caller's copy gets the stamps. -/
def send (mailbox pointer : UInt64) : Handler P Int64 := do
  let pid ← caller
  requirePointer pointer
  let message := Message.decode (← read pointer wireSize)
  let k ← get
  let ((stamped, handoff), mailboxes, tasks) ←
    perform (k.mailboxes.send mailbox message pid k.clock.now k.tasks)
  modify fun k => { k with mailboxes, tasks }
  write pointer stamped.encode.toList
  match handoff with
  | none => pure ()
  | some handoff => deliver handoff
  return 0

/-- Receive a message into the buffer at `pointer`, which has to be readable
before a message is taken. -/
def receive (mailbox pointer : UInt64) : Handler P Int64 := do
  let pid ← caller
  requirePointer pointer
  let _ ← read pointer wireSize
  let k ← get
  let (received, mailboxes, tasks) ←
    perform (k.mailboxes.receive mailbox pid pointer k.clock.now k.tasks)
  modify fun k => { k with mailboxes, tasks }
  match received with
  | .message message => write pointer message.encode.toList
  | .blocked => pure ()
  return 0

/-- Serve a call with its arguments. -/
def serve (call : Call) (arguments : Arguments) : Handler P Int64 :=
  match call with
  | .getTime => getTime
  | .exec => exec arguments.first arguments.second
  | .exit => exitCaller
  | .getName => getName arguments.first
  | .getPid => getPid
  | .sleep => sleep arguments.first
  | .yield => yield
  | .mutexAlloc => mutexAlloc
  | .mutexFree => mutexFree arguments.first
  | .mutexLock => mutexLock arguments.first
  | .mutexUnlock => mutexUnlock arguments.first
  | .send => send arguments.first arguments.second
  | .receive => receive arguments.first arguments.second

/-- Serve the call with a given number for the active process. -/
def dispatch (number : UInt64) (arguments : Arguments) : Step P Int64 := do
  match Call.ofNumber? number with
  | none => breach (.unknownCall number)
  | some call =>
      match ← attempt (serve call arguments) with
      | .ok value => return value
      | .error reason => do
          report (.callFailed call reason)
          return reason.sentinel

end Timeshare.Kernel
