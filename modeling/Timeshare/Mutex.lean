import Timeshare.Tasks

/-!
# Mutexes with hand-over

The lock count of a mutex counts its owner and everybody who waits for it.
Unlocking a contended mutex makes the oldest waiter its owner, so a mutex is
passed on in the order in which it was asked for.  An owner that locks again
waits behind itself.
-/

namespace Timeshare

/-- The index of a mutex. -/
abbrev MutexId : Type := Fin mutexCapacity

instance : Inhabited MutexId := ⟨⟨0, by decide⟩⟩

/-- An allocated mutex. -/
structure Mutex where
  /-- The owner and everybody who waits, counted. -/
  lockCount : Nat
  owner : Option Pid
  /-- Who waits for the mutex, the oldest first. -/
  waiting : Ring Pid queueCapacity

/-- A mutex that nobody owns. -/
def Mutex.unlocked : Mutex := ⟨0, none, .empty⟩

/-- The mutexes, absent where not allocated, and the queue of free ones. -/
structure MutexTable where
  mutexes : Vector (Option Mutex) mutexCapacity
  /-- The free mutexes, in the order in which they are allocated. -/
  free : Ring MutexId queueCapacity

namespace MutexTable

/-- A table in which every mutex is free. -/
def empty : MutexTable where
  mutexes := Vector.replicate mutexCapacity none
  free := Ring.empty.pushAll (List.finRange mutexCapacity)

instance : Inhabited MutexTable := ⟨empty⟩

/-- Replace a mutex. -/
def put (table : MutexTable) (id : MutexId) (mutex : Option Mutex) : MutexTable :=
  { table with mutexes := table.mutexes.set id mutex }

/-- The allocated mutex with a given number. -/
def find? (table : MutexTable) (id : UInt64) : Option (MutexId × Mutex) :=
  if h : id.toNat < mutexCapacity then
    (table.mutexes[id.toNat]).map fun mutex => (⟨id.toNat, h⟩, mutex)
  else none

/-- The allocated mutex with a given number. -/
def get? (table : MutexTable) (id : UInt64) : Option Mutex := (table.find? id).map (·.2)

/-- The allocated mutexes in the order of their numbers. -/
def allocated (table : MutexTable) : List (MutexId × Mutex) :=
  (List.finRange mutexCapacity).filterMap fun id => (table.mutexes[id]).map fun mutex => (id, mutex)

/-- Allocate the mutex that has been free for longest. -/
def alloc (table : MutexTable) : Run Stop (MutexId × MutexTable) :=
  match table.free.pop with
  | none => do
      Run.report .noMutex
      Run.refuse .noFreeMutex
  | some (id, free) => do
      Run.report (.mutexAllocated id)
      return (id, { table with free }.put id (some .unlocked))

/-- Free a mutex that nobody owns. -/
def release (table : MutexTable) (id : UInt64) : Run Stop MutexTable :=
  match table.find? id with
  | none => Run.refuse (.invalidMutex id)
  | some (index, mutex) =>
      if mutex.lockCount > 0 then do
        Run.report (.mutexInUse id)
        Run.refuse .mutexHeld
      else
        match table.free.push index with
        | none => Run.stop (.fault (.breach (.mutexNotReleased id)))
        | some free => do
            Run.report (.mutexFreed id)
            return { table with free }.put index none

/-- Lock a mutex for `caller`.  The result is the lock count before the call; if
it is not zero, the caller has to wait. -/
def lock (table : MutexTable) (id : UInt64) (caller : Pid) (tasks : Tasks) :
    Run Stop (Nat × MutexTable × Tasks) :=
  match table.find? id with
  | none => Run.refuse (.invalidMutex id)
  | some (index, mutex) =>
      if mutex.lockCount = 0 then
        return (0, table.put index (some { mutex with owner := some caller, lockCount := 1 }), tasks)
      else
        match mutex.waiting.push caller with
        | none => Run.stop (.fault (.breach (.mutexQueueFull caller id)))
        | some waiting => do
            let tasks ← tasks.park caller
            let lockCount := mutex.lockCount + 1
            Run.report (.mutexContended caller id lockCount)
            return (mutex.lockCount, table.put index (some { mutex with waiting, lockCount }), tasks)

/-- Unlock a mutex for `caller`.  The oldest waiter becomes the owner and is
queued.  The result is the lock count after the call. -/
def unlock (table : MutexTable) (id : UInt64) (caller : Pid) (tasks : Tasks) :
    Run Stop (Nat × MutexTable × Tasks) :=
  match table.find? id with
  | none => Run.refuse (.invalidMutex id)
  | some (index, mutex) =>
      if mutex.lockCount = 0 then return (0, table, tasks)
      else if mutex.owner ≠ some caller then do
        Run.report (.mutexNotOwned caller id mutex.owner)
        Run.refuse .notOwner
      else
        let lockCount := mutex.lockCount - 1
        if lockCount = 0 then
          return (0, table.put index (some { mutex with lockCount, owner := none }), tasks)
        else
          match mutex.waiting.pop with
          | none => Run.stop (.fault (.breach (.noWaiter id lockCount)))
          | some (next, waiting) => do
              let slot ← tasks.table.expect next
              let tasks ← tasks.enqueue slot
              Run.report (.mutexHandedOver id next)
              return (lockCount,
                table.put index (some { lockCount, owner := some next, waiting }), tasks)

end MutexTable

end Timeshare
