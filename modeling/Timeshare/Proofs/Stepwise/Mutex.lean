import Timeshare.Proofs.Mutex
import Timeshare.Proofs.Stepwise.Tasks

/-!
# Mutexes, step by step

A mutex is changed where it stands in the table: its wait queue, its count and its owner
change one after the other, with the processes that are parked and queued in between.
-/

namespace Timeshare

namespace MutexTable

variable {table : MutexTable} {index : MutexId}

/-- Change an allocated mutex. -/
def alter (table : MutexTable) (index : MutexId) (f : Mutex → Mutex) : MutexTable :=
  table.put index ((table.entry index).map f)

theorem put_put (table : MutexTable) (index : MutexId) (mutex later : Option Mutex) :
    (table.put index mutex).put index later = table.put index later := by
  simp [put]

theorem alter_put (table : MutexTable) (index : MutexId) (mutex : Mutex) (f : Mutex → Mutex) :
    (table.put index (some mutex)).alter index f = table.put index (some (f mutex)) := by
  rw [alter, entry_put, if_pos rfl]
  exact put_put ..

theorem alter_of_find? {id : UInt64} {mutex : Mutex} (hfind : table.find? id = some (index, mutex))
    (f : Mutex → Mutex) : table.alter index f = table.put index (some (f mutex)) := by
  rw [alter, (find?_eq_some_iff.1 hfind).2, Option.map_some]

end MutexTable

namespace Kernel.Stepwise

variable {P : Type} {α : Type} {k : Kernel P}

/-- Change the mutexes. -/
def changeMutexes (f : MutexTable → MutexTable) : Handler P Unit :=
  modify fun k => { k with mutexes := f k.mutexes }

/-- Change an allocated mutex. -/
def changeMutex (index : MutexId) (f : Mutex → Mutex) : Handler P Unit :=
  changeMutexes fun table => table.alter index f

@[simp] theorem changeMutexes_bind (f : MutexTable → MutexTable) (next : Unit → Handler P α) :
    (changeMutexes f >>= next) k = next () { k with mutexes := f k.mutexes } := rfl

@[simp] theorem changeMutex_bind (index : MutexId) (f : Mutex → Mutex) (next : Unit → Handler P α) :
    (changeMutex index f >>= next) k =
      next () { k with mutexes := k.mutexes.alter index f } := rfl

variable [Platform P]

/-- Allocate the mutex that has been free for longest. -/
def alloc : Handler P MutexId := do
  match (← get).mutexes.free.pop with
  | none => do
      report .noMutex
      refuse .noFreeMutex
  | some (id, free) => do
      changeMutexes fun table => { table with free }
      changeMutexes fun table => table.put id (some .unlocked)
      report (.mutexAllocated id)
      return id

/-- Free a mutex that nobody owns. -/
def release (id : UInt64) : Handler P Unit := do
  match (← get).mutexes.find? id with
  | none => refuse (.invalidMutex id)
  | some (index, mutex) =>
      if mutex.lockCount > 0 then do
        report (.mutexInUse id)
        refuse .mutexHeld
      else do
        changeMutexes fun table => table.put index none
        match (← get).mutexes.free.push index with
        | none => throw (.fault (.breach (.mutexNotReleased id)))
        | some free => do
            changeMutexes fun table => { table with free }
            report (.mutexFreed id)

/-- Lock a mutex for `caller`, who may have to wait. -/
def lock (id : UInt64) (caller : Pid) : Handler P Nat := do
  match (← get).mutexes.find? id with
  | none => refuse (.invalidMutex id)
  | some (index, mutex) =>
      if mutex.lockCount = 0 then do
        changeMutex index fun mutex => { mutex with owner := some caller }
        changeMutex index fun mutex => { mutex with lockCount := 1 }
        return 0
      else
        match mutex.waiting.push caller with
        | none => throw (.fault (.breach (.mutexQueueFull caller id)))
        | some waiting => do
            changeMutex index fun mutex => { mutex with waiting }
            let slot ← placeOf caller
            park caller slot
            changeMutex index fun mutex => { mutex with lockCount := mutex.lockCount + 1 }
            report (.mutexContended caller id (mutex.lockCount + 1))
            return mutex.lockCount

/-- Unlock a mutex for `caller`, and pass it on to the oldest waiter. -/
def unlock (id : UInt64) (caller : Pid) : Handler P Nat := do
  match (← get).mutexes.find? id with
  | none => refuse (.invalidMutex id)
  | some (index, mutex) =>
      if mutex.lockCount = 0 then return 0
      else if mutex.owner ≠ some caller then do
        report (.mutexNotOwned caller id mutex.owner)
        refuse .notOwner
      else do
        let lockCount := mutex.lockCount - 1
        changeMutex index fun mutex => { mutex with lockCount }
        if lockCount = 0 then
          changeMutex index fun mutex => { mutex with owner := none }
          return 0
        else
          match mutex.waiting.pop with
          | none => throw (.fault (.breach (.noWaiter id lockCount)))
          | some (next, waiting) => do
              changeMutex index fun mutex => { mutex with waiting }
              let slot ← placeOf next
              enqueue slot
              changeMutex index fun mutex => { mutex with owner := some next }
              report (.mutexHandedOver id next)
              return lockCount

theorem agrees_alloc (k : Kernel P) :
    Agrees (alloc k)
      (carry k.mutexes.alloc (·.1) (fun made k => { k with mutexes := made.2 }) k) := by
  unfold alloc MutexTable.alloc
  rw [get_bind]
  cases hpop : k.mutexes.free.pop with
  | none => exact .of_eq rfl
  | some found => exact .of_eq rfl

theorem agrees_release (id : UInt64) (k : Kernel P) :
    Agrees (release id k)
      (carry (k.mutexes.release id) (fun _ => ()) (fun mutexes k => { k with mutexes }) k) := by
  unfold release MutexTable.release
  rw [get_bind]
  cases hfind : k.mutexes.find? id with
  | none => exact .of_eq rfl
  | some found =>
      obtain ⟨index, mutex⟩ := found
      dsimp only
      by_cases hheld : mutex.lockCount > 0
      · rw [if_pos hheld, if_pos hheld]
        exact .of_eq rfl
      rw [if_neg hheld, if_neg hheld, changeMutexes_bind, get_bind]
      dsimp only [MutexTable.put]
      cases hpush : k.mutexes.free.push index with
      | none => exact .fault rfl
      | some free => exact .of_eq rfl

theorem agrees_lock (id : UInt64) (caller : Pid) (k : Kernel P) :
    Agrees (lock id caller k)
      (carry (k.mutexes.lock id caller k.tasks) (·.1)
        (fun made k => { k with mutexes := made.2.1, tasks := made.2.2 }) k) := by
  unfold lock MutexTable.lock
  rw [get_bind]
  cases hfind : k.mutexes.find? id with
  | none => exact .of_eq rfl
  | some found =>
      obtain ⟨index, mutex⟩ := found
      dsimp only
      by_cases hfree : mutex.lockCount = 0
      · rw [if_pos hfree, if_pos hfree, changeMutex_bind, changeMutex_bind,
          MutexTable.alter_of_find? hfind, MutexTable.alter_put]
        exact .of_eq rfl
      rw [if_neg hfree, if_neg hfree]
      cases hpush : mutex.waiting.push caller with
      | none => exact .fault rfl
      | some waiting =>
          dsimp only
          rw [changeMutex_bind, placeOf_bind]
          dsimp only
          cases hcaller : k.tasks.table.find? caller with
          | none =>
              rw [Tasks.park, ProcessTable.expect, hcaller]
              exact .fault rfl
          | some slot =>
              dsimp only
              rw [park_bind ?found]
              case found => exact hcaller
              dsimp only
              cases hpark : k.tasks.park caller with
              | error fault => exact .fault rfl
              | ok tasks =>
                  dsimp only
                  rw [changeMutex_bind, report_bind, MutexTable.alter_of_find? hfind,
                    MutexTable.alter_put]
                  exact .of_eq rfl

theorem agrees_unlock (id : UInt64) (caller : Pid) (k : Kernel P) :
    Agrees (unlock id caller k)
      (carry (k.mutexes.unlock id caller k.tasks) (·.1)
        (fun made k => { k with mutexes := made.2.1, tasks := made.2.2 }) k) := by
  unfold unlock MutexTable.unlock
  rw [get_bind]
  cases hfind : k.mutexes.find? id with
  | none => exact .of_eq rfl
  | some found =>
      obtain ⟨index, mutex⟩ := found
      dsimp only
      by_cases hfree : mutex.lockCount = 0
      · rw [if_pos hfree, if_pos hfree]
        exact .of_eq rfl
      rw [if_neg hfree, if_neg hfree]
      by_cases howner : mutex.owner ≠ some caller
      · rw [if_pos howner, if_pos howner]
        exact .of_eq rfl
      rw [if_neg howner, if_neg howner, changeMutex_bind, MutexTable.alter_of_find? hfind]
      by_cases hlast : mutex.lockCount - 1 = 0
      · rw [if_pos hlast, if_pos hlast, changeMutex_bind, MutexTable.alter_put]
        exact .of_eq rfl
      rw [if_neg hlast, if_neg hlast]
      cases hpop : mutex.waiting.pop with
      | none => exact .fault rfl
      | some found =>
          obtain ⟨next, waiting⟩ := found
          dsimp only
          rw [changeMutex_bind, MutexTable.alter_put, placeOf_bind]
          dsimp only [ProcessTable.expect]
          cases hnext : k.tasks.table.find? next with
          | none => exact .fault rfl
          | some slot =>
              dsimp only
              rw [enqueue_bind, Run.lift_ok_bind]
              dsimp only
              cases henqueue : k.tasks.enqueue slot with
              | error fault => exact .fault rfl
              | ok tasks =>
                  dsimp only
                  rw [changeMutex_bind, report_bind, MutexTable.alter_put]
                  exact .of_eq rfl

end Kernel.Stepwise

end Timeshare
