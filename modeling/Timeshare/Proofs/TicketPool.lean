import Mathlib.Logic.Function.Basic
import Timeshare.Proofs.Dealings
import Timeshare.Proofs.Mutex
import Timeshare.Proofs.Tasks.Moved

/-!
# The mutexes as a pool of tickets

A pool keeps a list of tickets for every allocated mutex, the owner's first, and the
list of the mutexes that can be allocated.  It has no counts, no rings and no
processes.  The table of mutexes answers every request as the pool does that has been
asked the same, and the pool also says which process waits or is queued.
-/

namespace Timeshare

/-- What mutexes are asked for. -/
inductive MutexRequest where
  | alloc
  | release (id : UInt64)
  | lock (id : UInt64) (caller : Pid)
  | unlock (id : UInt64) (caller : Pid)
  deriving DecidableEq

/-- The tickets of the allocated mutexes, and the others in the order in which they are
handed out. -/
structure TicketPool where
  tickets : MutexId → Option (List Pid)
  free : List MutexId

namespace TicketPool

/-- Nothing is allocated. -/
def full : TicketPool := ⟨fun _ => none, List.finRange mutexCapacity⟩

/-- The tickets of the allocated mutex with a given number. -/
def find? (pool : TicketPool) (id : UInt64) : Option (MutexId × List Pid) :=
  if h : id.toNat < mutexCapacity then
    (pool.tickets ⟨id.toNat, h⟩).map fun tickets => (⟨id.toNat, h⟩, tickets)
  else none

theorem val_of_find? (pool : TicketPool) {id : UInt64} {index : MutexId} {tickets : List Pid}
    (hfind : pool.find? id = some (index, tickets)) : index.val = id.toNat := by
  unfold find? at hfind
  split at hfind
  · obtain ⟨_, _, hpair⟩ := Option.map_eq_some_iff.1 hfind
    injection hpair with hindex
    exact (congrArg Fin.val hindex).symm
  · contradiction

/-- Replace the tickets of a mutex. -/
def put (pool : TicketPool) (index : MutexId) (tickets : Option (List Pid)) : TicketPool :=
  { pool with tickets := Function.update pool.tickets index tickets }

/-- Serve a request with a number and a pool, or refuse it. -/
def serve (pool : TicketPool) : MutexRequest → Except Refusal (Nat × TicketPool)
  | .alloc =>
      match pool.free with
      | [] => .error .noFreeMutex
      | index :: free => .ok (index.val, { pool with free }.put index (some []))
  | .release id =>
      match pool.find? id with
      | none => .error (.invalidMutex id)
      | some (index, []) => .ok (0, { pool with free := pool.free ++ [index] }.put index none)
      | some (_, _ :: _) => .error .mutexHeld
  | .lock id caller =>
      match pool.find? id with
      | none => .error (.invalidMutex id)
      | some (index, tickets) => .ok (tickets.length, pool.put index (some (tickets ++ [caller])))
  | .unlock id caller =>
      match pool.find? id with
      | none => .error (.invalidMutex id)
      | some (_, []) => .ok (0, pool)
      | some (index, owner :: tickets) =>
          if owner = caller then .ok (tickets.length, pool.put index (some tickets))
          else .error .notOwner

/-- What a served request does to processes: who locks a mutex that has an owner waits,
and who holds the first ticket after an unlock is queued. -/
def Moves (pool : TicketPool) (request : MutexRequest) (t t' : Tasks) : Prop :=
  match request with
  | .alloc => t' = t
  | .release _ => t' = t
  | .lock id caller =>
      match pool.find? id with
      | some (_, _ :: _) => Tasks.Parked t t' caller
      | _ => t' = t
  | .unlock id _ =>
      match pool.find? id with
      | some (_, _ :: next :: _) => Tasks.Readied t t' next
      | _ => t' = t

/-- When a request is neither served nor refused: a process that has to wait or has to be
queued does not live or finds no room. -/
def Stuck (pool : TicketPool) (request : MutexRequest) (t : Tasks) : Prop :=
  match request with
  | .alloc => False
  | .release _ => False
  | .lock id caller => ∃ index owner waiting, pool.find? id = some (index, owner :: waiting) ∧
      (waiting.length = queueCapacity ∨ t.table.find? caller = none)
  | .unlock id caller => ∃ index next waiting,
      pool.find? id = some (index, caller :: next :: waiting) ∧
      (t.table.find? next = none ∨ next ∈ t.queue ∨ t.queue.length = queueCapacity)

/-- The answer to a request and the pool behind it; a refused request changes nothing. -/
def answer (pool : TicketPool) (request : MutexRequest) : Except Refusal Nat × TicketPool :=
  match pool.serve request with
  | .ok (value, after) => (.ok value, after)
  | .error reason => (.error reason, pool)

/-- The answers to requests, the oldest first, and the pool behind all of them. -/
def run (requests : List MutexRequest) : List (Except Refusal Nat) × TicketPool :=
  requests.foldl (fun (answers, pool) request =>
    (answers ++ [(pool.answer request).1], (pool.answer request).2)) ([], full)

theorem run_append_singleton (requests : List MutexRequest) (request : MutexRequest) :
    run (requests ++ [request]) =
      ((run requests).1 ++ [((run requests).2.answer request).1],
        ((run requests).2.answer request).2) := by
  rw [run, List.foldl_append]
  rfl

end TicketPool

namespace MutexTable

variable {table after : MutexTable} {index : MutexId} {mutex : Mutex} {t t' : Tasks}

/-- Serve a request, whichever it is. -/
def serve (table : MutexTable) (request : MutexRequest) (t : Tasks) :
    Run Stop (Nat × MutexTable × Tasks) :=
  match request with
  | .alloc => do
      let (index, table) ← table.alloc
      return (index.val, table, t)
  | .release id => do
      let table ← table.release id
      return (0, table, t)
  | .lock id caller => table.lock id caller t
  | .unlock id caller => table.unlock id caller t

/-- The pool that a table of mutexes stands for. -/
def pool (table : MutexTable) : TicketPool where
  tickets index := (table.entry index).map Mutex.tickets
  free := table.free.toList

theorem pool_empty : empty.pool = TicketPool.full := by
  have hfree : empty.free.toList = List.finRange mutexCapacity :=
    Ring.toList_pushAll (List.finRange mutexCapacity) Ring.empty (by decide)
  rw [pool, hfree, TicketPool.full]
  congr 1
  funext index
  simp [entry, empty, Vector.get]

theorem pool_put (table : MutexTable) (index : MutexId) (mutex : Option Mutex) :
    (table.put index mutex).pool = table.pool.put index (mutex.map Mutex.tickets) := by
  unfold pool TicketPool.put
  congr 1
  funext other
  rw [entry_put, Function.update_apply]
  split <;> rfl

theorem find?_pool (table : MutexTable) (id : UInt64) :
    table.pool.find? id = (table.find? id).map fun found => (found.1, found.2.tickets) := by
  unfold TicketPool.find? find?
  split
  · rename_i hinside
    rw [Option.map_map]
    show ((table.entry ⟨id.toNat, hinside⟩).map Mutex.tickets).map _ = _
    rw [Option.map_map]
    rfl
  · rfl

/-- The table answers a request as its pool does, and moves processes as the pool says. -/
def Conforms (table : MutexTable) (request : MutexRequest) (t : Tasks) : Prop :=
  match (table.serve request t).outcome with
  | .ok (value, after, t') =>
      table.pool.serve request = .ok (value, after.pool) ∧ table.pool.Moves request t t'
  | .error (.refused reason) => table.pool.serve request = .error reason
  | .error (.fault _) => table.pool.Stuck request t

section Conforms

variable {request : MutexRequest} {value : Nat} {reason : Refusal} {fault : Fault}

theorem Conforms.of_ok (hserve : (table.serve request t).outcome = .ok (value, after, t'))
    (hpool : table.pool.serve request = .ok (value, after.pool))
    (hmoves : table.pool.Moves request t t') : table.Conforms request t := by
  unfold Conforms
  rw [hserve]
  exact ⟨hpool, hmoves⟩

theorem Conforms.of_refused (hserve : (table.serve request t).outcome = .error (.refused reason))
    (hpool : table.pool.serve request = .error reason) : table.Conforms request t := by
  unfold Conforms
  rw [hserve]
  exact hpool

theorem Conforms.of_fault (hserve : (table.serve request t).outcome = .error (.fault fault))
    (hstuck : table.pool.Stuck request t) : table.Conforms request t := by
  unfold Conforms
  rw [hserve]
  exact hstuck

end Conforms

/-! ## One request -/

theorem conforms_alloc (table : MutexTable) (t : Tasks) : table.Conforms .alloc t := by
  cases hpop : table.free.pop with
  | none =>
      have hserve : (table.serve .alloc t).outcome = .error (.refused .noFreeMutex) := by
        rw [serve, alloc, hpop]
        rfl
      have hfree : table.pool.free = [] := Ring.toList_of_pop_eq_none hpop
      refine .of_refused hserve ?_
      rw [TicketPool.serve, hfree]
  | some taken =>
      obtain ⟨index, free⟩ := taken
      have hserve : (table.serve .alloc t).outcome =
          .ok (index.val, { table with free }.put index (some .unlocked), t) := by
        rw [serve, alloc, hpop]
        rfl
      have hfree : table.pool.free = index :: free.toList := Ring.toList_pop hpop
      refine .of_ok hserve ?_ rfl
      rw [TicketPool.serve, hfree, pool_put]
      rfl

theorem find?_pool_of_some {id : UInt64} (hfind : table.find? id = some (index, mutex)) :
    table.pool.find? id = some (index, mutex.tickets) := by
  rw [find?_pool, hfind]
  rfl

theorem find?_pool_of_none {id : UInt64} (hfind : table.find? id = none) :
    table.pool.find? id = none := by
  rw [find?_pool, hfind]
  rfl

/-- An allocated mutex whose count is zero has no tickets. -/
theorem Sound.tickets_eq_nil {id : UInt64} (hsound : table.Sound)
    (hfind : table.find? id = some (index, mutex)) (hcount : mutex.lockCount = 0) :
    mutex.tickets = [] := by
  have hmutex := hsound.mutex index mutex (find?_eq_some_iff.1 hfind).2
  exact List.eq_nil_of_length_eq_zero (hmutex.lockCount.symm.trans hcount)

/-- An allocated mutex whose count is not zero has an owner, who holds the first ticket. -/
theorem Sound.tickets_eq_cons {id : UInt64} (hsound : table.Sound)
    (hfind : table.find? id = some (index, mutex)) (hcount : mutex.lockCount ≠ 0) :
    ∃ pid, mutex.owner = some pid ∧ mutex.tickets = pid :: mutex.waiting.toList := by
  have hmutex := hsound.mutex index mutex (find?_eq_some_iff.1 hfind).2
  obtain ⟨pid, howner⟩ := Option.ne_none_iff_exists'.1 fun h =>
    hcount (hmutex.owner_eq_none_iff.1 h)
  refine ⟨pid, howner, ?_⟩
  rw [Mutex.tickets, howner]
  rfl

theorem Sound.conforms_release (hsound : table.Sound) (id : UInt64) (t : Tasks) :
    table.Conforms (.release id) t := by
  cases hfind : table.find? id with
  | none =>
      have hserve : (table.serve (.release id) t).outcome =
          .error (.refused (.invalidMutex id)) := by
        rw [serve, release, hfind]
        rfl
      refine .of_refused hserve ?_
      rw [TicketPool.serve, find?_pool_of_none hfind]
  | some found =>
      obtain ⟨index, mutex⟩ := found
      have hpool := find?_pool_of_some hfind
      by_cases hcount : mutex.lockCount = 0
      · have hfree : ¬ mutex.lockCount > 0 := by omega
        rw [hsound.tickets_eq_nil hfind hcount] at hpool
        cases hpush : table.free.push index with
        | none =>
            -- there is room for every mutex among the free ones
            have hfault : (table.release id).outcome =
                .error (.fault (.breach (.mutexNotReleased id))) := by
              rw [release, hfind]
              dsimp only
              rw [if_neg hfree, hpush]
              rfl
            exact absurd hfault (hsound.faultless_release _)
        | some free =>
            have hserve : (table.serve (.release id) t).outcome =
                .ok (0, { table with free }.put index none, t) := by
              rw [serve, release, hfind]
              dsimp only
              rw [if_neg hfree, hpush]
              rfl
            have hlist : pool { table with free } =
                { table.pool with free := table.pool.free ++ [index] } := by
              rw [pool, Ring.toList_push hpush]
              rfl
            refine .of_ok hserve ?_ rfl
            rw [TicketPool.serve, hpool, pool_put, hlist]
            rfl
      · have hserve : (table.serve (.release id) t).outcome = .error (.refused .mutexHeld) := by
          rw [serve, release, hfind]
          dsimp only
          rw [if_pos (Nat.pos_of_ne_zero hcount)]
          rfl
        obtain ⟨pid, _, htickets⟩ := hsound.tickets_eq_cons hfind hcount
        rw [htickets] at hpool
        refine .of_refused hserve ?_
        rw [TicketPool.serve, hpool]

/-- Locking a mutex that has an owner: the caller waits behind everybody else. -/
theorem Sound.conforms_lock_held {id : UInt64} (hsound : table.Sound)
    (hfind : table.find? id = some (index, mutex)) (hcount : mutex.lockCount ≠ 0) (caller : Pid)
    (t : Tasks) : table.Conforms (.lock id caller) t := by
  have hmutex := hsound.mutex index mutex (find?_eq_some_iff.1 hfind).2
  have hpool := find?_pool_of_some hfind
  obtain ⟨pid, howner, htickets⟩ := hsound.tickets_eq_cons hfind hcount
  cases hpush : mutex.waiting.push caller with
  | none =>
      have hserve : (table.serve (.lock id caller) t).outcome =
          .error (.fault (.breach (.mutexQueueFull caller id))) := by
        rw [serve, lock, hfind]
        dsimp only
        rw [if_neg hcount, hpush]
        rfl
      rw [Ring.push_eq_none_iff, Ring.isFull, beq_iff_eq, ← Ring.length_toList] at hpush
      rw [htickets] at hpool
      exact .of_fault hserve ⟨index, pid, _, hpool, .inl hpush⟩
  | some waiting =>
      cases hpark : t.park caller with
      | error fault =>
          have hserve : (table.serve (.lock id caller) t).outcome = .error (.fault fault) := by
            rw [serve, lock, hfind]
            dsimp only
            rw [if_neg hcount, hpush, hpark]
            rfl
          rw [htickets] at hpool
          exact .of_fault hserve ⟨index, pid, _, hpool, .inr (Tasks.find?_of_park_error hpark)⟩
      | ok parked =>
          have hserve : (table.serve (.lock id caller) t).outcome =
              .ok (mutex.lockCount, table.put index
                (some { mutex with waiting, lockCount := mutex.lockCount + 1 }), parked) := by
            rw [serve, lock, hfind]
            dsimp only
            rw [if_neg hcount, hpush, hpark]
            rfl
          have hafter : Mutex.tickets { mutex with waiting, lockCount := mutex.lockCount + 1 } =
              mutex.tickets ++ [caller] := by
            rw [Mutex.tickets, Mutex.tickets, Ring.toList_push hpush, List.append_assoc]
          refine .of_ok hserve ?_ ?_
          · rw [TicketPool.serve, hpool, pool_put, Option.map_some, hafter, hmutex.lockCount]
          · rw [htickets] at hpool
            rw [TicketPool.Moves, hpool]
            exact Tasks.parked_of_park hpark

theorem Sound.conforms_lock (hsound : table.Sound) (id : UInt64) (caller : Pid) (t : Tasks) :
    table.Conforms (.lock id caller) t := by
  cases hfind : table.find? id with
  | none =>
      have hserve : (table.serve (.lock id caller) t).outcome =
          .error (.refused (.invalidMutex id)) := by
        rw [serve, lock, hfind]
        rfl
      refine .of_refused hserve ?_
      rw [TicketPool.serve, find?_pool_of_none hfind]
  | some found =>
      obtain ⟨index, mutex⟩ := found
      by_cases hcount : mutex.lockCount = 0
      · have htickets := hsound.tickets_eq_nil hfind hcount
        have hwaiting := (List.append_eq_nil_iff.1 htickets).2
        have hserve : (table.serve (.lock id caller) t).outcome =
            .ok (0, table.put index
              (some { mutex with owner := some caller, lockCount := 1 }), t) := by
          rw [serve, lock, hfind]
          dsimp only
          rw [if_pos hcount]
          rfl
        have hpool := find?_pool_of_some hfind
        rw [htickets] at hpool
        refine .of_ok hserve ?_ ?_
        · rw [TicketPool.serve, hpool, pool_put, Option.map_some, Mutex.tickets, hwaiting]
          rfl
        · rw [TicketPool.Moves, hpool]
      · exact hsound.conforms_lock_held hfind hcount caller t

/-- Unlocking a mutex for its owner: the first ticket goes, and the holder of the next one
is queued. -/
theorem Sound.conforms_unlock_owner {id : UInt64} {caller : Pid} (hsound : table.Sound)
    (hfind : table.find? id = some (index, mutex)) (howner : mutex.owner = some caller)
    (t : Tasks) : table.Conforms (.unlock id caller) t := by
  have hmutex := hsound.mutex index mutex (find?_eq_some_iff.1 hfind).2
  have hlength := hmutex.lockCount_of_owner howner
  have hcount : mutex.lockCount ≠ 0 := by omega
  have hpool : table.pool.find? id = some (index, caller :: mutex.waiting.toList) := by
    rw [find?_pool_of_some hfind, Mutex.tickets, howner]
    rfl
  cases hpop : mutex.waiting.pop with
  | none =>
      have hwaiting := Ring.toList_of_pop_eq_none hpop
      have hlast : mutex.lockCount - 1 = 0 := by
        rw [hlength, hwaiting]
        rfl
      have hserve : (table.serve (.unlock id caller) t).outcome =
          .ok (0, table.put index
            (some { mutex with lockCount := mutex.lockCount - 1, owner := none }), t) := by
        rw [serve, unlock, hfind]
        dsimp only
        rw [if_neg hcount, if_neg (not_not_intro howner), if_pos hlast]
        rfl
      rw [hwaiting] at hpool
      refine .of_ok hserve ?_ ?_
      · rw [TicketPool.serve, hpool, pool_put, Option.map_some, Mutex.tickets, hwaiting]
        exact if_pos rfl
      · rw [TicketPool.Moves, hpool]
  | some popped =>
      obtain ⟨next, waiting⟩ := popped
      have hwaiting := Ring.toList_pop hpop
      have hlast : mutex.lockCount - 1 ≠ 0 := by
        rw [hlength, hwaiting, List.length_cons]
        omega
      have hunlock : table.serve (.unlock id caller) t = (do
          let slot ← t.table.expect next
          let tasks ← t.enqueue slot
          Run.report (.mutexHandedOver id next)
          return (mutex.lockCount - 1, table.put index
            (some { lockCount := mutex.lockCount - 1, owner := some next, waiting }), tasks)) := by
        rw [serve, unlock, hfind]
        dsimp only
        rw [if_neg hcount, if_neg (not_not_intro howner), if_neg hlast, hpop]
      rw [hwaiting] at hpool
      cases hnext : t.table.find? next with
      | none =>
          have hserve : (table.serve (.unlock id caller) t).outcome =
              .error (.fault (.breach (.missingProcess next))) := by
            rw [hunlock, ProcessTable.expect, hnext]
            rfl
          exact .of_fault hserve ⟨index, next, _, hpool, .inl hnext⟩
      | some slot =>
          rw [ProcessTable.expect_eq_ok_iff.2 hnext] at hunlock
          cases hqueued : t.enqueue slot with
          | error fault =>
              have hserve : (table.serve (.unlock id caller) t).outcome =
                  .error (.fault fault) := by
                rw [hunlock, Run.outcome_bind_of_ok (Run.outcome_lift_ok slot), hqueued]
                rfl
              exact .of_fault hserve
                ⟨index, next, _, hpool, .inr (Tasks.queue_of_enqueue_error hnext hqueued)⟩
          | ok queued =>
              have hserve : (table.serve (.unlock id caller) t).outcome =
                  .ok (mutex.lockCount - 1, table.put index
                    (some { lockCount := mutex.lockCount - 1, owner := some next, waiting }),
                    queued) := by
                rw [hunlock, Run.outcome_bind_of_ok (Run.outcome_lift_ok slot), hqueued]
                rfl
              refine .of_ok hserve ?_ ?_
              · rw [TicketPool.serve, hpool, pool_put, hlength, hwaiting]
                exact if_pos rfl
              · rw [TicketPool.Moves, hpool]
                exact Tasks.readied_of_enqueue hnext hqueued

theorem Sound.conforms_unlock (hsound : table.Sound) (id : UInt64) (caller : Pid) (t : Tasks) :
    table.Conforms (.unlock id caller) t := by
  cases hfind : table.find? id with
  | none =>
      have hserve : (table.serve (.unlock id caller) t).outcome =
          .error (.refused (.invalidMutex id)) := by
        rw [serve, unlock, hfind]
        rfl
      refine .of_refused hserve ?_
      rw [TicketPool.serve, find?_pool_of_none hfind]
  | some found =>
      obtain ⟨index, mutex⟩ := found
      have hpool := find?_pool_of_some hfind
      by_cases hcount : mutex.lockCount = 0
      · have hserve : (table.serve (.unlock id caller) t).outcome = .ok (0, table, t) := by
          rw [serve, unlock, hfind]
          dsimp only
          rw [if_pos hcount]
          rfl
        rw [hsound.tickets_eq_nil hfind hcount] at hpool
        refine .of_ok hserve ?_ ?_
        · rw [TicketPool.serve, hpool]
        · rw [TicketPool.Moves, hpool]
      obtain ⟨pid, howner, htickets⟩ := hsound.tickets_eq_cons hfind hcount
      by_cases hcaller : pid = caller
      · subst hcaller
        exact hsound.conforms_unlock_owner hfind howner t
      · have hserve : (table.serve (.unlock id caller) t).outcome =
            .error (.refused .notOwner) := by
          rw [serve, unlock, hfind]
          dsimp only
          rw [if_neg hcount, if_pos (by rw [howner]; simpa using hcaller)]
          rfl
        refine .of_refused hserve ?_
        rw [TicketPool.serve, hpool, htickets]
        exact if_neg hcaller

/-- Every request is answered as the pool answers it. -/
theorem Sound.conforms (hsound : table.Sound) (request : MutexRequest) (t : Tasks) :
    table.Conforms request t := by
  cases request with
  | alloc => exact conforms_alloc table t
  | release id => exact hsound.conforms_release id t
  | lock id caller => exact hsound.conforms_lock id caller t
  | unlock id caller => exact hsound.conforms_unlock id caller t

theorem Sound.pool_serve {request : MutexRequest} {value : Nat} (hsound : table.Sound)
    (hserve : (table.serve request t).outcome = .ok (value, after, t')) :
    table.pool.serve request = .ok (value, after.pool) := by
  have hconforms := hsound.conforms request t
  unfold Conforms at hconforms
  rw [hserve] at hconforms
  exact hconforms.1

theorem Sound.pool_refuse {request : MutexRequest} {reason : Refusal} (hsound : table.Sound)
    (hserve : (table.serve request t).outcome = .error (.refused reason)) :
    table.pool.serve request = .error reason := by
  have hconforms := hsound.conforms request t
  unfold Conforms at hconforms
  rwa [hserve] at hconforms

theorem Sound.serve {request : MutexRequest} {value : Nat} (hsound : table.Sound)
    (hserve : (table.serve request t).outcome = .ok (value, after, t')) : after.Sound := by
  cases request with
  | alloc =>
      obtain ⟨⟨index, found⟩, halloc, hserve⟩ := Run.outcome_bind_eq_ok_iff.1 hserve
      injection hserve with hserve
      injection hserve with _ hserve
      injection hserve with hafter
      exact hafter ▸ (replace_alloc hsound halloc).2.sound
  | release id =>
      obtain ⟨found, hrelease, hserve⟩ := Run.outcome_bind_eq_ok_iff.1 hserve
      injection hserve with hserve
      injection hserve with _ hserve
      injection hserve with hafter
      obtain ⟨_, _, _, _, hreplace⟩ := replace_release hsound hrelease
      exact hafter ▸ hreplace.sound
  | lock id caller =>
      obtain ⟨_, _, _, _, _, hreplace, _⟩ := replace_lock hsound hserve
      exact hreplace.sound
  | unlock id caller =>
      obtain ⟨_, _, _, _, hcases⟩ := replace_unlock hsound hserve
      rcases hcases with ⟨_, rfl, _⟩ | ⟨_, hreplace, _⟩
      · exact hsound
      · exact hreplace.sound

/-! ## Any number of requests -/

/-- Mutexes are dealt with in any order. -/
def desk : Desk MutexRequest Nat MutexTable := ⟨.empty, serve, fun _ _ => True⟩

instance (log : Dealings MutexRequest Nat) (request : MutexRequest) :
    Decidable (desk.Admits log request) :=
  inferInstanceAs (Decidable True)

variable {log : Dealings MutexRequest Nat}

/-- The number that was handed out, if one was. -/
def handedOut : MutexRequest × Except Refusal Nat → List Nat
  | (.alloc, .ok value) => [value]
  | _ => []

/-- The number that was taken back, if one was. -/
def takenBack : MutexRequest × Except Refusal Nat → List Nat
  | (.release id, .ok _) => [id.toNat]
  | _ => []

/-- What the requests and the table behind them have to do with a pool. -/
structure Refines (log : Dealings MutexRequest Nat) (table : MutexTable) : Prop where
  /-- Every answer was that of the pool, and the table stands for the pool behind them. -/
  run : TicketPool.run (log.map (·.1)) = (log.map (·.2), table.pool)
  /-- So will the next answer be, and processes are moved as the pool says. -/
  conforms : ∀ request t, table.Conforms request t
  mutex : ∀ index mutex, table.entry index = some mutex →
    ∃ tickets, table.pool.tickets index = some tickets ∧ mutex.owner = tickets.head? ∧
      mutex.lockCount = tickets.length ∧ mutex.waiting.toList = tickets.tail ∧
      (mutex.lockCount = 0 ↔ mutex.owner = none)
  free_nodup : table.free.toList.Nodup
  mem_free : ∀ index, index ∈ table.free.toList ↔ table.entry index = none
  /-- Numbers are handed out in order, first all of them and then those taken back. -/
  order : log.flatMap handedOut ++ table.free.toList.map Fin.val =
    List.range mutexCapacity ++ log.flatMap takenBack

/-- What is handed out comes from the front of the free mutexes, and what is taken back
goes behind them. -/
theorem free_of_serve {pool pool' : TicketPool} {request : MutexRequest} {value : Nat}
    (hserve : pool.serve request = .ok (value, pool')) :
    handedOut (request, .ok value) ++ pool'.free.map Fin.val =
      pool.free.map Fin.val ++ takenBack (request, .ok value) := by
  cases request with
  | alloc =>
      unfold TicketPool.serve at hserve
      dsimp only at hserve
      split at hserve
      · contradiction
      · rename_i index free hfree
        injection hserve with hserve
        injection hserve with hvalue hpool
        subst hvalue hpool
        rw [hfree]
        exact (List.append_nil _).symm
  | release id =>
      unfold TicketPool.serve at hserve
      dsimp only at hserve
      split at hserve
      · contradiction
      · rename_i index hfind
        injection hserve with hserve
        injection hserve with hvalue hpool
        subst hvalue hpool
        show List.map Fin.val (pool.free ++ [index]) = pool.free.map Fin.val ++ [id.toNat]
        rw [List.map_append, List.map_singleton, pool.val_of_find? hfind]
      · contradiction
  | lock id caller =>
      unfold TicketPool.serve at hserve
      dsimp only at hserve
      split at hserve
      · contradiction
      · injection hserve with hserve
        injection hserve with hvalue hpool
        subst hvalue hpool
        exact (List.append_nil _).symm
  | unlock id caller =>
      unfold TicketPool.serve at hserve
      dsimp only at hserve
      split at hserve
      · contradiction
      · injection hserve with hserve
        injection hserve with hvalue hpool
        subst hvalue hpool
        exact (List.append_nil _).symm
      · split at hserve
        · injection hserve with hserve
          injection hserve with hvalue hpool
          subst hvalue hpool
          exact (List.append_nil _).symm
        · contradiction

theorem sound_of_dealt (hdealt : desk.Dealt log table) : table.Sound := by
  induction hdealt with
  | start => exact empty_sound
  | served _ _ hserve ih => exact ih.serve hserve
  | refused _ _ _ ih => exact ih

theorem run_of_dealt (hdealt : desk.Dealt log table) :
    TicketPool.run (log.map (·.1)) = (log.map (·.2), table.pool) := by
  induction hdealt with
  | start =>
      show ([], TicketPool.full) = ([], empty.pool)
      rw [pool_empty]
  | served hdealt _ hserve ih =>
      rw [List.map_append, List.map_append, List.map_singleton, List.map_singleton,
        TicketPool.run_append_singleton, ih, TicketPool.answer,
        (sound_of_dealt hdealt).pool_serve hserve]
  | refused hdealt _ hserve ih =>
      rw [List.map_append, List.map_append, List.map_singleton, List.map_singleton,
        TicketPool.run_append_singleton, ih, TicketPool.answer,
        (sound_of_dealt hdealt).pool_refuse hserve]

theorem order_of_dealt (hdealt : desk.Dealt log table) :
    log.flatMap handedOut ++ table.free.toList.map Fin.val =
      List.range mutexCapacity ++ log.flatMap takenBack := by
  induction hdealt with
  | start =>
      have hfree : desk.empty.free.toList = List.finRange mutexCapacity :=
        congrArg (·.free) pool_empty
      rw [hfree]
      decide
  | @served log table after request value t t' hdealt _ hserve ih =>
      have hfree := free_of_serve ((sound_of_dealt hdealt).pool_serve hserve)
      rw [List.flatMap_append, List.flatMap_append, List.flatMap_singleton, List.flatMap_singleton]
      calc
        _ = log.flatMap handedOut ++ (handedOut (request, .ok value) ++
              after.free.toList.map Fin.val) := List.append_assoc ..
        _ = log.flatMap handedOut ++ (table.free.toList.map Fin.val ++
              takenBack (request, .ok value)) := congrArg _ hfree
        _ = List.range mutexCapacity ++ (log.flatMap takenBack ++
              takenBack (request, .ok value)) := by
          rw [← List.append_assoc, ih, List.append_assoc]
  | @refused log table request reason t _ _ _ ih =>
      -- a refused request hands nothing out and takes nothing back
      have hout : handedOut (request, .error reason) = [] := by cases request <;> rfl
      have hback : takenBack (request, .error reason) = [] := by cases request <;> rfl
      rw [List.flatMap_append, List.flatMap_append, List.flatMap_singleton, List.flatMap_singleton,
        hout, hback, List.append_nil, List.append_nil]
      exact ih

/-- The mutexes are a pool of tickets. -/
theorem refines_pool (hdealt : desk.Dealt log table) : Refines log table where
  run := run_of_dealt hdealt
  conforms := (sound_of_dealt hdealt).conforms
  mutex index mutex hentry := by
    have hmutex := (sound_of_dealt hdealt).mutex index mutex hentry
    refine ⟨mutex.tickets, ?_, hmutex.owner, hmutex.lockCount, ?_, hmutex.owner_eq_none_iff.symm⟩
    · exact congrArg (Option.map Mutex.tickets) hentry
    · cases howner : mutex.owner with
      | none =>
          rw [Mutex.tickets, howner, hmutex.waiting_of_owner_none howner]
          rfl
      | some pid =>
          rw [Mutex.tickets, howner]
          rfl
  free_nodup := (sound_of_dealt hdealt).free_nodup
  mem_free := (sound_of_dealt hdealt).mem_free
  order := order_of_dealt hdealt

/-- A mutex is locked by two processes, by one of them twice, handed over in their order,
and freed; another one is allocated then. -/
theorem refines_pool_after_hand_over :
    ∃ log table, desk.Dealt log table ∧ log.map (·.2) =
        [.ok 0, .ok 0, .ok 1, .ok 2, .error .notOwner, .error .mutexHeld, .ok 2, .ok 1, .ok 0,
          .ok 0, .ok 1] ∧ Refines log table := by
  obtain ⟨log, table, hdealt, hanswers⟩ := desk.exists_dealt 3
    [.alloc, .lock 0 ⟨1⟩, .lock 0 ⟨2⟩, .lock 0 ⟨1⟩, .unlock 0 ⟨2⟩, .release 0, .unlock 0 ⟨1⟩,
      .unlock 0 ⟨2⟩, .unlock 0 ⟨1⟩, .release 0, .alloc]
    (fun log _ => decide (log.map (·.2) =
      [.ok 0, .ok 0, .ok 1, .ok 2, .error .notOwner, .error .mutexHeld, .ok 2, .ok 1, .ok 0,
        .ok 0, .ok 1])) (by decide +kernel)
  exact ⟨log, table, hdealt, of_decide_eq_true hanswers, refines_pool hdealt⟩

end MutexTable

end Timeshare
