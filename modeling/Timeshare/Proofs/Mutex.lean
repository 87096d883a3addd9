import Timeshare.Mutex
import Timeshare.Proofs.Queues
import Timeshare.Proofs.Tasks.Rewrite

/-!
# Mutexes as ticket lists

A sound mutex is one list of tickets, the owner's first: the lock count is its
length and the wait queue is its tail.  Each operation on the table is described
by the ticket list it changes; a table is sound if its mutexes are and if its
queue of free indices holds exactly the indices that are not allocated.
-/

namespace Timeshare

/-- The owner and everybody who waits, in the order of their calls. -/
def Mutex.tickets (mutex : Mutex) : List Pid := mutex.owner.toList ++ mutex.waiting.toList

/-- The count and the owner agree with the tickets. -/
structure Mutex.Sound (mutex : Mutex) : Prop where
  lockCount : mutex.lockCount = mutex.tickets.length
  owner : mutex.owner = mutex.tickets.head?

namespace Mutex.Sound

variable {mutex : Mutex} {pid : Pid}

theorem unlocked : Mutex.unlocked.Sound := ⟨rfl, rfl⟩

/-- Nobody waits for a mutex that nobody owns. -/
theorem waiting_of_owner_none (h : mutex.Sound) (howner : mutex.owner = none) :
    mutex.waiting.toList = [] := by
  have hhead := h.owner
  rwa [tickets, howner, Option.toList_none, List.nil_append, eq_comm, List.head?_eq_none_iff]
    at hhead

theorem owner_eq_none_iff (h : mutex.Sound) : mutex.owner = none ↔ mutex.lockCount = 0 := by
  rw [h.lockCount, List.length_eq_zero_iff, ← List.head?_eq_none_iff, ← h.owner]

theorem waiting_of_lockCount_zero (h : mutex.Sound) (hcount : mutex.lockCount = 0) :
    mutex.waiting.toList = [] :=
  h.waiting_of_owner_none (h.owner_eq_none_iff.2 hcount)

/-- An owned mutex counts its owner and its waiters. -/
theorem lockCount_of_owner (h : mutex.Sound) (howner : mutex.owner = some pid) :
    mutex.lockCount = mutex.waiting.toList.length + 1 := by
  rw [h.lockCount, tickets, howner, Option.toList_some, List.singleton_append, List.length_cons]

theorem lockCount_le (h : mutex.Sound) : mutex.lockCount ≤ queueCapacity + 1 := by
  have hlength := mutex.waiting.length_toList_le
  cases howner : mutex.owner with
  | none =>
      rw [h.owner_eq_none_iff.1 howner]
      exact Nat.zero_le _
  | some pid =>
      rw [h.lockCount_of_owner howner]
      omega

/-- A mutex with an owner and the right count is sound. -/
theorem of_owner (howner : mutex.owner = some pid)
    (hcount : mutex.lockCount = mutex.waiting.toList.length + 1) : mutex.Sound := by
  constructor
  · rw [hcount, tickets, howner, Option.toList_some, List.singleton_append, List.length_cons]
  · rw [tickets, howner]
    rfl

end Mutex.Sound

namespace MutexTable

variable {table after : MutexTable} {id : UInt64} {index other : MutexId} {mutex : Mutex}
  {caller : Pid} {t t' : Tasks}

/-- The mutex at an index, if it is allocated. -/
def entry (table : MutexTable) (index : MutexId) : Option Mutex := table.mutexes.get index

/-- Who waits for the mutex at an index. -/
def waitingAt (table : MutexTable) (index : MutexId) : List Pid :=
  (table.entry index).elim [] fun mutex => mutex.waiting.toList

/-- The entries of all wait queues, in the order of the mutexes. -/
def waiters (table : MutexTable) : List Pid := (List.finRange mutexCapacity).flatMap table.waitingAt

/-- What every operation on the table keeps. -/
structure Sound (table : MutexTable) : Prop where
  free_nodup : table.free.toList.Nodup
  /-- The queue of free mutexes holds those that are not allocated. -/
  mem_free : ∀ index, index ∈ table.free.toList ↔ table.entry index = none
  mutex : ∀ index mutex, table.entry index = some mutex → mutex.Sound

/-! ## One entry changes -/

theorem entry_put (table : MutexTable) (index other : MutexId) (mutex : Option Mutex) :
    (table.put index mutex).entry other = if other = index then mutex else table.entry other := by
  by_cases hother : other = index
  · rw [if_pos hother, hother]
    exact Vector.getElem_set_self index.isLt
  · have hval : index.val ≠ other.val := fun heq => hother (Fin.ext heq.symm)
    rw [if_neg hother]
    exact Vector.getElem_set_ne index.isLt other.isLt hval

theorem find?_eq_some_iff :
    table.find? id = some (index, mutex) ↔ index.val = id.toNat ∧ table.entry index = some mutex := by
  unfold find?
  split
  · rename_i hindex
    constructor
    · intro hfind
      obtain ⟨found, hfound, hpair⟩ := Option.map_eq_some_iff.1 hfind
      injection hpair with hindex' hmutex
      subst hindex' hmutex
      exact ⟨rfl, hfound⟩
    · rintro ⟨hval, hentry⟩
      have heq : (⟨id.toNat, hindex⟩ : MutexId) = index := Fin.ext hval.symm
      rw [← heq] at hentry
      refine Option.map_eq_some_iff.2 ⟨mutex, hentry, by rw [heq]⟩
  · rename_i hindex
    constructor
    · intro hfind
      contradiction
    · rintro ⟨hval, _⟩
      exact absurd (hval ▸ index.isLt) hindex

theorem mem_waiters_iff {pid : Pid} :
    pid ∈ table.waiters ↔ ∃ index, pid ∈ table.waitingAt index := by
  simp [waiters]

/-- `after` is sound and is `before` except for the entry at `index`. -/
structure Replace (before after : MutexTable) (index : MutexId) (mutex : Option Mutex) : Prop where
  sound : after.Sound
  entry : ∀ other, after.entry other = if other = index then mutex else before.entry other

theorem Replace.entry_self {mutex : Option Mutex} (h : Replace table after index mutex) :
    after.entry index = mutex := by
  rw [h.entry, if_pos rfl]

theorem Replace.entry_of_ne {mutex : Option Mutex} (h : Replace table after index mutex)
    (hother : other ≠ index) : after.entry other = table.entry other := by
  rw [h.entry, if_neg hother]

/-- How the entries of all wait queues change with one mutex. -/
theorem Replace.count_waiters {mutex : Option Mutex} (h : Replace table after index mutex)
    (pid : Pid) :
    after.waiters.count pid + (table.waitingAt index).count pid =
      table.waiters.count pid + (after.waitingAt index).count pid := by
  refine count_flatMap_finRange (fun other hother => ?_) pid
  rw [waitingAt, waitingAt, h.entry_of_ne hother]

theorem Replace.waitingAt (h : Replace table after index (some mutex)) :
    after.waitingAt index = mutex.waiting.toList := by
  rw [MutexTable.waitingAt, h.entry_self]
  rfl

theorem waitingAt_of_entry (hentry : table.entry index = some mutex) :
    table.waitingAt index = mutex.waiting.toList := by
  rw [waitingAt, hentry]
  rfl

theorem waitingAt_of_entry_none (hentry : table.entry index = none) :
    table.waitingAt index = [] := by
  rw [waitingAt, hentry]
  rfl

/-- An entry is rewritten, and the queue of free mutexes with it: the index has to be
in the queue exactly if nothing is allocated there now. -/
theorem Sound.put {mutex : Option Mutex} {free : Ring MutexId queueCapacity} (hsound : table.Sound)
    (hnodup : free.toList.Nodup) (hself : index ∈ free.toList ↔ mutex = none)
    (hothers : ∀ other, other ≠ index → (other ∈ free.toList ↔ other ∈ table.free.toList))
    (hmutex : ∀ found, mutex = some found → found.Sound) :
    Replace table ({ table with free }.put index mutex) index mutex := by
  have hentry (other : MutexId) : ({ table with free }.put index mutex).entry other =
      if other = index then mutex else table.entry other :=
    entry_put { table with free } index other mutex
  refine ⟨⟨hnodup, fun other => ?_, fun other found hfound => ?_⟩, hentry⟩
  · rw [hentry]
    show other ∈ free.toList ↔ _
    by_cases hother : other = index
    · rw [if_pos hother, hother]
      exact hself
    · rw [if_neg hother, hothers other hother]
      exact hsound.mem_free other
  · rw [hentry] at hfound
    split at hfound
    · exact hmutex found hfound
    · exact hsound.mutex other found hfound

/-- An allocated mutex is exchanged for another one. -/
theorem Sound.replace {mutex' : Mutex} (hsound : table.Sound)
    (hentry : table.entry index = some mutex) (hmutex : mutex'.Sound) :
    Replace table (table.put index (some mutex')) index (some mutex') := by
  refine hsound.put hsound.free_nodup ?_ (fun _ _ => Iff.rfl) ?_
  · rw [hsound.mem_free, hentry]
    simp
  · intro found hfound
    injection hfound with heq
    exact heq ▸ hmutex

/-! ## The operations -/

/-- An allocated mutex was free; nobody owns it. -/
theorem replace_alloc (hsound : table.Sound)
    (halloc : table.alloc.outcome = .ok (index, after)) :
    table.entry index = none ∧ Replace table after index (some .unlocked) := by
  unfold alloc at halloc
  split at halloc
  · simp [Run.outcome_bind, Except.bind] at halloc
  rename_i first free hpop
  obtain ⟨_, _, halloc⟩ := Run.outcome_bind_eq_ok_iff.1 halloc
  injection halloc with halloc
  injection halloc with hfirst hafter
  subst hfirst hafter
  have hlist := Ring.toList_pop hpop
  have hnodup := hsound.free_nodup
  rw [hlist, List.nodup_cons] at hnodup
  refine ⟨(hsound.mem_free first).1 (hlist ▸ List.mem_cons_self), hsound.put hnodup.2 ?_ ?_ ?_⟩
  · simpa using hnodup.1
  · intro other hother
    rw [hlist, List.mem_cons]
    exact ⟨.inr, fun h => h.resolve_left hother⟩
  · intro found hfound
    injection hfound with heq
    exact heq ▸ Mutex.Sound.unlocked

/-- Allocating never faults. -/
theorem refused_alloc {stop : Stop} (halloc : table.alloc.outcome = .error stop) :
    stop = .refused .noFreeMutex := by
  unfold alloc at halloc
  split at halloc
  · injection halloc with hstop
    exact hstop.symm
  · contradiction

/-- A freed mutex was allocated and nobody owned it. -/
theorem replace_release (hsound : table.Sound)
    (hrelease : (table.release id).outcome = .ok after) :
    ∃ index mutex, table.find? id = some (index, mutex) ∧ mutex.lockCount = 0 ∧
      Replace table after index none := by
  unfold release at hrelease
  split at hrelease
  · simp at hrelease
  rename_i index mutex hfind
  split at hrelease
  · simp [Run.outcome_bind, Except.bind] at hrelease
  rename_i hunlocked
  split at hrelease
  · simp at hrelease
  rename_i free hpush
  obtain ⟨_, _, hrelease⟩ := Run.outcome_bind_eq_ok_iff.1 hrelease
  injection hrelease with hafter
  subst hafter
  have hlist := Ring.toList_push hpush
  have hheld := (find?_eq_some_iff.1 hfind).2
  have habsent : index ∉ table.free.toList := by
    rw [hsound.mem_free, hheld]
    simp
  refine ⟨index, mutex, hfind, by omega, hsound.put ?_ ?_ ?_ ?_⟩
  · rw [hlist]
    exact hsound.free_nodup.append (List.nodup_singleton index) (by simpa using habsent)
  · rw [hlist]
    simp
  · intro other hother
    rw [hlist, List.mem_append, List.mem_singleton]
    exact ⟨fun h => h.resolve_right hother, .inl⟩
  · intro found hfound
    contradiction

/-- Freeing a mutex never faults. -/
theorem Sound.faultless_release (hsound : table.Sound) : (table.release id).Faultless := by
  unfold release
  split
  · exact .of_refused rfl
  rename_i index mutex _
  split
  · exact .bind (.of_ok rfl) fun _ _ => .of_refused rfl
  have hlength := hsound.free_nodup.length_le_card
  rw [Fintype.card_fin] at hlength
  have hroom : table.free.toList.length < queueCapacity := Nat.lt_of_le_of_lt hlength (by decide)
  obtain ⟨free, hpush, _⟩ := Ring.exists_push hroom index
  rw [hpush]
  exact .bind (.of_ok rfl) fun _ _ => .of_ok rfl

/-- Locking a mutex draws the next ticket: on a free mutex the caller becomes
the owner, else it waits behind everybody else. -/
theorem replace_lock {previous : Nat} (hsound : table.Sound)
    (hlock : (table.lock id caller t).outcome = .ok (previous, after, t')) :
    ∃ index mutex mutex', table.find? id = some (index, mutex) ∧ previous = mutex.lockCount ∧
      Replace table after index (some mutex') ∧ mutex'.tickets = mutex.tickets ++ [caller] ∧
      (mutex.lockCount = 0 ∧ mutex'.waiting = mutex.waiting ∧ t' = t ∨
        mutex'.waiting.toList = mutex.waiting.toList ++ [caller] ∧ t.park caller = .ok t') := by
  unfold lock at hlock
  split at hlock
  · simp at hlock
  rename_i index mutex hfind
  have hentry := (find?_eq_some_iff.1 hfind).2
  have hmutex := hsound.mutex index mutex hentry
  split at hlock
  · rename_i hcount
    injection hlock with hlock
    injection hlock with hprevious hlock
    injection hlock with hafter ht
    subst hprevious hafter ht
    -- a free mutex has no tickets, so the caller draws the first one
    have hwaiting := hmutex.waiting_of_lockCount_zero hcount
    have howner := hmutex.owner_eq_none_iff.2 hcount
    refine ⟨index, mutex, _, hfind, hcount.symm, hsound.replace hentry (.of_owner rfl ?_), ?_,
      .inl ⟨hcount, rfl, rfl⟩⟩
    · rw [hwaiting]
      rfl
    · rw [Mutex.tickets, Mutex.tickets, hwaiting, howner]
      rfl
  · rename_i hcount
    split at hlock
    · simp at hlock
    rename_i waiting hpush
    obtain ⟨parked, hpark, hlock⟩ := Run.outcome_bind_eq_ok_iff.1 hlock
    obtain ⟨_, _, hlock⟩ := Run.outcome_bind_eq_ok_iff.1 hlock
    injection hlock with hlock
    injection hlock with hprevious hlock
    injection hlock with hafter ht
    subst hprevious hafter ht
    have hlist := Ring.toList_push hpush
    -- a mutex that is not free keeps its owner
    obtain ⟨pid, howner⟩ := Option.ne_none_iff_exists'.1 fun h =>
      hcount (hmutex.owner_eq_none_iff.1 h)
    refine ⟨index, mutex, _, hfind, rfl, hsound.replace hentry (.of_owner howner ?_), ?_,
      .inr ⟨hlist, Run.outcome_lift_eq_ok_iff.1 hpark⟩⟩
    · rw [hlist, List.length_append, List.length_singleton, hmutex.lockCount_of_owner howner]
    · rw [Mutex.tickets, Mutex.tickets, hlist, List.append_assoc]

/-- Unlocking a mutex that is not free takes the caller's ticket off the front;
the next ticket's holder, if there is one, is queued. -/
theorem replace_unlock {lockCount : Nat} (hsound : table.Sound)
    (hunlock : (table.unlock id caller t).outcome = .ok (lockCount, after, t')) :
    ∃ index mutex, table.find? id = some (index, mutex) ∧ lockCount ≤ queueCapacity ∧
      (mutex.lockCount = 0 ∧ after = table ∧ t' = t ∨
        ∃ mutex', Replace table after index (some mutex') ∧
          mutex.tickets = caller :: mutex'.tickets ∧
          (mutex.waiting.toList = [] ∧ mutex'.waiting = mutex.waiting ∧ t' = t ∨
            ∃ next slot, mutex.waiting.toList = next :: mutex'.waiting.toList ∧
              t.table.find? next = some slot ∧ t.enqueue slot = .ok t')) := by
  unfold unlock at hunlock
  split at hunlock
  · simp at hunlock
  rename_i index mutex hfind
  have hentry := (find?_eq_some_iff.1 hfind).2
  have hmutex := hsound.mutex index mutex hentry
  refine ⟨index, mutex, hfind, ?_⟩
  split at hunlock
  · rename_i hcount
    injection hunlock with hunlock
    injection hunlock with hlockCount hunlock
    injection hunlock with hafter ht
    subst hlockCount hafter ht
    exact ⟨Nat.zero_le _, .inl ⟨hcount, rfl, rfl⟩⟩
  rename_i hcount
  split at hunlock
  · simp [Run.outcome_bind, Except.bind] at hunlock
  rename_i howner
  rw [not_not] at howner
  have hlength := hmutex.lockCount_of_owner howner
  dsimp only at hunlock
  split at hunlock
  · rename_i hlast
    injection hunlock with hunlock
    injection hunlock with hlockCount hunlock
    injection hunlock with hafter ht
    subst hlockCount hafter ht
    -- the owner held the only ticket
    have hwaiting : mutex.waiting.toList = [] := by
      apply List.eq_nil_of_length_eq_zero
      omega
    refine ⟨Nat.zero_le _, .inr ⟨_, hsound.replace hentry ⟨?_, ?_⟩, ?_, .inl ⟨hwaiting, rfl, rfl⟩⟩⟩
    · rw [Mutex.tickets, hwaiting, hlast]
      rfl
    · rw [Mutex.tickets, hwaiting]
      rfl
    · rw [Mutex.tickets, Mutex.tickets, howner, hwaiting]
      rfl
  · rename_i hlast
    split at hunlock
    · simp at hunlock
    rename_i next waiting hpop
    obtain ⟨slot, hexpect, hunlock⟩ := Run.outcome_bind_eq_ok_iff.1 hunlock
    obtain ⟨queued, henqueue, hunlock⟩ := Run.outcome_bind_eq_ok_iff.1 hunlock
    obtain ⟨_, _, hunlock⟩ := Run.outcome_bind_eq_ok_iff.1 hunlock
    rw [Run.outcome_lift_eq_ok_iff] at hexpect henqueue
    injection hunlock with hunlock
    injection hunlock with hlockCount hunlock
    injection hunlock with hafter ht
    subst hlockCount hafter ht
    have hlist := Ring.toList_pop hpop
    have hcapacity := mutex.waiting.length_toList_le
    refine ⟨by omega, .inr ⟨_, hsound.replace hentry (.of_owner rfl ?_), ?_,
      .inr ⟨next, slot, hlist, ProcessTable.expect_eq_ok_iff.1 hexpect, henqueue⟩⟩⟩
    · rw [hlength, hlist, List.length_cons, Nat.add_sub_cancel]
    · rw [Mutex.tickets, Mutex.tickets, howner, hlist]
      rfl

/-! ## Who starts to wait -/

theorem Replace.waiters_subset {mutex : Option Mutex} (h : Replace table after index mutex)
    (pids : List Pid)
    (hwaiting : after.waitingAt index ⊆ pids ++ table.waitingAt index) :
    after.waiters ⊆ pids ++ table.waiters := by
  refine flatMap_finRange_subset (fun other hother => ?_) hwaiting
  rw [MutexTable.waitingAt, MutexTable.waitingAt, h.entry_of_ne hother]

theorem waiters_alloc (hsound : table.Sound) (halloc : table.alloc.outcome = .ok (index, after)) :
    after.waiters ⊆ table.waiters := by
  obtain ⟨_, hreplace⟩ := replace_alloc hsound halloc
  apply hreplace.waiters_subset []
  rw [hreplace.waitingAt]
  exact List.nil_subset _

theorem waiters_release (hsound : table.Sound)
    (hrelease : (table.release id).outcome = .ok after) : after.waiters ⊆ table.waiters := by
  obtain ⟨_, _, _, _, hreplace⟩ := replace_release hsound hrelease
  apply hreplace.waiters_subset []
  rw [waitingAt_of_entry_none hreplace.entry_self]
  exact List.nil_subset _

/-- Nobody but the caller starts to wait. -/
theorem waiters_lock {previous : Nat} (hsound : table.Sound)
    (hlock : (table.lock id caller t).outcome = .ok (previous, after, t')) :
    after.waiters ⊆ caller :: table.waiters := by
  obtain ⟨_, _, _, hfind, _, hreplace, _, hcases⟩ := replace_lock hsound hlock
  have hentry := (find?_eq_some_iff.1 hfind).2
  apply hreplace.waiters_subset [caller]
  rw [hreplace.waitingAt, waitingAt_of_entry hentry]
  rcases hcases with ⟨_, hwaiting, _⟩ | ⟨hwaiting, _⟩
  · rw [hwaiting]
    exact List.subset_append_right _ _
  · rw [hwaiting]
    exact List.perm_append_comm.subset

theorem waiters_unlock {lockCount : Nat} (hsound : table.Sound)
    (hunlock : (table.unlock id caller t).outcome = .ok (lockCount, after, t')) :
    after.waiters ⊆ table.waiters := by
  obtain ⟨_, _, hfind, _, hcases⟩ := replace_unlock hsound hunlock
  have hentry := (find?_eq_some_iff.1 hfind).2
  rcases hcases with ⟨_, rfl, _⟩ | ⟨_, hreplace, _, hcases⟩
  · exact List.Subset.refl _
  apply hreplace.waiters_subset []
  rw [hreplace.waitingAt, waitingAt_of_entry hentry]
  rcases hcases with ⟨_, hwaiting, _⟩ | ⟨_, _, hwaiting, _⟩
  · rw [hwaiting]
    exact List.Subset.refl _
  · rw [hwaiting]
    exact List.subset_cons_self _ _

theorem empty_sound : empty.Sound := by
  have hnone (index : MutexId) : empty.entry index = none := by
    simp [entry, empty, Vector.get]
  have hfree : empty.free.toList = List.finRange mutexCapacity :=
    Ring.toList_pushAll (List.finRange mutexCapacity) Ring.empty (by decide)
  refine ⟨?_, fun index => ?_, fun index mutex hentry => ?_⟩
  · rw [hfree]
    exact List.nodup_finRange _
  · rw [hfree, hnone]
    exact ⟨fun _ => rfl, fun _ => List.mem_finRange index⟩
  · rw [hnone] at hentry
    contradiction

theorem waiters_empty : empty.waiters = [] := by
  have hnone (index : MutexId) : empty.waitingAt index = [] := by
    simp [waitingAt, entry, empty, Vector.get]
  simp [waiters, hnone]

end MutexTable

end Timeshare
