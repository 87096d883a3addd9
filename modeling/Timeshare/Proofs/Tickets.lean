import Timeshare.Proofs.Mutex

/-!
# Tickets under the number of their mutex

Locking draws a ticket at the end of one list, unlocking takes the caller's from
the front, and allocating and freeing move none: a mutex that is allocated or
freed has no tickets.
-/

namespace Timeshare.MutexTable

variable {table after : MutexTable} {id other : UInt64} {index : MutexId} {mutex : Mutex}
  {caller : Pid} {t t' : Tasks}

/-- The tickets of the mutex with a given number. -/
def ticketsAt (table : MutexTable) (id : UInt64) : List Pid :=
  (table.get? id).elim [] Mutex.tickets

theorem get?_eq_some_iff : table.get? id = some mutex ↔
    ∃ index : MutexId, index.val = id.toNat ∧ table.entry index = some mutex := by
  rw [get?, Option.map_eq_some_iff]
  constructor
  · rintro ⟨⟨index, found⟩, hfind, rfl⟩
    exact ⟨index, find?_eq_some_iff.1 hfind⟩
  · rintro ⟨index, hentry⟩
    exact ⟨(index, mutex), find?_eq_some_iff.2 hentry, rfl⟩

theorem ticketsAt_of_entry (hindex : index.val = id.toNat) :
    table.ticketsAt id = (table.entry index).elim [] Mutex.tickets := by
  unfold ticketsAt
  cases hget : table.get? id with
  | some mutex =>
      obtain ⟨other, hother, hentry⟩ := get?_eq_some_iff.1 hget
      rw [← Fin.ext (hother.trans hindex.symm), hentry]
  | none =>
      cases hentry : table.entry index with
      | none => rfl
      | some mutex =>
          rw [get?_eq_some_iff.2 ⟨index, hindex, hentry⟩] at hget
          contradiction

theorem ticketsAt_of_ge (hindex : mutexCapacity ≤ id.toNat) : table.ticketsAt id = [] := by
  unfold ticketsAt
  cases hget : table.get? id with
  | none => rfl
  | some mutex =>
      obtain ⟨index, heq, _⟩ := get?_eq_some_iff.1 hget
      have hlt := index.isLt
      omega

theorem Replace.ticketsAt {mutex : Option Mutex} (h : Replace table after index mutex)
    (id : UInt64) : after.ticketsAt id =
      if id.toNat = index.val then mutex.elim [] Mutex.tickets else table.ticketsAt id := by
  by_cases hinside : id.toNat < mutexCapacity
  · have hthis : (⟨id.toNat, hinside⟩ : MutexId).val = id.toNat := rfl
    rw [ticketsAt_of_entry hthis, ticketsAt_of_entry hthis, h.entry]
    by_cases hself : id.toNat = index.val
    · rw [if_pos hself, if_pos (Fin.ext hself)]
    · rw [if_neg hself, if_neg fun heq => hself (congrArg Fin.val heq)]
  · have hindex := index.isLt
    rw [ticketsAt_of_ge (Nat.le_of_not_lt hinside), ticketsAt_of_ge (Nat.le_of_not_lt hinside),
      if_neg (by omega)]

theorem ticketsAt_empty (id : UInt64) : empty.ticketsAt id = [] := by
  unfold ticketsAt
  cases hget : empty.get? id with
  | none => rfl
  | some mutex =>
      obtain ⟨index, _, hentry⟩ := get?_eq_some_iff.1 hget
      simp [entry, empty, Vector.get] at hentry

/-- The owner has the first ticket. -/
theorem Sound.owner (hsound : table.Sound) (hget : table.get? id = some mutex) :
    mutex.owner = (table.ticketsAt id).head? := by
  obtain ⟨index, _, hentry⟩ := get?_eq_some_iff.1 hget
  rw [MutexTable.ticketsAt, hget]
  exact (hsound.mutex index mutex hentry).owner

/-! ## The operations -/

theorem Replace.ticketsAt_of_ne {mutex : Option Mutex} (h : Replace table after index mutex)
    (hindex : index.val = id.toNat) (hother : other ≠ id) :
    after.ticketsAt other = table.ticketsAt other := by
  rw [h.ticketsAt, if_neg fun heq => hother (UInt64.toNat_inj.1 (heq.trans hindex))]

theorem ticketsAt_alloc (hsound : table.Sound) (halloc : table.alloc.outcome = .ok (index, after))
    (id : UInt64) : after.ticketsAt id = table.ticketsAt id := by
  obtain ⟨hentry, hreplace⟩ := replace_alloc hsound halloc
  rw [hreplace.ticketsAt]
  split
  · rename_i hself
    rw [ticketsAt_of_entry hself.symm, hentry]
    rfl
  · rfl

theorem ticketsAt_release (hsound : table.Sound) (hrelease : (table.release id).outcome = .ok after)
    (other : UInt64) : after.ticketsAt other = table.ticketsAt other := by
  obtain ⟨index, mutex, hfind, hcount, hreplace⟩ := replace_release hsound hrelease
  obtain ⟨_, hentry⟩ := find?_eq_some_iff.1 hfind
  have hlength := (hsound.mutex index mutex hentry).lockCount
  rw [hcount, eq_comm, List.length_eq_zero_iff] at hlength
  rw [hreplace.ticketsAt]
  split
  · rename_i hself
    rw [ticketsAt_of_entry hself.symm, hentry]
    exact hlength.symm
  · rfl

/-- Locking draws the last ticket of one mutex; the result is small. -/
theorem ticketsAt_lock {previous : Nat} (hsound : table.Sound)
    (hlock : (table.lock id caller t).outcome = .ok (previous, after, t')) :
    previous ≤ queueCapacity + 1 ∧ after.ticketsAt id = table.ticketsAt id ++ [caller] ∧
      ∀ other, other ≠ id → after.ticketsAt other = table.ticketsAt other := by
  obtain ⟨index, mutex, mutex', hfind, hprevious, hreplace, htickets, _⟩ :=
    replace_lock hsound hlock
  obtain ⟨hindex, hentry⟩ := find?_eq_some_iff.1 hfind
  refine ⟨hprevious ▸ (hsound.mutex index mutex hentry).lockCount_le, ?_,
    fun other => hreplace.ticketsAt_of_ne hindex⟩
  rw [hreplace.ticketsAt, if_pos hindex.symm, ticketsAt_of_entry hindex, hentry]
  exact htickets

/-- Unlocking takes the caller's ticket off the front, if there is a ticket at all. -/
theorem ticketsAt_unlock {lockCount : Nat} (hsound : table.Sound)
    (hunlock : (table.unlock id caller t).outcome = .ok (lockCount, after, t')) :
    lockCount ≤ queueCapacity + 1 ∧
      (table.ticketsAt id = caller :: after.ticketsAt id ∨
        table.ticketsAt id = [] ∧ after.ticketsAt id = []) ∧
      ∀ other, other ≠ id → after.ticketsAt other = table.ticketsAt other := by
  obtain ⟨index, mutex, hfind, hbound, hcases⟩ := replace_unlock hsound hunlock
  obtain ⟨hindex, hentry⟩ := find?_eq_some_iff.1 hfind
  have hbefore : table.ticketsAt id = mutex.tickets := by
    rw [ticketsAt_of_entry hindex, hentry]
    rfl
  refine ⟨hbound.trans (Nat.le_succ _), ?_⟩
  rcases hcases with ⟨hcount, rfl, _⟩ | ⟨mutex', hreplace, htickets, _⟩
  · have hlength := (hsound.mutex index mutex hentry).lockCount
    rw [hcount, eq_comm, List.length_eq_zero_iff] at hlength
    exact ⟨.inr ⟨hbefore.trans hlength, hbefore.trans hlength⟩, fun _ _ => rfl⟩
  · refine ⟨.inl ?_, fun other => hreplace.ticketsAt_of_ne hindex⟩
    rw [hbefore, htickets, hreplace.ticketsAt, if_pos hindex.symm]
    rfl

end Timeshare.MutexTable
