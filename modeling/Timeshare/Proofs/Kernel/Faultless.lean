import Timeshare.Proofs.Kernel.Coherent
import Timeshare.Proofs.Tasks.Faultless

/-!
# Waiting cannot fault

As long as idle waits for nothing, coherent tables have different live processes
on their wait queues.  So no wait queue is ever full, everybody taken off one
lives and can be queued, and a waiting receiver has an address for its message.
-/

namespace Timeshare.Coherence

variable {t : Tasks} {mutexes : MutexTable} {mailboxes : MailboxTable} {pid caller : Pid}
  {id now destination : UInt64} {message : Message} {queue : List Pid}

/-- A process on a wait queue is waiting. -/
theorem stateOf_waiter (h : Coherence (· ≠ .idle) t mutexes mailboxes)
    (hidle : .idle ∉ waitersOf mutexes mailboxes) (hmem : pid ∈ waitersOf mutexes mailboxes) :
    t.stateOf pid = some .waiting :=
  (h.count_eq_one (fun heq => hidle (heq ▸ hmem)) hmem).1

/-- Part of the wait queues is shorter than a queue may be. -/
theorem length_lt (h : Coherence (· ≠ .idle) t mutexes mailboxes)
    (hidle : .idle ∉ waitersOf mutexes mailboxes)
    (hsublist : queue.Sublist (waitersOf mutexes mailboxes)) : queue.length < queueCapacity := by
  have hnodup : (waitersOf mutexes mailboxes).Nodup :=
    List.nodup_iff_count_eq_one.2 fun pid hmem =>
      (h.count_eq_one (fun heq => hidle (heq ▸ hmem)) hmem).2
  -- whoever is on a wait queue is waiting, so it lives
  have hlive : ∀ pid ∈ queue, (t.table.get? pid).isSome := fun pid hmem =>
    Tasks.isSome_of_stateOf (h.stateOf_waiter hidle (hsublist.subset hmem))
  have hlength := ProcessTable.length_le_of_live (hsublist.nodup hnodup) hlive
  exact Nat.lt_of_le_of_lt hlength (by decide)

theorem length_mutex_lt (h : Coherence (· ≠ .idle) t mutexes mailboxes)
    (hidle : .idle ∉ waitersOf mutexes mailboxes) (index : MutexId) :
    (mutexes.waitingAt index).length < queueCapacity :=
  h.length_lt hidle
    ((sublist_flatMap_finRange mutexes.waitingAt index).trans (List.sublist_append_left _ _))

theorem length_mailbox_lt (h : Coherence (· ≠ .idle) t mutexes mailboxes)
    (hidle : .idle ∉ waitersOf mutexes mailboxes) (index : MailboxId) :
    (mailboxes.waitingAt index).length < queueCapacity :=
  h.length_lt hidle
    ((sublist_flatMap_finRange mailboxes.waitingAt index).trans (List.sublist_append_right _ _))

/-! ## Mutexes -/

theorem faultless_lock (h : Coherence (· ≠ .idle) t mutexes mailboxes)
    (hidle : .idle ∉ waitersOf mutexes mailboxes) (hlive : (t.table.get? caller).isSome) :
    (mutexes.lock id caller t).Faultless := by
  unfold MutexTable.lock
  split
  · exact .of_refused rfl
  rename_i index mutex hfind
  have hentry := (MutexTable.find?_eq_some_iff.1 hfind).2
  split
  · exact .of_ok rfl
  have hroom := h.length_mutex_lt hidle index
  rw [MutexTable.waitingAt_of_entry hentry] at hroom
  obtain ⟨waiting, hpush, _⟩ := Ring.exists_push hroom caller
  rw [hpush]
  obtain ⟨slot, hslot⟩ := Tasks.find?_of_isSome hlive
  exact .bind (.lift (Tasks.exists_park hslot)) fun _ _ => .bind (.of_ok rfl) fun _ _ => .of_ok rfl

/-- A contended mutex has a waiter, and the waiter can be queued. -/
theorem faultless_unlock (h : Coherence (· ≠ .idle) t mutexes mailboxes)
    (hidle : .idle ∉ waitersOf mutexes mailboxes) : (mutexes.unlock id caller t).Faultless := by
  unfold MutexTable.unlock
  split
  · exact .of_refused rfl
  rename_i index mutex hfind
  have hentry := (MutexTable.find?_eq_some_iff.1 hfind).2
  split
  · exact .of_ok rfl
  split
  · exact .bind (.of_ok rfl) fun _ _ => .of_refused rfl
  rename_i howner
  dsimp only
  split
  · exact .of_ok rfl
  rename_i hcontended
  -- the owner counts for one, so a count above one means that somebody waits
  have hlength := (h.mutexes.mutex index mutex hentry).lockCount_of_owner (not_not.1 howner)
  cases hpop : mutex.waiting.pop with
  | none =>
      rw [Ring.toList_of_pop_eq_none hpop, List.length_nil] at hlength
      omega
  | some taken =>
      obtain ⟨next, waiting⟩ := taken
      have hmem : next ∈ mutexes.waitingAt index := by
        rw [MutexTable.waitingAt_of_entry hentry, Ring.toList_pop hpop]
        exact List.mem_cons_self
      have hstate := h.stateOf_waiter hidle
        (List.mem_append_left _ (MutexTable.mem_waiters_iff.2 ⟨index, hmem⟩))
      obtain ⟨slot, hslot, _⟩ := Tasks.find?_of_stateOf hstate
      refine .bind (.lift ⟨slot, ProcessTable.expect_eq_ok_iff.2 hslot⟩) fun found hfound => ?_
      rw [Run.outcome_lift_eq_ok_iff, ProcessTable.expect_eq_ok_iff] at hfound
      exact .bind (.lift (h.tasks.exists_enqueue hfound (by rw [hstate]; simp))) fun _ _ =>
        .bind (.of_ok rfl) fun _ _ => .of_ok rfl

/-! ## Mailboxes -/

/-- A waiting receiver has an address and can be queued, and there is a message
for it. -/
theorem faultless_send (h : Coherence (· ≠ .idle) t mutexes mailboxes)
    (hidle : .idle ∉ waitersOf mutexes mailboxes) :
    (mailboxes.send id message caller now t).Faultless := by
  unfold MailboxTable.send
  split
  · exact .of_refused rfl
  rename_i index mailbox hfind
  obtain ⟨_, rfl⟩ := MailboxTable.find?_eq_some hfind
  dsimp only
  split
  · exact .bind (.of_ok rfl) fun _ _ => .of_refused rfl
  rename_i buffer hbuffer
  cases hpop : (mailboxes.box index).waiting.pop with
  | none => exact .of_ok rfl
  | some taken =>
      obtain ⟨receiver, waiting⟩ := taken
      have hmem : receiver ∈ mailboxes.waiters := by
        refine MailboxTable.mem_waiters_iff.2 ⟨index, ?_⟩
        rw [MailboxTable.waitingAt, Ring.toList_pop hpop]
        exact List.mem_cons_self
      have hwaiter : receiver ∈ waitersOf mutexes mailboxes := List.mem_append_right _ hmem
      have hstate := h.stateOf_waiter hidle hwaiter
      obtain ⟨slot, hslot, _⟩ := Tasks.find?_of_stateOf hstate
      -- everybody on the wait queue of a mailbox expects a message
      have hexpected := (h.destination receiver fun heq => hidle (heq ▸ hwaiter)).2 hmem
      rw [Tasks.destinationOf, ProcessTable.get?_of_find? hslot] at hexpected
      obtain ⟨address, haddress⟩ := Option.isSome_iff_exists.1 hexpected
      refine .bind (.lift ⟨slot, ProcessTable.expect_eq_ok_iff.2 hslot⟩) fun found hfound => ?_
      rw [Run.outcome_lift_eq_ok_iff, ProcessTable.expect_eq_ok_iff] at hfound
      obtain rfl : slot = found := Option.some.inj (hslot.symm.trans hfound)
      rw [Option.bind_some] at haddress
      rw [haddress]
      refine .bind (.lift (h.tasks.exists_modify_enqueue hfound (by rw [hstate]; simp)
        (ProcessTable.find?_eq_some hfound).1 rfl)) fun _ _ => ?_
      cases holdest : buffer.pop with
      | none =>
          -- the message that was just buffered is still there
          have hempty := Ring.toList_of_pop_eq_none holdest
          rw [Ring.toList_push hbuffer] at hempty
          simp at hempty
      | some first => exact .bind (.of_ok rfl) fun _ _ => .of_ok rfl

theorem faultless_receive (h : Coherence (· ≠ .idle) t mutexes mailboxes)
    (hidle : .idle ∉ waitersOf mutexes mailboxes) (hlive : (t.table.get? caller).isSome) :
    (mailboxes.receive id caller destination now t).Faultless := by
  unfold MailboxTable.receive
  split
  · exact .of_refused rfl
  rename_i index mailbox hfind
  obtain ⟨_, rfl⟩ := MailboxTable.find?_eq_some hfind
  split
  · exact .of_ok rfl
  obtain ⟨waiting, hpush, _⟩ := Ring.exists_push (h.length_mailbox_lt hidle index) caller
  rw [hpush]
  obtain ⟨slot, hslot⟩ := Tasks.find?_of_isSome hlive
  refine .bind (.lift ⟨slot, ProcessTable.expect_eq_ok_iff.2 hslot⟩) fun found hfound => ?_
  rw [Run.outcome_lift_eq_ok_iff, ProcessTable.expect_eq_ok_iff] at hfound
  have hafter := ProcessTable.find?_modify_self
    (f := fun p => { p with destination := some destination }) hfound
    (ProcessTable.find?_eq_some hfound).1 rfl
  exact .bind (.lift (Tasks.exists_park hafter)) fun _ _ => .bind (.of_ok rfl) fun _ _ => .of_ok rfl

end Timeshare.Coherence
