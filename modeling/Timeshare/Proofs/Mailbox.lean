import Timeshare.Mailbox
import Timeshare.Proofs.Queues
import Timeshare.Proofs.Tasks.Rewrite

/-!
# Mailboxes as two queues

Sending and receiving change one mailbox: a message joins or leaves its buffer,
or a receiver joins or leaves its wait queue.  A message that is handed over
joins and leaves the buffer in one step.
-/

namespace Timeshare.MailboxTable

variable {table after : MailboxTable} {id : UInt64} {index other : MailboxId}
  {message : Message} {now destination : UInt64} {sender receiver : Pid} {t t' : Tasks}

/-- The mailbox at an index. -/
def box (table : MailboxTable) (index : MailboxId) : Mailbox := table.boxes.get index

/-- Who waits for a message in the mailbox at an index. -/
def waitingAt (table : MailboxTable) (index : MailboxId) : List Pid :=
  (table.box index).waiting.toList

/-- The entries of all wait queues, in the order of the mailboxes. -/
def waiters (table : MailboxTable) : List Pid :=
  (List.finRange mailboxCapacity).flatMap table.waitingAt

theorem box_put (table : MailboxTable) (index other : MailboxId) (mailbox : Mailbox) :
    (table.put index mailbox).box other = if other = index then mailbox else table.box other := by
  by_cases hother : other = index
  · rw [if_pos hother, hother]
    exact Vector.getElem_set_self index.isLt
  · have hval : index.val ≠ other.val := fun heq => hother (Fin.ext heq.symm)
    rw [if_neg hother]
    exact Vector.getElem_set_ne index.isLt other.isLt hval

theorem box_put_self (table : MailboxTable) (index : MailboxId) (mailbox : Mailbox) :
    (table.put index mailbox).box index = mailbox := by
  rw [box_put, if_pos rfl]

theorem find?_eq_some {mailbox : Mailbox} (hfind : table.find? id = some (index, mailbox)) :
    index.val = id.toNat ∧ table.box index = mailbox := by
  unfold find? at hfind
  split at hfind
  · injection hfind with hpair
    injection hpair with hindex hmailbox
    subst hindex hmailbox
    exact ⟨rfl, rfl⟩
  · contradiction

theorem find?_of_val (hindex : index.val = id.toNat) :
    table.find? id = some (index, table.box index) := by
  have hbound : id.toNat < mailboxCapacity := hindex ▸ index.isLt
  obtain rfl : index = ⟨id.toNat, hbound⟩ := Fin.ext hindex
  exact dif_pos hbound

theorem mem_waiters_iff {pid : Pid} :
    pid ∈ table.waiters ↔ ∃ index, pid ∈ table.waitingAt index := by
  simp [waiters]

/-- How the entries of all wait queues change with one mailbox. -/
theorem count_waiters (hothers : ∀ other, other ≠ index → after.box other = table.box other)
    (pid : Pid) :
    after.waiters.count pid + (table.waitingAt index).count pid =
      table.waiters.count pid + (after.waitingAt index).count pid := by
  refine count_flatMap_finRange (fun other hother => ?_) pid
  rw [waitingAt, waitingAt, hothers other hother]

/-- The message as it is buffered when it is sent. -/
def stamp (message : Message) (sender : Pid) (now : UInt64) : Message :=
  { message with sender := sender.number, timeSent := now, timeReceived := 0 }

/-- A sent message joins the buffer; if somebody waits, the oldest message goes
to the oldest receiver, which is queued. -/
theorem send_cases {stamped : Message} {handoff : Option Handoff}
    (hsend : (table.send id message sender now t).outcome = .ok ((stamped, handoff), after, t')) :
    ∃ index : MailboxId, index.val = id.toNat ∧ stamped = stamp message sender now ∧
      (∀ other, other ≠ index → after.box other = table.box other) ∧
      (handoff = none ∧ t' = t ∧
          table.waitingAt index = [] ∧ after.waitingAt index = [] ∧
          (after.box index).buffer.toList = (table.box index).buffer.toList ++ [stamped] ∨
        ∃ receiver slot destination oldest,
          handoff = some ⟨receiver, destination, { oldest with timeReceived := now }⟩ ∧
          table.waitingAt index = receiver :: after.waitingAt index ∧
          (table.box index).buffer.toList ++ [stamped] =
            oldest :: (after.box index).buffer.toList ∧
          t.table.find? receiver = some slot ∧
          (t.table.block slot).destination = some destination ∧
          (t.modify slot fun p => { p with destination := none }).enqueue slot = .ok t') := by
  unfold send at hsend
  split at hsend
  · simp at hsend
  rename_i index mailbox hfind
  obtain ⟨hindex, hbox⟩ := find?_eq_some hfind
  subst hbox
  dsimp only at hsend
  split at hsend
  · simp [Run.outcome_bind, Except.bind] at hsend
  rename_i buffer hpush
  have hbuffer := Ring.toList_push hpush
  split at hsend
  · rename_i hpop
    injection hsend with hsend
    injection hsend with hresult hsend
    injection hresult with hstamped hhandoff
    injection hsend with hafter ht
    subst hstamped hhandoff hafter ht
    -- nobody waits, and the message stays in the buffer
    have hwaiting := Ring.toList_of_pop_eq_none hpop
    refine ⟨index, hindex, rfl, fun other hother => by rw [box_put, if_neg hother],
      .inl ⟨rfl, rfl, hwaiting, ?_, ?_⟩⟩
    · rw [waitingAt, box_put_self]
      exact hwaiting
    · rw [box_put_self]
      exact hbuffer
  rename_i receiver waiting hpop
  -- the message goes through the buffer, behind those that were there before
  have hwaiting := Ring.toList_pop hpop
  obtain ⟨slot, hexpect, hsend⟩ := Run.outcome_bind_eq_ok_iff.1 hsend
  rw [Run.outcome_lift_eq_ok_iff, ProcessTable.expect_eq_ok_iff] at hexpect
  split at hsend
  · simp at hsend
  rename_i destination hdestination
  obtain ⟨queued, henqueue, hsend⟩ := Run.outcome_bind_eq_ok_iff.1 hsend
  rw [Run.outcome_lift_eq_ok_iff] at henqueue
  split at hsend
  · simp at hsend
  rename_i oldest rest holdest
  have hrest := Ring.toList_pop holdest
  obtain ⟨_, _, hsend⟩ := Run.outcome_bind_eq_ok_iff.1 hsend
  injection hsend with hsend
  injection hsend with hresult hsend
  injection hresult with hstamped hhandoff
  injection hsend with hafter ht
  subst hstamped hhandoff hafter ht
  refine ⟨index, hindex, rfl, fun other hother => by rw [box_put, if_neg hother],
    .inr ⟨receiver, slot, destination, oldest, rfl, ?_, ?_, hexpect, hdestination, henqueue⟩⟩
  · rw [waitingAt, waitingAt, box_put_self]
    exact hwaiting
  · rw [box_put_self, ← hrest, hbuffer]

/-- The receiver of a message that was handed over lives. -/
theorem isSome_receiver {stamped : Message} {handoff : Handoff} (hsound : t.table.Sound)
    (hsend : (table.send id message sender now t).outcome =
      .ok ((stamped, some handoff), after, t')) : (t'.table.get? handoff.receiver).isSome := by
  obtain ⟨_, _, _, _, hcases⟩ := send_cases hsend
  rcases hcases with ⟨hnone, _⟩ | ⟨receiver, slot, _, _, hhandoff, _, _, hfind, _, henqueue⟩
  · contradiction
  have hlive := (ProcessTable.find?_eq_some hfind).1
  have hrewrite := (Tasks.rewrite_modify_enqueue hsound hfind hlive rfl henqueue).2
  injection hhandoff with heq
  rw [heq, hrewrite.get?, if_pos rfl]
  rfl

/-- A receiver takes the oldest message, or joins the wait queue if there is
none. -/
theorem receive_cases {received : Received}
    (hreceive : (table.receive id receiver destination now t).outcome =
      .ok (received, after, t')) :
    ∃ index : MailboxId, index.val = id.toNat ∧
      (∀ other, other ≠ index → after.box other = table.box other) ∧
      (after.waitingAt index = table.waitingAt index ∧ t' = t ∧
          (∃ oldest, received = .message { oldest with timeReceived := now } ∧
            (table.box index).buffer.toList = oldest :: (after.box index).buffer.toList) ∨
        received = .blocked ∧ (table.box index).buffer.toList = [] ∧
          (after.box index).buffer = (table.box index).buffer ∧
          after.waitingAt index = table.waitingAt index ++ [receiver] ∧
          ∃ slot, t.table.find? receiver = some slot ∧
            (t.modify slot fun p => { p with destination := some destination }).park receiver =
              .ok t') := by
  unfold receive at hreceive
  split at hreceive
  · simp at hreceive
  rename_i index mailbox hfind
  obtain ⟨hindex, hbox⟩ := find?_eq_some hfind
  subst hbox
  split at hreceive
  · rename_i oldest buffer hpop
    injection hreceive with hreceive
    injection hreceive with hreceived hreceive
    injection hreceive with hafter ht
    subst hreceived hafter ht
    refine ⟨index, hindex, fun other hother => by rw [box_put, if_neg hother],
      .inl ⟨?_, rfl, oldest, rfl, ?_⟩⟩
    · rw [waitingAt, waitingAt, box_put_self]
    · rw [box_put_self]
      exact Ring.toList_pop hpop
  rename_i hpop
  split at hreceive
  · simp at hreceive
  rename_i waiting hpush
  obtain ⟨slot, hexpect, hreceive⟩ := Run.outcome_bind_eq_ok_iff.1 hreceive
  obtain ⟨parked, hpark, hreceive⟩ := Run.outcome_bind_eq_ok_iff.1 hreceive
  obtain ⟨_, _, hreceive⟩ := Run.outcome_bind_eq_ok_iff.1 hreceive
  rw [Run.outcome_lift_eq_ok_iff] at hexpect hpark
  injection hreceive with hreceive
  injection hreceive with hreceived hreceive
  injection hreceive with hafter ht
  subst hreceived hafter ht
  refine ⟨index, hindex, fun other hother => by rw [box_put, if_neg hother],
    .inr ⟨rfl, Ring.toList_of_pop_eq_none hpop, by rw [box_put_self], ?_, slot,
      ProcessTable.expect_eq_ok_iff.1 hexpect, hpark⟩⟩
  rw [waitingAt, waitingAt, box_put_self]
  exact Ring.toList_push hpush

/-! ## What is turned down -/

theorem find?_eq_none_iff : table.find? id = none ↔ mailboxCapacity ≤ id.toNat := by
  unfold find?
  split
  · simp
    omega
  · simp
    omega

/-- A message is turned down for the number of its mailbox, or because the buffer is
full. -/
theorem send_refused_iff {reason : Refusal} :
    (table.send id message sender now t).outcome = .error (.refused reason) ↔
      mailboxCapacity ≤ id.toNat ∧ reason = .invalidMailbox id ∨
        ∃ index : MailboxId, index.val = id.toNat ∧
          (table.box index).buffer.toList.length = bufferCapacity ∧ reason = .mailboxFull := by
  unfold send
  cases hfind : table.find? id with
  | none =>
      have hout := find?_eq_none_iff.1 hfind
      have hnowhere (index : MailboxId) : index.val ≠ id.toNat := by
        have hindex := index.isLt
        omega
      constructor
      · intro hrefused
        injection hrefused with hstop
        injection hstop with hreason
        exact .inl ⟨hout, hreason.symm⟩
      · rintro (⟨_, rfl⟩ | ⟨index, hindex, _⟩)
        · rfl
        · exact absurd hindex (hnowhere index)
  | some found =>
      obtain ⟨index, mailbox⟩ := found
      obtain ⟨hindex, rfl⟩ := find?_eq_some hfind
      have hinside : ¬ mailboxCapacity ≤ id.toNat := by
        have hbound := index.isLt
        omega
      dsimp only
      split
      · rename_i hfull
        rw [Ring.push_eq_none_iff, Ring.isFull, beq_iff_eq] at hfull
        constructor
        · intro hrefused
          injection hrefused with hstop
          injection hstop with hreason
          exact .inr ⟨index, hindex, by rw [Ring.length_toList, hfull], hreason.symm⟩
        · rintro (⟨hout, _⟩ | ⟨_, _, _, rfl⟩)
          · exact absurd hout hinside
          · rfl
      · rename_i buffer hpush
        have hroom : (table.box index).buffer.toList.length ≠ bufferCapacity := by
          intro hfull
          have hlength := buffer.length_toList_le
          rw [Ring.toList_push hpush, List.length_append, List.length_singleton, hfull] at hlength
          omega
        constructor
        · -- with room in the buffer nothing is turned down any more
          intro hrefused
          split at hrefused
          · contradiction
          obtain ⟨slot, _, hrefused⟩ := Run.refused_lift_bind hrefused
          split at hrefused
          · injection hrefused with hstop
            contradiction
          obtain ⟨queued, _, hrefused⟩ := Run.refused_lift_bind hrefused
          split at hrefused
          · injection hrefused with hstop
            contradiction
          · contradiction
        · rintro (⟨hout, _⟩ | ⟨other, hother, hfull, _⟩)
          · exact absurd hout hinside
          · rw [Fin.ext (hother.trans hindex.symm)] at hfull
            exact absurd hfull hroom

/-- A receiver is turned down for the number of its mailbox only. -/
theorem receive_refused_iff {reason : Refusal} :
    (table.receive id receiver destination now t).outcome = .error (.refused reason) ↔
      mailboxCapacity ≤ id.toNat ∧ reason = .invalidMailbox id := by
  unfold receive
  cases hfind : table.find? id with
  | none =>
      constructor
      · intro hrefused
        injection hrefused with hstop
        injection hstop with hreason
        exact ⟨find?_eq_none_iff.1 hfind, hreason.symm⟩
      · rintro ⟨_, rfl⟩
        rfl
  | some found =>
      obtain ⟨index, mailbox⟩ := found
      have hindex := (find?_eq_some hfind).1
      constructor
      · intro hrefused
        dsimp only at hrefused
        split at hrefused
        · contradiction
        split at hrefused
        · injection hrefused with hstop
          contradiction
        obtain ⟨slot, _, hrefused⟩ := Run.refused_lift_bind hrefused
        obtain ⟨parked, _, hrefused⟩ := Run.refused_lift_bind hrefused
        contradiction
      · rintro ⟨hout, _⟩
        have hbound := index.isLt
        omega

theorem get?_eq_some_iff {mailbox : Mailbox} :
    table.get? id = some mailbox ↔
      ∃ index : MailboxId, index.val = id.toNat ∧ table.box index = mailbox := by
  rw [get?, Option.map_eq_some_iff]
  constructor
  · rintro ⟨⟨index, found⟩, hfind, rfl⟩
    exact ⟨index, find?_eq_some hfind⟩
  · rintro ⟨index, hindex, rfl⟩
    exact ⟨_, find?_of_val hindex, rfl⟩

/-- A message is turned down exactly where no mailbox has room for it. -/
theorem refused_send {reason : Refusal}
    (hrefused : (table.send id message sender now t).outcome = .error (.refused reason)) :
    ¬ ∃ mailbox, table.get? id = some mailbox ∧ mailbox.buffer.toList.length < bufferCapacity := by
  rintro ⟨_, hget, hroom⟩
  obtain ⟨index, hindex, rfl⟩ := get?_eq_some_iff.1 hget
  rcases send_refused_iff.1 hrefused with ⟨hout, _⟩ | ⟨other, hother, hfull, _⟩
  · have hbound := index.isLt
    omega
  · rw [Fin.ext (hother.trans hindex.symm)] at hfull
    omega

/-- An accepted message had room and left its mark on the mailbox. -/
theorem accepted_send {result : Message × Option Handoff}
    (hsend : (table.send id message sender now t).outcome = .ok (result, after, t')) :
    (∃ mailbox, table.get? id = some mailbox ∧ mailbox.buffer.toList.length < bufferCapacity) ∧
      after ≠ table := by
  obtain ⟨stamped, handoff⟩ := result
  obtain ⟨index, hindex, _, _, hcases⟩ := send_cases hsend
  constructor
  · refine ⟨table.box index, get?_eq_some_iff.2 ⟨index, hindex, rfl⟩, ?_⟩
    have hbound := (table.box index).buffer.length_toList_le
    refine Nat.lt_of_le_of_ne hbound fun hfull => ?_
    have hrefused : (table.send id message sender now t).outcome =
        .error (.refused .mailboxFull) := send_refused_iff.2 (.inr ⟨index, hindex, hfull, rfl⟩)
    rw [hsend] at hrefused
    contradiction
  · rintro rfl
    rcases hcases with ⟨_, _, _, _, hbuffer⟩ | ⟨_, _, _, _, _, hwaiting, _⟩
    · have hlength := congrArg List.length hbuffer
      rw [List.length_append, List.length_singleton] at hlength
      omega
    · exact List.cons_ne_self _ _ hwaiting.symm

/-- A message that is received is taken out of the mailbox. -/
theorem taken_receive {taken : Message}
    (hreceive : (table.receive id receiver destination now t).outcome =
      .ok (.message taken, after, t')) :
    (∃ mailbox, table.get? id = some mailbox ∧ mailbox.buffer.toList ≠ []) ∧ after ≠ table := by
  obtain ⟨index, hindex, _, hcases⟩ := receive_cases hreceive
  rcases hcases with ⟨_, _, oldest, _, hbuffer⟩ | ⟨hblocked, _⟩
  · refine ⟨⟨table.box index, get?_eq_some_iff.2 ⟨index, hindex, rfl⟩, ?_⟩, ?_⟩
    · rw [hbuffer]
      exact List.cons_ne_nil _ _
    · rintro rfl
      exact List.cons_ne_self _ _ hbuffer.symm
  · contradiction

/-! ## Who starts to wait -/

theorem waiters_subset (pids : List Pid)
    (hothers : ∀ other, other ≠ index → after.box other = table.box other)
    (hwaiting : after.waitingAt index ⊆ pids ++ table.waitingAt index) :
    after.waiters ⊆ pids ++ table.waiters := by
  refine flatMap_finRange_subset (fun other hother => ?_) hwaiting
  rw [waitingAt, waitingAt, hothers other hother]

theorem waiters_send {stamped : Message} {handoff : Option Handoff}
    (hsend : (table.send id message sender now t).outcome = .ok ((stamped, handoff), after, t')) :
    after.waiters ⊆ table.waiters := by
  obtain ⟨_, _, _, hothers, hcases⟩ := send_cases hsend
  apply waiters_subset [] hothers
  rcases hcases with ⟨_, _, _, hafter, _⟩ | ⟨_, _, _, _, _, hwaiting, _⟩
  · rw [hafter]
    exact List.nil_subset _
  · rw [hwaiting]
    exact List.subset_cons_self _ _

/-- Nobody but the receiver starts to wait. -/
theorem waiters_receive {received : Received}
    (hreceive : (table.receive id receiver destination now t).outcome =
      .ok (received, after, t')) : after.waiters ⊆ receiver :: table.waiters := by
  obtain ⟨_, _, hothers, hcases⟩ := receive_cases hreceive
  apply waiters_subset [receiver] hothers
  rcases hcases with ⟨hwaiting, _⟩ | ⟨_, _, _, hwaiting, _⟩
  · rw [hwaiting]
    exact List.subset_append_right _ _
  · rw [hwaiting]
    exact List.perm_append_comm.subset

@[simp] theorem box_empty (index : MailboxId) : empty.box index = .empty :=
  Vector.getElem_replicate index.isLt

theorem waiters_empty : empty.waiters = [] := by
  simp [waiters, waitingAt, Mailbox.empty]

end Timeshare.MailboxTable
