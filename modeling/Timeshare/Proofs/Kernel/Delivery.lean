import Timeshare.Proofs.Kernel.Ledger

/-!
# Every request gets its message

A request waits until the message with its number comes, or takes it if the message is
there already.  Whichever is later, the trap that brings both together leaves the message in
the buffer of the receiver.  A receiver that waited is ready behind that trap, behind all
others, with the registers of its request and 0 for an answer.
-/

namespace Timeshare.Kernel

open Machine (Simulated)

variable {size : Nat} {index : MailboxId} {m u c : Moment Simulated}
  {past later since : List (Moment Simulated)} {k : Kernel Simulated} {request : Request}
  {pid : Pid}

/-- A process asks a mailbox for a message. -/
def Moment.Asks (m : Moment Simulated) (index : MailboxId) (pid : Pid) : Prop :=
  ∃ request, m.request? index = some request ∧ request.receiver = pid

/-- A process gets a message from a mailbox: it asks when there is one, or one comes when the
process is the first that waits. -/
def Moment.Serves (m : Moment Simulated) (index : MailboxId) (pid : Pid) : Prop :=
  m.Asks index pid ∧ m.before.mailboxes.storedAt index ≠ [] ∨
    (m.posting? index).isSome ∧ (m.before.mailboxes.waitingAt index).head? = some pid

/-! ## One moment of a tame course -/

/-- A moment of a tame course, at one of the mailboxes. -/
structure Turn (size : Nat) (index : MailboxId) (past : List (Moment Simulated))
    (m : Moment Simulated) : Prop where
  tame : m.Tame size
  coherent : m.before.Coherent
  settled : m.before.tasks.Settled
  ledger : Ledger index (postings index past) (requests index past) m.before
  exchange : Exchange index m
  /-- Nobody asked but processes that may. -/
  receivers : ∀ request ∈ requests index past, request.receiver ≠ .idle

theorem Course.turn (hcourse : Course (m :: past) k) (htame : ∀ u ∈ m :: past, u.Tame size)
    (index : MailboxId) : Turn size index past m := by
  obtain ⟨hbefore, hdone, _⟩ := hcourse.tail
  have hpast (u : Moment Simulated) (hu : u ∈ past) : u.Tame size :=
    htame u (List.mem_cons_of_mem _ hu)
  obtain ⟨hk, hsettled⟩ := hbefore.coherent fun u hu => (hpast u hu).ordinary
  have hledger := hbefore.ledger hpast index
  exact ⟨htame m List.mem_cons_self, hk, hsettled, hledger,
    hledger.exchange htame hdone hk hsettled, fun _ => receiver_ne_of_mem hpast⟩

/-- Only who asks comes to wait. -/
theorem Exchange.mem_waitingAt (h : Exchange index m)
    (hmem : pid ∈ m.after.mailboxes.waitingAt index) :
    pid ∈ m.before.mailboxes.waitingAt index ∨ m.Asks index pid := by
  cases h with
  | quiet _ _ hbox =>
      rw [MailboxTable.waitingAt, hbox] at hmem
      exact .inl hmem
  | buffered _ _ _ hwaiting =>
      rw [hwaiting] at hmem
      exact absurd hmem List.not_mem_nil
  | handed _ _ hwaiting =>
      rw [hwaiting]
      exact .inl (List.mem_cons_of_mem _ hmem)
  | taken _ _ hwaiting =>
      rw [hwaiting] at hmem
      exact .inl hmem
  | blocked _ hrequest _ _ hwaiting =>
      rw [hwaiting] at hmem
      rcases List.mem_append.1 hmem with hold | hnew
      · exact .inl hold
      · exact .inr ⟨_, hrequest, (List.mem_singleton.1 hnew).symm⟩

namespace Turn

theorem waiter_ne (h : Turn size index past m)
    (hmem : pid ∈ m.before.mailboxes.waitingAt index) : pid ≠ .idle := by
  rw [h.ledger.waiting] at hmem
  obtain ⟨request, hrequest, rfl⟩ := List.mem_map.1 hmem
  exact h.receivers request (List.mem_of_mem_drop hrequest)

/-- The first receiver is queued once. -/
theorem not_mem_of_waitingAt {rest : List Pid} (h : Turn size index past m)
    (hwaiting : m.before.mailboxes.waitingAt index = pid :: rest) : pid ∉ rest := by
  have hmem : pid ∈ m.before.mailboxes.waitingAt index := by
    rw [hwaiting]
    exact List.mem_cons_self
  have hpart := m.before.waitingAt_sublist index
  have hcount := (h.coherent.count_eq_one (h.waiter_ne hmem) (hpart.subset hmem)).2
  have hle := hpart.count_le pid
  rw [show m.before.waiters.count pid = 1 from hcount, hwaiting, List.count_cons_self] at hle
  exact List.count_eq_zero.1 (by omega)

/-- Who asks does not wait yet. -/
theorem not_mem_of_request (h : Turn size index past m)
    (hrequest : m.request? index = some request) :
    request.receiver ∉ m.before.mailboxes.waitingAt index := by
  intro hmem
  obtain ⟨_, _, hcurrent, _⟩ :=
    Moment.call?_eq_some_iff.1 (Moment.request?_eq_some_iff.1 hrequest).1
  exact Coherent.not_mem_waiters h.coherent (h.tame.receiver_ne hrequest)
    (Settled.active h.settled hcurrent) ((m.before.waitingAt_sublist index).subset hmem)

/-- Whoever gets a message waits no longer. -/
theorem free (h : Turn size index past m) (hserves : m.Serves index pid) :
    pid ∉ m.after.mailboxes.waitingAt index := by
  rcases hserves with ⟨⟨request, hrequest, rfl⟩, hstored⟩ | ⟨hposting, hfirst⟩
  · cases h.exchange with
    | taken _ _ hwaiting =>
        rw [hwaiting]
        exact h.not_mem_of_request hrequest
    | blocked _ _ hnothing => exact absurd hnothing hstored
    | quiet _ hnone | buffered _ hnone | handed _ hnone =>
        rw [hrequest] at hnone
        contradiction
  · cases h.exchange with
    | buffered _ _ hnobody =>
        rw [hnobody] at hfirst
        contradiction
    | handed _ _ hwaiting =>
        rw [hwaiting] at hfirst
        injection hfirst with heq
        exact h.not_mem_of_waitingAt (heq ▸ hwaiting)
    | quiet hnone | taken hnone | blocked hnone =>
        rw [hnone] at hposting
        contradiction

end Turn

/-! ## Once -/

/-- A process asks a mailbox again before it gets another message. -/
def AsksAgain (index : MailboxId) (pid : Pid) (since : List (Moment Simulated)) : Prop :=
  ∀ rest u earlier, since = rest ++ u :: earlier → u.Serves index pid →
    ∃ v ∈ u :: earlier, v.Asks index pid

/-- A process that did not wait and does now has asked. -/
theorem Course.asked (hcourse : Course (since ++ c :: past) k)
    (htame : ∀ u ∈ since ++ c :: past, u.Tame size)
    (hfree : pid ∉ c.after.mailboxes.waitingAt index)
    (hwaits : pid ∈ k.mailboxes.waitingAt index) : ∃ v ∈ since, v.Asks index pid := by
  induction since generalizing k with
  | nil =>
      obtain ⟨_, _, rfl⟩ := hcourse.tail
      exact absurd hwaits hfree
  | cons u since ih =>
      have hturn := hcourse.turn htame index
      obtain ⟨hbefore, _, rfl⟩ := hcourse.tail
      rcases hturn.exchange.mem_waitingAt hwaits with hold | hasks
      · obtain ⟨v, hv, hasks⟩ := ih hbefore (fun u hu => htame u (List.mem_cons_of_mem _ hu)) hold
        exact ⟨v, List.mem_cons_of_mem _ hv, hasks⟩
      · exact ⟨u, List.mem_cons_self, hasks⟩

theorem Course.asksAgain (hcourse : Course (since ++ c :: past) k)
    (htame : ∀ u ∈ since ++ c :: past, u.Tame size) (hserves : c.Serves index pid) :
    AsksAgain index pid since := by
  rintro rest u earlier rfl (⟨hasks, _⟩ | ⟨_, hfirst⟩)
  · exact ⟨u, List.mem_cons_self, hasks⟩
  rw [List.append_assoc, List.cons_append] at hcourse htame
  have hbefore := hcourse.upTo.tail.1
  have hpast (v : Moment Simulated) (hv : v ∈ earlier ++ c :: past) : v.Tame size :=
    htame v (List.mem_append_right _ (List.mem_cons_of_mem _ hv))
  have hturn := hbefore.upTo.turn (fun v hv => hpast v (List.mem_append_right _ hv)) index
  obtain ⟨v, hv, hasks⟩ := hbefore.asked hpast (hturn.free hserves) (List.mem_of_mem_head? hfirst)
  exact ⟨v, List.mem_cons_of_mem _ hv, hasks⟩

/-! ## What becomes of a request -/

/-- Nothing came of the request so far: the process has waited since then, and no message of
its number was sent. -/
structure Pending (index : MailboxId) (request : Request) (later : List (Moment Simulated))
    (m : Moment Simulated) (past : List (Moment Simulated)) (k : Kernel Simulated) : Prop where
  parked : k.Parked request
  rests : k.current ≠ some request.receiver
  rested : ∀ u ∈ later, u.before.current ≠ some request.receiver
  unsent : (postings index (later ++ m :: past)).length ≤ (requests index past).length
  unserved : ∀ u ∈ later ++ [m], ¬ u.Serves index request.receiver

/-- The request is completed at once: the message with its number is there. -/
structure Taken (index : MailboxId) (request : Request) (posting : Posting)
    (m : Moment Simulated) (past : List (Moment Simulated)) : Prop where
  serves : m.Serves index request.receiver
  number : (postings index past)[(requests index past).length]? = some posting
  memory : m.Leaves request.pointer (posting.message m.before.clock.now)

/-- The request is completed when the message with its number is sent, and wakes the
receiver. -/
structure HandedOver (index : MailboxId) (request : Request) (posting : Posting)
    (c : Moment Simulated) (between : List (Moment Simulated)) (m : Moment Simulated)
    (past : List (Moment Simulated)) : Prop where
  pending : Pending index request between m past c.before
  serves : c.Serves index request.receiver
  sends : c.posting? index = some posting
  number : (postings index (between ++ m :: past)).length = (requests index past).length
  memory : c.Leaves request.pointer (posting.message c.before.clock.now)
  wakes : c.Wakes request.receiver (request.frame.withResult 0)

/-- A request has its place among all requests. -/
theorem requests_append (hrequest : m.request? index = some request) :
    requests index (later ++ m :: past) =
      requests index past ++ request :: requests index later := by
  rw [requests, inOrder_append, inOrder_cons, hrequest, List.append_assoc]
  rfl

/-- As long as its message was not sent, a request is parked. -/
theorem Ledger.waits
    (h : Ledger index (postings index (later ++ m :: past)) (requests index (later ++ m :: past)) k)
    (hrequest : m.request? index = some request)
    (hunsent : (postings index (later ++ m :: past)).length ≤ (requests index past).length) :
    k.Parked request ∧ request.receiver ∈ k.mailboxes.waitingAt index := by
  have hmem : request ∈
      (requests index (later ++ m :: past)).drop (postings index (later ++ m :: past)).length := by
    rw [requests_append hrequest, List.drop_append_of_le_length hunsent]
    exact List.mem_append_right _ List.mem_cons_self
  refine ⟨h.parked request hmem, ?_⟩
  rw [h.waiting]
  exact List.mem_map_of_mem hmem

/-- A request is pending until its message is sent. -/
theorem Course.pending (hcourse : Course (later ++ m :: past) k)
    (htame : ∀ u ∈ later ++ m :: past, u.Tame size) (hrequest : m.request? index = some request)
    (hunsent : (postings index (later ++ m :: past)).length ≤ (requests index past).length) :
    Pending index request later m past k := by
  have hidle : request.receiver ≠ .idle :=
    (htame m (List.mem_append_right _ List.mem_cons_self)).receiver_ne hrequest
  -- whatever came last, the process is parked behind it and so was not served
  have hends {later : List (Moment Simulated)} {k : Kernel Simulated}
      (hcourse : Course (later ++ m :: past) k) (htame : ∀ u ∈ later ++ m :: past, u.Tame size)
      (hunsent : (postings index (later ++ m :: past)).length ≤ (requests index past).length) :
      k.Parked request ∧ request.receiver ∈ k.mailboxes.waitingAt index ∧
        k.current ≠ some request.receiver := by
    obtain ⟨hparked, hwaits⟩ := (hcourse.ledger htame index).waits hrequest hunsent
    refine ⟨hparked, hwaits, ?_⟩
    obtain ⟨p, hget, hstate, _⟩ := hparked
    exact (hcourse.coherent fun u hu => (htame u hu).ordinary).1.current_ne hidle hget (.inr hstate)
  obtain ⟨hparked, hwaits, hrests⟩ := hends hcourse htame hunsent
  induction later generalizing k with
  | nil =>
      have hturn := hcourse.turn htame index
      obtain ⟨_, _, rfl⟩ := hcourse.tail
      refine ⟨hparked, hrests, fun _ hu => absurd hu List.not_mem_nil, hunsent, fun u hu hserves => ?_⟩
      obtain rfl := List.mem_singleton.1 hu
      exact hturn.free hserves hwaits
  | cons u later ih =>
      have hturn := hcourse.turn htame index
      obtain ⟨hbefore, _, rfl⟩ := hcourse.tail
      have hpast (v : Moment Simulated) (hv : v ∈ later ++ m :: past) : v.Tame size :=
        htame v (List.mem_cons_of_mem _ hv)
      have hunsent' : (postings index (later ++ m :: past)).length ≤ (requests index past).length := by
        rw [List.cons_append, postings, inOrder_cons, List.length_append] at hunsent
        exact Nat.le_trans (Nat.le_add_right _ _) hunsent
      obtain ⟨hparked', hwaits', hrests'⟩ := hends hbefore hpast hunsent'
      have hpending := ih hbefore hpast hunsent' hparked' hwaits' hrests'
      constructor
      · exact hparked
      · exact hrests
      · exact List.forall_mem_cons.2 ⟨hrests', hpending.rested⟩
      · exact hunsent
      · exact List.forall_mem_cons.2 ⟨fun hserves => hturn.free hserves hwaits, hpending.unserved⟩

/-- The request is completed at once if its message was sent before. -/
theorem Turn.taken (h : Turn size index past m) (hrequest : m.request? index = some request)
    (hsent : (requests index past).length < (postings index past).length) :
    ∃ posting, Taken index request posting m past := by
  have hstored := h.ledger.stored
  rw [List.drop_eq_getElem_cons hsent, List.map_cons] at hstored
  cases h.exchange with
  | taken _ hrequest' _ holdest hdone =>
      obtain rfl : request = _ := Option.some.inj (hrequest.symm.trans hrequest')
      rw [hstored] at holdest
      injection holdest with holdest
      refine ⟨_, .inl ⟨⟨request, hrequest, rfl⟩, ?_⟩, List.getElem?_eq_getElem hsent, ?_⟩
      · rw [hstored]
        exact List.cons_ne_nil _ _
      · rw [← holdest] at hdone
        exact hdone
  | blocked _ _ hnothing =>
      rw [hnothing] at hstored
      contradiction
  | quiet _ hnone | buffered _ hnone | handed _ hnone =>
      rw [hrequest] at hnone
      contradiction

/-- A pending request is completed when its message is sent. -/
theorem Turn.handedOver (h : Turn size index (later ++ m :: past) u) (hm : m.Tame size)
    (hpending : Pending index request later m past u.before)
    (hrequest : m.request? index = some request)
    (hsent : (requests index past).length < (postings index (u :: later ++ m :: past)).length) :
    ∃ posting, HandedOver index request posting u later m past := by
  rw [List.cons_append, postings, inOrder_cons, List.length_append] at hsent
  have hunsent := hpending.unsent
  cases h.exchange with
  | @handed posting receiver oldest p destination hposting _ hwaiting hstored hget hdestination hdone =>
      rw [hposting] at hsent
      have hnumber : (postings index (later ++ m :: past)).length = (requests index past).length :=
        Nat.le_antisymm hunsent (Nat.lt_succ_iff.1 hsent)
      -- the first that waits is the one whose number the message has
      have hdrop : (requests index (later ++ m :: past)).drop
          (postings index (later ++ m :: past)).length = request :: requests index later := by
        rw [hnumber, requests_append hrequest, List.drop_left]
      have hqueue := h.ledger.waiting
      rw [hdrop, hwaiting] at hqueue
      injection hqueue with hreceiver
      subst hreceiver
      rw [h.ledger.stored, drop_length_eq_nil hdrop] at hstored
      injection hstored with holdest
      subst holdest
      obtain ⟨q, hparked, _, hpointer, hcontext⟩ := hpending.parked
      obtain rfl : p = q := Option.some.inj (hget.symm.trans hparked)
      obtain rfl : destination = request.pointer :=
        Option.some.inj (hdestination.symm.trans hpointer)
      have hbuffer := (Moment.request?_eq_some_iff.1 hrequest).2.2
      obtain ⟨hmemory, hwakes⟩ := hdone (h.tame.exists_read_iff.2 (hm.exists_read_iff.1 hbuffer))
      -- it was answered when it asked, and is answered again
      rw [hcontext] at hwakes
      refine ⟨posting, hpending, .inr ⟨?_, ?_⟩, hposting, hnumber, hmemory, hwakes⟩
      · rw [hposting]
        rfl
      · rw [hwaiting]
        rfl
  | buffered _ _ hnobody =>
      have hwaits := (h.ledger.waits hrequest hunsent).2
      rw [hnobody] at hwaits
      exact absurd hwaits List.not_mem_nil
  | quiet hnone | taken hnone | blocked hnone =>
      rw [hnone] at hsent
      exact absurd hunsent (Nat.not_le.2 hsent)

/-- A request whose message was sent was completed by the later of both. -/
theorem Course.completed (hcourse : Course (later ++ m :: past) k)
    (htame : ∀ u ∈ later ++ m :: past, u.Tame size) (hrequest : m.request? index = some request)
    (hsent : (requests index past).length < (postings index (later ++ m :: past)).length) :
    (∃ posting, Taken index request posting m past) ∨
      ∃ since c between posting, later = since ++ c :: between ∧
        HandedOver index request posting c between m past := by
  have hm := htame m (List.mem_append_right _ List.mem_cons_self)
  induction later generalizing k with
  | nil =>
      have hturn := hcourse.turn htame index
      refine .inl (hturn.taken hrequest ?_)
      -- a request posts nothing
      have hnone : m.posting? index = none := Moment.posting?_eq_none
        (Moment.call?_eq_none (Moment.calls_of_call? (Moment.request?_eq_some_iff.1 hrequest).1)
          (by decide))
      rw [List.nil_append, postings, inOrder_cons, hnone, Option.toList_none, List.append_nil] at hsent
      exact hsent
  | cons u later ih =>
      have hturn := hcourse.turn htame index
      obtain ⟨hbefore, _, _⟩ := hcourse.tail
      have hpast (v : Moment Simulated) (hv : v ∈ later ++ m :: past) : v.Tame size :=
        htame v (List.mem_cons_of_mem _ hv)
      rcases Nat.lt_or_ge (requests index past).length (postings index (later ++ m :: past)).length
        with hearlier | hunsent
      · rcases ih hbefore hpast hearlier with htaken | ⟨since, c, between, posting, rfl, hhanded⟩
        · exact .inl htaken
        · exact .inr ⟨u :: since, c, between, posting, rfl, hhanded⟩
      · obtain ⟨posting, hhanded⟩ :=
          hturn.handedOver hm (hbefore.pending hpast hrequest hunsent) hrequest hsent
        exact .inr ⟨[], u, later, posting, rfl, hhanded⟩

/-- A request is pending, and the process rests, as long as its message was not sent.  It is
completed at once if there is a message, or when its message is sent, and once only. -/
theorem delivered_through_memory (hcourse : Course (later ++ m :: past) k)
    (htame : ∀ u ∈ later ++ m :: past, u.Tame size) (hrequest : m.request? index = some request) :
    Pending index request later m past k ∨
      (∃ posting, Taken index request posting m past ∧ AsksAgain index request.receiver later) ∨
      ∃ since c between posting, later = since ++ c :: between ∧
        HandedOver index request posting c between m past ∧
        AsksAgain index request.receiver since := by
  rcases Nat.lt_or_ge (requests index past).length (postings index (later ++ m :: past)).length
    with hsent | hunsent
  · rcases hcourse.completed htame hrequest hsent with
      ⟨posting, htaken⟩ | ⟨since, c, between, posting, rfl, hhanded⟩
    · exact .inr (.inl ⟨posting, htaken, hcourse.asksAgain htame htaken.serves⟩)
    · rw [List.append_assoc, List.cons_append] at hcourse htame
      exact .inr (.inr ⟨since, c, between, posting, rfl, hhanded,
        hcourse.asksAgain htame hhanded.serves⟩)
  · exact .inl (hcourse.pending htame hrequest hunsent)

/-- The first process waits, the second one sends, and their buffers overlap. -/
theorem delivered_through_memory_overlapping :
    ∃ (later past : List (Moment Simulated)) (m : Moment Simulated) (k : Kernel Simulated),
      Course (later ++ m :: past) k ∧ (∀ u ∈ later ++ m :: past, u.Tame 288) ∧
      m.request? 0 = some ⟨⟨1⟩, callFrame .receive 0 0x1000⟩ ∧
      (∃ u ∈ later, u.call? .send = some (⟨2⟩, callFrame .send 0 0x1008)) ∧
      ∃ since c between posting, later = since ++ c :: between ∧
        HandedOver 0 ⟨⟨1⟩, callFrame .receive 0 0x1000⟩ posting c between m past ∧
        AsksAgain 0 ⟨1⟩ since := by
  obtain ⟨moments, k, hcourse, hcheck⟩ := exists_course_on 288
    (List.replicate 5 (.trap timerFrame) ++ [.trap (callFrame .receive 0 0x1000),
      .trap timerFrame, .trap (callFrame .send 0 0x1008)])
    (fun moments k => decide ((∀ u ∈ moments, u.Tame 288) ∧
        (∃ u ∈ moments.take 2, u.call? .send = some (⟨2⟩, callFrame .send 0 0x1008)) ∧
        k.tasks.stateOf ⟨1⟩ = some .running) &&
      match moments.drop 2 with
      | [] => false
      | m :: past => decide (m.request? 0 = some ⟨⟨1⟩, callFrame .receive 0 0x1000⟩ ∧
          postings 0 past = []))
    (by decide +kernel)
  obtain ⟨hends, hmoment⟩ := (Bool.and_eq_true ..).mp hcheck
  obtain ⟨htame, hsent, hready⟩ := of_decide_eq_true hends
  split at hmoment
  · contradiction
  rename_i m past hdrop
  obtain ⟨hrequest, hnothing⟩ := of_decide_eq_true hmoment
  rw [← List.take_append_drop 2 moments, hdrop] at hcourse htame
  refine ⟨moments.take 2, past, m, k, hcourse, htame, hrequest, hsent, ?_⟩
  rcases delivered_through_memory hcourse htame hrequest with
    hpending | ⟨posting, htaken, _⟩ | hhanded
  · obtain ⟨p, hget, hwaiting, _⟩ := hpending.parked
    rw [Tasks.stateOf_of_get? hget, hwaiting] at hready
    contradiction
  · have hnumber := htaken.number
    rw [hnothing] at hnumber
    contradiction
  · exact hhanded

end Timeshare.Kernel
