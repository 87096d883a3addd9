import Timeshare.Proofs.Dealings
import Timeshare.Proofs.Mailbox
import Timeshare.Proofs.Tasks.Moved

/-!
# Messages meet receivers in order

A mailbox serves sends and receives, and either may run ahead: messages are buffered
until they are received, or receivers wait until a message is sent.  The first send
belongs to the first receive, the second to the second, and so on.  Whichever of the two
comes later hands the message over, stamped with its own tick.
-/

namespace Timeshare

/-! ## Pairing two lists from the front -/

section ZipWith

variable {α β γ : Type} {f : α → β → γ} {a : α} {b : β} {as : List α} {bs rest : List β}

/-- An item that has nobody to be paired with yet changes no pair. -/
theorem zipWith_append_of_drop_eq_nil (hdrop : bs.drop as.length = []) :
    List.zipWith f (as ++ [a]) bs = List.zipWith f as bs := by
  induction as generalizing bs with
  | nil =>
      rw [List.length_nil, List.drop_zero] at hdrop
      rw [hdrop]
      rfl
  | cons first as ih =>
      cases bs with
      | nil => rfl
      | cons second bs => exact congrArg _ (ih hdrop)

/-- An item is paired with the first one that has no partner yet. -/
theorem zipWith_append_of_drop_eq_cons (hdrop : bs.drop as.length = b :: rest) :
    List.zipWith f (as ++ [a]) bs = List.zipWith f as bs ++ [f a b] := by
  induction as generalizing bs with
  | nil =>
      rw [List.length_nil, List.drop_zero] at hdrop
      rw [hdrop]
      rfl
  | cons first as ih =>
      cases bs with
      | nil => rw [List.drop_nil] at hdrop; contradiction
      | cons second bs => exact congrArg _ (ih hdrop)

theorem zipWith_append_right_of_drop_eq_nil {bs : List β} (hdrop : as.drop bs.length = []) :
    List.zipWith f as (bs ++ [b]) = List.zipWith f as bs :=
  List.zipWith_comm.trans ((zipWith_append_of_drop_eq_nil hdrop).trans List.zipWith_comm)

theorem zipWith_append_right_of_drop_eq_cons {bs : List β} {rest : List α}
    (hdrop : as.drop bs.length = a :: rest) :
    List.zipWith f as (bs ++ [b]) = List.zipWith f as bs ++ [f a b] := by
  rw [List.zipWith_comm, zipWith_append_of_drop_eq_cons hdrop, List.zipWith_comm]

/-- Only one of two lists is longer than the other. -/
theorem drop_length_eq_nil (hdrop : bs.drop as.length = b :: rest) : as.drop bs.length = [] := by
  have hlength := congrArg List.length hdrop
  rw [List.length_drop, List.length_cons] at hlength
  exact List.drop_eq_nil_of_le (by omega)

/-- An item that has nobody to be paired with is left over. -/
theorem drop_append_of_drop_eq_nil (hdrop : bs.drop as.length = []) :
    (as ++ [a]).drop bs.length = as.drop bs.length ++ [a] ∧ bs.drop (as ++ [a]).length = [] := by
  have hlength : bs.length ≤ as.length := List.drop_eq_nil_iff.1 hdrop
  constructor
  · exact List.drop_append_of_le_length hlength
  · rw [List.length_append, List.length_singleton]
    exact List.drop_eq_nil_of_le (by omega)

/-- Neither an item that is paired nor its partner is left over. -/
theorem drop_append_of_drop_eq_cons (hdrop : bs.drop as.length = b :: rest) :
    (as ++ [a]).drop bs.length = [] ∧ bs.drop (as ++ [a]).length = rest := by
  have hlength := congrArg List.length hdrop
  rw [List.length_drop, List.length_cons] at hlength
  constructor
  · refine List.drop_eq_nil_of_le ?_
    rw [List.length_append, List.length_singleton]
    omega
  · rw [List.length_append, List.length_singleton, ← List.drop_drop, hdrop]
    rfl

end ZipWith

/-! ## What is asked of the mailboxes -/

/-- What mailboxes are asked for, and when. -/
inductive MailRequest where
  | send (id : UInt64) (message : Message) (sender : Pid) (now : UInt64)
  | receive (id : UInt64) (receiver : Pid) (destination now : UInt64)

/-- The tick of a request. -/
def MailRequest.now : MailRequest → UInt64
  | send _ _ _ now => now
  | receive _ _ _ now => now

/-- What a served request is answered with. -/
inductive MailAnswer where
  | sent (handoff : Option Handoff)
  | received (received : Received)
  deriving DecidableEq

/-- A receiver, the tick at which it asked, and whether it had to wait. -/
structure Receipt where
  receiver : Pid
  now : UInt64
  blocked : Bool
  deriving DecidableEq

/-- A message that reached a receiver, and whether it was handed over to a receiver that
waited. -/
structure Delivery where
  receiver : Pid
  message : Message
  handedOver : Bool
  deriving DecidableEq

/-- A message as it reaches a receiver: stamped with the later of both ticks, and handed
over if the receiver waited. -/
def Delivery.ofPair (sent : Message) (receipt : Receipt) : Delivery where
  receiver := receipt.receiver
  message := { sent with timeReceived := max sent.timeSent receipt.now }
  handedOver := receipt.blocked

theorem max_of_le {a b : UInt64} (hle : a ≤ b) : max a b = b := if_pos hle

theorem max_of_ge {a b : UInt64} (hle : b ≤ a) : max a b = a := by
  show (if a ≤ b then b else a) = a
  split
  · rename_i h
    exact UInt64.le_antisymm hle h
  · rfl

theorem timeSent_le_ofPair (sent : Message) (receipt : Receipt) :
    (Delivery.ofPair sent receipt).message.timeSent ≤
      (Delivery.ofPair sent receipt).message.timeReceived := by
  show sent.timeSent ≤ max sent.timeSent receipt.now
  rcases UInt64.le_total sent.timeSent receipt.now with hle | hle
  · rw [max_of_le hle]
    exact hle
  · rw [max_of_ge hle]
    exact UInt64.le_refl _

/-- Messages and receivers are paired in the order in which they came. -/
structure Matched (sends : List Message) (receipts : List Receipt) (deliveries : List Delivery)
    (buffer : List Message) (waiting : List Pid) : Prop where
  /-- To each receiver went the message with its number, as far as there are both. -/
  deliveries : deliveries = List.zipWith .ofPair sends receipts
  /-- The other messages are still to be received. -/
  buffer : buffer = sends.drop receipts.length
  /-- The other receivers still wait. -/
  waiting : waiting = (receipts.drop sends.length).map (·.receiver)
  blocked : ∀ receipt ∈ receipts.drop sends.length, receipt.blocked = true

namespace Matched

variable {sends buffer rest : List Message} {receipts : List Receipt} {deliveries : List Delivery}
  {waiting : List Pid} {message oldest : Message} {receiver : Pid} {now : UInt64}

/-- There are no messages where somebody waits. -/
theorem buffer_or_waiting_eq_nil (h : Matched sends receipts deliveries buffer waiting) :
    buffer = [] ∨ waiting = [] := by
  rw [h.buffer, h.waiting, List.map_eq_nil_iff, List.drop_eq_nil_iff, List.drop_eq_nil_iff]
  exact Nat.le_total _ _

/-- Every message that left was sent before it was received. -/
theorem timeSent_le (h : Matched sends receipts deliveries buffer waiting) :
    ∀ delivery ∈ deliveries, delivery.message.timeSent ≤ delivery.message.timeReceived := by
  intro delivery hmem
  rw [h.deliveries] at hmem
  obtain ⟨i, _, rfl⟩ := List.mem_iff_getElem.1 hmem
  rw [List.getElem_zipWith]
  exact timeSent_le_ofPair _ _

/-- A message that nobody waits for stays in the buffer. -/
theorem send (h : Matched sends receipts deliveries buffer []) (message : Message) :
    Matched (sends ++ [message]) receipts deliveries (buffer ++ [message]) [] := by
  have hdrop : receipts.drop sends.length = [] := List.map_eq_nil_iff.1 h.waiting.symm
  obtain ⟨hbuffer, hnobody⟩ := drop_append_of_drop_eq_nil (a := message) hdrop
  constructor
  · rw [zipWith_append_of_drop_eq_nil hdrop]
    exact h.deliveries
  · rw [hbuffer, h.buffer]
  · rw [hnobody]
    rfl
  · rw [hnobody]
    exact fun _ hmem => absurd hmem List.not_mem_nil

/-- A message goes to the receiver that has waited longest. -/
theorem handOver (h : Matched sends receipts deliveries buffer (receiver :: waiting))
    (hqueue : buffer ++ [message] = oldest :: rest)
    (htime : ∀ receipt ∈ receipts, receipt.now ≤ message.timeSent) :
    Matched (sends ++ [message]) receipts
      (deliveries ++ [⟨receiver, { oldest with timeReceived := message.timeSent }, true⟩])
      rest waiting := by
  obtain ⟨receipt, others, hdrop, hreceiver, hothers⟩ := List.map_eq_cons_iff.1 h.waiting.symm
  have hmem : receipt ∈ receipts.drop sends.length := by
    rw [hdrop]
    exact List.mem_cons_self
  -- somebody waits, so the message is the only one
  have hempty : buffer = [] := h.buffer.trans (drop_length_eq_nil hdrop)
  rw [hempty] at hqueue
  injection hqueue with holdest hrest
  subst holdest hrest
  obtain ⟨hnothing, hleft⟩ := drop_append_of_drop_eq_cons (a := message) hdrop
  constructor
  · rw [zipWith_append_of_drop_eq_cons hdrop, ← h.deliveries, ← hreceiver, Delivery.ofPair,
      h.blocked receipt hmem, max_of_ge (htime receipt (List.mem_of_mem_drop hmem))]
  · exact hnothing.symm
  · rw [hleft, hothers]
  · rw [hleft]
    exact fun other hother => h.blocked other (by rw [hdrop]; exact List.mem_cons_of_mem _ hother)

/-- A receiver takes the oldest message. -/
theorem take (h : Matched sends receipts deliveries (oldest :: rest) waiting) (receiver : Pid)
    (htime : ∀ message ∈ sends, message.timeSent ≤ now) :
    Matched sends (receipts ++ [⟨receiver, now, false⟩])
      (deliveries ++ [⟨receiver, { oldest with timeReceived := now }, false⟩]) rest waiting := by
  have hdrop : sends.drop receipts.length = oldest :: rest := h.buffer.symm
  have holdest : oldest ∈ sends := List.mem_of_mem_drop (by rw [hdrop]; exact List.mem_cons_self)
  have hnobody : receipts.drop sends.length = [] := drop_length_eq_nil hdrop
  obtain ⟨hnobody', hleft⟩ :=
    drop_append_of_drop_eq_cons (a := (⟨receiver, now, false⟩ : Receipt)) hdrop
  constructor
  · rw [zipWith_append_right_of_drop_eq_cons hdrop, ← h.deliveries, Delivery.ofPair,
      max_of_le (htime oldest holdest)]
  · exact hleft.symm
  · rw [hnobody', h.waiting, hnobody]
  · rw [hnobody']
    exact fun _ hmem => absurd hmem List.not_mem_nil

/-- A receiver that finds no message waits. -/
theorem wait (h : Matched sends receipts deliveries [] waiting) (receiver : Pid) (now : UInt64) :
    Matched sends (receipts ++ [⟨receiver, now, true⟩]) deliveries [] (waiting ++ [receiver]) := by
  have hdrop : sends.drop receipts.length = [] := h.buffer.symm
  obtain ⟨hwaiting, hnothing⟩ :=
    drop_append_of_drop_eq_nil (a := (⟨receiver, now, true⟩ : Receipt)) hdrop
  constructor
  · rw [zipWith_append_right_of_drop_eq_nil hdrop]
    exact h.deliveries
  · exact hnothing.symm
  · rw [hwaiting, List.map_append, ← h.waiting]
    rfl
  · rw [hwaiting]
    intro receipt hmem
    rcases List.mem_append.1 hmem with hmem | hmem
    · exact h.blocked receipt hmem
    · rw [List.mem_singleton.1 hmem]

end Matched

namespace MailboxTable

variable {table after : MailboxTable} {index : MailboxId} {t t' : Tasks}

/-- Serve a request, whichever it is. -/
def serve (table : MailboxTable) (request : MailRequest) (t : Tasks) :
    Run Stop (MailAnswer × MailboxTable × Tasks) :=
  match request with
  | .send id message sender now => do
      let ((_, handoff), table, t) ← table.send id message sender now t
      return (.sent handoff, table, t)
  | .receive id receiver destination now => do
      let (received, table, t) ← table.receive id receiver destination now t
      return (.received received, table, t)

/-- Mailboxes are dealt with in any order, but time does not go back. -/
def desk : Desk MailRequest MailAnswer MailboxTable where
  empty := .empty
  serve := serve
  Admits log request := ∀ entry ∈ log, entry.1.now ≤ request.now

instance (log : Dealings MailRequest MailAnswer) (request : MailRequest) :
    Decidable (desk.Admits log request) :=
  inferInstanceAs (Decidable (∀ entry ∈ log, entry.1.now ≤ request.now))

variable {log : Dealings MailRequest MailAnswer} {request : MailRequest} {answer : MailAnswer}

/-- The message that a mailbox accepted. -/
def sent (index : MailboxId) : MailRequest × Except Refusal MailAnswer → List Message
  | (.send id message sender now, .ok _) =>
      if id.toNat = index.val then [stamp message sender now] else []
  | _ => []

/-- The receiver that a mailbox accepted. -/
def accepted (index : MailboxId) : MailRequest × Except Refusal MailAnswer → List Receipt
  | (.receive id receiver _ now, .ok answer) =>
      if id.toNat = index.val then [⟨receiver, now, answer = .received .blocked⟩] else []
  | _ => []

/-- The message that left a mailbox. -/
def delivered (index : MailboxId) : MailRequest × Except Refusal MailAnswer → List Delivery
  | (.send id _ _ _, .ok (.sent (some handoff))) =>
      if id.toNat = index.val then [⟨handoff.receiver, handoff.message, true⟩] else []
  | (.receive id receiver _ _, .ok (.received (.message message))) =>
      if id.toNat = index.val then [⟨receiver, message, false⟩] else []
  | _ => []

/-- Messages and receivers of a mailbox are paired in the order of their requests. -/
def Paired (log : Dealings MailRequest MailAnswer) (table : MailboxTable) (index : MailboxId) :
    Prop :=
  Matched (log.flatMap (sent index)) (log.flatMap (accepted index))
    (log.flatMap (delivered index)) (table.box index).buffer.toList (table.waitingAt index)

theorem timeSent_le (hadmits : desk.Admits log request) :
    ∀ message ∈ log.flatMap (sent index), message.timeSent ≤ request.now := by
  intro message hmem
  obtain ⟨entry, hentry, hmem⟩ := List.mem_flatMap.1 hmem
  have hnow := hadmits entry hentry
  unfold sent at hmem
  split at hmem
  · split at hmem
    · rw [List.mem_singleton.1 hmem]
      exact hnow
    · contradiction
  · contradiction

theorem now_le (hadmits : desk.Admits log request) :
    ∀ receipt ∈ log.flatMap (accepted index), receipt.now ≤ request.now := by
  intro receipt hmem
  obtain ⟨entry, hentry, hmem⟩ := List.mem_flatMap.1 hmem
  have hnow := hadmits entry hentry
  unfold accepted at hmem
  split at hmem
  · split at hmem
    · rw [List.mem_singleton.1 hmem]
      exact hnow
    · contradiction
  · contradiction

/-! ## One request -/

theorem paired_append_iff {entry : MailRequest × Except Refusal MailAnswer} :
    Paired (log ++ [entry]) after index ↔
      Matched (log.flatMap (sent index) ++ sent index entry)
        (log.flatMap (accepted index) ++ accepted index entry)
        (log.flatMap (delivered index) ++ delivered index entry)
        (after.box index).buffer.toList (after.waitingAt index) := by
  unfold Paired
  simp only [List.flatMap_append, List.flatMap_singleton]

/-- A request that leaves a mailbox alone. -/
theorem Paired.alone {entry : MailRequest × Except Refusal MailAnswer} (h : Paired log table index)
    (hbox : after.box index = table.box index) (hsent : sent index entry = [])
    (haccepted : accepted index entry = []) (hdelivered : delivered index entry = []) :
    Paired (log ++ [entry]) after index := by
  have hwaiting : after.waitingAt index = table.waitingAt index :=
    congrArg (fun mailbox => mailbox.waiting.toList) hbox
  rw [paired_append_iff, hsent, haccepted, hdelivered, hbox, hwaiting, List.append_nil,
    List.append_nil, List.append_nil]
  exact h

/-- A served send, at every mailbox. -/
theorem Paired.send {id now : UInt64} {message stamped : Message} {sender : Pid}
    {handoff : Option Handoff} (h : Paired log table index)
    (hadmits : desk.Admits log (.send id message sender now))
    (hsend : (table.send id message sender now t).outcome = .ok ((stamped, handoff), after, t')) :
    Paired (log ++ [(.send id message sender now, .ok (.sent handoff))]) after index := by
  obtain ⟨own, hown, hstamped, hothers, hcases⟩ := send_cases hsend
  by_cases hindex : index = own
  · subst hindex
    have hsent : sent index (.send id message sender now, .ok (.sent handoff)) = [stamped] := by
      rw [hstamped]
      exact if_pos hown.symm
    have haccepted : accepted index (.send id message sender now, .ok (.sent handoff)) = [] := rfl
    unfold Paired at h
    rw [paired_append_iff, hsent, haccepted, List.append_nil]
    rcases hcases with ⟨rfl, _, hwaiting, hafter, hbuffer⟩ |
      ⟨receiver, _, destination, oldest, rfl, hwaiting, hbuffer, _⟩
    · have hdelivered : delivered index (.send id message sender now, .ok (.sent none)) = [] := rfl
      rw [hwaiting] at h
      rw [hdelivered, hafter, hbuffer, List.append_nil]
      exact h.send stamped
    · rw [hwaiting] at h
      have htime : stamped.timeSent = now := by rw [hstamped]; rfl
      have hdelivered : delivered index (.send id message sender now,
          .ok (.sent (some ⟨receiver, destination, { oldest with timeReceived := now }⟩))) =
          [⟨receiver, { oldest with timeReceived := stamped.timeSent }, true⟩] := by
        rw [htime]
        exact if_pos hown.symm
      rw [hdelivered]
      exact h.handOver hbuffer (by rw [htime]; exact now_le hadmits)
  · have hne : ¬ id.toNat = index.val := fun heq => hindex (Fin.ext (heq.symm.trans hown.symm))
    refine h.alone (hothers index hindex) (if_neg hne) rfl ?_
    cases handoff with
    | none => rfl
    | some handoff => exact if_neg hne

/-- A served receive, at every mailbox. -/
theorem Paired.receive {id destination now : UInt64} {receiver : Pid} {received : Received}
    (h : Paired log table index) (hadmits : desk.Admits log (.receive id receiver destination now))
    (hreceive : (table.receive id receiver destination now t).outcome =
      .ok (received, after, t')) :
    Paired (log ++ [(.receive id receiver destination now, .ok (.received received))]) after
      index := by
  obtain ⟨own, hown, hothers, hcases⟩ := receive_cases hreceive
  by_cases hindex : index = own
  · subst hindex
    have hsent : sent index (.receive id receiver destination now, .ok (.received received)) = [] :=
      rfl
    unfold Paired at h
    rw [paired_append_iff, hsent, List.append_nil]
    rcases hcases with ⟨hwaiting, _, oldest, rfl, hbuffer⟩ |
      ⟨rfl, hbuffer, hafter, hwaiting, _⟩
    · have haccepted : accepted index (.receive id receiver destination now,
          .ok (.received (.message { oldest with timeReceived := now }))) =
          [⟨receiver, now, false⟩] := if_pos hown.symm
      have hdelivered : delivered index (.receive id receiver destination now,
          .ok (.received (.message { oldest with timeReceived := now }))) =
          [⟨receiver, { oldest with timeReceived := now }, false⟩] := if_pos hown.symm
      rw [hbuffer] at h
      rw [haccepted, hdelivered, hwaiting]
      exact h.take receiver (timeSent_le hadmits)
    · have haccepted : accepted index (.receive id receiver destination now,
          .ok (.received .blocked)) = [⟨receiver, now, true⟩] := if_pos hown.symm
      have hdelivered : delivered index (.receive id receiver destination now,
          .ok (.received .blocked)) = [] := rfl
      rw [hbuffer] at h
      rw [haccepted, hdelivered, hwaiting, hafter, hbuffer, List.append_nil]
      exact h.wait receiver now
  · have hne : ¬ id.toNat = index.val := fun heq => hindex (Fin.ext (heq.symm.trans hown.symm))
    refine h.alone (hothers index hindex) rfl (if_neg hne) ?_
    cases received with
    | blocked => rfl
    | message => exact if_neg hne

/-! ## Any number of requests -/

theorem paired_of_dealt (hdealt : desk.Dealt log table) (index : MailboxId) :
    Paired log table index := by
  induction hdealt with
  | start =>
      show Matched [] [] [] (box empty index).buffer.toList (box empty index).waiting.toList
      rw [box_empty]
      exact ⟨rfl, Ring.toList_empty, Ring.toList_empty, fun _ hmem => absurd hmem List.not_mem_nil⟩
  | @served log table after request answer t t' hdealt hadmits hserve ih =>
      cases request with
      | send id message sender now =>
          obtain ⟨⟨⟨stamped, handoff⟩, found, tasks⟩, hsend, hserve⟩ :=
            Run.outcome_bind_eq_ok_iff.1 hserve
          injection hserve with hserve
          injection hserve with hanswer hserve
          injection hserve with hafter _
          subst hanswer hafter
          exact ih.send hadmits hsend
      | receive id receiver destination now =>
          obtain ⟨⟨received, found, tasks⟩, hreceive, hserve⟩ :=
            Run.outcome_bind_eq_ok_iff.1 hserve
          injection hserve with hserve
          injection hserve with hanswer hserve
          injection hserve with hafter _
          subst hanswer hafter
          exact ih.receive hadmits hreceive
  | @refused log table request reason t hdealt hadmits hserve ih =>
      refine ih.alone rfl ?_ ?_ ?_ <;> cases request <;> rfl

/-! ## Requests that are not served -/

/-- Why a request is turned down. -/
def Refuses (table : MailboxTable) (request : MailRequest) (reason : Refusal) : Prop :=
  match request with
  | .send id _ _ _ => mailboxCapacity ≤ id.toNat ∧ reason = .invalidMailbox id ∨
      ∃ index : MailboxId, index.val = id.toNat ∧
        (table.box index).buffer.toList.length = bufferCapacity ∧ reason = .mailboxFull
  | .receive id _ _ _ => mailboxCapacity ≤ id.toNat ∧ reason = .invalidMailbox id

/-- When a request is neither served nor turned down: a receiver that has to be queued or
has to wait does not live or finds no room, or it waits for nothing. -/
def Stuck (table : MailboxTable) (request : MailRequest) (t : Tasks) : Prop :=
  match request with
  | .send id _ _ _ => ∃ (index : MailboxId) (receiver : Pid) (waiting : List Pid),
      index.val = id.toNat ∧ table.waitingAt index = receiver :: waiting ∧
      (t.table.find? receiver = none ∨ t.destinationOf receiver = none ∨ receiver ∈ t.queue ∨
        t.queue.length = queueCapacity)
  | .receive id receiver _ _ => ∃ index : MailboxId,
      index.val = id.toNat ∧ (table.box index).buffer.toList = [] ∧
      ((table.waitingAt index).length = queueCapacity ∨ t.table.find? receiver = none)

theorem stuck_send {id now : UInt64} {message : Message} {sender : Pid} {fault : Fault}
    (hsend : (table.send id message sender now t).outcome = .error (.fault fault)) :
    table.Stuck (.send id message sender now) t := by
  unfold send at hsend
  split at hsend
  · exact absurd hsend (Run.Faultless.of_refused rfl fault)
  rename_i index mailbox hfind
  obtain ⟨hindex, rfl⟩ := find?_eq_some hfind
  dsimp only at hsend
  split at hsend
  · exact absurd hsend (Run.Faultless.of_refused rfl fault)
  rename_i buffer hpush
  split at hsend
  · contradiction
  rename_i receiver waiting hpop
  refine ⟨index, receiver, waiting.toList, hindex, Ring.toList_pop hpop, ?_⟩
  cases hreceiver : t.table.find? receiver with
  | none => exact .inl rfl
  | some slot =>
      refine .inr ?_
      rw [ProcessTable.expect_eq_ok_iff.2 hreceiver,
        Run.outcome_bind_of_ok (Run.outcome_lift_ok slot)] at hsend
      split at hsend
      · rename_i hdestination
        refine .inl ?_
        rw [Tasks.destinationOf, ProcessTable.get?_of_find? hreceiver]
        exact hdestination
      rename_i destination hdestination
      refine .inr ?_
      cases hqueued : (t.modify slot fun p => { p with destination := none }).enqueue slot with
      | error reason =>
          have hfind' : (t.modify slot fun p => { p with destination := none }).table.find?
              receiver = some slot :=
            ProcessTable.find?_modify_self hreceiver (ProcessTable.find?_eq_some hreceiver).1 rfl
          have hcannot := Tasks.queue_of_enqueue_error hfind' hqueued
          exact hcannot
      | ok queued =>
          rw [hqueued, Run.outcome_bind_of_ok (Run.outcome_lift_ok queued)] at hsend
          split at hsend
          · -- the buffer holds at least the message just pushed
            rename_i hdry
            have hnothing := Ring.toList_of_pop_eq_none hdry
            rw [Ring.toList_push hpush] at hnothing
            exact absurd hnothing (List.append_ne_nil_of_right_ne_nil _ (List.cons_ne_nil _ _))
          · contradiction

theorem stuck_receive {id destination now : UInt64} {receiver : Pid} {fault : Fault}
    (hreceive : (table.receive id receiver destination now t).outcome = .error (.fault fault)) :
    table.Stuck (.receive id receiver destination now) t := by
  unfold receive at hreceive
  split at hreceive
  · exact absurd hreceive (Run.Faultless.of_refused rfl fault)
  rename_i index mailbox hfind
  obtain ⟨hindex, rfl⟩ := find?_eq_some hfind
  split at hreceive
  · contradiction
  rename_i hpop
  refine ⟨index, hindex, Ring.toList_of_pop_eq_none hpop, ?_⟩
  split at hreceive
  · rename_i hpush
    rw [Ring.push_eq_none_iff, Ring.isFull, beq_iff_eq, ← Ring.length_toList] at hpush
    exact .inl hpush
  rename_i waiting hpush
  refine .inr ?_
  cases hreceiver : t.table.find? receiver with
  | none => rfl
  | some slot =>
      have hfind' : (t.modify slot fun p => { p with destination := some destination }).table.find?
          receiver = some slot :=
        ProcessTable.find?_modify_self hreceiver (ProcessTable.find?_eq_some hreceiver).1 rfl
      obtain ⟨parked, hpark⟩ := Tasks.exists_park hfind'
      rw [ProcessTable.expect_eq_ok_iff.2 hreceiver,
        Run.outcome_bind_of_ok (Run.outcome_lift_ok slot), hpark,
        Run.outcome_bind_of_ok (Run.outcome_lift_ok parked)] at hreceive
      contradiction

theorem refused_iff (table : MailboxTable) (request : MailRequest) (t : Tasks) (reason : Refusal) :
    (table.serve request t).outcome = .error (.refused reason) ↔ table.Refuses request reason := by
  cases request with
  | send id message sender now =>
      exact (Run.outcome_bind_eq_error_iff fun _ => ⟨_, rfl⟩).trans send_refused_iff
  | receive id receiver destination now =>
      exact (Run.outcome_bind_eq_error_iff fun _ => ⟨_, rfl⟩).trans receive_refused_iff

theorem stuck_of_fault {fault : Fault}
    (hserve : (table.serve request t).outcome = .error (.fault fault)) : table.Stuck request t := by
  cases request with
  | send id message sender now =>
      exact stuck_send ((Run.outcome_bind_eq_error_iff fun _ => ⟨_, rfl⟩).1 hserve)
  | receive id receiver destination now =>
      exact stuck_receive ((Run.outcome_bind_eq_error_iff fun _ => ⟨_, rfl⟩).1 hserve)

/-- What is true of a mailbox behind any requests. -/
structure InOrder (log : Dealings MailRequest MailAnswer) (table : MailboxTable)
    (index : MailboxId) : Prop where
  paired : Paired log table index
  /-- No message is buffered where a receiver waits. -/
  one_empty : (table.box index).buffer.toList = [] ∨ table.waitingAt index = []
  /-- No message is received before it was sent. -/
  times : ∀ delivery ∈ log.flatMap (delivered index),
    delivery.message.timeSent ≤ delivery.message.timeReceived

/-- Messages are received in the order in which they were sent, whoever comes first.  The
next request is turned down only for a number that no mailbox has, or, if it sends, for a
full buffer; and it faults only over a receiver that cannot be queued or cannot wait. -/
theorem received_in_order (hdealt : desk.Dealt log table) :
    (∀ index, InOrder log table index) ∧ ∀ request t,
      (∀ reason, (table.serve request t).outcome = .error (.refused reason) ↔
        table.Refuses request reason) ∧
      ∀ fault, (table.serve request t).outcome = .error (.fault fault) →
        table.Stuck request t := by
  refine ⟨fun index => ?_, fun request t =>
    ⟨refused_iff table request t, fun _ hfault => stuck_of_fault hfault⟩⟩
  have hpaired := paired_of_dealt hdealt index
  exact ⟨hpaired, hpaired.buffer_or_waiting_eq_nil, hpaired.timeSent_le⟩

/-- A receiver waits and is handed the first of two messages; the second one is buffered and
taken later.  A receiver that waits then is left waiting. -/
theorem received_in_order_both_ways :
    ∃ log table, desk.Dealt log table ∧
      (log.flatMap (delivered 3)).map (fun delivery => (delivery.receiver.number,
          delivery.message.sender, delivery.message.timeSent, delivery.message.timeReceived,
          delivery.handedOver)) = [(2, 1, 5, 5, true), (1, 2, 6, 9, false)] ∧
      table.waitingAt 3 = [⟨2⟩] ∧ ∀ index, InOrder log table index := by
  obtain ⟨log, table, hdealt, hcheck⟩ := desk.exists_dealt 3
    [.receive 3 ⟨2⟩ 0x2000 4, .send 3 .empty ⟨1⟩ 5, .send 10 .empty ⟨1⟩ 5, .send 3 .empty ⟨2⟩ 6,
      .receive 3 ⟨1⟩ 0x3000 9, .receive 3 ⟨2⟩ 0x2000 9]
    (fun log table => decide ((log.flatMap (delivered 3)).map (fun delivery =>
        (delivery.receiver.number, delivery.message.sender, delivery.message.timeSent,
          delivery.message.timeReceived, delivery.handedOver)) =
        [(2, 1, 5, 5, true), (1, 2, 6, 9, false)] ∧ table.waitingAt 3 = [⟨2⟩]))
    (by decide +kernel)
  obtain ⟨hdelivered, hwaiting⟩ := of_decide_eq_true hcheck
  exact ⟨log, table, hdealt, hdelivered, hwaiting, (received_in_order hdealt).1⟩

end MailboxTable

end Timeshare
