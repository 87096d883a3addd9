import Timeshare.Proofs.Kernel.Exchange
import Timeshare.Proofs.Kernel.Woken
import Timeshare.Proofs.Traffic

/-!
# The ledger of a mailbox

The messages that a mailbox accepts are numbered in the order in which they come, and so
are the requests for them.  In a course without guarded memory, at which idle makes no call,
the messages beyond the last request are buffered; the requests beyond the last message wait
in their order, and each of them is answered and has its buffer recorded.
-/

namespace Timeshare.Kernel

open Machine (Memory Simulated)

variable {P α : Type} {size : Nat} {pointer : UInt64} {index : MailboxId} {m : Moment Simulated}
  {past moments : List (Moment Simulated)} {k : Kernel Simulated} {request : Request}
  {posted : List Posting} {requested : List Request}

/-! ## Courses without guards -/

/-- A call is made. -/
def Deed.isCall : Deed P → Bool
  | trap frame => frame.vector = callVector
  | _ => false

/-- An ordinary moment, but not a call of idle, on a machine with `size` bytes of memory and
no guarded regions. -/
structure Moment.Tame (size : Nat) (m : Moment Simulated) : Prop where
  ordinary : m.deed.ordinary
  unguarded : m.before.platform.memory.guarded = []
  size : m.before.platform.memory.bytes.size = size
  idle : m.before.current = some .idle → m.deed.isCall = false

instance (size : Nat) (m : Moment Simulated) : Decidable (m.Tame size) :=
  decidable_of_iff (m.deed.ordinary ∧ m.before.platform.memory.guarded = [] ∧
      m.before.platform.memory.bytes.size = size ∧
      (m.before.current = some .idle → m.deed.isCall = false)) <| by
    constructor
    · exact fun ⟨hordinary, hunguarded, hsize, hidle⟩ => ⟨hordinary, hunguarded, hsize, hidle⟩
    · exact fun h => ⟨h.ordinary, h.unguarded, h.size, h.idle⟩

namespace Moment.Tame

theorem caller_ne {call : Call} {caller : Pid} {frame : Frame} (h : m.Tame size)
    (hcall : m.call? call = some (caller, frame)) : caller ≠ .idle := by
  rintro rfl
  obtain ⟨hdeed, hvector, hcurrent, _⟩ := Moment.call?_eq_some_iff.1 hcall
  have hquiet := h.idle hcurrent
  rw [hdeed] at hquiet
  exact absurd hvector (of_decide_eq_false hquiet)

theorem receiver_ne (h : m.Tame size) (hrequest : m.request? index = some request) :
    request.receiver ≠ .idle := h.caller_ne (Moment.request?_eq_some_iff.1 hrequest).1

/-- Whether a buffer can be read depends on the size of memory alone. -/
theorem exists_read_iff (h : m.Tame size) :
    (∃ bytes : Wire, m.before.platform.memory.read pointer wireSize = .ok bytes) ↔
      Memory.base ≤ pointer ∧ (pointer - Memory.base).toNat + wireSize ≤ size := by
  rw [Memory.exists_read_iff, h.size]

end Moment.Tame

/-! ## What was posted and requested -/

/-- What the moments have to show, the oldest first. -/
def inOrder (f : Moment P → Option α) (moments : List (Moment P)) : List α :=
  (moments.filterMap f).reverse

@[simp] theorem inOrder_cons (f : Moment P → Option α) (m : Moment P) (past : List (Moment P)) :
    inOrder f (m :: past) = inOrder f past ++ (f m).toList := by
  rw [inOrder, List.filterMap_cons]
  cases f m with
  | none => exact (List.append_nil _).symm
  | some a => exact List.reverse_cons

theorem inOrder_append (f : Moment P → Option α) (later past : List (Moment P)) :
    inOrder f (later ++ past) = inOrder f past ++ inOrder f later := by
  rw [inOrder, List.filterMap_append, List.reverse_append]
  rfl

theorem mem_inOrder {f : Moment P → Option α} {moments : List (Moment P)} {a : α} :
    a ∈ inOrder f moments ↔ ∃ m ∈ moments, f m = some a := by
  rw [inOrder, List.mem_reverse, List.mem_filterMap]

/-- The messages that a mailbox accepted. -/
abbrev postings (index : MailboxId) : List (Moment Simulated) → List Posting :=
  inOrder (·.posting? index)

/-- The requests that were made of a mailbox. -/
abbrev requests (index : MailboxId) : List (Moment Simulated) → List Request :=
  inOrder (·.request? index)

/-! ## What is left over -/

/-- What a mailbox still holds: the messages that were not requested, and those who requested
a message that has not come. -/
structure Ledger (index : MailboxId) (posted : List Posting) (requested : List Request)
    (k : Kernel Simulated) : Prop where
  stored : k.mailboxes.storedAt index = (posted.drop requested.length).map (·.message 0)
  waiting : k.mailboxes.waitingAt index = (requested.drop posted.length).map (·.receiver)
  parked : ∀ request ∈ requested.drop posted.length, k.Parked request

/-- A parked process that stays on its wait queue stays parked. -/
theorem Parked.step (h : m.before.Parked request) (hordinary : m.deed.ordinary)
    (hdone : m.deed.carryOut m.before = .ok () m.after) (hk : m.before.Coherent)
    (hsettled : m.before.tasks.Settled) (hidle : request.receiver ≠ .idle)
    (hwaits : request.receiver ∈ m.after.mailboxes.waitingAt index) : m.after.Parked request := by
  obtain ⟨p, hget, hstate, hrest⟩ := h
  rcases resting_of_ordinary hordinary hdone hk hsettled hidle hget (.inr hstate) with
    hsame | ⟨hsleeping, _⟩ | ⟨_, habsent⟩
  · exact ⟨p, hsame, hstate, hrest⟩
  · rw [hstate] at hsleeping
    contradiction
  · exact absurd ((m.after.waitingAt_sublist index).subset hwaits) habsent

namespace Ledger

variable {k' : Kernel Simulated} {posting : Posting} {receiver : Pid} {oldest : Message}

/-- A message that nobody waits for is left over. -/
theorem buffer (h : Ledger index posted requested k) (hnobody : k.mailboxes.waitingAt index = [])
    (hwaiting : k'.mailboxes.waitingAt index = [])
    (hstored : k'.mailboxes.storedAt index = k.mailboxes.storedAt index ++ [posting.message 0]) :
    Ledger index (posted ++ [posting]) requested k' := by
  have hdrop : requested.drop posted.length = [] :=
    List.map_eq_nil_iff.1 (h.waiting.symm.trans hnobody)
  obtain ⟨hleft, hnone⟩ := drop_append_of_drop_eq_nil (a := posting) hdrop
  constructor
  · rw [hstored, h.stored, hleft, List.map_append]
    rfl
  · rw [hwaiting, hnone]
    rfl
  · rw [hnone]
    exact fun _ hmem => absurd hmem List.not_mem_nil

/-- A message goes to the receiver that has waited longest. -/
theorem handOver (h : Ledger index posted requested k)
    (hwaiting : k.mailboxes.waitingAt index = receiver :: k'.mailboxes.waitingAt index)
    (hstored : k.mailboxes.storedAt index ++ [posting.message 0] =
      oldest :: k'.mailboxes.storedAt index)
    (hstill : ∀ request ∈ requested.drop posted.length,
      request.receiver ∈ k'.mailboxes.waitingAt index → k'.Parked request) :
    Ledger index (posted ++ [posting]) requested k' := by
  obtain ⟨first, others, hdrop, _, hothers⟩ :=
    List.map_eq_cons_iff.1 (h.waiting.symm.trans hwaiting)
  obtain ⟨hnone, hleft⟩ := drop_append_of_drop_eq_cons (a := posting) hdrop
  -- somebody waited, so the message was the only one
  rw [h.stored, drop_length_eq_nil hdrop] at hstored
  constructor
  · injection hstored with _ hempty
    rw [← hempty, hnone]
    rfl
  · rw [hleft, hothers]
  · rw [hleft]
    intro request hmem
    refine hstill request ?_ (hothers ▸ List.mem_map_of_mem hmem)
    rw [hdrop]
    exact List.mem_cons_of_mem _ hmem

/-- A request takes the oldest message. -/
theorem take (h : Ledger index posted requested k) (request : Request)
    (hwaiting : k'.mailboxes.waitingAt index = k.mailboxes.waitingAt index)
    (hstored : k.mailboxes.storedAt index = oldest :: k'.mailboxes.storedAt index) :
    Ledger index posted (requested ++ [request]) k' := by
  obtain ⟨first, others, hdrop, _, hothers⟩ :=
    List.map_eq_cons_iff.1 (h.stored.symm.trans hstored)
  obtain ⟨hnone, hleft⟩ := drop_append_of_drop_eq_cons (a := request) hdrop
  constructor
  · rw [hleft, hothers]
  · rw [hwaiting, h.waiting, hnone, drop_length_eq_nil hdrop]
  · rw [hnone]
    exact fun _ hmem => absurd hmem List.not_mem_nil

/-- A request that finds no message waits. -/
theorem wait (h : Ledger index posted requested k) (hnothing : k.mailboxes.storedAt index = [])
    (hstored : k'.mailboxes.storedAt index = [])
    (hwaiting : k'.mailboxes.waitingAt index =
      k.mailboxes.waitingAt index ++ [request.receiver]) (hparked : k'.Parked request)
    (hstill : ∀ request ∈ requested.drop posted.length,
      request.receiver ∈ k'.mailboxes.waitingAt index → k'.Parked request) :
    Ledger index posted (requested ++ [request]) k' := by
  have hdrop : posted.drop requested.length = [] :=
    List.map_eq_nil_iff.1 (h.stored.symm.trans hnothing)
  obtain ⟨hleft, hnone⟩ := drop_append_of_drop_eq_nil (a := request) hdrop
  constructor
  · rw [hstored, hnone]
    rfl
  · rw [hwaiting, h.waiting, hleft, List.map_append]
    rfl
  · rw [hleft]
    intro other hmem
    rcases List.mem_append.1 hmem with hold | hnew
    · refine hstill other hold ?_
      rw [hwaiting, h.waiting]
      exact List.mem_append_left _ (List.mem_map_of_mem hold)
    · exact List.mem_singleton.1 hnew ▸ hparked

/-- Whatever happens to a mailbox, the ledger goes on with what was posted or requested. -/
theorem step (h : Ledger index posted requested m.before) (hexchange : Exchange index m)
    (hkept : ∀ request ∈ requested, m.before.Parked request →
      request.receiver ∈ m.after.mailboxes.waitingAt index → m.after.Parked request) :
    Ledger index (posted ++ (m.posting? index).toList) (requested ++ (m.request? index).toList)
      m.after := by
  have hstill (request : Request) (hmem : request ∈ requested.drop posted.length)
      (hwaits : request.receiver ∈ m.after.mailboxes.waitingAt index) : m.after.Parked request :=
    hkept request (List.mem_of_mem_drop hmem) (h.parked request hmem) hwaits
  cases hexchange with
  | quiet hposting hrequest hbox =>
      rw [hposting, hrequest, Option.toList_none, Option.toList_none, List.append_nil,
        List.append_nil]
      have hwaiting : m.after.mailboxes.waitingAt index =
          (requested.drop posted.length).map (·.receiver) :=
        (congrArg (·.waiting.toList) hbox).trans h.waiting
      refine ⟨(congrArg (·.buffer.toList) hbox).trans h.stored, hwaiting, fun request hmem => ?_⟩
      exact hstill request hmem (hwaiting ▸ List.mem_map_of_mem hmem)
  | buffered hposting hrequest hnobody hwaiting hstored =>
      rw [hposting, hrequest, Option.toList_none, Option.toList_some, List.append_nil]
      exact h.buffer hnobody hwaiting hstored
  | handed hposting hrequest hwaiting hstored =>
      rw [hposting, hrequest, Option.toList_none, Option.toList_some, List.append_nil]
      exact h.handOver hwaiting hstored hstill
  | taken hposting hrequest hwaiting hstored =>
      rw [hposting, hrequest, Option.toList_none, Option.toList_some, List.append_nil]
      exact h.take _ hwaiting hstored
  | blocked hposting hrequest hnothing hstored hwaiting hparked =>
      rw [hposting, hrequest, Option.toList_none, Option.toList_some, List.append_nil]
      exact h.wait hnothing hstored hwaiting hparked hstill

end Ledger

/-! ## The ledger of a course -/

theorem receiver_ne_of_mem (htame : ∀ m ∈ moments, m.Tame size)
    (hmem : request ∈ requests index moments) : request.receiver ≠ .idle := by
  obtain ⟨m, hm, hrequest⟩ := mem_inOrder.1 hmem
  exact (htame m hm).receiver_ne hrequest

/-- What happens to a mailbox at a tame moment behind others. -/
theorem Ledger.exchange (h : Ledger index posted (requests index past) m.before)
    (htame : ∀ u ∈ m :: past, u.Tame size) (hdone : m.deed.carryOut m.before = .ok () m.after)
    (hk : m.before.Coherent) (hsettled : m.before.tasks.Settled) : Exchange index m := by
  have hm := htame m List.mem_cons_self
  apply exchange_of_ordinary index hm.ordinary hm.unguarded ?_ hdone hk hsettled
  · intro receiver hwaits
    rw [h.waiting] at hwaits
    obtain ⟨request, hmem, rfl⟩ := List.mem_map.1 hwaits
    exact receiver_ne_of_mem (fun u hu => htame u (List.mem_cons_of_mem _ hu))
      (List.mem_of_mem_drop hmem)
  · exact fun call frame hcall => hm.caller_ne hcall rfl

theorem Course.ledger (hcourse : Course moments k) (htame : ∀ m ∈ moments, m.Tame size)
    (index : MailboxId) : Ledger index (postings index moments) (requests index moments) k := by
  induction hcourse with
  | boot hfresh hboot =>
      have hempty := (inner_mailboxes.booted (((leads_boot _ _ _).of_ok hboot) _ rfl)).trans
        hfresh.tables.2.2
      constructor
      · rw [hempty, MailboxTable.storedAt, MailboxTable.box_empty]
        exact Ring.toList_empty
      · rw [hempty, MailboxTable.waitingAt, MailboxTable.box_empty]
        exact Ring.toList_empty
      · exact fun _ hmem => absurd hmem List.not_mem_nil
  | step hcourse hdone ih =>
      have hpast (m : Moment Simulated) (hm : m ∈ _) : m.Tame size :=
        htame m (List.mem_cons_of_mem _ hm)
      have h := ih hpast
      obtain ⟨hk, hsettled⟩ := hcourse.coherent fun m hm => (hpast m hm).ordinary
      rw [postings, requests, inOrder_cons, inOrder_cons]
      refine h.step (h.exchange htame hdone hk hsettled) fun request hmem hparked hwaits => ?_
      exact hparked.step (htame _ List.mem_cons_self).ordinary hdone hk hsettled
        (receiver_ne_of_mem hpast hmem) hwaits

end Timeshare.Kernel
