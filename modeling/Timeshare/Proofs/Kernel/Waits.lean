import Timeshare.Proofs.Kernel.Calls
import Timeshare.Proofs.Kernel.Exclusion

/-!
# How waiting begins and ends

A process that waits behind its own call has locked a mutex or asked for a message, and it
is queued there.  It leaves the queue of a mutex when the owner hands the mutex over, and
that of a mailbox when a sent message is handed to it; nothing else moves it out.
-/

namespace Timeshare

/-! ## Tickets and wait queues -/

namespace MutexTable

variable {table : MutexTable} {pid : Pid}

/-- Who owns the mutex with a given number. -/
def ownerOf (table : MutexTable) (id : UInt64) : Option Pid := (table.get? id).bind (·.owner)

theorem Sound.ownerOf (hsound : table.Sound) (id : UInt64) :
    table.ownerOf id = (table.ticketsAt id).head? := by
  unfold MutexTable.ownerOf
  cases hget : table.get? id with
  | none =>
      rw [MutexTable.ticketsAt, hget]
      rfl
  | some mutex => exact hsound.owner hget

/-- Whoever waits for a mutex has a ticket behind the first. -/
theorem Sound.mem_waiters_iff (hsound : table.Sound) :
    pid ∈ table.waiters ↔ ∃ id, pid ∈ (table.ticketsAt id).tail := by
  have htail {index : MutexId} {id : UInt64} (hindex : index.val = id.toNat) :
      table.waitingAt index = (table.ticketsAt id).tail := by
    rw [ticketsAt_of_entry hindex]
    cases hentry : table.entry index with
    | none => exact waitingAt_of_entry_none hentry
    | some mutex =>
        rw [waitingAt_of_entry hentry, Option.elim_some, Mutex.tickets]
        cases howner : mutex.owner with
        | none => rw [(hsound.mutex index mutex hentry).waiting_of_owner_none howner]; rfl
        | some owner => rfl
  rw [MutexTable.mem_waiters_iff]
  constructor
  · rintro ⟨index, hmem⟩
    have hindex : index.val = (UInt64.ofNat index.val).toNat :=
      (UInt64.toNat_ofNat_of_lt' (Nat.lt_trans index.isLt (by decide))).symm
    exact ⟨UInt64.ofNat index.val, htail hindex ▸ hmem⟩
  · rintro ⟨id, hmem⟩
    by_cases hinside : id.toNat < mutexCapacity
    · have hindex : (⟨id.toNat, hinside⟩ : MutexId).val = id.toNat := rfl
      exact ⟨⟨id.toNat, hinside⟩, (htail hindex).symm ▸ hmem⟩
    · rw [ticketsAt_of_ge (Nat.le_of_not_lt hinside)] at hmem
      exact absurd hmem List.not_mem_nil

end MutexTable

namespace Kernel

variable {P : Type} {k : Kernel P} {m : Moment P} {pid caller : Pid} {call : Call} {arguments : Arguments}
  {id : UInt64} {done : Option Call} {before after : List Pid}

/-- An active process does not wait. -/
theorem Coherent.not_mem_waiters (hk : k.Coherent) (hidle : pid ≠ .idle)
    (hactive : k.tasks.stateOf pid = some .active) : pid ∉ k.waiters := by
  intro hmem
  rw [(hk.count_eq_one hidle hmem).1] at hactive
  contradiction

/-- A ticket comes behind the first by a lock of its holder. -/
theorem TicketMove.of_mem_tail (h : TicketMove caller done before after) (hmem : pid ∈ after.tail)
    (habsent : pid ∉ before.tail) : done = some .mutexLock ∧ pid = caller := by
  cases h with
  | keep => exact absurd hmem habsent
  | lock =>
      refine ⟨rfl, ?_⟩
      cases before with
      | nil => exact absurd hmem List.not_mem_nil
      | cons first rest =>
          rcases List.mem_append.1 hmem with hrest | hself
          · exact absurd hrest habsent
          · exact List.mem_singleton.1 hself
  | unlock => exact absurd (List.mem_of_mem_tail hmem) habsent
  | unlockFree => exact absurd hmem List.not_mem_nil

/-- A ticket behind the first stays there until the first is handed in. -/
theorem TicketMove.mem_tail (h : TicketMove caller done before after) (hmem : pid ∈ before.tail) :
    pid ∈ after.tail ∨
      done = some .mutexUnlock ∧ before.head? = some caller ∧ after.head? = some pid := by
  cases h with
  | keep => exact .inl hmem
  | lock =>
      cases before with
      | nil => exact absurd hmem List.not_mem_nil
      | cons first rest => exact .inl (List.mem_append_left _ hmem)
  | unlock =>
      cases after with
      | nil => exact absurd hmem List.not_mem_nil
      | cons next rest =>
          rcases List.mem_cons.1 hmem with rfl | hrest
          · exact .inr ⟨rfl, rfl, rfl⟩
          · exact .inl hrest
  | unlockFree => exact absurd hmem List.not_mem_nil

/-! ## One call -/

/-- How a call changes the mailboxes: a message is sent or received, or nothing is. -/
inductive MailMove (k : Kernel P) (caller : Pid) : Call → Arguments → MailboxTable → Prop
  | keep {call : Call} {arguments : Arguments} : MailMove k caller call arguments k.mailboxes
  | send {arguments : Arguments} {message stamped : Message} {handoff : Option Handoff}
      {mailboxes : MailboxTable} {tasks : Tasks}
      (hsend : (k.mailboxes.send arguments.first message caller k.clock.now k.tasks).outcome =
        .ok ((stamped, handoff), mailboxes, tasks)) :
      MailMove k caller .send arguments mailboxes
  | receive {arguments : Arguments} {received : Received} {mailboxes : MailboxTable}
      {tasks : Tasks}
      (hreceive : (k.mailboxes.receive arguments.first caller arguments.second k.clock.now
        k.tasks).outcome = .ok (received, mailboxes, tasks)) :
      MailMove k caller .receive arguments mailboxes

/-- The other calls leave the mailboxes alone. -/
theorem MailMove.kept {mailboxes : MailboxTable} (h : MailMove k caller call arguments mailboxes)
    (hsend : call ≠ .send) (hreceive : call ≠ .receive) : mailboxes = k.mailboxes := by
  cases h with
  | keep => rfl
  | send => exact absurd rfl hsend
  | receive => exact absurd rfl hreceive

/-- Whoever waits for a message goes on waiting or is handed one. -/
theorem MailMove.mem_waitingAt {mailboxes : MailboxTable} {index : MailboxId}
    (h : MailMove k caller call arguments mailboxes)
    (hmem : pid ∈ k.mailboxes.waitingAt index) :
    pid ∈ mailboxes.waitingAt index ∨
      call = .send ∧ index.val = arguments.first.toNat ∧ ∃ message stamped handoff tasks,
        (k.mailboxes.send arguments.first message caller k.clock.now k.tasks).outcome =
          .ok ((stamped, some handoff), mailboxes, tasks) ∧ handoff.receiver = pid := by
  have hother {place : MailboxId}
      (hothers : ∀ other, other ≠ place → mailboxes.box other = k.mailboxes.box other)
      (hne : index ≠ place) : pid ∈ mailboxes.waitingAt index := by
    rw [MailboxTable.waitingAt, hothers index hne]
    exact hmem
  cases h with
  | keep => exact .inl hmem
  | send hsend =>
      obtain ⟨place, hplace, _, hothers, hcases⟩ := MailboxTable.send_cases hsend
      by_cases hself : index = place
      · subst hself
        rcases hcases with ⟨_, _, hnobody, _⟩ | ⟨receiver, slot, destination, oldest, rfl, hwaiting, _⟩
        · rw [hnobody] at hmem
          exact absurd hmem List.not_mem_nil
        · rw [hwaiting] at hmem
          rcases List.mem_cons.1 hmem with rfl | hrest
          · exact .inr ⟨rfl, hplace, _, _, _, _, hsend, rfl⟩
          · exact .inl hrest
      · exact .inl (hother hothers hself)
  | receive hreceive =>
      obtain ⟨place, _, hothers, hcases⟩ := MailboxTable.receive_cases hreceive
      by_cases hself : index = place
      · subst hself
        rcases hcases with ⟨hsame, _⟩ | ⟨_, _, _, hwaiting, _⟩
        · exact .inl (hsame ▸ hmem)
        · rw [hwaiting]
          exact .inl (List.mem_append_left _ hmem)
      · exact .inl (hother hothers hself)

/-- Only receiving makes anybody wait. -/
theorem MailMove.of_mem_waitingAt {mailboxes : MailboxTable} {index : MailboxId}
    (h : MailMove k caller call arguments mailboxes) (hmem : pid ∈ mailboxes.waitingAt index)
    (habsent : pid ∉ k.mailboxes.waitingAt index) :
    call = .receive ∧ index.val = arguments.first.toNat := by
  have hplace {place : MailboxId}
      (hothers : ∀ other, other ≠ place → mailboxes.box other = k.mailboxes.box other) :
      index = place := by
    by_contra hne
    rw [MailboxTable.waitingAt, hothers index hne] at hmem
    exact habsent hmem
  cases h with
  | keep => exact absurd hmem habsent
  | send hsend =>
      obtain ⟨place, _, _, hothers, hcases⟩ := MailboxTable.send_cases hsend
      obtain rfl := hplace hothers
      rcases hcases with ⟨_, _, _, hnobody, _⟩ | ⟨receiver, _, _, _, _, hwaiting, _⟩
      · rw [hnobody] at hmem
        exact absurd hmem List.not_mem_nil
      · rw [hwaiting] at habsent
        exact absurd (List.mem_cons_of_mem _ hmem) habsent
  | receive hreceive =>
      obtain ⟨place, hindex, hothers, _⟩ := MailboxTable.receive_cases hreceive
      obtain rfl := hplace hothers
      exact ⟨rfl, hindex⟩

section

variable [Platform P] {k' : Kernel P}

theorem Served.mailMove {result : Except Stop Int64} (hserved : Served k call arguments result k')
    (hcaller : k.current = some caller) (hresult : ∀ fault, result ≠ .error (.fault fault)) :
    MailMove k caller call arguments k'.mailboxes := by
  have hself {other : Pid} (hcurrent : k.current = some other) : other = caller :=
    Option.some.inj (hcurrent.symm.trans hcaller)
  cases hserved with
  | fault => exact absurd rfl (hresult _)
  | lost => exact absurd rfl (hresult _)
  | send hcurrent hsend => exact .send (hself hcurrent ▸ hsend)
  | deliver hcurrent hsend => exact .send (hself hcurrent ▸ hsend)
  | receive hcurrent hreceive => exact .receive (hself hcurrent ▸ hreceive)
  | refused | answered | exec | exit | sleep | yield | mutexAlloc | mutexFree | mutexLock
  | mutexUnlock => exact .keep

theorem Dispatched.mailMove {value : Int64}
    (hdispatched : Dispatched k call.number arguments (.ok value) k')
    (hcaller : k.current = some caller) : MailMove k caller call arguments k'.mailboxes := by
  cases hdispatched with
  | value hcall hserved =>
      rw [Call.ofNumber?_number] at hcall
      injection hcall with heq
      exact heq ▸ hserved.mailMove hcaller fun _ h => by contradiction
  | refused hcall hserved =>
      rw [Call.ofNumber?_number] at hcall
      injection hcall with heq
      exact heq ▸ hserved.mailMove hcaller fun _ h => by injection h; contradiction

/-- The mailboxes behind a moment at which a call is made. -/
theorem Moment.Calls.mailMove (hcalls : m.Calls caller call arguments)
    (hdone : m.deed.carryOut m.before = .ok () m.after) (hk : m.before.Coherent) :
    ∃ frame saved, m.deed = .trap frame ∧ saveContext frame m.before = .ok () saved ∧
      saved.mailboxes = m.before.mailboxes ∧
      MailMove saved caller call arguments m.after.mailboxes := by
  obtain ⟨frame, saved, value, answered, served, hstaged⟩ := hcalls.staged hdone hk
  have hsaved : saved.mailboxes = m.before.mailboxes :=
    (inner_mailboxes.saveContext frame m.before).of_ok hstaged.save
  have hafter : m.after.mailboxes = answered.mailboxes :=
    (inner_mailboxes.finished hstaged.finished).trans hstaged.answered.tables.2.1
  refine ⟨frame, saved, hstaged.deed, hstaged.save, hsaved, hafter ▸ ?_⟩
  exact ((leads_dispatch _ _ saved).of_ok hstaged.dispatch).mailMove hstaged.current

/-- What the record says that a trap did to a mutex, its call did. -/
theorem calls_of_mutexCall? {frame : Frame} {next : Option Pid} (hdeed : m.deed = .trap frame)
    (hcall : (Happening.trap m.before.current frame (answer frame m.before) next :
      Happening P).mutexCall? caller id = some call) :
    ∃ arguments, m.Calls caller call arguments ∧ arguments.first = id := by
  unfold Happening.mutexCall? at hcall
  split at hcall
  · rename_i other other' answered value next' heq
    injection heq with hcurrent hframe hanswer
    subst hframe
    split at hcall
    · rename_i hself
      obtain ⟨found, hnumber, hdid⟩ := Option.bind_eq_some_iff.1 hcall
      unfold carriedOut at hdid
      split at hdid
      · rename_i hmade
        injection hdid with heq
        subst heq
        refine ⟨frame.arguments, ⟨frame, hdeed, ?_, hself ▸ hcurrent,
          Call.number_of_ofNumber? hnumber, rfl⟩, hmade.2.1⟩
        unfold answer at hanswer
        split at hanswer
        · assumption
        · contradiction
      · contradiction
    · contradiction
  · contradiction

/-- The tickets of a mutex at a moment at which a call is made. -/
theorem Moment.Calls.ticketMove (hcalls : m.Calls caller call arguments)
    (hdone : m.deed.carryOut m.before = .ok () m.after) (hk : m.before.Coherent) (id : UInt64) :
    ∃ done, TicketMove caller done (m.before.mutexes.ticketsAt id)
      (m.after.mutexes.ticketsAt id) ∧
      ∀ made, done = some made → made = call ∧ arguments.first = id := by
  have hparts := hcalls
  obtain ⟨frame, hdeed, _, hcurrent, _⟩ := hparts
  rw [hdeed] at hdone
  obtain ⟨resumed, htrap⟩ := exists_of_discard hdone
  refine ⟨_, ticketMove_trap htrap hk hcurrent none id, fun made hmade => ?_⟩
  obtain ⟨others, hother, rfl⟩ := calls_of_mutexCall? hdeed hmade
  obtain ⟨_, rfl, rfl⟩ := hcalls.unique hother
  exact ⟨rfl, rfl⟩

/-! ## How waiting ends -/

/-- The owner of a mutex unlocks it, and it goes to `pid`. -/
def Moment.HandsOver (m : Moment P) (id : UInt64) (pid : Pid) : Prop :=
  ∃ owner arguments, m.Calls owner .mutexUnlock arguments ∧ arguments.first = id ∧
    m.before.mutexes.ownerOf id = some owner ∧ m.after.mutexes.ownerOf id = some pid

/-- A message is sent to a mailbox and handed to `pid`. -/
def Moment.HandsMessage (m : Moment P) (id : UInt64) (pid : Pid) : Prop :=
  ∃ sender arguments frame saved message stamped handoff tasks,
    m.Calls sender .send arguments ∧ arguments.first = id ∧
    m.deed = .trap frame ∧ saveContext frame m.before = .ok () saved ∧
    (saved.mailboxes.send id message sender saved.clock.now saved.tasks).outcome =
      .ok ((stamped, some handoff), m.after.mailboxes, tasks) ∧
    handoff.receiver = pid

/-- Whoever waits for a mutex goes on waiting or gets it. -/
theorem mem_tail_or_handsOver (hordinary : m.deed.ordinary)
    (hdone : m.deed.carryOut m.before = .ok () m.after) (hk : m.before.Coherent)
    (hsettled : m.before.tasks.Settled) (hmem : pid ∈ (m.before.mutexes.ticketsAt id).tail) :
    pid ∈ (m.after.mutexes.ticketsAt id).tail ∨ m.HandsOver id pid := by
  rcases calls_or_kept inner_mutexes hordinary hdone hk with ⟨caller, call, arguments, hcalls⟩ | hsame
  · obtain ⟨done, hmove, hmade⟩ := hcalls.ticketMove hdone hk id
    rcases hmove.mem_tail hmem with hstays | ⟨hdid, hbefore, hafter⟩
    · exact .inl hstays
    · have hk' := (Deed.coherent hordinary hdone hk hsettled).1
      obtain ⟨rfl, hfirst⟩ := hmade _ hdid
      exact .inr ⟨caller, arguments, hcalls, hfirst, (hk.mutexes.ownerOf id).trans hbefore,
        (hk'.mutexes.ownerOf id).trans hafter⟩
  · rw [hsame]
    exact .inl hmem

/-- Whoever waits for a message goes on waiting or gets one. -/
theorem mem_waitingAt_or_handsMessage {index : MailboxId} (hindex : index.val = id.toNat)
    (hordinary : m.deed.ordinary) (hdone : m.deed.carryOut m.before = .ok () m.after)
    (hk : m.before.Coherent) (hmem : pid ∈ m.before.mailboxes.waitingAt index) :
    pid ∈ m.after.mailboxes.waitingAt index ∨ m.HandsMessage id pid := by
  rcases calls_or_kept inner_mailboxes hordinary hdone hk with
    ⟨caller, call, arguments, hcalls⟩ | hsame
  · obtain ⟨frame, saved, hdeed, hsave, hsaved, hmove⟩ := hcalls.mailMove hdone hk
    rcases hmove.mem_waitingAt (hsaved ▸ hmem) with
      hstays | ⟨rfl, hplace, message, stamped, handoff, tasks, hsend, hreceiver⟩
    · exact .inl hstays
    · have hfirst : arguments.first = id := UInt64.toNat_inj.1 (hplace.symm.trans hindex)
      exact .inr ⟨caller, arguments, frame, saved, message, stamped, handoff, tasks, hcalls, hfirst,
        hdeed, hsave, hfirst ▸ hsend, hreceiver⟩
  · rw [hsame]
    exact .inl hmem

/-! ## How waiting begins -/

/-- Whoever waits behind its call is queued for what it asked for. -/
theorem Moment.Calls.waits (hcalls : m.Calls pid call arguments) (hordinary : m.deed.ordinary)
    (hdone : m.deed.carryOut m.before = .ok () m.after) (hk : m.before.Coherent)
    (hsettled : m.before.tasks.Settled) (hidle : pid ≠ .idle)
    (hwaiting : m.after.tasks.stateOf pid = some .waiting) :
    call = .mutexLock ∧ pid ∈ (m.after.mutexes.ticketsAt arguments.first).tail ∨
      call = .receive ∧ ∃ index : MailboxId, index.val = arguments.first.toNat ∧
        pid ∈ m.after.mailboxes.waitingAt index := by
  have hk' := (Deed.coherent hordinary hdone hk hsettled).1
  have hparts := hcalls
  obtain ⟨_, _, _, hcurrent, _⟩ := hparts
  -- the caller was active, so it was on no wait queue
  have habsent : pid ∉ m.before.waiters :=
    Coherent.not_mem_waiters hk hidle (Settled.active hsettled hcurrent)
  have hmem : pid ∈ m.after.waiters := by
    apply List.count_pos_iff.1
    rw [hk'.waiting pid hidle, if_pos hwaiting]
    exact Nat.one_pos
  rcases List.mem_append.1 hmem with hmutexes | hmailboxes
  · obtain ⟨id, htail⟩ := hk'.mutexes.mem_waiters_iff.1 hmutexes
    obtain ⟨done, hmove, hmade⟩ := hcalls.ticketMove hdone hk id
    obtain ⟨hdid, _⟩ := hmove.of_mem_tail htail fun hbefore =>
      habsent (List.mem_append_left _ (hk.mutexes.mem_waiters_iff.2 ⟨id, hbefore⟩))
    obtain ⟨rfl, rfl⟩ := hmade _ hdid
    exact .inl ⟨rfl, htail⟩
  · obtain ⟨index, hbox⟩ := MailboxTable.mem_waiters_iff.1 hmailboxes
    obtain ⟨_, saved, _, _, hsaved, hmove⟩ := hcalls.mailMove hdone hk
    obtain ⟨rfl, hindex⟩ := hmove.of_mem_waitingAt hbox fun hbefore =>
      habsent ((m.before.waitingAt_sublist index).subset (hsaved ▸ hbefore))
    exact .inr ⟨rfl, index, hindex, hbox⟩

end

end Kernel

end Timeshare
