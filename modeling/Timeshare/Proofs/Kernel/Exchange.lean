import Timeshare.Proofs.Kernel.Others
import Timeshare.Proofs.Kernel.Unguarded
import Timeshare.Proofs.Kernel.Waits

/-!
# One mailbox at one moment

At a moment of an ordinary course a mailbox accepts a message, or it is asked for one, or
it stays as it is.  A message is buffered if nobody waits and handed over else; who asks
takes the oldest message, or waits if there is none.
-/

namespace Timeshare

/-- The messages that are buffered in the mailbox at an index. -/
abbrev MailboxTable.storedAt (table : MailboxTable) (index : MailboxId) : List Message :=
  (table.box index).buffer.toList

/-- A receiver that is handed a message is queued first, and its registers are written
then. -/
theorem Tasks.answered_of_enqueue {t t' : Tasks} {receiver : Pid} {place slot : Slot}
    {value : Int64} (hsound : t.table.Sound) (hplace : t.table.find? receiver = some place)
    (henqueue : (t.modify place fun p => { p with destination := none }).enqueue place = .ok t')
    (hfind : t'.table.find? receiver = some slot) :
    (t'.modify slot fun p => { p with context := p.context.withResult value }).table.get? receiver =
      some { t.table.block place with
        destination := none, state := .running
        context := (t.table.block place).context.withResult value } ∧
      t'.queue = t.queue ++ [receiver] := by
  obtain ⟨_, hqueued⟩ := rewrite_modify_enqueue hsound hplace
    (ProcessTable.find?_eq_some hplace).1 rfl henqueue
  have hanswered := rewrite_modify
    (f := fun p => { p with context := p.context.withResult value }) hqueued.table hfind
    (ProcessTable.find?_eq_some hfind).1 rfl
  have hblock := ProcessTable.get?_of_find? hfind
  rw [hqueued.get?, if_pos rfl] at hblock
  refine ⟨?_, hqueued.queue⟩
  rw [hanswered.get?, if_pos rfl, ← Option.some.inj hblock]

namespace Kernel

open Machine (Simulated)

/-! ## What is asked of a mailbox -/

/-- A message that a mailbox accepted. -/
structure Posting where
  sender : Pid
  /-- The payload in the memory of the sender. -/
  data : Payload
  /-- The tick at which it was sent. -/
  sent : UInt64
  deriving DecidableEq

/-- The message as it is received at a given tick. -/
def Posting.message (posting : Posting) (received : UInt64) : Message where
  sender := posting.sender.number
  timeSent := posting.sent
  timeReceived := received
  data := posting.data

/-- A process asks for a message, with these registers. -/
structure Request where
  receiver : Pid
  frame : Frame
  deriving DecidableEq

/-- The address of the buffer for the message. -/
def Request.pointer (request : Request) : UInt64 := request.frame.arguments.second

namespace Moment

variable {P : Type} {m : Moment P} {pid caller : Pid} {call other : Call} {frame : Frame}
  {arguments : Arguments}

/-- Who makes a given call, and with which registers. -/
def call? (m : Moment P) (call : Call) : Option (Pid × Frame) :=
  match m.deed, m.before.current with
  | .trap frame, some caller =>
      if frame.vector = callVector ∧ frame.callNumber = call.number then some (caller, frame)
      else none
  | _, _ => none

theorem call?_eq_some_iff : m.call? call = some (caller, frame) ↔
    m.deed = .trap frame ∧ frame.vector = callVector ∧ m.before.current = some caller ∧
      frame.callNumber = call.number := by
  unfold call?
  constructor
  · intro hcall
    split at hcall
    · rename_i hdeed hcurrent
      split at hcall
      · rename_i hmade
        injection hcall with hpair
        injection hpair with hcaller hframe
        subst hcaller hframe
        exact ⟨hdeed, hmade.1, hcurrent, hmade.2⟩
      · contradiction
    · contradiction
  · rintro ⟨hdeed, hvector, hcurrent, hnumber⟩
    rw [hdeed, hcurrent]
    exact if_pos ⟨hvector, hnumber⟩

theorem calls_of_call? (hcall : m.call? call = some (caller, frame)) :
    m.Calls caller call frame.arguments := by
  obtain ⟨hdeed, hvector, hcurrent, hnumber⟩ := call?_eq_some_iff.1 hcall
  exact ⟨frame, hdeed, hvector, hcurrent, hnumber, rfl⟩

theorem call?_eq_none (hcalls : m.Calls pid call arguments) (hother : other ≠ call) :
    m.call? other = none := by
  cases hcall : m.call? other with
  | none => rfl
  | some found => exact absurd ((calls_of_call? hcall).unique hcalls).2.1 hother

end Moment

variable {m : Moment Simulated} {index : MailboxId} {pid receiver : Pid} {request : Request}

/-- The message that a mailbox accepts: a send to it that is answered with 0. -/
def Moment.posting? (index : MailboxId) (m : Moment Simulated) : Option Posting :=
  (m.call? .send).bind fun (sender, frame) =>
    if index.val = frame.arguments.first.toNat ∧ answer frame m.before = some 0 then
      (m.before.platform.memory.read frame.arguments.second wireSize).toOption.map fun bytes =>
        ⟨sender, Message.payload bytes, m.before.clock.now⟩
    else none

/-- Who asks a mailbox for a message, if the buffer can be read.  At the null address it
cannot. -/
def Moment.request? (index : MailboxId) (m : Moment Simulated) : Option Request :=
  (m.call? .receive).bind fun (receiver, frame) =>
    if index.val = frame.arguments.first.toNat ∧
        (m.before.platform.memory.read frame.arguments.second wireSize).toOption.isSome then
      some ⟨receiver, frame⟩
    else none

theorem Moment.request?_eq_some_iff : m.request? index = some request ↔
    m.call? .receive = some (request.receiver, request.frame) ∧
      index.val = request.frame.arguments.first.toNat ∧
      ∃ bytes : Wire, m.before.platform.memory.read request.pointer wireSize = .ok bytes := by
  unfold Moment.request?
  rw [Option.bind_eq_some_iff]
  constructor
  · rintro ⟨⟨receiver, frame⟩, hcall, hchecks⟩
    dsimp only at hchecks
    split at hchecks
    · rename_i hpassed
      injection hchecks with heq
      subst heq
      obtain ⟨bytes, hbytes⟩ := Option.isSome_iff_exists.1 hpassed.2
      refine ⟨hcall, hpassed.1, bytes, ?_⟩
      exact toOption_eq_some_iff.1 hbytes
    · contradiction
  · rintro ⟨hcall, hindex, bytes, hread⟩
    refine ⟨_, hcall, if_pos ⟨hindex, ?_⟩⟩
    rw [show m.before.platform.memory.read request.frame.arguments.second wireSize = .ok bytes
      from hread]
    rfl

/-- A receive from another mailbox, or with a bad buffer, is no request. -/
theorem Moment.request?_of_call? {frame : Frame} (hcall : m.call? .receive = some (pid, frame))
    (hbad : ¬ (index.val = frame.arguments.first.toNat ∧ ∃ bytes : Wire,
      m.before.platform.memory.read frame.arguments.second wireSize = .ok bytes)) :
    m.request? index = none := by
  cases hrequest : m.request? index with
  | none => rfl
  | some request =>
      obtain ⟨hcall', hasks⟩ := Moment.request?_eq_some_iff.1 hrequest
      obtain rfl := (Prod.mk.inj (Option.some.inj (hcall.symm.trans hcall'))).2
      exact absurd hasks hbad

theorem Moment.posting?_eq_none (hcall : m.call? .send = none) : m.posting? index = none := by
  rw [Moment.posting?, hcall]
  rfl

theorem Moment.request?_eq_none (hcall : m.call? .receive = none) : m.request? index = none := by
  rw [Moment.request?, hcall]
  rfl

/-! ## What it leads to -/

/-- Behind the moment a message is in memory. -/
def Moment.Leaves (m : Moment Simulated) (pointer : UInt64) (message : Message) : Prop :=
  m.after.platform.memory.read pointer wireSize = .ok message.encode

/-- The handler of a trap leaves a process ready, behind all others, with these registers. -/
def Moment.Wakes (m : Moment Simulated) (pid : Pid) (context : Frame) : Prop :=
  ∃ frame served p, m.deed = .trap frame ∧ enter frame m.before = .ok () served ∧
    served.tasks.table.get? pid = some p ∧ p.state = .running ∧ p.context = context ∧
    served.tasks.queue.getLast? = some pid

/-- The process waits for the message it asked for; its call is already answered with 0. -/
def Parked (k : Kernel Simulated) (request : Request) : Prop :=
  ∃ p, k.tasks.table.get? request.receiver = some p ∧ p.state = .waiting ∧
    p.destination = some request.pointer ∧ p.context = request.frame.withResult 0

/-- What can happen to one mailbox. -/
inductive Exchange (index : MailboxId) (m : Moment Simulated) : Prop
  | quiet (hposting : m.posting? index = none) (hrequest : m.request? index = none)
      (hbox : m.after.mailboxes.box index = m.before.mailboxes.box index)
  | buffered {posting : Posting} (hposting : m.posting? index = some posting)
      (hrequest : m.request? index = none) (hnobody : m.before.mailboxes.waitingAt index = [])
      (hwaiting : m.after.mailboxes.waitingAt index = [])
      (hstored : m.after.mailboxes.storedAt index =
        m.before.mailboxes.storedAt index ++ [posting.message 0])
  | handed {posting : Posting} {receiver : Pid} {oldest : Message} {p : Process}
      {destination : UInt64} (hposting : m.posting? index = some posting)
      (hrequest : m.request? index = none)
      (hwaiting : m.before.mailboxes.waitingAt index =
        receiver :: m.after.mailboxes.waitingAt index)
      (hstored : m.before.mailboxes.storedAt index ++ [posting.message 0] =
        oldest :: m.after.mailboxes.storedAt index)
      (hget : m.before.tasks.table.get? receiver = some p)
      (hdestination : p.destination = some destination)
      (hdone : (∃ bytes : Wire, m.before.platform.memory.read destination wireSize = .ok bytes) →
        m.Leaves destination { oldest with timeReceived := m.before.clock.now } ∧
          m.Wakes receiver (p.context.withResult 0))
  | taken {request : Request} {oldest : Message} (hposting : m.posting? index = none)
      (hrequest : m.request? index = some request)
      (hwaiting : m.after.mailboxes.waitingAt index = m.before.mailboxes.waitingAt index)
      (hstored : m.before.mailboxes.storedAt index = oldest :: m.after.mailboxes.storedAt index)
      (hdone : m.Leaves request.pointer { oldest with timeReceived := m.before.clock.now })
  | blocked {request : Request} (hposting : m.posting? index = none)
      (hrequest : m.request? index = some request)
      (hnothing : m.before.mailboxes.storedAt index = [])
      (hstored : m.after.mailboxes.storedAt index = [])
      (hwaiting : m.after.mailboxes.waitingAt index =
        m.before.mailboxes.waitingAt index ++ [request.receiver])
      (hparked : m.after.Parked request)

/-! ## The stages of a call -/

theorem apart_memory : Apart fun k : Kernel Simulated => k.platform.memory := by
  refine ⟨fun _ _ => rfl, fun _ _ => rfl, fun _ _ => rfl, fun _ _ => rfl, fun _ _ => rfl, ?_,
    fun _ => rfl, fun _ => rfl, fun _ _ _ _ _ => rfl⟩
  intro k
  show k.platform.takeKey.2.memory = k.platform.memory
  unfold Simulated.takeKey
  split <;> rfl

theorem Saved.machine {P : Type} {k k' : Kernel P} {frame : Frame}
    (hsaved : Saved frame k (.ok ()) k') :
    k'.mailboxes = k.mailboxes ∧ k'.platform = k.platform ∧ k'.clock = k.clock := by
  cases hsaved <;> exact ⟨rfl, rfl, rfl⟩

theorem Answered.get?_of_ne {P : Type} {k k' : Kernel P} {value : Int64}
    (hanswered : Answered pid value k k') (hother : receiver ≠ pid) :
    k'.tasks.table.get? receiver = k.tasks.table.get? receiver := by
  cases hanswered with
  | gone => rfl
  | saved hfind =>
      exact Tasks.get?_modify_of_ne hfind (ProcessTable.find?_eq_some hfind).1 rfl hother

theorem Answered.queue {P : Type} {k k' : Kernel P} {value : Int64}
    (hanswered : Answered pid value k k') : k'.tasks.queue = k.tasks.queue := by
  cases hanswered <;> rfl

namespace Staged

variable {call : Call} {arguments : Arguments} {value : Int64} {frame : Frame}
  {saved answered served : Kernel Simulated}

theorem call? (h : Staged m pid call arguments value frame saved answered served)
    (hcalls : m.Calls pid call arguments) :
    m.call? call = some (pid, frame) ∧ frame.arguments = arguments := by
  obtain ⟨other, hdeed, hvector, hcurrent, hnumber, harguments⟩ := hcalls
  obtain rfl : other = frame := Deed.trap.inj (hdeed.symm.trans h.deed)
  exact ⟨Moment.call?_eq_some_iff.2 ⟨hdeed, hvector, hcurrent, hnumber⟩, harguments⟩

/-- Behind its handler a trap touches neither mailboxes nor memory. -/
theorem ends (h : Staged m pid call arguments value frame saved answered served) :
    m.after.mailboxes = answered.mailboxes ∧
      m.after.platform.memory = answered.platform.memory := by
  obtain ⟨_, hmailboxes, hplatform, _⟩ := h.answered.tables
  have hmemory : m.after.platform.memory = served.platform.memory :=
    apart_memory.finished h.finished
  exact ⟨(inner_mailboxes.finished h.finished).trans hmailboxes, hmemory.trans (by rw [hplatform])⟩

/-- A receiver that is handed a message is left ready, behind all others, with 0 in its
registers. -/
theorem wakes {message stamped : Message} {mailboxes : MailboxTable} {tasks : Tasks}
    {given : Handoff} {slot : Slot} {id now : UInt64} {p : Process}
    (h : Staged m pid call arguments value frame saved answered served) (hk : saved.Coherent)
    (hsend : (saved.mailboxes.send id message pid now saved.tasks).outcome =
      .ok ((stamped, some given), mailboxes, tasks))
    (hget : saved.tasks.table.get? given.receiver = some p) (hother : given.receiver ≠ pid)
    (hfind : tasks.table.find? given.receiver = some slot)
    (hhanded : Handed tasks given slot answered) :
    m.Wakes given.receiver (p.context.withResult 0) := by
  obtain ⟨_, _, _, _, hcases⟩ := MailboxTable.send_cases hsend
  rcases hcases with ⟨hnone, _⟩ |
    ⟨receiver, place, destination, oldest, hgiven, _, _, hplace, _, henqueue⟩
  · contradiction
  obtain rfl : receiver = given.receiver := by injection hgiven with heq; rw [heq]
  have hp : saved.tasks.table.block place = p := by
    rw [ProcessTable.get?_of_find? hplace] at hget
    exact Option.some.inj hget
  obtain ⟨hanswered, hqueue⟩ := Tasks.answered_of_enqueue hk.tasks.table hplace henqueue hfind
  rw [← hhanded.tasks, hp] at hanswered
  refine ⟨frame, served, _, h.deed, h.enter, (h.answered.get?_of_ne hother).trans hanswered, rfl,
    rfl, ?_⟩
  rw [h.answered.queue, hhanded.tasks]
  show tasks.queue.getLast? = _
  rw [hqueue, List.getLast?_concat]

/-- An accepted message is buffered, or handed over to who has waited longest. -/
theorem exchange_sent {bytes : Wire} {handoff : Option Handoff} {tasks : Tasks}
    (h : Staged m pid .send frame.arguments 0 frame saved answered served) (hk : m.before.Coherent)
    (hidle : ∀ receiver ∈ m.before.mailboxes.waitingAt index, receiver ≠ .idle)
    (hindex : index.val = frame.arguments.first.toNat)
    (hposting : m.posting? index = some ⟨pid, Message.payload bytes, m.before.clock.now⟩)
    (hrequest : m.request? index = none)
    (hsent : Sent saved frame.arguments.first pid bytes handoff tasks answered) :
    Exchange index m := by
  have hsaved := (leads_saveContext frame m.before).of_ok h.save
  have hk₀ := hsaved.coherent hk
  obtain ⟨hmailboxes, hplatform, hclock⟩ := hsaved.machine
  obtain ⟨hafter, hmemory⟩ := h.ends
  obtain ⟨own, hown, _, _, hcases⟩ := MailboxTable.send_cases hsent.send
  obtain rfl : index = own := Fin.ext (hindex.trans hown.symm)
  have hstamp : MailboxTable.stamp (Message.decode bytes) pid saved.clock.now =
      Posting.message ⟨pid, Message.payload bytes, m.before.clock.now⟩ 0 := by
    rw [hclock]
    rfl
  rw [hstamp, hmailboxes, ← hafter] at hcases
  rcases hcases with ⟨_, _, hnobody, hwaiting, hstored⟩ | ⟨receiver, slot, destination,
    oldest, hgiven, hwaiting, hstored, hfind, hdestination, _⟩
  · exact .buffered hposting hrequest hnobody hwaiting hstored
  have hmem : receiver ∈ m.before.mailboxes.waitingAt index := by
    rw [hwaiting]
    exact List.mem_cons_self
  -- the sender is active, and the receiver is not
  have hother : receiver ≠ pid := by
    rintro rfl
    refine Coherent.not_mem_waiters hk₀ (hidle receiver hmem)
      (hk₀.engaged receiver h.current (hidle receiver hmem)) ?_
    exact (saved.waitingAt_sublist index).subset (hmailboxes ▸ hmem)
  have hcaller : m.before.current ≠ some receiver := by
    rw [← hsaved.current, h.current]
    exact fun heq => hother (Option.some.inj heq).symm
  have hget := ProcessTable.get?_of_find? hfind
  refine .handed hposting hrequest hwaiting hstored ((hsaved.others hcaller).symm.trans hget)
    hdestination ?_
  rintro ⟨buffer, hbuffer⟩
  subst hgiven
  rw [← hplatform] at hbuffer
  obtain ⟨place, hplace, hhanded⟩ := hsent.handed _ rfl ⟨buffer, hbuffer⟩
  refine ⟨?_, h.wakes hk₀ hsent.send hget hother hplace hhanded⟩
  rw [Moment.Leaves, hmemory, ← hclock]
  exact hhanded.memory

theorem exchange_send (h : Staged m pid .send arguments value frame saved answered served)
    (hcalls : m.Calls pid .send arguments) (hguarded : m.before.platform.memory.guarded = [])
    (hk : m.before.Coherent)
    (hidle : ∀ receiver ∈ m.before.mailboxes.waitingAt index, receiver ≠ .idle) :
    Exchange index m := by
  obtain ⟨hcall, rfl⟩ := h.call? hcalls
  have hrequest : m.request? index = none :=
    Moment.request?_eq_none (Moment.call?_eq_none hcalls (by decide))
  have hsaved := (leads_saveContext frame m.before).of_ok h.save
  obtain ⟨hmailboxes, hplatform, _⟩ := hsaved.machine
  have hguarded₀ : saved.platform.memory.guarded = [] := by rw [hplatform, hguarded]
  have hposting : m.posting? index =
      if index.val = frame.arguments.first.toNat ∧ some value = some 0 then
        (m.before.platform.memory.read frame.arguments.second wireSize).toOption.map fun bytes =>
          ⟨pid, Message.payload bytes, m.before.clock.now⟩
      else none := by
    rw [Moment.posting?, hcall, ← h.answer]
    rfl
  rcases dispatch_eq_ok h.dispatch with hserve | ⟨reason, k₁, hserve, rfl, hreported⟩
  · obtain ⟨rfl, sender, bytes, handoff, tasks, hcurrent, hread, hsent⟩ :=
      (leads_send_sent _ _ hguarded₀).of_ok hserve value rfl
    obtain rfl : sender = pid := Option.some.inj (hcurrent.symm.trans h.current)
    by_cases hindex : index.val = frame.arguments.first.toNat
    · rw [if_pos ⟨hindex, rfl⟩, ← hplatform, hread] at hposting
      exact h.exchange_sent hk hidle hindex hposting hrequest hsent
    · -- the message went to another mailbox
      rw [if_neg fun hown => hindex hown.1] at hposting
      obtain ⟨own, hown, _, hothers, _⟩ := MailboxTable.send_cases hsent.send
      refine .quiet hposting hrequest ?_
      rw [h.ends.1, hothers index fun heq => hindex (heq ▸ hown), hmailboxes]
  · rw [if_neg fun hzero => absurd hzero.2 (by decide)] at hposting
    have hundone : OnlyReported saved k₁ := (undone_serve .send frame.arguments
      (hsaved.coherent hk).mutexes (writable_of_guarded hguarded₀)).of_error hserve
    refine .quiet hposting hrequest ?_
    rw [h.ends.1, hreported, ← hmailboxes, ← hundone.mailboxes]

/-- A receiver that finds no message is left waiting, answered with 0. -/
theorem parked {slot : Slot} (h : Staged m pid call arguments 0 frame saved answered served)
    (hsaved : Saved frame m.before (.ok ()) saved) (hk : m.before.Coherent)
    (hsettled : m.before.tasks.Settled) (hidle : pid ≠ .idle)
    (hfind : saved.tasks.table.find? pid = some slot)
    (hpark : (saved.tasks.modify slot fun p =>
      { p with destination := some frame.arguments.second }).park pid = .ok answered.tasks) :
    m.after.Parked ⟨pid, frame⟩ := by
  have hget := ProcessTable.get?_of_find? hfind
  have hcontext := hsaved.context hk h.current hget
  have hrewrite := Tasks.rewrite_modify_park (hsaved.coherent hk).tasks.table hfind
    (ProcessTable.find?_eq_some hfind).1 rfl hpark
  have hserved := h.answered.get? hrewrite.table ((hrewrite.get? pid).trans (if_pos rfl))
  obtain ⟨k₁, transition, hattend, hschedule⟩ := h.finished
  rcases resting_of_rest hattend hschedule (coherent_enter h.enter hk hsettled.engaged) hidle
    hserved (.inr rfl) with hrests | ⟨hsleeping, _⟩
  · exact ⟨_, hrests, rfl, rfl, by rw [hcontext]⟩
  · contradiction

/-- Who asks takes the oldest message, or waits if there is none. -/
theorem exchange_received {received : Received}
    (h : Staged m pid .receive frame.arguments 0 frame saved answered served)
    (hk : m.before.Coherent) (hsettled : m.before.tasks.Settled) (hidle : pid ≠ .idle)
    (hindex : index.val = frame.arguments.first.toNat) (hposting : m.posting? index = none)
    (hrequest : m.request? index = some ⟨pid, frame⟩)
    (hfetched : Fetched saved frame.arguments.first frame.arguments.second pid received answered) :
    Exchange index m := by
  have hsaved := (leads_saveContext frame m.before).of_ok h.save
  obtain ⟨hmailboxes, _, hclock⟩ := hsaved.machine
  obtain ⟨hafter, hmemory⟩ := h.ends
  obtain ⟨own, hown, _, hcases⟩ := MailboxTable.receive_cases hfetched.receive
  obtain rfl : index = own := Fin.ext (hindex.trans hown.symm)
  rw [hmailboxes, ← hafter] at hcases
  rcases hcases with ⟨hwaiting, _, oldest, hmessage, hstored⟩ |
    ⟨_, hnothing, hbuffer, hwaiting, slot, hfind, hpark⟩
  · refine .taken hposting hrequest hwaiting hstored ?_
    rw [Moment.Leaves, hmemory, ← hclock]
    exact hfetched.memory _ hmessage
  · refine .blocked hposting hrequest hnothing ?_ hwaiting ?_
    · rw [MailboxTable.storedAt, hbuffer]
      exact hnothing
    · exact h.parked hsaved hk hsettled hidle hfind hpark

theorem exchange_receive (h : Staged m pid .receive arguments value frame saved answered served)
    (hcalls : m.Calls pid .receive arguments) (hguarded : m.before.platform.memory.guarded = [])
    (hk : m.before.Coherent) (hsettled : m.before.tasks.Settled) (hidle : pid ≠ .idle) :
    Exchange index m := by
  obtain ⟨hcall, rfl⟩ := h.call? hcalls
  have hposting : m.posting? index = none :=
    Moment.posting?_eq_none (Moment.call?_eq_none hcalls (by decide))
  have hsaved := (leads_saveContext frame m.before).of_ok h.save
  obtain ⟨hmailboxes, hplatform, _⟩ := hsaved.machine
  have hguarded₀ : saved.platform.memory.guarded = [] := by rw [hplatform, hguarded]
  have hends := leads_receive_received (k := saved) frame.arguments.first frame.arguments.second
    hguarded₀
  rcases dispatch_eq_ok h.dispatch with hserve | ⟨reason, k₁, hserve, _, hreported⟩
  · obtain ⟨rfl, receiver, bytes, received, hcurrent, hread, hfetched⟩ := hends.of_ok hserve
    obtain rfl : receiver = pid := Option.some.inj (hcurrent.symm.trans h.current)
    by_cases hindex : index.val = frame.arguments.first.toNat
    · exact h.exchange_received hk hsettled hidle hindex hposting
        (Moment.request?_eq_some_iff.2 ⟨hcall, hindex, bytes, hplatform ▸ hread⟩) hfetched
    · -- another mailbox was asked
      obtain ⟨own, hown, hothers, _⟩ := MailboxTable.receive_cases hfetched.receive
      refine .quiet hposting (Moment.request?_of_call? hcall fun hasks => hindex hasks.1) ?_
      rw [h.ends.1, hothers index fun heq => hindex (heq ▸ hown), hmailboxes]
  · have hnone : m.request? index = none := by
      refine Moment.request?_of_call? hcall fun ⟨hindex, bytes, hread⟩ => ?_
      exact hends.of_error hserve pid bytes index h.current (hplatform ▸ hread) hindex
    have hundone : OnlyReported saved k₁ := (undone_serve .receive frame.arguments
      (hsaved.coherent hk).mutexes (writable_of_guarded hguarded₀)).of_error hserve
    refine .quiet hposting hnone ?_
    rw [h.ends.1, hreported, ← hmailboxes, ← hundone.mailboxes]

end Staged

/-- At a moment of an ordinary course at which idle makes no call, on a machine without guarded
memory, a mailbox accepts a message, or it is asked for one, or it stays as it is. -/
theorem exchange_of_ordinary (index : MailboxId) (hordinary : m.deed.ordinary)
    (hguarded : m.before.platform.memory.guarded = [])
    (hcaller : ∀ call frame, m.call? call ≠ some (.idle, frame))
    (hdone : m.deed.carryOut m.before = .ok () m.after) (hk : m.before.Coherent)
    (hsettled : m.before.tasks.Settled)
    (hidle : ∀ receiver ∈ m.before.mailboxes.waitingAt index, receiver ≠ .idle) :
    Exchange index m := by
  by_cases hcall : ∃ pid call arguments, m.Calls pid call arguments
  · obtain ⟨pid, call, arguments, hcalls⟩ := hcall
    obtain ⟨frame, saved, value, answered, served, hstaged⟩ := hcalls.staged hdone hk
    by_cases hsend : call = .send
    · subst hsend
      exact hstaged.exchange_send hcalls hguarded hk hidle
    by_cases hreceive : call = .receive
    · subst hreceive
      refine hstaged.exchange_receive hcalls hguarded hk hsettled fun heq => ?_
      exact hcaller _ _ (heq ▸ (hstaged.call? hcalls).1)
    · -- the other calls have nothing to do with mailboxes
      refine .quiet (Moment.posting?_eq_none (Moment.call?_eq_none hcalls (Ne.symm hsend)))
        (Moment.request?_eq_none (Moment.call?_eq_none hcalls (Ne.symm hreceive))) ?_
      obtain ⟨_, saved, _, _, hsaved, hmove⟩ := hcalls.mailMove hdone hk
      rw [hmove.kept hsend hreceive, hsaved]
  · have hnone (call : Call) : m.call? call = none := by
      cases hmade : m.call? call with
      | none => rfl
      | some made => exact absurd ⟨_, _, _, Moment.calls_of_call? hmade⟩ hcall
    refine .quiet (Moment.posting?_eq_none (hnone _)) (Moment.request?_eq_none (hnone _)) ?_
    rw [(calls_or_kept inner_mailboxes hordinary hdone hk).resolve_left hcall]

end Kernel

end Timeshare
