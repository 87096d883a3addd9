import Timeshare.Proofs.Kernel.Replay
import Timeshare.Proofs.Machine.Memory
import Timeshare.Proofs.Tasks.Moved

/-!
# Messages and memory that cannot be written

A message is read from the memory of its sender and written to that of its
receiver.  Both calls look whether the memory can be read before they turn to the
mailbox, and write to it afterwards.  A refused call has changed nothing but the
journal, unless its pointer leads to memory that can be read and must not be
written: then the mailbox has already served the call.
-/

namespace Timeshare.Kernel

open Machine (Memory Simulated)

variable {k k' : Kernel Simulated} {mailbox pointer : UInt64}

/-- Events were reported, and nothing else happened. -/
def OnlyReported (k k' : Kernel Simulated) : Prop :=
  ∃ journal, k' = { k with platform := { k.platform with journal } }

theorem OnlyReported.refl (k : Kernel Simulated) : OnlyReported k k := ⟨k.platform.journal, rfl⟩

theorem OnlyReported.trans {k'' : Kernel Simulated} (h : OnlyReported k k')
    (h' : OnlyReported k' k'') : OnlyReported k k'' := by
  obtain ⟨_, rfl⟩ := h
  obtain ⟨journal, rfl⟩ := h'
  exact ⟨journal, rfl⟩

theorem OnlyReported.log (event : Journal.Event) (k : Kernel Simulated) :
    OnlyReported k { k with platform := Platform.log event k.platform } :=
  ⟨k.platform.journal.push event, rfl⟩

theorem OnlyReported.mailboxes (h : OnlyReported k k') : k'.mailboxes = k.mailboxes := by
  obtain ⟨_, rfl⟩ := h
  rfl

theorem onlyReported_log_all (events : List Journal.Event) (k : Kernel Simulated) :
    OnlyReported k
      { k with platform := events.foldl (fun p event => Platform.log event p) k.platform } := by
  induction events generalizing k with
  | nil => exact .refl k
  | cons event rest ih => exact (OnlyReported.log event k).trans (ih _)

/-- An operation on tables reports to the machine and does nothing else to it. -/
theorem onlyReported_perform {ε α : Type} (r : Run ε α) (k : Kernel Simulated) :
    Leads (perform r k) fun result k' => result = r.outcome ∧ OnlyReported k k' := by
  have hreported := onlyReported_log_all r.events k
  unfold perform
  cases houtcome : r.outcome with
  | ok a => exact ⟨rfl, hreported⟩
  | error e => exact ⟨rfl, hreported⟩

/-- The mailbox would serve the call, and the buffer of the call can be read and must
not be written. -/
def MeetsGuard (k : Kernel Simulated) (mailbox pointer : UInt64) (serves : Mailbox → Prop) : Prop :=
  k.current.isSome ∧ k.platform.memory.ReadOnly pointer wireSize ∧
    ∃ box, k.mailboxes.get? mailbox = some box ∧ serves box

instance (k : Kernel Simulated) (mailbox pointer : UInt64) (serves : Mailbox → Prop)
    [DecidablePred serves] : Decidable (k.MeetsGuard mailbox pointer serves) :=
  decidable_of_iff (k.current.isSome ∧ k.platform.memory.ReadOnly pointer wireSize ∧
      (k.mailboxes.get? mailbox).any fun box => serves box)
    (by simp [MeetsGuard, Option.any_eq_true])

/-- How a refused call leaves the kernel: as it was, but for the journal, or, when the
call met a guard, with a mailbox that has served it.  Nothing is written either way. -/
structure TurnedDown (k : Kernel Simulated) (mailbox pointer : UInt64) (serves : Mailbox → Prop)
    (k' : Kernel Simulated) : Prop where
  memory : k'.platform.memory = k.platform.memory
  ends : OnlyReported k k' ∧ ¬ k.MeetsGuard mailbox pointer serves ∨
    k'.mailboxes ≠ k.mailboxes ∧ k.MeetsGuard mailbox pointer serves

namespace TurnedDown

variable {serves : Mailbox → Prop}

theorem reported (hreported : OnlyReported k k')
    (hguard : ¬ k.MeetsGuard mailbox pointer serves) : TurnedDown k mailbox pointer serves k' := by
  refine ⟨?_, .inl ⟨hreported, hguard⟩⟩
  obtain ⟨_, rfl⟩ := hreported
  rfl

theorem onlyReported_iff (h : TurnedDown k mailbox pointer serves k') :
    OnlyReported k k' ↔ ¬ k.MeetsGuard mailbox pointer serves := by
  rcases h.ends with ⟨hreported, hguard⟩ | ⟨hmailboxes, hguard⟩
  · exact iff_of_true hreported hguard
  · exact iff_of_false (fun h => hmailboxes h.mailboxes) (not_not_intro hguard)

theorem log (event : Journal.Event) (h : TurnedDown k mailbox pointer serves k') :
    TurnedDown k mailbox pointer serves
      { k' with platform := Platform.log event k'.platform } := by
  refine ⟨h.memory, ?_⟩
  rcases h.ends with ⟨hreported, hguard⟩ | hlate
  · exact .inl ⟨hreported.trans (.log event k'), hguard⟩
  · exact .inr hlate

end TurnedDown

/-- A call that did not get at its buffer met no guard. -/
theorem TurnedDown.of_unread {serves : Mailbox → Prop}
    (hunread : ∀ pid (bytes : Wire), k.current = some pid →
      k.platform.memory.read pointer wireSize ≠ .ok bytes) :
    TurnedDown k mailbox pointer serves k := by
  refine .reported (.refl k) fun ⟨hcaller, ⟨⟨bytes, hread⟩, _⟩, _⟩ => ?_
  obtain ⟨pid, hcurrent⟩ := Option.isSome_iff_exists.1 hcaller
  exact hunread pid bytes hcurrent hread

/-- Both calls begin alike: without a caller or a buffer that can be read they are refused. -/
theorem leads_probe {α : Type} {next : Pid → Wire → Handler Simulated α}
    {Q : Except Stop α → Kernel Simulated → Prop}
    (hrefused : ∀ reason, (∀ pid (bytes : Wire), k.current = some pid →
      k.platform.memory.read pointer wireSize ≠ .ok bytes) → Q (.error (.refused reason)) k)
    (hnext : ∀ pid bytes, k.current = some pid →
      k.platform.memory.read pointer wireSize = .ok bytes → Leads (next pid bytes k) Q) :
    Leads ((do
      let pid ← caller
      requirePointer pointer
      let bytes ← read pointer wireSize
      next pid bytes) k) Q := by
  rw [caller_bind]
  split
  · rename_i hnobody
    refine hrefused _ fun pid bytes hcurrent => ?_
    rw [hnobody] at hcurrent
    contradiction
  rename_i pid hcurrent
  rw [requirePointer_bind]
  split
  · rename_i hnull
    refine hrefused _ fun _ bytes _ hread => ?_
    obtain ⟨fault, hfault⟩ := k.platform.memory.read_null wireSize
    rw [hnull, hfault] at hread
    contradiction
  rw [read_bind]
  split
  · rename_i fault hfault
    refine hrefused _ fun _ bytes _ hread => ?_
    rw [show Platform.readMemory k.platform pointer wireSize = .ok bytes from hread] at hfault
    contradiction
  · rename_i bytes hread
    exact hnext pid bytes hcurrent hread

/-- What the machine does for a write is done by its memory. -/
theorem writeMemory_eq (m : Simulated) (address : UInt64) (data : List UInt8) :
    Platform.writeMemory address data m =
      ((m.memory.write address data).1, { m with memory := (m.memory.write address data).2 }) :=
  rfl

/-- Memory that was read and cannot be written is guarded. -/
theorem readOnly_of_write_error {m after : Simulated} {message : Message} {bytes : Wire}
    {fault : MemoryFault}
    (hwrite : Platform.writeMemory pointer message.encode.toList m = (.error fault, after))
    (hread : m.memory.read pointer wireSize = .ok bytes) :
    m.memory.ReadOnly pointer wireSize ∧ after = m := by
  have hlength : message.encode.toList.length = wireSize := Vector.length_toList
  rw [writeMemory_eq] at hwrite
  cases hforbids : m.memory.forbids pointer wireSize with
  | false =>
      obtain ⟨written, hwritten⟩ := Memory.exists_write hread hlength hforbids
      rw [hwritten] at hwrite
      injection hwrite with hresult
      contradiction
  | true =>
      rw [Memory.write_of_forbids (by rwa [hlength])] at hwrite
      injection hwrite with _ hafter
      exact ⟨⟨⟨bytes, hread⟩, hforbids⟩, hafter.symm⟩

/-- A write that succeeds changes the memory and nothing else. -/
theorem write_of_writeMemory {m after : Simulated} {data : List UInt8}
    (hwrite : Platform.writeMemory pointer data m = (.ok (), after)) :
    m.memory.write pointer data = (.ok (), after.memory) ∧
      after = { m with memory := after.memory } := by
  rw [writeMemory_eq] at hwrite
  injection hwrite with hresult hafter
  subst hafter
  exact ⟨Prod.ext hresult rfl, rfl⟩

/-! ## Sending -/

/-- The mailbox has room for a message. -/
def HasRoom (mailbox : Mailbox) : Prop := mailbox.buffer.toList.length < bufferCapacity

instance : DecidablePred HasRoom := fun mailbox =>
  inferInstanceAs (Decidable (mailbox.buffer.toList.length < bufferCapacity))

theorem leads_send_turnedDown (mailbox pointer : UInt64) (k : Kernel Simulated) :
    Leads (send mailbox pointer k) fun result k' =>
      match result with
      | .ok value => value = 0
      | .error (.refused _) => TurnedDown k mailbox pointer HasRoom k'
      | .error (.fault _) => True := by
  unfold send
  refine leads_probe (fun _ hunread => .of_unread hunread) fun pid bytes hcurrent hread => ?_
  rw [get_bind]
  refine (onlyReported_perform _ k).bind ?_ ?_
  · rintro ⟨⟨stamped, handoff⟩, mailboxes, tasks⟩ k₁ ⟨hsend, journal, rfl⟩
    obtain ⟨hroom, hchanged⟩ := MailboxTable.accepted_send hsend.symm
    dsimp only
    rw [modify_bind, write_bind]
    split
    · -- the mailbox has the message by now
      rename_i fault p hwrite
      obtain ⟨hreadOnly, rfl⟩ := readOnly_of_write_error hwrite hread
      exact ⟨rfl, .inr ⟨hchanged, by rw [hcurrent]; rfl, hreadOnly, hroom⟩⟩
    · cases handoff with
      | none => exact rfl
      | some handoff =>
          -- delivering to the receiver does not refuse the sender's call
          refine (leads_deliver handoff _).bind (fun _ _ _ => rfl) fun stop k₂ hdelivered => ?_
          unfold Delivered at hdelivered
          split at hdelivered
          · obtain ⟨fault, hfault⟩ := hdelivered
            injection hfault with hstop
            rw [hstop]
            trivial
          · have hdone := hdelivered.1
            contradiction
  · rintro (reason | fault) k₁ ⟨hrefused, hreported⟩
    · exact .reported hreported fun hguard => MailboxTable.refused_send hrefused.symm hguard.2.2
    · trivial

/-- A call that is turned down has written nothing.  It has changed nothing but the journal
either, unless the mailbox had room for the message and the sender's copy must not be
stamped. -/
theorem send_undone_iff {third : UInt64}
    (hdispatch : dispatch Call.send.number ⟨mailbox, pointer, third⟩ k = .ok (-1) k') :
    k'.platform.memory = k.platform.memory ∧
      (OnlyReported k k' ↔ ¬ k.MeetsGuard mailbox pointer HasRoom) := by
  have hleads := leads_send_turnedDown mailbox pointer k
  rcases dispatch_eq_ok hdispatch with hserve | ⟨reason, k₁, hserve, _, rfl⟩
  · have hzero : (-1 : Int64) = 0 := hleads.of_ok hserve
    exact absurd hzero (by decide)
  · have hturned : TurnedDown k mailbox pointer HasRoom k₁ := hleads.of_error hserve
    replace hturned := hturned.log (.callFailed .send reason)
    exact ⟨hturned.memory, hturned.onlyReported_iff⟩

/-- The sender's copy is guarded: the call is turned down, and the message is buffered. -/
theorem send_undone_iff_at_guard :
    ∃ (log : List (Happening Simulated)) (k k' : Kernel Simulated), History log k ∧
      k.MeetsGuard 3 0x1000 HasRoom ∧
      dispatch Call.send.number ⟨3, 0x1000, 0⟩ k = .ok (-1) k' ∧
      k'.platform.memory = k.platform.memory ∧
      (OnlyReported k k' ↔ ¬ k.MeetsGuard 3 0x1000 HasRoom) := by
  obtain ⟨log, k, value, k', hhistory, hdispatch, hcheck⟩ := exists_dispatch 280
    [callFrame .yield 0 0] ⟨0x1000, 1⟩ .send ⟨3, 0x1000, 0⟩
    (fun k value _ => decide (value = -1 ∧ k.MeetsGuard 3 0x1000 HasRoom)) (by decide +kernel)
  obtain ⟨rfl, hguard⟩ := of_decide_eq_true hcheck
  exact ⟨log, k, k', hhistory, hguard, hdispatch, send_undone_iff hdispatch⟩

/-- A call that is turned down wakes a receiver, whose message is gone: the receiver no
longer waits, and the mailbox holds nothing. -/
theorem receiver_lost_by_refused_send :
    ∃ (log : List (Happening Simulated)) (k k' : Kernel Simulated), History log k ∧
      dispatch Call.send.number ⟨2, 0x1000, 0⟩ k = .ok (-1) k' ∧
      (k.tasks.stateOf ⟨1⟩ = some .waiting ∧ k.tasks.destinationOf ⟨1⟩ = some 0x1118 ∧
        k.mailboxes.waitingAt 2 = [⟨1⟩]) ∧
      k'.tasks.stateOf ⟨1⟩ = some .running ∧ k'.tasks.destinationOf ⟨1⟩ = none ∧
      k'.mailboxes.waitingAt 2 = [] ∧ (k'.mailboxes.box 2).buffer.toList = [] := by
  obtain ⟨log, k, value, k', hhistory, hdispatch, hcheck⟩ := exists_dispatch 560
    [callFrame .yield 0 0, callFrame .receive 2 0x1118] ⟨0x1000, 1⟩ .send ⟨2, 0x1000, 0⟩
    (fun k value k' => decide (value = -1 ∧
      (k.tasks.stateOf ⟨1⟩ = some .waiting ∧ k.tasks.destinationOf ⟨1⟩ = some 0x1118 ∧
        k.mailboxes.waitingAt 2 = [⟨1⟩]) ∧
      k'.tasks.stateOf ⟨1⟩ = some .running ∧ k'.tasks.destinationOf ⟨1⟩ = none ∧
      k'.mailboxes.waitingAt 2 = [] ∧ (k'.mailboxes.box 2).buffer.toList = []))
    (by decide +kernel)
  obtain ⟨rfl, hbefore, hafter⟩ := of_decide_eq_true hcheck
  exact ⟨log, k, k', hhistory, hdispatch, hbefore, hafter⟩

/-! ## Receiving -/

/-- The mailbox has a message to hand out. -/
def HasMessage (mailbox : Mailbox) : Prop := mailbox.buffer.toList ≠ []

instance : DecidablePred HasMessage := fun mailbox =>
  inferInstanceAs (Decidable (mailbox.buffer.toList ≠ []))

/-- The oldest message of a mailbox left it for the buffer of the caller. -/
structure Took (k : Kernel Simulated) (pointer : UInt64) (index : MailboxId) (oldest : Message)
    (k' : Kernel Simulated) : Prop where
  buffer : (k.mailboxes.box index).buffer.toList =
    oldest :: (k'.mailboxes.box index).buffer.toList
  waiting : k'.mailboxes.waitingAt index = k.mailboxes.waitingAt index
  others : ∀ other, other ≠ index → k'.mailboxes.box other = k.mailboxes.box other
  written : k.platform.memory.write pointer
    { oldest with timeReceived := k.clock.now }.encode.toList = (.ok (), k'.platform.memory)
  delivered : k'.platform.memory.read pointer wireSize =
    .ok { oldest with timeReceived := k.clock.now }.encode
  kept : ∃ journal, k' = { k with
    platform := { k.platform with journal, memory := k'.platform.memory }
    mailboxes := k'.mailboxes }

theorem leads_receive_turnedDown (mailbox pointer : UInt64) (k : Kernel Simulated) :
    Leads (receive mailbox pointer k) fun result k' =>
      match result with
      | .ok value => value = 0 ∧ ∃ index : MailboxId, index.val = mailbox.toNat ∧
          ((∃ oldest, Took k pointer index oldest k') ∨
            (k.mailboxes.box index).buffer.toList = [] ∧ k'.current = none)
      | .error (.refused _) =>
          TurnedDown k mailbox pointer HasMessage k' ∧ k'.tasks = k.tasks
      | .error (.fault _) => True := by
  unfold receive
  refine leads_probe (fun _ hunread => ⟨.of_unread hunread, rfl⟩) fun pid bytes hcurrent hread => ?_
  rw [get_bind]
  refine (onlyReported_perform _ k).bind ?_ ?_
  · rintro ⟨received, mailboxes, tasks⟩ k₁ ⟨hreceive, journal, rfl⟩
    dsimp only
    rw [modify_bind]
    obtain ⟨index, hindex, hothers, hcases⟩ := MailboxTable.receive_cases hreceive.symm
    cases received with
    | blocked =>
        rcases hcases with ⟨_, _, _, hnot, _⟩ | ⟨_, hempty, _, _, slot, _, hpark⟩
        · contradiction
        · have hreleased := (Tasks.parked_of_park hpark).current
          exact ⟨rfl, index, hindex, .inr ⟨hempty, hreleased.trans (if_pos hcurrent)⟩⟩
    | message message =>
        dsimp only
        rw [write_bind]
        split
        · -- the message is taken by now
          rename_i fault p hwrite
          obtain ⟨hreadOnly, rfl⟩ := readOnly_of_write_error hwrite hread
          obtain ⟨hmessage, hchanged⟩ := MailboxTable.taken_receive hreceive.symm
          rcases hcases with ⟨_, rfl, _⟩ | ⟨hnot, _⟩
          · exact ⟨⟨rfl, .inr ⟨hchanged, by rw [hcurrent]; rfl, hreadOnly, hmessage⟩⟩, rfl⟩
          · contradiction
        · rename_i p hwrite
          rcases hcases with ⟨hwaiting, rfl, oldest, hoccupied, hbuffer⟩ | ⟨hnot, _⟩
          · injection hoccupied with hmessage
            subst hmessage
            obtain ⟨hwritten, hp⟩ := write_of_writeMemory hwrite
            exact ⟨rfl, index, hindex, .inl ⟨oldest, hbuffer, hwaiting, hothers, hwritten,
              Memory.read_of_write hwritten, journal, by rw [hp]⟩⟩
          · contradiction
  · rintro (reason | fault) k₁ ⟨hrefused, hreported⟩
    · obtain ⟨journal, rfl⟩ := hreported
      refine ⟨.reported ⟨journal, rfl⟩ fun ⟨_, _, box, hget, _⟩ => ?_, rfl⟩
      have hout := (MailboxTable.receive_refused_iff.1 hrefused.symm).1
      obtain ⟨index, hindex, _⟩ := MailboxTable.get?_eq_some_iff.1 hget
      have hbound := index.isLt
      omega
    · trivial

/-- A call that is answered with zero has taken the oldest message, or there is none and the
caller waits.  A call that is turned down has written nothing and has left every process
alone; it has changed nothing but the journal either, unless there was a message and the
caller's buffer must not be written. -/
theorem receive_takes_or_undone_iff {third : UInt64} {value : Int64}
    (hdispatch : dispatch Call.receive.number ⟨mailbox, pointer, third⟩ k = .ok value k') :
    (value = 0 ∧ ∃ index : MailboxId, index.val = mailbox.toNat ∧
        ((∃ oldest, Took k pointer index oldest k') ∨
          (k.mailboxes.box index).buffer.toList = [] ∧ k'.current = none)) ∨
      value = -1 ∧ k'.platform.memory = k.platform.memory ∧ k'.tasks = k.tasks ∧
        (OnlyReported k k' ↔ ¬ k.MeetsGuard mailbox pointer HasMessage) := by
  have hleads := leads_receive_turnedDown mailbox pointer k
  rcases dispatch_eq_ok hdispatch with hserve | ⟨reason, k₁, hserve, hvalue, rfl⟩
  · exact .inl (hleads.of_ok hserve)
  · obtain ⟨hturned, htasks⟩ := hleads.of_error hserve
    replace hturned := hturned.log (.callFailed .receive reason)
    exact .inr ⟨hvalue, hturned.memory, htasks, hturned.onlyReported_iff⟩

/-- A message is taken beside a guarded region. -/
theorem receive_takes_beside_guard :
    ∃ (log : List (Happening Simulated)) (k k' : Kernel Simulated), History log k ∧
      dispatch Call.receive.number ⟨3, 0x1000, 0⟩ k = .ok 0 k' ∧ k'.current = some ⟨1⟩ ∧
      ∃ (index : MailboxId) (oldest : Message), index.val = (3 : UInt64).toNat ∧
        Took k 0x1000 index oldest k' := by
  obtain ⟨log, k, value, k', hhistory, hdispatch, hcheck⟩ := exists_dispatch 560
    [callFrame .yield 0 0, callFrame .send 3 0x1000] ⟨0x1118, 1⟩ .receive ⟨3, 0x1000, 0⟩
    (fun _ value k' => decide (value = 0 ∧ k'.current = some ⟨1⟩)) (by decide +kernel)
  obtain ⟨rfl, hcurrent⟩ := of_decide_eq_true hcheck
  refine ⟨log, k, k', hhistory, hdispatch, hcurrent, ?_⟩
  rcases receive_takes_or_undone_iff hdispatch with ⟨_, index, hindex, hends⟩ | ⟨hrefused, _⟩
  · rcases hends with ⟨oldest, htook⟩ | ⟨_, hwaits⟩
    · exact ⟨index, oldest, hindex, htook⟩
    · rw [hcurrent] at hwaits
      contradiction
  · exact absurd hrefused (by decide)

/-- A call that is turned down takes the only message of the mailbox. -/
theorem message_lost_by_refused_receive :
    ∃ (log : List (Happening Simulated)) (k k' : Kernel Simulated), History log k ∧
      dispatch Call.receive.number ⟨3, 0x1000, 0⟩ k = .ok (-1) k' ∧
      (k.mailboxes.box 3).buffer.toList ≠ [] ∧ (k'.mailboxes.box 3).buffer.toList = [] := by
  obtain ⟨log, k, value, k', hhistory, hdispatch, hcheck⟩ := exists_dispatch 280
    [callFrame .yield 0 0, callFrame .send 3 0x1000] ⟨0x1000, 1⟩ .receive ⟨3, 0x1000, 0⟩
    (fun k value k' => decide (value = -1 ∧ (k.mailboxes.box 3).buffer.toList ≠ [] ∧
      (k'.mailboxes.box 3).buffer.toList = [])) (by decide +kernel)
  obtain ⟨rfl, hlost⟩ := of_decide_eq_true hcheck
  exact ⟨log, k, k', hhistory, hdispatch, hlost⟩

end Timeshare.Kernel
