import Timeshare.Proofs.Kernel.Transfer
import Timeshare.Proofs.Kernel.Undone

/-!
# Messages where no memory is guarded

On a machine without guarded memory what can be read can be written.  So a message that is
accepted is stamped in the memory of its sender, and a message that finds its receiver is
in the memory of the receiver behind the call, whether it was received or handed over.
-/

namespace Timeshare.Kernel

open Machine (Memory Simulated)

variable {k k' : Kernel Simulated} {mailbox pointer : UInt64}

/-- Memory that can be read and holds no guarded region can be written; the rest of the
machine stays as it is, and so do the size of memory and its guards. -/
theorem writeMemory_of_unguarded {m : Simulated} {bytes : Wire} (data : Wire)
    (hguarded : m.memory.guarded = []) (hread : m.memory.read pointer wireSize = .ok bytes) :
    ∃ memory, Platform.writeMemory pointer data.toList m = (.ok (), { m with memory }) ∧
      memory.read pointer wireSize = .ok data ∧ memory.guarded = [] ∧
      memory.bytes.size = m.memory.bytes.size := by
  have hlength : data.toList.length = wireSize := Vector.length_toList
  obtain ⟨memory, hwrite⟩ := Memory.exists_write hread hlength
    (Memory.forbids_of_guarded hguarded)
  have hsame : memory = (m.memory.write pointer data.toList).2 := by rw [hwrite]
  refine ⟨memory, ?_, Memory.read_of_write hwrite, ?_, ?_⟩
  · rw [writeMemory_eq, hwrite]
  · rw [hsame, Memory.guarded_write, hguarded]
  · rw [hsame, Memory.size_write]

/-! ## Handing over -/

/-- How a message is handed over to a receiver whose buffer can be written: it is in the
buffer, and the registers of the receiver say so. -/
structure Handed (tasks : Tasks) (handoff : Handoff) (slot : Slot) (k' : Kernel Simulated) :
    Prop where
  memory : k'.platform.memory.read handoff.destination wireSize = .ok handoff.message.encode
  tasks : k'.tasks = tasks.modify slot fun p => { p with context := p.context.withResult 0 }

theorem leads_answer (receiver : Pid) (value : Int64) (k : Kernel Simulated) :
    Leads ((do
      let slot ← placeOf receiver
      modify fun k =>
        { k with
          tasks := k.tasks.modify slot fun p =>
            { p with context := p.context.withResult value } } : Handler Simulated Unit) k)
      fun result k' => result = .ok () → ∃ slot, k.tasks.table.find? receiver = some slot ∧
        k' = { k with
          tasks := k.tasks.modify slot fun p =>
            { p with context := p.context.withResult value } } := by
  rw [placeOf_bind]
  split
  · exact fun hdone => by contradiction
  · rename_i slot hfind
    exact fun _ => ⟨slot, hfind, rfl⟩

theorem leads_deliver_handed {handoff : Handoff} {bytes : Wire}
    (hguarded : k.platform.memory.guarded = [])
    (hread : k.platform.memory.read handoff.destination wireSize = .ok bytes) :
    Leads (deliver handoff k) fun result k' => result = .ok () →
      ∃ slot, k.tasks.table.find? handoff.receiver = some slot ∧ Handed k.tasks handoff slot k' ∧
        k'.mailboxes = k.mailboxes := by
  obtain ⟨memory, hwrite, hwritten, _⟩ :=
    writeMemory_of_unguarded handoff.message.encode hguarded hread
  unfold deliver
  rw [onPlatform_bind]
  dsimp only
  rw [hwrite]
  refine (leads_answer handoff.receiver 0 { k with platform := { k.platform with memory } }).mono ?_
  intro result k' hanswered hdone
  obtain ⟨slot, hfind, rfl⟩ := hanswered hdone
  exact ⟨slot, hfind, ⟨hwritten, rfl⟩, rfl⟩

/-! ## The calls -/

/-- An accepted message: the mailbox has served the call, and a receiver that waited with a
buffer that can be read has the message. -/
structure Sent (k : Kernel Simulated) (mailbox : UInt64) (pid : Pid) (bytes : Wire)
    (handoff : Option Handoff) (tasks : Tasks) (k' : Kernel Simulated) : Prop where
  send : (k.mailboxes.send mailbox (Message.decode bytes) pid k.clock.now k.tasks).outcome =
    .ok ((MailboxTable.stamp (Message.decode bytes) pid k.clock.now, handoff), k'.mailboxes, tasks)
  nobody : handoff = none → k'.tasks = tasks
  handed : ∀ given, handoff = some given →
    (∃ buffer : Wire, k.platform.memory.read given.destination wireSize = .ok buffer) →
    ∃ slot, tasks.table.find? given.receiver = some slot ∧ Handed tasks given slot k'

theorem leads_send_sent (mailbox pointer : UInt64) (hguarded : k.platform.memory.guarded = []) :
    Leads (send mailbox pointer k) fun result k' => ∀ value, result = .ok value →
      value = 0 ∧ ∃ pid bytes handoff tasks, k.current = some pid ∧
        k.platform.memory.read pointer wireSize = .ok bytes ∧
        Sent k mailbox pid bytes handoff tasks k' := by
  unfold send
  refine leads_probe (fun _ _ _ hdone => by contradiction) fun pid bytes hcurrent hread => ?_
  rw [get_bind]
  refine (onlyReported_perform _ k).bind ?_ fun _ _ _ _ hdone => by contradiction
  rintro ⟨⟨stamped, handoff⟩, mailboxes, tasks⟩ k₁ ⟨hsend, journal, rfl⟩
  obtain ⟨_, _, hstamped, _⟩ := MailboxTable.send_cases hsend.symm
  subst hstamped
  obtain ⟨memory, hwrite, _, hguarded', hsize⟩ := writeMemory_of_unguarded
    (m := { k.platform with journal })
    (MailboxTable.stamp (Message.decode bytes) pid k.clock.now).encode hguarded hread
  dsimp only
  rw [modify_bind, write_bind]
  dsimp only
  rw [hwrite]
  dsimp only
  cases handoff with
  | none =>
      intro value hdone
      injection hdone with hvalue
      exact ⟨hvalue.symm, pid, bytes, none, tasks, hcurrent, hread, hsend.symm, fun _ => rfl,
        fun _ h => by contradiction⟩
  | some handoff =>
      rcases Classical.em (∃ buffer : Wire,
        k.platform.memory.read handoff.destination wireSize = .ok buffer) with hwritable | hwritable
      · -- the sender's copy was stamped first, which does not move the receiver's buffer
        have hfits := Memory.exists_read_iff.1 hwritable
        rw [← hsize] at hfits
        obtain ⟨buffer, hbuffer⟩ := Memory.exists_read_iff.2 hfits
        refine (leads_deliver_handed hguarded' hbuffer).bind ?_ fun _ _ _ _ hdone => by contradiction
        intro _ k₂ hdelivered value hdone
        obtain ⟨slot, hfind, hhanded, hmailboxes⟩ := hdelivered rfl
        injection hdone with hvalue
        refine ⟨hvalue.symm, pid, bytes, some handoff, tasks, hcurrent, hread, ⟨?_, ?_, ?_⟩⟩
        · rw [hmailboxes]
          exact hsend.symm
        · exact fun h => by contradiction
        · intro given hgiven _
          injection hgiven with heq
          subst heq
          exact ⟨slot, hfind, hhanded.memory, hhanded.tasks⟩
      · refine (leads_deliver handoff _).bind ?_ fun _ _ _ _ hdone => by contradiction
        intro _ k₂ hdelivered value hdone
        unfold Delivered at hdelivered
        split at hdelivered
        · obtain ⟨fault, hfault⟩ := hdelivered
          contradiction
        · obtain ⟨_, _, _, _, rfl⟩ := hdelivered
          injection hdone with hvalue
          refine ⟨hvalue.symm, pid, bytes, some handoff, tasks, hcurrent, hread, hsend.symm,
            fun h => by contradiction, fun given hgiven hgood => ?_⟩
          injection hgiven with heq
          exact absurd (heq ▸ hgood) hwritable

/-- A receive that is answered: the mailbox has served the call, and a message that was
there is in the buffer of the caller. -/
structure Fetched (k : Kernel Simulated) (mailbox pointer : UInt64) (pid : Pid)
    (received : Received) (k' : Kernel Simulated) : Prop where
  receive : (k.mailboxes.receive mailbox pid pointer k.clock.now k.tasks).outcome =
    .ok (received, k'.mailboxes, k'.tasks)
  memory : ∀ message, received = .message message →
    k'.platform.memory.read pointer wireSize = .ok message.encode

/-- A receive is refused only if its buffer cannot be read or there is no such mailbox. -/
theorem leads_receive_received (mailbox pointer : UInt64)
    (hguarded : k.platform.memory.guarded = []) :
    Leads (receive mailbox pointer k) fun result k' =>
      match result with
      | .ok value => value = 0 ∧ ∃ pid bytes received, k.current = some pid ∧
          k.platform.memory.read pointer wireSize = .ok bytes ∧
          Fetched k mailbox pointer pid received k'
      | .error (.refused _) => ∀ pid (bytes : Wire) (index : MailboxId), k.current = some pid →
          k.platform.memory.read pointer wireSize = .ok bytes → index.val ≠ mailbox.toNat
      | .error (.fault _) => True := by
  unfold receive
  refine leads_probe (fun _ hunread pid bytes _ hcurrent hread => ?_) fun pid bytes hcurrent hread => ?_
  · exact absurd hread (hunread pid bytes hcurrent)
  rw [get_bind]
  refine (onlyReported_perform _ k).bind ?_ ?_
  · rintro ⟨received, mailboxes, tasks⟩ k₁ ⟨hreceive, journal, rfl⟩
    dsimp only
    rw [modify_bind]
    cases received with
    | blocked =>
        exact ⟨rfl, pid, bytes, .blocked, hcurrent, hread, hreceive.symm, fun _ h => by contradiction⟩
    | message message =>
        obtain ⟨memory, hwrite, hwritten, _⟩ := writeMemory_of_unguarded
          (m := { k.platform with journal }) message.encode hguarded hread
        dsimp only
        rw [write_bind]
        dsimp only
        rw [hwrite]
        refine ⟨rfl, pid, bytes, .message message, hcurrent, hread, hreceive.symm, ?_⟩
        intro other hother
        injection hother with heq
        exact heq ▸ hwritten
  · rintro (reason | fault) k₁ ⟨hrefused, _⟩
    · intro _ _ index _ _ hindex
      have hout := (MailboxTable.receive_refused_iff.1 hrefused.symm).1
      have hinside := index.isLt
      omega
    · trivial

end Timeshare.Kernel
