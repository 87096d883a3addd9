import Timeshare.Proofs.Kernel.Asked
import Timeshare.Proofs.Kernel.Exchange
import Timeshare.Proofs.Machine.Written
import Timeshare.Proofs.Tasks.Faultless

/-!
# Calls write where they were told to

A call writes the buffer of its caller, and for a message the buffer of who has waited longest
at the mailbox, at the address it gave when it asked.  Each buffer is written as a whole or not
at all, and checking an access neither wraps around nor faults.
-/

namespace Timeshare.Kernel

open Machine (Memory Region Simulated)

section Told

variable {P : Type} {k : Kernel P} {moments : List (Moment P)}

/-! ## What may be written -/

/-- The address at which who has waited longest at a mailbox asked for a message. -/
def expectedAt? (moments : List (Moment P)) (k : Kernel P) (id : UInt64) : Option UInt64 :=
  (k.mailboxes.find? id).bind fun (index, mailbox) =>
    mailbox.waiting.toList.head?.bind (asked? moments index)

/-- The regions that a call is told to write: the buffer of the caller, and for a message the
buffer of who has waited longest for it. -/
def told (moments : List (Moment P)) (k : Kernel P) (arguments : Arguments) : Call → List Region
  | .getName =>
      ((k.current.bind k.tasks.table.get?).map fun p =>
        ⟨arguments.first, p.name.bytes.length + 1⟩).toList
  | .send =>
      ⟨arguments.second, wireSize⟩ ::
        ((expectedAt? moments k arguments.first).map fun pointer => ⟨pointer, wireSize⟩).toList
  | .receive => [⟨arguments.second, wireSize⟩]
  | _ => []

/-- A message that is handed over goes where its receiver asked for it. -/
theorem Expecting.expectedAt? {id now : UInt64} {message stamped : Message} {given : Handoff}
    {sender : Pid} {mailboxes : MailboxTable} {tasks : Tasks} (h : Expecting moments k)
    (hsend : (k.mailboxes.send id message sender now k.tasks).outcome =
      .ok ((stamped, some given), mailboxes, tasks)) :
    expectedAt? moments k id = some given.destination := by
  obtain ⟨index, hindex, _, _, hcases⟩ := MailboxTable.send_cases hsend
  rcases hcases with ⟨hnone, _⟩ | ⟨receiver, slot, destination, oldest, hgiven, hcases⟩
  · contradiction
  obtain ⟨hwaiting, _, hfind, hdestination, _⟩ := hcases
  injection hgiven with hgiven
  subst hgiven
  obtain ⟨pointer, hasked, hkept⟩ := h index receiver (by rw [hwaiting]; exact List.mem_cons_self)
  -- the receiver still lives, so its address is the one it gave
  have hget := ProcessTable.get?_of_find? hfind
  have hsame := hkept (by rw [Lives, hget]; rfl)
  rw [Tasks.destinationOf, hget, Option.bind_some, hdestination] at hsame
  rw [MailboxTable.waitingAt] at hwaiting
  rw [Kernel.expectedAt?, MailboxTable.find?_of_val hindex, Option.bind_some]
  dsimp only
  rw [hwaiting, List.head?_cons, Option.bind_some, hasked, hsame]

end Told

variable {k k' : Kernel Simulated} {regions : List Region} {moments : List (Moment Simulated)}
  {arguments : Arguments} {call : Call} {ε α : Type}

/-! ## The writes of a call -/

/-- The memory of processes. -/
abbrev userMemory (k : Kernel Simulated) : Memory := k.platform.memory

/-- The step writes these regions, each as a whole or not at all, and nothing else. -/
abbrev Writes (regions : List Region) (k : Kernel Simulated) (_ : Except ε α)
    (k' : Kernel Simulated) : Prop := Memory.Written regions k.userMemory k'.userMemory

/-- What comes behind a write and writes nothing adds nothing to it. -/
theorem Keeps.behind {k₁ : Kernel Simulated} {step : EStateM ε (Kernel Simulated) α}
    (h : Keeps userMemory step) (hwritten : Memory.Written regions k.userMemory k₁.userMemory) :
    Leads (step k₁) (Writes regions k) :=
  (h k₁).mono fun _ k' hkept => by rw [Writes, hkept]; exact hwritten

theorem Keeps.writes {step : EStateM ε (Kernel Simulated) α} (h : Keeps userMemory step)
    (regions : List Region) (k : Kernel Simulated) : Leads (step k) (Writes regions k) :=
  h.behind (.refl regions k.userMemory)

/-- A write of the kernel concerns its region only. -/
theorem leads_write (address : UInt64) (data : List UInt8) (k : Kernel Simulated) :
    Leads (write address data k) (Writes [⟨address, data.length⟩] k) := by
  have hwritten := Memory.Written.write k.platform.memory address data
  unfold write
  rw [onPlatform_bind, writeMemory_eq]
  generalize k.platform.memory.write address data = outcome at hwritten ⊢
  obtain ⟨_ | _, _⟩ := outcome <;> exact hwritten

theorem leads_write_wire (pointer : UInt64) (data : Wire) (k : Kernel Simulated) :
    Leads (write pointer data.toList k) (Writes [⟨pointer, wireSize⟩] k) := by
  have hwritten := leads_write pointer data.toList k
  rwa [Vector.length_toList] at hwritten

theorem keeps_memory_placeOf (pid : Pid) : Keeps userMemory (placeOf pid) :=
  .bind_get fun k => (Keeps.of_check _).orFault k

theorem keeps_memory_caller : Keeps userMemory caller := by
  refine .bind_get fun k => ?_
  cases k.current <;> exact rfl

/-- Delivering writes the buffer of the receiver. -/
theorem leads_deliver_written (given : Handoff) (k : Kernel Simulated) :
    Leads (deliver given k) (Writes [⟨given.destination, wireSize⟩] k) := by
  have hwritten := Memory.Written.write k.platform.memory given.destination
    given.message.encode.toList
  rw [Vector.length_toList] at hwritten
  have hanswer (value : Int64) : Keeps userMemory (do
      let slot ← placeOf given.receiver
      modify fun k =>
        { k with
          tasks := k.tasks.modify slot fun p =>
            { p with context := p.context.withResult value } } : Handler Simulated Unit) :=
    (keeps_memory_placeOf _).bind fun _ => .of_modify fun _ => rfl
  unfold deliver
  rw [onPlatform_bind, writeMemory_eq]
  generalize k.platform.memory.write given.destination given.message.encode.toList = outcome
    at hwritten ⊢
  obtain ⟨_ | _, _⟩ := outcome <;> exact (hanswer _).behind hwritten

/-- The calls that are told no region write nothing. -/
theorem keeps_memory_serve (arguments : Arguments) (hname : call ≠ .getName) (hsend : call ≠ .send)
    (hreceive : call ≠ .receive) : Keeps userMemory (serve call arguments) := by
  cases call with
  | getName => exact absurd rfl hname
  | send => exact absurd rfl hsend
  | receive => exact absurd rfl hreceive
  | getTime => exact .bind_get fun k => ((Keeps.of_check _).orFault.bind fun _ => .of_pure _) k
  | exec =>
      intro k
      show Leads (exec _ _ k) _
      unfold exec
      split
      · exact rfl
      refine (leads_readText _ _ _ k).bind ?_ ?_
      · rintro bytes k' ⟨rfl, _⟩
        exact ((apart_memory.spawn _ _).bind fun _ => .of_pure _) k'
      · rintro stop k' ⟨rfl, _⟩
        exact rfl
  | exit => exact .bind_get fun k => ((apart_memory.exit _).bind fun _ => .of_pure _) k
  | getPid => exact keeps_memory_caller.bind fun _ => .of_pure _
  | sleep =>
      refine keeps_memory_caller.bind fun _ => .bind_get fun k =>
        ((keeps_memory_placeOf _).bind fun _ => ?_) k
      exact .bind (.of_modify fun _ => rfl) fun _ => (apart_memory.report _).bind fun _ =>
        .of_pure _
  | yield =>
      refine keeps_memory_caller.bind fun _ => (keeps_memory_placeOf _).bind fun _ =>
        .bind_get fun k => ?_
      rw [orFault_check_bind]
      split <;> exact rfl
  | mutexAlloc =>
      refine .bind_get fun k => ((apart_memory.perform _).bind fun _ => ?_) k
      exact .bind (.of_modify fun _ => rfl) fun _ => .of_pure _
  | mutexFree =>
      refine .bind_get fun k => ((apart_memory.perform _).bind fun _ => ?_) k
      exact .bind (.of_modify fun _ => rfl) fun _ => .of_pure _
  | mutexLock | mutexUnlock =>
      refine keeps_memory_caller.bind fun _ => .bind_get fun k =>
        ((apart_memory.perform _).bind fun _ => ?_) k
      exact .bind (.of_modify fun _ => rfl) fun _ => .of_pure _

/-- The caller's name goes into its buffer, with a zero byte behind it. -/
theorem leads_getName_written (k : Kernel Simulated) :
    Leads (getName arguments.first k) (Writes (told moments k arguments .getName) k) := by
  unfold getName
  rw [caller_bind]
  split
  · exact .refl _ _
  rename_i pid hcurrent
  rw [requirePointer_bind]
  split
  · exact .refl _ _
  rw [placeOf_bind]
  split
  · exact .refl _ _
  rename_i slot hfind
  rw [get_bind]
  have htold : told moments k arguments .getName =
      [⟨arguments.first, ((k.tasks.table.block slot).name.bytes ++ [0]).length⟩] := by
    rw [told, hcurrent, Option.bind_some, ProcessTable.get?_of_find? hfind, List.length_append]
    rfl
  rw [htold]
  exact (leads_write _ _ k).bind (fun _ _ hwritten => hwritten) fun _ _ hwritten => hwritten

/-- A message that is there goes into the buffer of who asks for it. -/
theorem leads_receive_written (k : Kernel Simulated) :
    Leads (receive arguments.first arguments.second k)
      (Writes (told moments k arguments .receive) k) := by
  unfold receive
  refine leads_probe (fun _ _ => .refl _ _) fun pid bytes _ _ => ?_
  rw [get_bind]
  refine (onlyReported_perform _ k).bind ?_ ?_
  · rintro ⟨received, mailboxes, tasks⟩ _ ⟨_, journal, rfl⟩
    dsimp only
    rw [modify_bind]
    cases received with
    | blocked => exact .refl _ _
    | message message =>
        exact (leads_write_wire _ _ _).bind (fun _ _ hwritten => hwritten)
          fun _ _ hwritten => hwritten
  · rintro stop _ ⟨_, journal, rfl⟩
    exact .refl _ _

/-- The copy of the sender gets the stamps, and the buffer of the receiver the message. -/
theorem leads_send_written (hexpecting : Expecting moments k) :
    Leads (send arguments.first arguments.second k)
      (Writes (told moments k arguments .send) k) := by
  unfold send
  refine leads_probe (fun _ _ => .refl _ _) fun pid bytes _ _ => ?_
  rw [get_bind]
  refine (onlyReported_perform _ k).bind ?_ ?_
  · rintro ⟨⟨stamped, handoff⟩, mailboxes, tasks⟩ _ ⟨hsend, journal, rfl⟩
    dsimp only
    rw [modify_bind]
    -- a copy that cannot be stamped ends the call before anything else is written
    refine (leads_write_wire _ _ _).bind (fun _ k₁ hstamped => ?_) fun _ _ hstamped =>
      hstamped.append (.refl _ _)
    cases handoff with
    | none => exact hstamped.append (.refl _ _)
    | some given =>
        rw [told, hexpecting.expectedAt? hsend.symm]
        exact (leads_deliver_written given k₁).bind
          (fun _ _ hdelivered => hstamped.append hdelivered)
          fun _ _ hdelivered => hstamped.append hdelivered
  · rintro stop _ ⟨_, journal, rfl⟩
    exact .refl _ _

theorem leads_serve_written (hexpecting : Expecting moments k) (call : Call)
    (arguments : Arguments) :
    Leads (serve call arguments k) (Writes (told moments k arguments call) k) := by
  by_cases hname : call = .getName
  · subst hname
    exact leads_getName_written k
  by_cases hsend : call = .send
  · subst hsend
    exact leads_send_written hexpecting
  by_cases hreceive : call = .receive
  · subst hreceive
    exact leads_receive_written k
  · exact (keeps_memory_serve arguments hname hsend hreceive).writes _ k

theorem leads_dispatch_written (hexpecting : Expecting moments k) (call : Call)
    (arguments : Arguments) :
    Leads (dispatch call.number arguments k) (Writes (told moments k arguments call) k) := by
  unfold dispatch
  rw [Call.ofNumber?_number]
  refine (leads_attempt (leads_serve_written hexpecting call arguments)).bind ?_ ?_
  · rintro (reason | value) k' hwritten <;> exact hwritten
  · exact fun _ _ hwritten => hwritten

/-! ## Access checks -/

/-- A call that faults has a cause; no receiver is lost. -/
theorem Dispatched.cause {k' : Kernel Simulated} {fault : Fault}
    (hdispatched : Dispatched k call.number arguments (.error fault) k')
    (htable : k.tasks.table.Sound) : Cause k call arguments fault := by
  cases hdispatched with
  | unknown hunknown =>
      rw [Call.ofNumber?_number] at hunknown
      contradiction
  | fault hcall hserved =>
      rw [Call.ofNumber?_number] at hcall
      obtain rfl := Option.some.inj hcall
      cases hserved with
      | fault hcause => exact hcause
      | send _ _ hresult =>
          rcases hresult with ⟨hvalue, _⟩ | ⟨_, hrefused⟩
          · contradiction
          · injection hrefused with hstop
            contradiction
      | receive _ _ hresult =>
          rcases hresult with hvalue | ⟨_, hrefused⟩
          · contradiction
          · injection hrefused with hstop
            contradiction
      | lost _ hsend hfind =>
          exact absurd hfind (Tasks.find?_ne_none (MailboxTable.isSome_receiver htable hsend))

/-- Accesses count addresses without bound, and none of them faults. -/
structure AccessChecked (k : Kernel Simulated) : Prop where
  located : ∀ region, k.userMemory.locate region =
    if k.userMemory.Holds region then .ok (region.first.toNat - Memory.base.toNat)
    else .error ⟨region.first, region.size⟩
  read : ∀ address size, Leads (read address size k) fun result k' =>
    k' = k ∧ ∀ fault, result ≠ .error (.fault fault)
  write : ∀ address data, Leads (write address data k) fun result _ =>
    ∀ fault, result ≠ .error (.fault fault)
  text : ∀ address room, Leads (readText address 0 room k) fun result k' =>
    k' = k ∧ ∀ fault, result ≠ .error (.fault fault)

theorem accessChecked (hsize : k.userMemory.bytes.size < 2 ^ 63) : k.AccessChecked := by
  refine ⟨k.userMemory.locate_eq, fun address size => ?_, fun address data => ?_,
    fun address room => ?_⟩
  · unfold read
    rw [get_bind]
    cases Platform.readMemory k.platform address size
    · exact ⟨rfl, fun _ hfault => by injection hfault; contradiction⟩
    · exact ⟨rfl, fun _ hfault => by contradiction⟩
  · unfold write
    rw [onPlatform_bind]
    cases (Platform.writeMemory address data k.platform).1
    · exact fun _ hfault => by injection hfault; contradiction
    · exact fun _ hfault => by contradiction
  · exact (leads_readText address 0 room k).mono fun _ _ h =>
      ⟨h.1, h.2 (Simulated.bounded hsize) address.toNat_lt⟩

/-- In whatever state a course leads to at which idle made no call, a call changes memory only
in the regions it is told to write: the name of the caller and a zero byte, the message that is
sent or received, and for a message at whose mailbox somebody waits the buffer that the oldest
receiver gave when it asked.  Each of them is written as a whole or not at all, whether the
call answers or faults.  No address wraps around, and no access faults: what faults is a table,
since memory ends before the last address. -/
theorem calls_write_as_told (hserving : Serving moments k) (hsilent : Silent moments)
    (hsize : k.userMemory.bytes.size < 2 ^ 63) (call : Call) (arguments : Arguments) :
    (Leads (dispatch call.number arguments k) fun result k' =>
      Memory.Written (told moments k arguments call) k.userMemory k'.userMemory ∧
        (∀ index, (∀ region ∈ told moments k arguments call, ¬ region.Covers index) →
          k'.userMemory.bytes[index]? = k.userMemory.bytes[index]?) ∧
        ∀ fault, result = .error fault → Cause k call arguments fault) ∧
      k.AccessChecked ∧ Platform.Bounded k.platform := by
  obtain ⟨hexpecting, S, hin⟩ := hserving.inStep hsilent
  refine ⟨?_, accessChecked hsize, Simulated.bounded hsize⟩
  have hwritten := leads_dispatch_written hexpecting call arguments
  have hends := leads_dispatch call.number arguments k
  cases hdispatch : dispatch call.number arguments k with
  | ok value k' =>
      have hwrites := hwritten.of_ok hdispatch
      exact ⟨hwrites, fun _ => hwrites.outside, fun _ h => by contradiction⟩
  | error fault k' =>
      have hwrites := hwritten.of_error hdispatch
      refine ⟨hwrites, fun _ => hwrites.outside, fun other hother => ?_⟩
      injection hother with heq
      exact heq ▸ (hends.of_error hdispatch).cause hin.coherent.tasks.table

/-- The first process waits for a message, and the second one sends it on a machine with a
guarded region. -/
theorem calls_write_as_told_hand_over :
    ∃ (moments : List (Moment Simulated)) (k : Kernel Simulated),
      Serving moments k ∧ Silent moments ∧ k.userMemory.bytes.size < 2 ^ 63 ∧
        k.userMemory.guarded = [⟨0x1800, 16⟩] ∧ k.current = some ⟨2⟩ ∧
        told moments k ⟨2, 0x1000, 0⟩ .send = [⟨0x1000, wireSize⟩, ⟨0x1118, wireSize⟩] ∧
        Leads (dispatch Call.send.number ⟨2, 0x1000, 0⟩ k) fun _ k' =>
          Memory.Written [⟨0x1000, wireSize⟩, ⟨0x1118, wireSize⟩] k.userMemory k'.userMemory := by
  obtain ⟨moments, k, hcourse, hcheck⟩ := exists_course
    (List.replicate 5 (.trap timerFrame) ++ [.trap (callFrame .receive 2 0x1118),
      .machine (guardedMachine 4096 ⟨0x1800, 16⟩)])
    (fun moments k => decide (Silent moments ∧ k.userMemory.bytes.size < 2 ^ 63 ∧
      k.userMemory.guarded = [⟨0x1800, 16⟩] ∧ k.current = some ⟨2⟩ ∧
      told moments k ⟨2, 0x1000, 0⟩ .send = [⟨0x1000, wireSize⟩, ⟨0x1118, wireSize⟩]))
    (by decide +kernel)
  obtain ⟨hsilent, hsize, hguarded, hcurrent, htold⟩ := of_decide_eq_true hcheck
  have hserving := Serving.outside hcourse
  refine ⟨moments, k, hserving, hsilent, hsize, hguarded, hcurrent, htold, ?_⟩
  rw [← htold]
  exact (calls_write_as_told hserving hsilent hsize .send _).1.mono fun _ _ h => h.1

end Timeshare.Kernel
