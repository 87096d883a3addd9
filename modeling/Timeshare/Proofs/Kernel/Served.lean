import Timeshare.Proofs.Kernel.Leads
import Timeshare.Proofs.Mutex
import Timeshare.Proofs.Word

/-!
# What a system call does

`Served` lists the ends of a system call: what it answers, which tables it
leaves, and, if it faults, why.  The machine is left open up to its operations.
Everything about calls is proved by cases on this relation, so a handler is
opened only here.
-/

namespace Timeshare

variable {P : Type} [Platform P]

/-- Memory that can be read ends before the last address. -/
def Platform.Bounded (p : P) : Prop :=
  ∀ address size bytes, Platform.readMemory p address size = .ok bytes →
    address.toNat + size < Word.range

namespace Kernel

open Platform (Reaches)

variable {k k' : Kernel P} {pid : Pid} {call : Call} {arguments : Arguments}

/-- Why a system call faults. -/
inductive Cause (k : Kernel P) : Call → Arguments → Fault → Prop
  | noTicks {arguments : Arguments} {fault : Fault} (hzero : k.config.ticksPerSecond = 0) :
      Cause k .getTime arguments fault
  | overrun {arguments : Arguments} {fault : Fault} (hmachine : ¬ Platform.Bounded k.platform) :
      Cause k .exec arguments fault
  | create {arguments : Arguments} {fault : Fault} {name : String} (hentry : arguments.second ≠ 0)
      (hcreate : (k.tasks.create arguments.second name k.clock.now).outcome =
        .error (.fault fault)) :
      Cause k .exec arguments fault
  | destroy {arguments : Arguments} {fault : Fault}
      (hdestroy : (k.tasks.destroy k.current).outcome = .error (.fault fault)) :
      Cause k .exit arguments fault
  | stranger {call : Call} {arguments : Arguments} {fault : Fault} {pid : Pid}
      (hcurrent : k.current = some pid) (hfind : k.tasks.table.find? pid = none) :
      Cause k call arguments fault
  | yield {arguments : Arguments} {fault : Fault} {pid : Pid} {slot : Slot}
      (hcurrent : k.current = some pid) (hfind : k.tasks.table.find? pid = some slot)
      (henqueue : (k.tasks.modify slot fun p => { p with activeTime := 0 }).enqueue slot =
        .error fault) :
      Cause k .yield arguments fault
  | mutexFree {arguments : Arguments} {fault : Fault}
      (hrelease : (k.mutexes.release arguments.first).outcome = .error (.fault fault)) :
      Cause k .mutexFree arguments fault
  | mutexLock {arguments : Arguments} {fault : Fault} {pid : Pid} (hcurrent : k.current = some pid)
      (hlock : (k.mutexes.lock arguments.first pid k.tasks).outcome = .error (.fault fault)) :
      Cause k .mutexLock arguments fault
  | mutexUnlock {arguments : Arguments} {fault : Fault} {pid : Pid}
      (hcurrent : k.current = some pid)
      (hunlock : (k.mutexes.unlock arguments.first pid k.tasks).outcome = .error (.fault fault)) :
      Cause k .mutexUnlock arguments fault
  | send {arguments : Arguments} {fault : Fault} {pid : Pid} {message : Message}
      (hcurrent : k.current = some pid)
      (hsend : (k.mailboxes.send arguments.first message pid k.clock.now k.tasks).outcome =
        .error (.fault fault)) :
      Cause k .send arguments fault
  | receive {arguments : Arguments} {fault : Fault} {pid : Pid} (hcurrent : k.current = some pid)
      (hreceive : (k.mailboxes.receive arguments.first pid arguments.second k.clock.now
        k.tasks).outcome = .error (.fault fault)) :
      Cause k .receive arguments fault

/-- The tick at which a sleep of `seconds` ends. -/
def sleepEnd (k : Kernel P) (seconds : UInt64) : UInt64 :=
  Word.addSaturating k.clock.now (Word.mulSaturating seconds k.config.ticksPerSecond)

/-- The end of a system call and the kernel it leaves. -/
inductive Served (k : Kernel P) : Call → Arguments → Except Stop Int64 → Kernel P → Prop
  /-- A call that is turned down changes no table. -/
  | refused {call : Call} {arguments : Arguments} {reason : Refusal} {p : P}
      (hreach : Reaches k.platform p) :
      Served k call arguments (.error (.refused reason)) { k with platform := p }
  /-- A call that faults changes no table either. -/
  | fault {call : Call} {arguments : Arguments} {fault : Fault} {p : P}
      (hcause : Cause k call arguments fault) (hreach : Reaches k.platform p) :
      Served k call arguments (.error (.fault fault)) { k with platform := p }
  /-- A call that only reads tables. -/
  | answered {call : Call} {arguments : Arguments} {value : Int64} {p : P}
      (hcall : call = .getTime ∨ call = .getName ∨ call = .getPid) (hreach : Reaches k.platform p) :
      Served k call arguments (.ok value) { k with platform := p }
  | exec {arguments : Arguments} {name : String} {pid : Pid} {tasks : Tasks} {p : P}
      (hcreate : (k.tasks.create arguments.second name k.clock.now).outcome = .ok (pid, tasks))
      (hreach : Reaches k.platform p) :
      Served k .exec arguments (.ok pid.number.toUInt64.toInt64) { k with platform := p, tasks }
  | exit {arguments : Arguments} {tasks : Tasks} {p : P}
      (hdestroy : (k.tasks.destroy k.current).outcome = .ok tasks)
      (hreach : Reaches k.platform p) :
      Served k .exit arguments (.ok 0) { k with platform := p, tasks }
  | sleep {arguments : Arguments} {pid : Pid} {slot : Slot} {tasks : Tasks} {p : P}
      (hcurrent : k.current = some pid) (hfind : k.tasks.table.find? pid = some slot)
      (hsleep : tasks = k.tasks.modify slot fun p =>
        { p with
          state := .sleeping, activeTime := 0, wakeTime := k.sleepEnd arguments.first })
      (hreach : Reaches k.platform p) :
      Served k .sleep arguments (.ok 0)
        { k with platform := p, tasks := { tasks with sched := tasks.sched.clearCurrent } }
  | yield {arguments : Arguments} {pid : Pid} {slot : Slot} {tasks : Tasks} {p : P}
      (hcurrent : k.current = some pid) (hfind : k.tasks.table.find? pid = some slot)
      (henqueue : (k.tasks.modify slot fun p => { p with activeTime := 0 }).enqueue slot =
        .ok tasks)
      (hreach : Reaches k.platform p) :
      Served k .yield arguments (.ok 0)
        { k with platform := p, tasks := { tasks with sched := tasks.sched.clearCurrent } }
  | mutexAlloc {arguments : Arguments} {id : MutexId} {mutexes : MutexTable} {p : P}
      (halloc : k.mutexes.alloc.outcome = .ok (id, mutexes)) (hreach : Reaches k.platform p) :
      Served k .mutexAlloc arguments (.ok (Int64.ofNat id)) { k with platform := p, mutexes }
  | mutexFree {arguments : Arguments} {mutexes : MutexTable} {p : P}
      (hrelease : (k.mutexes.release arguments.first).outcome = .ok mutexes)
      (hreach : Reaches k.platform p) :
      Served k .mutexFree arguments (.ok 0) { k with platform := p, mutexes }
  | mutexLock {arguments : Arguments} {pid : Pid} {previous : Nat} {mutexes : MutexTable}
      {tasks : Tasks} {p : P} (hcurrent : k.current = some pid)
      (hlock : (k.mutexes.lock arguments.first pid k.tasks).outcome =
        .ok (previous, mutexes, tasks))
      (hreach : Reaches k.platform p) :
      Served k .mutexLock arguments (.ok (Int64.ofNat previous))
        { k with platform := p, mutexes, tasks }
  | mutexUnlock {arguments : Arguments} {pid : Pid} {lockCount : Nat} {mutexes : MutexTable}
      {tasks : Tasks} {p : P} (hcurrent : k.current = some pid)
      (hunlock : (k.mutexes.unlock arguments.first pid k.tasks).outcome =
        .ok (lockCount, mutexes, tasks))
      (hreach : Reaches k.platform p) :
      Served k .mutexUnlock arguments (.ok (Int64.ofNat lockCount))
        { k with platform := p, mutexes, tasks }
  /-- A sent message; the call is turned down late if the sender's copy cannot be
  written. -/
  | send {arguments : Arguments} {pid : Pid} {message stamped : Message}
      {handoff : Option Handoff} {mailboxes : MailboxTable} {tasks : Tasks} {p : P}
      {result : Except Stop Int64} (hcurrent : k.current = some pid)
      (hsend : (k.mailboxes.send arguments.first message pid k.clock.now k.tasks).outcome =
        .ok ((stamped, handoff), mailboxes, tasks))
      (hresult : result = .ok 0 ∧ handoff = none ∨ ∃ reason, result = .error (.refused reason))
      (hreach : Reaches k.platform p) :
      Served k .send arguments result { k with platform := p, mailboxes, tasks }
  /-- A message that was handed over; the receiver's call gets its result. -/
  | deliver {arguments : Arguments} {pid : Pid} {message stamped : Message} {handoff : Handoff}
      {mailboxes : MailboxTable} {tasks : Tasks} {slot : Slot} {value : Int64} {p : P}
      (hcurrent : k.current = some pid)
      (hsend : (k.mailboxes.send arguments.first message pid k.clock.now k.tasks).outcome =
        .ok ((stamped, some handoff), mailboxes, tasks))
      (hfind : tasks.table.find? handoff.receiver = some slot) (hreach : Reaches k.platform p) :
      Served k .send arguments (.ok 0)
        { k with
          platform := p, mailboxes
          tasks := tasks.modify slot fun p => { p with context := p.context.withResult value } }
  /-- A message for a receiver that does not live. -/
  | lost {arguments : Arguments} {pid : Pid} {message stamped : Message} {handoff : Handoff}
      {mailboxes : MailboxTable} {tasks : Tasks} {fault : Fault} {k' : Kernel P}
      (hcurrent : k.current = some pid)
      (hsend : (k.mailboxes.send arguments.first message pid k.clock.now k.tasks).outcome =
        .ok ((stamped, some handoff), mailboxes, tasks))
      (hfind : tasks.table.find? handoff.receiver = none) :
      Served k .send arguments (.error (.fault fault)) k'
  /-- A receiver that got a message or waits for one; the call is turned down late
  if its buffer cannot be written. -/
  | receive {arguments : Arguments} {pid : Pid} {received : Received} {mailboxes : MailboxTable}
      {tasks : Tasks} {p : P} {result : Except Stop Int64} (hcurrent : k.current = some pid)
      (hreceive : (k.mailboxes.receive arguments.first pid arguments.second k.clock.now
        k.tasks).outcome = .ok (received, mailboxes, tasks))
      (hresult : result = .ok 0 ∨ ∃ reason, result = .error (.refused reason))
      (hreach : Reaches k.platform p) :
      Served k .receive arguments result { k with platform := p, mailboxes, tasks }

/-! ## The handlers -/

theorem leads_getTime (arguments : Arguments) (k : Kernel P) :
    Leads (getTime k) (Served k .getTime arguments) := by
  unfold getTime
  rw [get_bind, orFault_check_bind]
  split
  · rename_i fault hseconds
    refine .fault (.noTicks ?_) .refl
    unfold Clock.seconds Word.div at hseconds
    split at hseconds
    · assumption
    · contradiction
  · exact .answered (.inl rfl) .refl

theorem leads_getPid (arguments : Arguments) (k : Kernel P) :
    Leads (getPid k) (Served k .getPid arguments) := by
  unfold getPid
  rw [caller_bind]
  split
  · exact .refused .refl
  · exact .answered (.inr (.inr rfl)) .refl

theorem leads_getName (arguments : Arguments) (k : Kernel P) :
    Leads (getName arguments.first k) (Served k .getName arguments) := by
  unfold getName
  rw [caller_bind]
  split
  · exact .refused .refl
  rename_i pid hcurrent
  rw [requirePointer_bind]
  split
  · exact .refused .refl
  rw [placeOf_bind]
  split
  · rename_i hfind
    exact .fault (.stranger hcurrent hfind) .refl
  rename_i slot hfind
  rw [get_bind, write_bind]
  have hwrite := Platform.Operation.writeMemory arguments.first
    ((k.tasks.table.block slot).name.bytes ++ [0]) k.platform
  split
  · rename_i fault p hresult
    rw [hresult] at hwrite
    exact .refused (.single hwrite)
  · rename_i p hresult
    rw [hresult] at hwrite
    exact .answered (.inr (.inl rfl)) (.single hwrite)

theorem leads_sleep (arguments : Arguments) (k : Kernel P) :
    Leads (sleep arguments.first k) (Served k .sleep arguments) := by
  unfold sleep
  rw [caller_bind]
  split
  · exact .refused .refl
  rename_i pid hcurrent
  rw [get_bind, placeOf_bind]
  split
  · rename_i hfind
    exact .fault (.stranger hcurrent hfind) .refl
  rename_i slot hfind
  rw [modify_bind, report_bind]
  exact .sleep hcurrent hfind rfl (.single (.log _ _))

theorem leads_yield (arguments : Arguments) (k : Kernel P) :
    Leads (yield k) (Served k .yield arguments) := by
  unfold yield
  rw [caller_bind]
  split
  · exact .refused .refl
  rename_i pid hcurrent
  rw [placeOf_bind]
  split
  · rename_i hfind
    exact .fault (.stranger hcurrent hfind) .refl
  rename_i slot hfind
  rw [get_bind]
  rw [orFault_check_bind]
  split
  · rename_i fault henqueue
    exact .fault (.yield hcurrent hfind henqueue) .refl
  · rename_i tasks henqueue
    exact .yield hcurrent hfind henqueue .refl

theorem leads_exitCaller (arguments : Arguments) (k : Kernel P) :
    Leads (exitCaller k) (Served k .exit arguments) := by
  unfold exitCaller
  rw [get_bind]
  refine (leads_exit _ k).bind ?_ ?_
  · rintro _ k' ⟨p, hreach, tasks, hdestroy, rfl⟩
    exact .exit hdestroy hreach
  · rintro (reason | fault) k' ⟨p, hreach, hdestroy, rfl⟩
    · exact .refused hreach
    · exact .fault (.destroy hdestroy) hreach

/-- Reading text changes nothing, and it does not fault in memory that ends
before the last address. -/
theorem leads_readText (address offset : UInt64) (room : Nat) (k : Kernel P) :
    Leads (readText address offset room k) fun result k' =>
      k' = k ∧ (Platform.Bounded k.platform → address.toNat + offset.toNat < Word.range →
        ∀ fault, result ≠ .error (.fault fault)) := by
  induction room generalizing offset with
  | zero => exact ⟨rfl, fun _ _ _ => by simp⟩
  | succ room ih =>
      unfold readText
      rw [orFault_check_bind]
      split
      · rename_i fault hadd
        refine ⟨rfl, fun _ hinside => ?_⟩
        rw [Word.add, if_pos hinside] at hadd
        contradiction
      rename_i here hadd
      rw [read_bind]
      split
      · exact ⟨rfl, fun _ _ _ => by simp⟩
      rename_i bytes hread
      split
      · exact ⟨rfl, fun _ _ _ => by simp⟩
      -- the byte just read is not the last one, so the next address does not wrap
      have hnext (hbounded : Platform.Bounded k.platform) :
          address.toNat + (offset + 1).toNat < Word.range := by
        have hlast := hbounded _ _ _ hread
        rw [Word.toNat_add hadd] at hlast
        simp only [Word.range] at hlast ⊢
        rw [UInt64.toNat_add, UInt64.toNat_one, Nat.mod_eq_of_lt (by omega)]
        omega
      refine (ih (offset + 1)).bind ?_ ?_
      · rintro rest k' ⟨rfl, _⟩
        exact ⟨rfl, fun _ _ _ => by simp⟩
      · rintro stop k' ⟨rfl, hstop⟩
        refine ⟨rfl, fun hbounded _ fault hfault => ?_⟩
        injection hfault with heq
        exact hstop hbounded (hnext hbounded) fault (by rw [heq])

theorem leads_exec (arguments : Arguments) (k : Kernel P) :
    Leads (exec arguments.first arguments.second k) (Served k .exec arguments) := by
  unfold exec
  split
  · exact .refused .refl
  rename_i hpointers
  rw [not_or] at hpointers
  refine (leads_readText arguments.first 0 nameCapacity k).bind ?_ ?_
  · rintro bytes k' ⟨rfl, _⟩
    refine (leads_spawn _ _ k').bind ?_ ?_
    · rintro pid k'' ⟨p, hreach, tasks, hcreate, rfl⟩
      exact .exec hcreate hreach
    · rintro (reason | fault) k'' ⟨p, hreach, hcreate, rfl⟩
      · exact .refused hreach
      · exact .fault (.create hpointers.2 hcreate) hreach
  · rintro (reason | fault) k' ⟨rfl, hstop⟩
    · exact .refused .refl
    · -- the first address fits a word, whatever memory is like
      refine .fault (.overrun fun hbounded => hstop hbounded ?_ fault rfl) .refl
      exact arguments.first.toNat_lt

theorem leads_mutexLock (arguments : Arguments) (k : Kernel P) :
    Leads (mutexLock arguments.first k) (Served k .mutexLock arguments) := by
  unfold mutexLock
  rw [caller_bind]
  split
  · exact .refused .refl
  rename_i pid hcurrent
  rw [get_bind]
  refine (leads_perform _ k).bind ?_ ?_
  · rintro ⟨previous, mutexes, tasks⟩ k' ⟨hlock, p, hreach, rfl⟩
    exact .mutexLock hcurrent hlock.symm hreach
  · rintro (reason | fault) k' ⟨hlock, p, hreach, rfl⟩
    · exact .refused hreach
    · exact .fault (.mutexLock hcurrent hlock.symm) hreach

theorem leads_mutexUnlock (arguments : Arguments) (k : Kernel P) :
    Leads (mutexUnlock arguments.first k) (Served k .mutexUnlock arguments) := by
  unfold mutexUnlock
  rw [caller_bind]
  split
  · exact .refused .refl
  rename_i pid hcurrent
  rw [get_bind]
  refine (leads_perform _ k).bind ?_ ?_
  · rintro ⟨lockCount, mutexes, tasks⟩ k' ⟨hunlock, p, hreach, rfl⟩
    exact .mutexUnlock hcurrent hunlock.symm hreach
  · rintro (reason | fault) k' ⟨hunlock, p, hreach, rfl⟩
    · exact .refused hreach
    · exact .fault (.mutexUnlock hcurrent hunlock.symm) hreach

theorem leads_mutexAlloc (arguments : Arguments) (k : Kernel P) :
    Leads (mutexAlloc k) (Served k .mutexAlloc arguments) := by
  unfold mutexAlloc
  rw [get_bind]
  refine (leads_perform _ k).bind ?_ ?_
  · rintro ⟨id, mutexes⟩ k' ⟨halloc, p, hreach, rfl⟩
    exact .mutexAlloc halloc.symm hreach
  · rintro stop k' ⟨halloc, p, hreach, rfl⟩
    rw [MutexTable.refused_alloc halloc.symm]
    exact .refused hreach

theorem leads_mutexFree (arguments : Arguments) (k : Kernel P) :
    Leads (mutexFree arguments.first k) (Served k .mutexFree arguments) := by
  unfold mutexFree
  rw [get_bind]
  refine (leads_perform _ k).bind ?_ ?_
  · rintro mutexes k' ⟨hrelease, p, hreach, rfl⟩
    exact .mutexFree hrelease.symm hreach
  · rintro (reason | fault) k' ⟨hrelease, p, hreach, rfl⟩
    · exact .refused hreach
    · exact .fault (.mutexFree hrelease.symm) hreach

/-- The end of a delivery: only a receiver that does not live fails it. -/
def Delivered (k : Kernel P) (receiver : Pid) (result : Except Stop Unit) (k' : Kernel P) : Prop :=
  match k.tasks.table.find? receiver with
  | none => ∃ fault, result = .error (.fault fault)
  | some slot => result = .ok () ∧ ∃ value p, Reaches k.platform p ∧ k' = { k with
      platform := p
      tasks := k.tasks.modify slot fun p => { p with context := p.context.withResult value } }

/-- The result of its call goes into the registers of a live receiver. -/
theorem leads_resolve (receiver : Pid) (value : Int64) {p : P} (hreach : Reaches k.platform p) :
    Leads ((do
      let slot ← placeOf receiver
      modify fun k =>
        { k with
          tasks := k.tasks.modify slot fun p =>
            { p with context := p.context.withResult value } } : Handler P Unit)
      { k with platform := p }) (Delivered k receiver) := by
  rw [placeOf_bind]
  dsimp only
  split
  · rename_i hfind
    show Delivered k receiver _ _
    rw [Delivered, hfind]
    exact ⟨_, rfl⟩
  · rename_i slot hfind
    show Delivered k receiver _ _
    rw [Delivered, hfind]
    exact ⟨rfl, value, p, hreach, rfl⟩

theorem leads_deliver (handoff : Handoff) (k : Kernel P) :
    Leads (deliver handoff k) (Delivered k handoff.receiver) := by
  unfold deliver
  rw [onPlatform_bind]
  have hwrite := Platform.Operation.writeMemory handoff.destination
    handoff.message.encode.toList k.platform
  generalize Platform.writeMemory handoff.destination handoff.message.encode.toList
    k.platform = written at hwrite ⊢
  obtain ⟨result, p⟩ := written
  cases result with
  | ok _ => exact leads_resolve handoff.receiver 0 (.single hwrite)
  | error fault =>
      exact leads_resolve handoff.receiver _ (.tail (.single hwrite) (.log _ p))

theorem leads_send (arguments : Arguments) (k : Kernel P) :
    Leads (send arguments.first arguments.second k) (Served k .send arguments) := by
  unfold send
  rw [caller_bind]
  split
  · exact .refused .refl
  rename_i pid hcurrent
  rw [requirePointer_bind]
  split
  · exact .refused .refl
  rw [read_bind]
  split
  · exact .refused .refl
  rename_i bytes hread
  rw [get_bind]
  refine (leads_perform _ k).bind ?_ ?_
  · rintro ⟨⟨stamped, handoff⟩, mailboxes, tasks⟩ k' ⟨hsend, p, hreach, rfl⟩
    dsimp only
    rw [modify_bind, write_bind]
    -- the message is sent by now, even if the sender's copy cannot be stamped
    have hwrite := Platform.Operation.writeMemory arguments.second stamped.encode.toList p
    split
    · rename_i fault q hresult
      rw [hresult] at hwrite
      exact .send hcurrent hsend.symm (.inr ⟨_, rfl⟩) (hreach.tail hwrite)
    rename_i q hresult
    rw [hresult] at hwrite
    replace hreach := hreach.tail hwrite
    cases handoff with
    | none => exact .send hcurrent hsend.symm (.inl ⟨rfl, rfl⟩) hreach
    | some handoff =>
        refine (leads_deliver handoff _).bind ?_ ?_
        · intro _ k' hdelivered
          unfold Delivered at hdelivered
          split at hdelivered
          · obtain ⟨fault, hfault⟩ := hdelivered
            contradiction
          · rename_i slot hfind
            obtain ⟨_, value, p', hreach', rfl⟩ := hdelivered
            exact .deliver hcurrent hsend.symm hfind (hreach.trans hreach')
        · intro stop k' hdelivered
          unfold Delivered at hdelivered
          split at hdelivered
          · rename_i hfind
            obtain ⟨fault, hfault⟩ := hdelivered
            injection hfault with hstop
            subst hstop
            exact .lost hcurrent hsend.symm hfind
          · have hfault := hdelivered.1
            contradiction
  · rintro (reason | fault) k' ⟨hsend, p, hreach, rfl⟩
    · exact .refused hreach
    · exact .fault (.send hcurrent hsend.symm) hreach

theorem leads_receive (arguments : Arguments) (k : Kernel P) :
    Leads (receive arguments.first arguments.second k) (Served k .receive arguments) := by
  unfold receive
  rw [caller_bind]
  split
  · exact .refused .refl
  rename_i pid hcurrent
  rw [requirePointer_bind]
  split
  · exact .refused .refl
  rw [read_bind]
  split
  · exact .refused .refl
  rw [get_bind]
  refine (leads_perform _ k).bind ?_ ?_
  · rintro ⟨received, mailboxes, tasks⟩ k' ⟨hreceive, p, hreach, rfl⟩
    dsimp only
    rw [modify_bind]
    cases received with
    | blocked => exact .receive hcurrent hreceive.symm (.inl rfl) hreach
    | message message =>
        dsimp only
        rw [write_bind]
        -- the message is taken by now, even if it cannot be written
        have hwrite := Platform.Operation.writeMemory arguments.second message.encode.toList p
        split
        · rename_i fault q hresult
          rw [hresult] at hwrite
          exact .receive hcurrent hreceive.symm (.inr ⟨_, rfl⟩) (hreach.tail hwrite)
        · rename_i q hresult
          rw [hresult] at hwrite
          exact .receive hcurrent hreceive.symm (.inl rfl) (hreach.tail hwrite)
  · rintro (reason | fault) k' ⟨hreceive, p, hreach, rfl⟩
    · exact .refused hreach
    · exact .fault (.receive hcurrent hreceive.symm) hreach

/-- Every call ends in one of the ways listed. -/
theorem leads_serve (call : Call) (arguments : Arguments) (k : Kernel P) :
    Leads (serve call arguments k) (Served k call arguments) := by
  cases call with
  | getTime => exact leads_getTime arguments k
  | exec => exact leads_exec arguments k
  | exit => exact leads_exitCaller arguments k
  | getName => exact leads_getName arguments k
  | getPid => exact leads_getPid arguments k
  | sleep => exact leads_sleep arguments k
  | yield => exact leads_yield arguments k
  | mutexAlloc => exact leads_mutexAlloc arguments k
  | mutexFree => exact leads_mutexFree arguments k
  | mutexLock => exact leads_mutexLock arguments k
  | mutexUnlock => exact leads_mutexUnlock arguments k
  | send => exact leads_send arguments k
  | receive => exact leads_receive arguments k

end Kernel

end Timeshare
