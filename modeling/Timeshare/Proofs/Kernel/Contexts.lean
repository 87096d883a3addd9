import Timeshare.Proofs.Kernel.Others
import Timeshare.Proofs.Kernel.Turns
import Timeshare.Proofs.Kernel.Waits

/-!
# Saved registers

A trap saves the registers of the process that it interrupts, and a call puts its result into
them.  Nothing else writes saved registers, but for the handing over of a message, which puts
the result of the receiver's call into those of the receiver.  So whoever runs again does so
with the registers with which it was interrupted.
-/

namespace Timeshare

namespace Tasks

variable {before middle after t : Tasks} {pid : Pid} {p : Process} {p' : Option Process}
  {context : Frame} {queue : List Pid} {current : Option Pid}

/-- The saved registers of a process, if it lives. -/
def contextOf (t : Tasks) (pid : Pid) : Option Frame := (t.table.get? pid).map (·.context)

theorem contextOf_of_get? (hget : t.table.get? pid = some p) :
    t.contextOf pid = some p.context := by
  rw [contextOf, hget]
  rfl

theorem isSome_of_contextOf (hcontext : t.contextOf pid = some context) :
    (t.table.get? pid).isSome := by
  obtain ⟨p, hget, _⟩ := Option.map_eq_some_iff.1 hcontext
  exact Option.isSome_iff_exists.2 ⟨p, hget⟩

theorem Rewrite.contextOf (h : Rewrite before after pid p' queue current) (q : Pid) :
    after.contextOf q = if q = pid then p'.map (·.context) else before.contextOf q := by
  rw [Tasks.contextOf, h.get?]
  split <;> rfl

/-- Everybody lives on with the same saved registers. -/
def KeepsContexts (before after : Tasks) : Prop :=
  ∀ pid context, before.contextOf pid = some context → after.contextOf pid = some context

theorem KeepsContexts.refl (t : Tasks) : t.KeepsContexts t := fun _ _ h => h

theorem KeepsContexts.trans (h : before.KeepsContexts middle) (h' : middle.KeepsContexts after) :
    before.KeepsContexts after := fun pid context hcontext => h' pid context (h pid context hcontext)

/-- A process is rewritten, but for its registers. -/
theorem Rewrite.keepsContexts {process : Process}
    (h : Rewrite before after pid (some process) queue current)
    (hget : before.table.get? pid = some p) (hsame : process.context = p.context) :
    before.KeepsContexts after := by
  intro q context hcontext
  rw [h.contextOf]
  split
  · rename_i hself
    rw [hself, contextOf_of_get? hget] at hcontext
    exact (congrArg some hsame).trans hcontext
  · exact hcontext

theorem keepsContexts_create {entry now : UInt64} {name : String} (hsound : t.table.Sound)
    (hcreate : (t.create entry name now).outcome = .ok (pid, after)) : t.KeepsContexts after := by
  intro q context hcontext
  obtain ⟨p, hget, rfl⟩ := Option.map_eq_some_iff.1 hcontext
  exact contextOf_of_get? (get?_of_create hsound hcreate hget)

theorem Moves.keepsContexts {now : UInt64} (hmoves : Moves now before after) :
    before.KeepsContexts after := by
  induction hmoves with
  | refl => exact .refl _
  | tail _ hmove ih =>
      apply ih.trans
      cases hmove with
      | drop => exact .refl _
      | expire _ hget _ _ hrewrite => exact hrewrite.keepsContexts hget rfl
      | wake hget _ _ _ hrewrite => exact hrewrite.keepsContexts hget rfl
      | pick _ hget _ hrewrite => exact hrewrite.keepsContexts hget rfl

/-- Whoever is gone does not come back. -/
theorem Continues.contextOf_eq_none (h : before.Continues after)
    (hold : pid.number.toNat < before.table.nextPid.toNat) (hgone : before.contextOf pid = none) :
    after.contextOf pid = none := by
  cases hcontext : after.contextOf pid with
  | none => rfl
  | some context =>
      obtain ⟨p, hget⟩ := Option.isSome_iff_exists.1
        (h.live pid hold (isSome_of_contextOf hcontext))
      rw [contextOf_of_get? hget] at hgone
      contradiction

end Tasks

namespace Kernel

open Machine (Simulated)

variable {P : Type} {k k₁ k' : Kernel P} {frame context : Frame} {pid caller : Pid}
  {arguments : Arguments}

/-! ## Calls -/

/-- A message that is sent with these arguments is handed to `pid`. -/
def Hands (k : Kernel P) (arguments : Arguments) (pid : Pid) (mailboxes : MailboxTable) : Prop :=
  ∃ sender message stamped handoff tasks, k.current = some sender ∧
    (k.mailboxes.send arguments.first message sender k.clock.now k.tasks).outcome =
      .ok ((stamped, some handoff), mailboxes, tasks) ∧
    handoff.receiver = pid

/-- Sending queues the receiver and leaves its registers to the handing over. -/
theorem keepsContexts_send {id now : UInt64} {message stamped : Message} {handoff : Option Handoff}
    {sender : Pid} {mailboxes : MailboxTable} {tasks : Tasks} (hk : k.Coherent)
    (hsend : (k.mailboxes.send id message sender now k.tasks).outcome =
      .ok ((stamped, handoff), mailboxes, tasks)) : k.tasks.KeepsContexts tasks := by
  obtain ⟨_, _, _, _, hcases⟩ := MailboxTable.send_cases hsend
  rcases hcases with ⟨_, rfl, _⟩ | ⟨_, slot, _, _, _, _, _, hfind, _, henqueue⟩
  · exact .refl _
  · have hrewrite := (Tasks.rewrite_modify_enqueue hk.tasks.table hfind
      (ProcessTable.find?_eq_some hfind).1 rfl henqueue).2
    exact hrewrite.keepsContexts (ProcessTable.get?_of_find? hfind) rfl

theorem keepsContexts_lock {id : UInt64} {previous : Nat} {mutexes : MutexTable} {tasks : Tasks}
    (hk : k.Coherent)
    (hlock : (k.mutexes.lock id caller k.tasks).outcome = .ok (previous, mutexes, tasks)) :
    k.tasks.KeepsContexts tasks := by
  obtain ⟨_, _, _, _, _, _, _, hcases⟩ := MutexTable.replace_lock hk.mutexes hlock
  rcases hcases with ⟨_, _, rfl⟩ | ⟨_, hpark⟩
  · exact .refl _
  · obtain ⟨_, hfind, hrewrite⟩ := Tasks.rewrite_park hk.tasks.table hpark
    exact hrewrite.keepsContexts (ProcessTable.get?_of_find? hfind) rfl

theorem keepsContexts_unlock {id : UInt64} {lockCount : Nat} {mutexes : MutexTable}
    {tasks : Tasks} (hk : k.Coherent)
    (hunlock : (k.mutexes.unlock id caller k.tasks).outcome = .ok (lockCount, mutexes, tasks)) :
    k.tasks.KeepsContexts tasks := by
  obtain ⟨_, _, _, _, hcases⟩ := MutexTable.replace_unlock hk.mutexes hunlock
  rcases hcases with ⟨_, _, rfl⟩ | ⟨_, _, _, ⟨_, _, rfl⟩ | ⟨_, _, _, hfind, henqueue⟩⟩
  · exact .refl _
  · exact .refl _
  · have hrewrite := (Tasks.rewrite_enqueue hk.tasks.table hfind henqueue).2
    exact hrewrite.keepsContexts (ProcessTable.get?_of_find? hfind) rfl

theorem keepsContexts_receive {id destination now : UInt64} {received : Received}
    {mailboxes : MailboxTable} {tasks : Tasks} (hk : k.Coherent)
    (hreceive : (k.mailboxes.receive id caller destination now k.tasks).outcome =
      .ok (received, mailboxes, tasks)) : k.tasks.KeepsContexts tasks := by
  obtain ⟨_, _, _, hcases⟩ := MailboxTable.receive_cases hreceive
  rcases hcases with ⟨_, rfl, _⟩ | ⟨_, _, _, _, slot, hfind, hpark⟩
  · exact .refl _
  · have hrewrite := Tasks.rewrite_modify_park hk.tasks.table hfind
      (ProcessTable.find?_eq_some hfind).1 rfl hpark
    exact hrewrite.keepsContexts (ProcessTable.get?_of_find? hfind) rfl

/-- The answer of a call is put into the registers of the caller. -/
theorem Answered.context_before {value : Int64} (hanswered : Answered pid value k k')
    (hsound : k.tasks.table.Sound) (hcontext : k'.tasks.contextOf pid = some context) :
    ∃ asked, k.tasks.contextOf pid = some asked ∧ context = asked.withResult value := by
  cases hget : k.tasks.table.get? pid with
  | some p =>
      rw [Tasks.contextOf_of_get? (hanswered.get? hsound hget)] at hcontext
      exact ⟨p.context, Tasks.contextOf_of_get? hget, (Option.some.inj hcontext).symm⟩
  | none =>
      cases hanswered with
      | gone =>
          rw [Tasks.contextOf, hget] at hcontext
          contradiction
      | saved hfind =>
          rw [ProcessTable.get?_of_find? hfind] at hget
          contradiction

theorem Answered.others {value : Int64} (hanswered : Answered caller value k k')
    (hne : pid ≠ caller) : k'.tasks.contextOf pid = k.tasks.contextOf pid := by
  cases hanswered with
  | gone => rfl
  | saved hfind =>
      exact congrArg (Option.map _)
        (Tasks.get?_modify_of_ne hfind (ProcessTable.find?_eq_some hfind).1 rfl hne)

theorem Saved.contexts (hsaved : Saved frame k (.ok ()) k') (hk : k.Coherent)
    (hcurrent : k.current = some caller) (pid : Pid) :
    k'.tasks.contextOf pid = if pid = caller then some frame else k.tasks.contextOf pid := by
  obtain ⟨p, _, hrewrite⟩ := hsaved.rewrite hk hcurrent
  exact hrewrite.contextOf pid

/-- A trap ends with the registers of whoever has the processor. -/
theorem activeContext_eq_ok (hactive : activeContext k = .ok context) :
    ∃ pid, k.current = some pid ∧ k.context? pid = some context := by
  unfold activeContext at hactive
  split at hactive
  · contradiction
  rename_i pid hcurrent
  split at hactive
  · contradiction
  rename_i frame hcontext
  split at hactive
  · injection hactive with heq
    exact ⟨pid, hcurrent, heq ▸ hcontext⟩
  · contradiction

variable [Platform P]

/-- A call leaves all registers alone, but for those of a caller that exits and of a receiver
to which it hands a message. -/
theorem Served.contexts {call : Call} {result : Except Stop Int64}
    (hserved : Served k call arguments result k') (hk : k.Coherent)
    (hresult : ∀ fault, result ≠ .error (.fault fault))
    (hcontext : k.tasks.contextOf pid = some context) :
    k'.tasks.contextOf pid = some context ∨
      k.current = some pid ∧ k'.tasks.contextOf pid = none ∨
      call = .send ∧ k.Hands arguments pid k'.mailboxes ∧
        ∃ value, k'.tasks.contextOf pid = some (context.withResult value) := by
  have htable := hk.tasks.table
  have hkeeps (h : k.tasks.KeepsContexts k'.tasks) : k'.tasks.contextOf pid = some context :=
    h pid context hcontext
  cases hserved with
  | fault => exact absurd rfl (hresult _)
  | lost => exact absurd rfl (hresult _)
  | refused | answered | mutexAlloc | mutexFree => exact .inl hcontext
  | exec hcreate => exact .inl (hkeeps (Tasks.keepsContexts_create htable hcreate))
  | exit hdestroy =>
      obtain ⟨_, hcurrent, _, _, hrewrite⟩ := Tasks.rewrite_destroy htable hdestroy
      have hafter := hrewrite.contextOf pid
      split at hafter
      · rename_i hself
        exact .inr (.inl ⟨hself ▸ hcurrent, hafter⟩)
      · exact .inl (hafter.trans hcontext)
  | sleep _ hfind hsleep =>
      subst hsleep
      have hrewrite := Tasks.rewrite_modify (f := fun p => { p with
        state := .sleeping, activeTime := 0, wakeTime := k.sleepEnd arguments.first })
        htable hfind rfl rfl
      exact .inl (hkeeps (hrewrite.keepsContexts (ProcessTable.get?_of_find? hfind) rfl))
  | yield _ hfind henqueue =>
      have hrewrite := (Tasks.rewrite_modify_enqueue htable hfind
        (ProcessTable.find?_eq_some hfind).1 rfl henqueue).2
      exact .inl (hkeeps (hrewrite.keepsContexts (ProcessTable.get?_of_find? hfind) rfl))
  | mutexLock _ hlock => exact .inl (hkeeps (keepsContexts_lock hk hlock))
  | mutexUnlock _ hunlock => exact .inl (hkeeps (keepsContexts_unlock hk hunlock))
  | send _ hsend => exact .inl (hkeeps (keepsContexts_send hk hsend))
  | deliver hcurrent hsend hfind =>
      rename_i value _ _
      -- the receiver is queued first and answered then
      have hqueued := keepsContexts_send hk hsend pid context hcontext
      have hrewrite := Tasks.rewrite_modify (f := fun p => { p with
        context := p.context.withResult value }) (hk.send hsend).tasks.table hfind
        (ProcessTable.find?_eq_some hfind).1 rfl
      have hafter := hrewrite.contextOf pid
      split at hafter
      · rename_i hself
        refine .inr (.inr ⟨rfl, ⟨_, _, _, _, _, hcurrent, hsend, hself.symm⟩, value, ?_⟩)
        rw [hself, Tasks.contextOf_of_get? (ProcessTable.get?_of_find? hfind)] at hqueued
        rw [← Option.some.inj hqueued]
        exact hafter
      · exact .inl (hafter.trans hqueued)
  | receive _ hreceive => exact .inl (hkeeps (keepsContexts_receive hk hreceive))

theorem Dispatched.contexts {number : UInt64} {value : Int64}
    (hdispatched : Dispatched k number arguments (.ok value) k') (hk : k.Coherent)
    (hcontext : k.tasks.contextOf pid = some context) :
    k'.tasks.contextOf pid = some context ∨
      k.current = some pid ∧ k'.tasks.contextOf pid = none ∨
      Call.ofNumber? number = some .send ∧ k.Hands arguments pid k'.mailboxes ∧
        ∃ value, k'.tasks.contextOf pid = some (context.withResult value) := by
  cases hdispatched with
  | value hcall hserved =>
      refine (hserved.contexts hk (fun _ h => by contradiction) hcontext).imp id (Or.imp id ?_)
      rintro ⟨rfl, hhands⟩
      exact ⟨hcall, hhands⟩
  | refused hcall hserved =>
      refine (hserved.contexts hk (fun _ h => by injection h; contradiction) hcontext).imp id
        (Or.imp id ?_)
      rintro ⟨rfl, hhands⟩
      exact ⟨hcall, hhands⟩

/-! ## The stages of a trap -/

/-- Behind its handler the interrupted process has the registers of the frame, with the answer
of a call in place. -/
theorem interrupted_of_enter (henter : enter frame k = .ok () k₁) (hk : k.Coherent)
    (hsettled : k.tasks.Settled) (hcurrent : k.current = some pid)
    (hcontext : k₁.tasks.contextOf pid = some context) :
    frame.vector = timerVector ∧ context = frame ∨
      frame.vector = callVector ∧
        ∃ value, answer frame k = some value ∧ context = frame.withResult value := by
  obtain ⟨saved, hsave, hentered⟩ := enter_eq_ok henter
  have hsaved := (leads_saveContext frame k).of_ok hsave
  have hk₀ := hsaved.coherent hk
  have hbefore := hsaved.contexts hk hcurrent pid
  rw [if_pos rfl] at hbefore
  cases hentered with
  | timer hvector hticked =>
      obtain ⟨p, _, _, hget, _, _, hrewrite⟩ := hticked.rewrite hk₀ (hsaved.current.trans hcurrent)
      have hafter := hrewrite.keepsContexts hget rfl pid frame hbefore
      exact .inl ⟨hvector, Option.some.inj (hcontext.symm.trans hafter)⟩
  | call hvector hcalled =>
      obtain ⟨other, value, answered, hother, _, hanswer, hdispatch, hanswered⟩ :=
        answered_of_called hcalled hsave hk hvector
      obtain rfl : other = pid := Option.some.inj (hother.symm.trans hcurrent)
      have hdispatched := (leads_dispatch _ _ saved).of_ok hdispatch
      have hk₁ := hdispatched.coherent hk₀ (hsaved.engaged hsettled.engaged)
      obtain ⟨asked, hasked, rfl⟩ := hanswered.context_before hk₁.tasks.table hcontext
      refine .inr ⟨hvector, value, hanswer, ?_⟩
      rcases hdispatched.contexts hk₀ hbefore with hsame | ⟨_, hgone⟩ | ⟨_, _, given, hgiven⟩
      · rw [Option.some.inj (hasked.symm.trans hsame)]
      · rw [hgone] at hasked
        contradiction
      · -- idle handed the message to itself, and its own answer comes later
        rw [Option.some.inj (hasked.symm.trans hgiven)]
        rfl

/-- Behind the handler everybody else has the same registers, but for a receiver to which the
call of the trap handed a message. -/
theorem others_of_enter (henter : enter frame k = .ok () k₁) (hk : k.Coherent)
    (hcurrent : k.current = some caller) (hne : pid ≠ caller)
    (hcontext : k.tasks.contextOf pid = some context) :
    k₁.tasks.contextOf pid = some context ∨
      (frame.vector = callVector ∧ Call.ofNumber? frame.callNumber = some .send ∧
        ∃ saved, saveContext frame k = .ok () saved ∧
          saved.Hands frame.arguments pid k₁.mailboxes) ∧
        ∃ value, k₁.tasks.contextOf pid = some (context.withResult value) := by
  obtain ⟨saved, hsave, hentered⟩ := enter_eq_ok henter
  have hsaved := (leads_saveContext frame k).of_ok hsave
  have hk₀ := hsaved.coherent hk
  have hbefore := hsaved.contexts hk hcurrent pid
  rw [if_neg hne, hcontext] at hbefore
  cases hentered with
  | timer hvector hticked =>
      obtain ⟨p, _, _, hget, _, _, hrewrite⟩ := hticked.rewrite hk₀ (hsaved.current.trans hcurrent)
      exact .inl (hrewrite.keepsContexts hget rfl pid context hbefore)
  | call hvector hcalled =>
      obtain ⟨other, value, answered, hother, hself, _, hdispatch, hanswered⟩ :=
        answered_of_called hcalled hsave hk hvector
      obtain rfl : other = caller := Option.some.inj (hother.symm.trans hcurrent)
      rw [hanswered.others hne, hanswered.tables.2.1]
      rcases ((leads_dispatch _ _ saved).of_ok hdispatch).contexts hk₀ hbefore with
        hsame | ⟨hpid, _⟩ | ⟨hcall, hhands, hgiven⟩
      · exact .inl hsame
      · exact absurd (Option.some.inj (hpid.symm.trans hself)) hne
      · exact .inr ⟨⟨hvector, hcall, saved, hsave, hhands⟩, hgiven⟩

/-- Behind the handler nobody is recorded but the interrupted process. -/
theorem current_of_enter (henter : enter frame k = .ok () k₁) (hk : k.Coherent)
    (hsettled : k.tasks.Settled) (hcurrent : k.current = some caller) :
    k₁.current = none ∨ k₁.current = some caller := by
  obtain ⟨saved, hsave, hentered⟩ := enter_eq_ok henter
  have hsaved := (leads_saveContext frame k).of_ok hsave
  have hk₀ := hsaved.coherent hk
  have hself := hsaved.current.trans hcurrent
  cases hentered with
  | timer _ hticked => exact .inr ((hticked.spent hk₀ hself).2.1.trans hself)
  | call _ hcalled =>
      have hlines := hcalled.linesUp hk₀ (hsaved.engaged hsettled.engaged)
      exact hlines.current.imp id fun h => h.1.trans hself

/-- Behind the handler the operator may destroy whoever has the processor, and nobody's
registers change. -/
theorem Finished.contexts (hfinished : Finished k k') (hk : k.Coherent)
    (hcontext : k.tasks.contextOf pid = some context) :
    k'.tasks.contextOf pid = some context ∨
      k.current = some pid ∧ k'.tasks.contextOf pid = none := by
  obtain ⟨k₂, transition, hattend, hschedule⟩ := hfinished
  obtain ⟨operated, hoperated, hpainted⟩ := attend_eq_ok hattend
  have hk₂ := coherent_attend hattend hk
  have hpassed := (leads_schedule k₂).of_ok hschedule
  have hkeeps : k₂.tasks.KeepsContexts k'.tasks := by
    cases hpassed with
    | passed hpass => exact (Tasks.moves_reschedule hk₂.tasks.table hpass).1.keepsContexts
  rw [hpainted.tables.2] at hkeeps
  cases hoperated with
  | quiet => exact .inl (hkeeps pid context hcontext)
  | spawned _ hcreate =>
      exact .inl (hkeeps pid context
        (Tasks.keepsContexts_create hk.tasks.table hcreate pid context hcontext))
  | killed hdestroy =>
      obtain ⟨_, hcurrent, _, _, hrewrite⟩ := Tasks.rewrite_destroy hk.tasks.table hdestroy
      have hafter := hrewrite.contextOf pid
      split at hafter
      · rename_i hself
        have hcontinues := (hpassed.evolvesAt hk₂).continues
        rw [hpainted.tables.2] at hcontinues
        obtain ⟨p, hget, _⟩ := Option.map_eq_some_iff.1 hcontext
        have hold := Nat.lt_of_lt_of_le (hk.tasks.table.lt_nextPid hget) hrewrite.nextPid
        exact .inr ⟨hself ▸ hcurrent, hcontinues.contextOf_eq_none hold hafter⟩
      · exact .inl (hkeeps pid context (hafter.trans hcontext))

/-- Whoever lives in the end had the same registers behind the handler. -/
theorem Finished.context_before (hfinished : Finished k k') (hk : k.Coherent)
    (hold : pid.number.toNat < k.tasks.table.nextPid.toNat)
    (hcontext : k'.tasks.contextOf pid = some context) : k.tasks.contextOf pid = some context := by
  cases hbefore : k.tasks.contextOf pid with
  | none =>
      rw [(hfinished.evolvesAt hk).continues.contextOf_eq_none hold hbefore] at hcontext
      contradiction
  | some left =>
      rcases hfinished.contexts hk hbefore with hsame | ⟨_, hgone⟩
      · exact hsame.symm.trans hcontext
      · rw [hgone] at hcontext
        contradiction

/-! ## Traps -/

variable {m : Moment P} {past later : List (Moment P)} {id id' : UInt64} {q : Pid}

/-- Whoever is handed a message is the first in the wait queue of the mailbox. -/
theorem Moment.HandsMessage.head_waitingAt (h : m.HandsMessage id pid) :
    ∃ index : MailboxId, index.val = id.toNat ∧
      (m.before.mailboxes.waitingAt index).head? = some pid := by
  obtain ⟨_, _, frame, saved, _, _, handoff, _, _, _, _, hsave, hsend, rfl⟩ := h
  have hsaved : saved.mailboxes = m.before.mailboxes :=
    (inner_mailboxes.saveContext frame m.before).of_ok hsave
  obtain ⟨index, hindex, _, _, hcases⟩ := MailboxTable.send_cases hsend
  rcases hcases with ⟨hnone, _⟩ | ⟨receiver, _, _, _, hhandoff, hwaiting, _⟩
  · contradiction
  · injection hhandoff with heq
    refine ⟨index, hindex, ?_⟩
    rw [← hsaved, hwaiting, heq]
    rfl

/-- One moment hands one message to one receiver. -/
theorem Moment.HandsMessage.unique (h : m.HandsMessage id pid) (h' : m.HandsMessage id' q) :
    pid = q := by
  obtain ⟨index, hindex, hhead⟩ := h.head_waitingAt
  obtain ⟨index', hindex', hhead'⟩ := h'.head_waitingAt
  obtain ⟨_, _, _, _, _, _, _, _, hcalls, rfl, _⟩ := h
  obtain ⟨_, _, _, _, _, _, _, _, hcalls', rfl, _⟩ := h'
  obtain ⟨_, _, rfl⟩ := hcalls.unique hcalls'
  obtain rfl : index = index' := Fin.ext (hindex.trans hindex'.symm)
  exact Option.some.inj (hhead.symm.trans hhead')

/-- A trap with these registers interrupts the process. -/
def Moment.Interrupts (m : Moment P) (pid : Pid) (frame : Frame) : Prop :=
  m.deed = .trap frame ∧ m.before.current = some pid

/-- A trap ends with the process and these registers. -/
def Moment.Resumes (m : Moment P) (pid : Pid) (resumed : Frame) : Prop :=
  ∃ frame, m.deed = .trap frame ∧ trap frame m.before = .ok resumed m.after ∧
    m.after.current = some pid

/-- What a trap that interrupts `caller` does to the saved registers. -/
structure Moment.SavesContexts (m : Moment P) (frame : Frame) (caller : Pid) : Prop where
  /-- If it still exists, it has those of the frame; a call has put its answer into them. -/
  interrupted : ∀ context, m.after.context? caller = some context →
    frame.vector = timerVector ∧ context = frame ∨
      frame.vector = callVector ∧
        ∃ value, answer frame m.before = some value ∧ context = frame.withResult value
  /-- Everybody else has those it had, but for the result of a receiver's call. -/
  others : ∀ pid context, pid ≠ caller → m.before.context? pid = some context →
    m.after.context? pid = some context ∨
      ∃ id value, m.HandsMessage id pid ∧ m.after.context? pid = some (context.withResult value)
  /-- At most one receiver is handed a message. -/
  receiver : ∀ id id' pid q, m.HandsMessage id pid → m.HandsMessage id' q → pid = q
  /-- The trap ends with the saved registers of whoever has the processor then. -/
  resumed : ∃ next context, m.Resumes next context ∧ m.after.context? next = some context

theorem Moment.Interrupts.savesContexts (hinterrupts : m.Interrupts caller frame)
    (hdone : m.deed.carryOut m.before = .ok () m.after) (hk : m.before.Coherent)
    (hsettled : m.before.tasks.Settled) : m.SavesContexts frame caller := by
  obtain ⟨hdeed, hcurrent⟩ := hinterrupts
  rw [hdeed] at hdone
  obtain ⟨resumed, htrap⟩ := exists_of_discard hdone
  obtain ⟨served, k₂, transition, henter, hattend, hschedule, hactive⟩ := stages_of_trap htrap
  have hfinished : Finished served m.after := ⟨k₂, transition, hattend, hschedule⟩
  have hserved := coherent_enter henter hk hsettled.engaged
  refine ⟨fun context hcontext => ?_, fun pid context hne hcontext => ?_,
    fun _ _ _ _ h h' => h.unique h', ?_⟩
  · obtain ⟨saved, hsave, hentered⟩ := enter_eq_ok henter
    have hsaved := (leads_saveContext frame m.before).of_ok hsave
    have hcontinues := (hsaved.continues hk).trans
      (hentered.continues (hsaved.coherent hk) (hsaved.engaged hsettled.engaged))
    obtain ⟨p, hget⟩ := Option.isSome_iff_exists.1
      (Tasks.isSome_of_stateOf (Settled.active hsettled hcurrent))
    have hold := Nat.lt_of_lt_of_le (hk.tasks.table.lt_nextPid hget) hcontinues.nextPid
    exact interrupted_of_enter henter hk hsettled hcurrent
      (hfinished.context_before hserved hold hcontext)
  · have hfree : served.current ≠ some pid := by
      rcases current_of_enter henter hk hsettled hcurrent with hnone | hself
      · rw [hnone]
        exact nofun
      · rw [hself]
        exact fun heq => hne (Option.some.inj heq).symm
    rcases others_of_enter henter hk hcurrent hne hcontext with
      hsame | ⟨⟨hvector, hcall, saved, hsave, sender, message, stamped, handoff, tasks, hsender,
        hsend, hreceiver⟩, value, hgiven⟩
    · exact .inl ((hfinished.contexts hserved hsame).resolve_right fun h => hfree h.1)
    · have hafter := (hfinished.contexts hserved hgiven).resolve_right fun h => hfree h.1
      rw [((leads_saveContext frame m.before).of_ok hsave).current] at hsender
      rw [← show m.after.mailboxes = served.mailboxes from inner_mailboxes.finished hfinished] at hsend
      exact .inr ⟨frame.arguments.first, value, ⟨sender, frame.arguments, frame, saved, message,
        stamped, handoff, tasks, ⟨frame, hdeed, hvector, hsender, Call.number_of_ofNumber? hcall, rfl⟩,
        rfl, hdeed, hsave, hsend, hreceiver⟩, hafter⟩
  · obtain ⟨next, hnext, hcontext⟩ := activeContext_eq_ok hactive
    exact ⟨next, resumed, ⟨frame, hdeed, htrap, hnext⟩, hcontext⟩

/-! ## Between traps -/

variable {contexts : Frame → Prop}

theorem Spawned.keepsContexts {entry : UInt64} {name : String} {result : Except Refusal Pid}
    (hspawned : Spawned entry name k (.ok result) k') (hk : k.Coherent) :
    k.tasks.KeepsContexts k'.tasks := by
  cases hspawned with
  | created hcreate => exact Tasks.keepsContexts_create hk.tasks.table hcreate
  | refused => exact .refl _

/-- Whoever is not interrupted keeps its registers, but for the result of a receiver's call. -/
theorem context_of_ordinary (hordinary : m.deed.ordinary)
    (hdone : m.deed.carryOut m.before = .ok () m.after) (hk : m.before.Coherent)
    (hsettled : m.before.tasks.Settled)
    (hother : ∀ frame, ¬ m.Interrupts pid frame)
    (hcontext : m.before.context? pid = some context) :
    m.after.context? pid = some context ∨
      ∃ id value, m.HandsMessage id pid ∧ m.after.context? pid = some (context.withResult value) := by
  rcases Deed.effect hordinary hdone with
    ⟨frame, _, hdeed, _⟩ | ⟨_, _, _, _, hspawned⟩ | ⟨_, _, _, hafter⟩
  · have hself := hsettled
    obtain ⟨caller, hcurrent, _⟩ := hself
    have hinterrupts : m.Interrupts caller frame := ⟨hdeed, hcurrent⟩
    exact (hinterrupts.savesContexts hdone hk hsettled).others pid context
      (fun heq => hother frame (heq ▸ hinterrupts)) hcontext
  · exact .inl (hspawned.keepsContexts hk pid context hcontext)
  · rw [hafter]
    exact .inl hcontext

/-- Only whoever asks for a message starts to wait for one. -/
theorem calls_of_mem_waiters (hordinary : m.deed.ordinary)
    (hdone : m.deed.carryOut m.before = .ok () m.after) (hk : m.before.Coherent)
    (hmem : pid ∈ m.after.mailboxes.waiters) (habsent : pid ∉ m.before.mailboxes.waiters) :
    ∃ arguments, m.Calls pid .receive arguments := by
  rcases calls_or_kept inner_mailboxes hordinary hdone hk with
    ⟨caller, call, arguments, hcalls⟩ | hsame
  · obtain ⟨_, saved, _, _, hsaved, hmove⟩ := hcalls.mailMove hdone hk
    rw [← hsaved] at habsent
    generalize m.after.mailboxes = mailboxes at hmove hmem
    cases hmove with
    | keep => exact absurd hmem habsent
    | send hsend => exact absurd (MailboxTable.waiters_send hsend hmem) habsent
    | receive hreceive =>
        have hnew := List.mem_cons.1 (MailboxTable.waiters_receive hreceive hmem)
        obtain rfl := hnew.resolve_right habsent
        exact ⟨arguments, hcalls⟩
  · rw [hsame] at hmem
    exact absurd hmem habsent

/-- A process that does not run: if it lives its registers are one of `contexts`, and no message
can be handed to it that would make them others. -/
structure Suspended (k : Kernel P) (pid : Pid) (contexts : Frame → Prop) : Prop where
  old : pid.number.toNat < k.tasks.table.nextPid.toNat
  context : ∀ context, k.context? pid = some context → contexts context
  deaf : pid ∉ k.mailboxes.waiters ∨
    ∀ context value, contexts context → contexts (context.withResult value)

theorem Suspended.step (h : m.before.Suspended pid contexts) (hordinary : m.deed.ordinary)
    (hdone : m.deed.carryOut m.before = .ok () m.after) (hk : m.before.Coherent)
    (hsettled : m.before.tasks.Settled)
    (hother : ∀ frame, ¬ m.Interrupts pid frame) : m.after.Suspended pid contexts := by
  have hcontinues := Deed.continues hordinary hdone hk hsettled
  refine ⟨h.old.trans_le hcontinues.nextPid, fun context hcontext => ?_, ?_⟩
  · obtain ⟨p, hget⟩ := Option.isSome_iff_exists.1
      (hcontinues.live pid h.old (Tasks.isSome_of_contextOf hcontext))
    have hbefore := Tasks.contextOf_of_get? hget
    rcases context_of_ordinary hordinary hdone hk hsettled hother hbefore with
      hsame | ⟨id, value, hhands, hgiven⟩
    · obtain rfl := Option.some.inj (hcontext.symm.trans hsame)
      exact h.context _ hbefore
    · obtain rfl := Option.some.inj (hcontext.symm.trans hgiven)
      refine h.deaf.resolve_left (fun habsent => habsent ?_) _ value (h.context _ hbefore)
      obtain ⟨index, _, hhead⟩ := hhands.head_waitingAt
      exact MailboxTable.mem_waiters_iff.2 ⟨index, List.mem_of_head? hhead⟩
  · refine h.deaf.imp_left fun habsent hmem => ?_
    obtain ⟨arguments, frame, hdeed, _, hcurrent, _⟩ :=
      calls_of_mem_waiters hordinary hdone hk hmem habsent
    exact hother frame ⟨hdeed, hcurrent⟩

/-- The registers with which a process may go on that was interrupted with those of `frame`; it
has its answer, but for one that asked for a message. -/
def Resumable (frame : Frame) (answer : Option Int64) (context : Frame) : Prop :=
  frame.vector = timerVector ∧ context = frame ∨
    frame.vector = callVector ∧ ∃ value, context = frame.withResult value ∧
      (Call.ofNumber? frame.callNumber ≠ some .receive → answer = some value)

/-- A trap leaves the process that it interrupted with its registers. -/
theorem Moment.Interrupts.suspended (hinterrupts : m.Interrupts pid frame)
    (hordinary : m.deed.ordinary) (hdone : m.deed.carryOut m.before = .ok () m.after)
    (hk : m.before.Coherent) (hsettled : m.before.tasks.Settled) (hidle : pid ≠ .idle) :
    m.after.Suspended pid (Resumable frame (answer frame m.before)) := by
  have hsaves := hinterrupts.savesContexts hdone hk hsettled
  obtain ⟨hdeed, hcurrent⟩ := hinterrupts
  have hactive := Settled.active hsettled hcurrent
  obtain ⟨p, hget⟩ := Option.isSome_iff_exists.1 (Tasks.isSome_of_stateOf hactive)
  refine ⟨(hk.tasks.table.lt_nextPid hget).trans_le
    (Deed.continues hordinary hdone hk hsettled).nextPid, fun context hcontext => ?_, ?_⟩
  · exact (hsaves.interrupted context hcontext).imp id fun ⟨hvector, value, hanswer, heq⟩ =>
      ⟨hvector, value, heq, fun _ => hanswer⟩
  · by_cases hreceive : ∃ arguments, m.Calls pid .receive arguments
    · -- the result of its call may still come
      obtain ⟨_, other, hother, hvector, _, hnumber, _⟩ := hreceive
      obtain rfl := Deed.trap.inj (hdeed.symm.trans hother)
      refine .inr fun context value hcontext => ?_
      rcases hcontext with ⟨htimer, _⟩ | ⟨_, _, rfl, _⟩
      · rw [htimer] at hvector
        contradiction
      · refine .inr ⟨hvector, value, rfl, fun hne => absurd ?_ hne⟩
        rw [hnumber, Call.ofNumber?_number]
    · refine .inl fun hmem => hreceive (calls_of_mem_waiters hordinary hdone hk hmem fun hbefore => ?_)
      exact Coherent.not_mem_waiters hk hidle hactive (List.mem_append_right _ hbefore)

/-- A trap saves the registers of the process that it interrupts, with the result of a call in
place; everybody else keeps its own, but for the result of one receiver's call; and the trap
ends with those of whoever has the processor then.  So a process other than idle goes on with
the registers with which it was interrupted, whatever happens to others in between, but for the
result of its call. -/
theorem contexts_preserved (hcourse : Course (later ++ m :: past) k)
    (hordinary : ∀ u ∈ later ++ m :: past, u.deed.ordinary)
    (hinterrupts : m.Interrupts pid frame) :
    m.SavesContexts frame pid ∧
      (pid ≠ .idle → (∀ u ∈ later, ∀ other, ¬ u.Interrupts pid other) →
        ∀ u rest resumed, later ++ [m] = u :: rest → u.Resumes pid resumed →
          Resumable frame (answer frame m.before) resumed) := by
  constructor
  · refine hcourse.since_ordinary (Q := fun _ _ => m.SavesContexts frame pid) hordinary ?_
      fun _ _ _ _ _ _ h => h
    exact fun _ hk hsettled hdone => hinterrupts.savesContexts hdone hk hsettled
  intro hidle halone u rest resumed hsplit ⟨other, _, htrap, hcurrent⟩
  have hsuspended : k.Suspended pid (Resumable frame (answer frame m.before)) := by
    refine hcourse.since_ordinary (Q := fun later k =>
      (∀ u ∈ later, ∀ other, ¬ u.Interrupts pid other) →
        k.Suspended pid (Resumable frame (answer frame m.before))) hordinary ?_ ?_ halone
    · exact fun hm hk hsettled hdone _ => hinterrupts.suspended hm hdone hk hsettled hidle
    · intro u later hu hk hsettled hdone ih halone
      exact (ih fun v hv => halone v (List.mem_cons_of_mem _ hv)).step hu hdone hk hsettled
        (halone u List.mem_cons_self)
  rw [List.append_cons, hsplit] at hcourse
  obtain ⟨_, _, rfl⟩ := hcourse.tail
  -- the last trap ends with the registers of the process
  obtain ⟨_, _, _, _, _, _, hactive⟩ := stages_of_trap htrap
  obtain ⟨next, hnext, hcontext⟩ := activeContext_eq_ok hactive
  obtain rfl := Option.some.inj (hnext.symm.trans hcurrent)
  exact hsuspended.context resumed hcontext

/-- A process yields and goes on when all others have yielded, with what was in its registers. -/
theorem contexts_preserved_over_yields :
    ∃ (later past : List (Moment Simulated)) (u m : Moment Simulated) (frame resumed : Frame),
      Course (u :: later ++ m :: past) u.after ∧ (∀ v ∈ u :: later ++ m :: past, v.deed.ordinary) ∧
      m.Interrupts ⟨1⟩ frame ∧ (∀ v ∈ u :: later, ∀ other, ¬ v.Interrupts ⟨1⟩ other) ∧
      frame.r15 = 7 ∧ m.SavesContexts frame ⟨1⟩ ∧ u.Resumes ⟨1⟩ resumed ∧
      Resumable frame (answer frame m.before) resumed := by
  obtain ⟨later, m, past, k, hcourse, hordinary, hcheck⟩ := exists_course_around 4
    [.trap (callFrame .yield 0 0), .trap { callFrame .yield 0 0 with r15 := 7 }, .trap timerFrame,
      .trap (callFrame .yield 0 0), .trap (callFrame .yield 0 0), .trap (callFrame .yield 0 0)]
    (fun later m _ k => decide (m.before.current = some ⟨1⟩ ∧ k.current = some ⟨1⟩ ∧
        ∀ v ∈ later, v.before.current ≠ some ⟨1⟩) &&
      (m.deed.frame?.any fun frame => frame.r15 == 7) &&
      later.head?.any fun u => u.deed.frame?.isSome) (by decide +kernel)
  obtain ⟨hmoment, hlater⟩ := (Bool.and_eq_true ..).mp hcheck
  obtain ⟨hends, hregisters⟩ := (Bool.and_eq_true ..).mp hmoment
  obtain ⟨hbefore, hafter, halone⟩ := of_decide_eq_true hends
  obtain ⟨frame, hframe, hregister⟩ := (Option.any_eq_true ..).1 hregisters
  obtain ⟨u, hhead, htraps⟩ := (Option.any_eq_true ..).1 hlater
  obtain ⟨last, hlast⟩ := Option.isSome_iff_exists.1 htraps
  obtain ⟨later, rfl⟩ := List.head?_eq_some_iff.1 hhead
  obtain ⟨_, hdone, rfl⟩ := hcourse.tail
  rw [Deed.frame?_eq_some.1 hlast] at hdone
  obtain ⟨resumed, htrap⟩ := exists_of_discard hdone
  have hinterrupts : m.Interrupts ⟨1⟩ frame := ⟨Deed.frame?_eq_some.1 hframe, hbefore⟩
  have hresumes : u.Resumes ⟨1⟩ resumed := ⟨last, Deed.frame?_eq_some.1 hlast, htrap, hafter⟩
  have hothers : ∀ v ∈ u :: later, ∀ other, ¬ v.Interrupts ⟨1⟩ other :=
    fun v hv other hinterrupts => halone v hv hinterrupts.2
  obtain ⟨hsaves, hrun⟩ := contexts_preserved hcourse hordinary hinterrupts
  exact ⟨later, past, u, m, frame, resumed, hcourse, hordinary, hinterrupts, hothers,
    beq_iff_eq.1 hregister, hsaves, hresumes, hrun (by decide) hothers u _ resumed rfl hresumes⟩

end Kernel

end Timeshare
