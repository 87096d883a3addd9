import Timeshare.Proofs.Kernel.Idle

/-!
# Courses at which idle is silent

Whatever is done to a kernel, calls and passes on their own included, its tables stay in
step as long as idle makes no call: the recorded process is active, idle waits for nothing,
and nobody who lives is out of step.  Everything but the call that is served, if one is,
leaves those who wait alone.
-/

namespace Timeshare

/-- An active process stays so when another one is rewritten. -/
theorem Tasks.Engaged.rewrite {t t' : Tasks} {pid : Pid} {p : Option Process} {queue : List Pid}
    {current : Option Pid} (hengaged : t.Engaged) (hrewrite : Rewrite t t' pid p queue current)
    (hothers : ∀ q, current = some q → t.current = some q ∧ q ≠ pid) :
    t'.Engaged := by
  intro active hcurrent
  obtain ⟨hbefore, hother⟩ := hothers active (hrewrite.current.symm.trans hcurrent)
  rw [hrewrite.stateOf, if_neg hother]
  exact hengaged active hbefore

/-- Who is queued was not active. -/
theorem Tasks.Engaged.queue {t t' : Tasks} {pid : Pid} {p : Option Process} {queue : List Pid}
    (hengaged : t.Engaged) (hrewrite : Rewrite t t' pid p queue t.current)
    (hother : t.current ≠ some pid) : t'.Engaged :=
  hengaged.rewrite hrewrite fun _ hcurrent =>
    ⟨hcurrent, fun hself => hother (hself ▸ hcurrent)⟩

/-- Whoever is parked gives the processor back. -/
theorem Tasks.Engaged.park {t t' : Tasks} {pid : Pid} {p : Option Process} {queue : List Pid}
    (hengaged : t.Engaged) (hrewrite : Rewrite t t' pid p queue
      (if t.current = some pid then none else t.current)) : t'.Engaged := by
  refine hengaged.rewrite hrewrite fun active hcurrent => ?_
  split at hcurrent
  · contradiction
  · rename_i hother
    exact ⟨hcurrent, fun hself => hother (hself ▸ hcurrent)⟩

namespace Kernel

variable {P : Type} {S : Pid → Prop} {k k' k'' : Kernel P} {frame : Frame} {pid : Pid}
  {m : Moment P} {moments : List (Moment P)}

/-! ## Tables in step -/

/-- Whoever lives is in step, but for idle, which waits for nothing. -/
structure InStep (S : Pid → Prop) (k : Kernel P) : Prop extends Steady S k where
  restless : .idle ∉ k.waiters
  gone : ∀ pid, pid ≠ .idle → ¬ S pid →
    pid.number.toNat < k.tasks.table.nextPid.toNat ∧ ¬ k.Lives pid

namespace InStep

theorem satisfies (h : InStep S k) (hlives : k.Lives pid) (hidle : pid ≠ .idle) : S pid := by
  by_contra hout
  exact (h.gone pid hidle hout).2 hlives

/-- Whoever has the processor waits for nothing. -/
theorem not_mem_waiters (h : InStep S k) (hcurrent : k.current = some pid) : pid ∉ k.waiters := by
  intro hmem
  have hactive := h.engaged pid hcurrent
  by_cases hidle : pid = .idle
  · exact h.restless (hidle ▸ hmem)
  · have hpid := h.satisfies (Tasks.isSome_of_stateOf hactive) hidle
    rw [(h.coherent.count_eq_one hpid hmem).1] at hactive
    contradiction

/-- Pids are not used again, so whoever is gone stays so. -/
theorem step (h : InStep S k) (hcoherent : k'.CoherentOn S) (hengaged : k'.tasks.Engaged)
    (hcontinues : k.tasks.Continues k'.tasks) (hrestless : .idle ∉ k'.waiters) : InStep S k' := by
  refine ⟨⟨hcoherent, hengaged, hcontinues.idle h.idle⟩, hrestless, fun pid hidle hout => ?_⟩
  obtain ⟨hissued, hgone⟩ := h.gone pid hidle hout
  exact ⟨Nat.lt_of_lt_of_le hissued hcontinues.nextPid,
    fun hlives => hgone (hcontinues.live pid hissued hlives)⟩

end InStep

/-- The tables stay in step, and whoever waits is left alone. -/
structure Calm (S : Pid → Prop) (k k' : Kernel P) : Prop where
  inStep : InStep S k'
  mailboxes : k'.mailboxes = k.mailboxes
  waiter : ∀ pid, S pid → k.tasks.stateOf pid = some .waiting →
    k'.tasks.stateOf pid = some .waiting ∧ k'.tasks.destinationOf pid = k.tasks.destinationOf pid

theorem Calm.refl (h : InStep S k) : Calm S k k := ⟨h, rfl, fun _ _ hwaiting => ⟨hwaiting, rfl⟩⟩

theorem Calm.trans (h : Calm S k k') (h' : Calm S k' k'') : Calm S k k'' := by
  refine ⟨h'.inStep, h'.mailboxes.trans h.mailboxes, fun pid hpid hwaiting => ?_⟩
  obtain ⟨hwaiting', hsame⟩ := h.waiter pid hpid hwaiting
  obtain ⟨hwaiting'', hsame'⟩ := h'.waiter pid hpid hwaiting'
  exact ⟨hwaiting'', hsame'.trans hsame⟩

/-- A phase that leaves the wait queues alone, and the control blocks of those on them. -/
theorem InStep.calm (h : InStep S k) (hcoherent : k'.CoherentOn S) (hengaged : k'.tasks.Engaged)
    (hcontinues : k.tasks.Continues k'.tasks)
    (htables : k'.mutexes = k.mutexes ∧ k'.mailboxes = k.mailboxes)
    (hsame : ∀ pid p, pid ≠ .idle → k.current ≠ some pid → k.tasks.table.get? pid = some p →
      p.state = .waiting → k'.tasks.table.get? pid = some p) : Calm S k k' := by
  refine ⟨h.step hcoherent hengaged hcontinues ?_, htables.2, fun pid hpid hwaiting => ?_⟩
  · rw [Kernel.waiters, htables.1, htables.2]
    exact h.restless
  · obtain ⟨p, hget, hstate⟩ := Option.map_eq_some_iff.1 hwaiting
    have hcurrent : k.current ≠ some pid := by
      intro hcurrent
      rw [h.engaged pid hcurrent] at hwaiting
      contradiction
    have hget' := hsame pid p (fun hidle => h.coherent.idle (hidle ▸ hpid)) hcurrent hget hstate
    rw [Tasks.stateOf, Tasks.destinationOf, Tasks.destinationOf, hget', hget]
    exact ⟨congrArg some hstate, rfl⟩

/-- A phase that leaves all tables alone. -/
theorem InStep.untouched (h : InStep S k) (htables : k'.tasks = k.tasks ∧
    k'.mutexes = k.mutexes ∧ k'.mailboxes = k.mailboxes) : Calm S k k' := by
  obtain ⟨htasks, hmutexes, hmailboxes⟩ := htables
  refine h.calm ?_ (htasks ▸ h.engaged) (htasks ▸ .refl _) ⟨hmutexes, hmailboxes⟩
    fun _ _ _ _ hget _ => by rw [htasks]; exact hget
  rw [CoherentOn, htasks, hmutexes, hmailboxes]
  exact h.coherent

theorem InStep.saved (h : InStep S k) (hsaved : Saved frame k (.ok ()) k') : Calm S k k' :=
  h.calm (hsaved.coherent h.coherent) (hsaved.engaged h.engaged) (hsaved.continues h.coherent)
    (by cases hsaved <;> exact ⟨rfl, rfl⟩)
    fun _ _ _ hother hget _ => (hsaved.others hother).trans hget

/-- An answer goes into registers, and nowhere else. -/
theorem InStep.answered {value : Int64} (h : InStep S k) (hanswered : Answered pid value k k') :
    Calm S k k' := by
  cases hanswered with
  | gone => exact .refl h
  | saved hfind =>
      have hlive := (ProcessTable.find?_eq_some hfind).1
      have hrewrite := Tasks.rewrite_modify
        (f := fun p => { p with context := p.context.withResult value }) h.coherent.tasks.table
        hfind hlive rfl
      refine ⟨h.step (h.coherent.touch hfind rfl rfl rfl) (h.engaged.touch hfind rfl rfl)
        (Tasks.continues_modify h.coherent.tasks.table hfind hlive rfl) h.restless, rfl,
        fun q _ hwaiting => ⟨(Tasks.stateOf_modify hfind hlive rfl rfl).trans hwaiting, ?_⟩⟩
      show Tasks.destinationOf _ q = _
      rw [hrewrite.destinationOf]
      split
      · rename_i hself
        rw [hself, Tasks.destinationOf, ProcessTable.get?_of_find? hfind]
        rfl
      · rfl

/-- Sending queues a receiver that has not got the processor. -/
theorem InStep.engaged_send {id now : UInt64} {message stamped : Message}
    {handoff : Option Handoff} {sender : Pid} {mailboxes : MailboxTable} {tasks : Tasks}
    (h : InStep S k) (hsend : (k.mailboxes.send id message sender now k.tasks).outcome =
      .ok ((stamped, handoff), mailboxes, tasks)) : tasks.Engaged := by
  obtain ⟨index, _, _, _, hcases⟩ := MailboxTable.send_cases hsend
  rcases hcases with ⟨_, rfl, _⟩ | ⟨receiver, slot, _, _, _, hwaiting, _, hfind, _, henqueue⟩
  · exact h.engaged
  · have hrewrite := (Tasks.rewrite_modify_enqueue h.coherent.tasks.table hfind
      (ProcessTable.find?_eq_some hfind).1 rfl henqueue).2
    refine h.engaged.queue hrewrite fun hcurrent => h.not_mem_waiters hcurrent ?_
    refine (k.waitingAt_sublist index).subset ?_
    rw [hwaiting]
    exact List.mem_cons_self

/-- A moment leaves those who wait alone, but for one that is destroyed from outside. -/
def CalmBut (S : Pid → Prop) (m : Moment P) : Prop :=
  ∃ S', (∀ pid, S' pid → S pid) ∧ Calm S' m.before m.after

theorem Calm.but (h : Calm S m.before m.after) : CalmBut S m := ⟨S, fun _ hpid => hpid, h⟩

/-! ## Silence -/

/-- The number and the arguments of the call that is made. -/
def Moment.dispatched? (m : Moment P) : Option (UInt64 × Arguments) :=
  match m.deed with
  | .trap frame =>
      if frame.vector = callVector then some (frame.callNumber, frame.arguments) else none
  | .call number arguments => some (number, arguments)
  | .systemCall =>
      (m.before.current.bind m.before.context?).map fun frame =>
        (frame.callNumber, frame.arguments)
  | _ => none

/-- Idle makes no call. -/
def Silent (moments : List (Moment P)) : Prop :=
  ∀ m ∈ moments, m.before.current = some .idle → m.dispatched? = none

instance (moments : List (Moment P)) : Decidable (Silent moments) :=
  inferInstanceAs (Decidable (∀ m ∈ moments, _))

theorem Silent.past {past : List (Moment P)} (h : Silent (m :: past)) : Silent [m] ∧ Silent past :=
  ⟨fun u hu => h u (List.mem_singleton.1 hu ▸ List.mem_cons_self),
    fun u hu => h u (List.mem_cons_of_mem _ hu)⟩

/-- Who makes a call is not idle. -/
theorem Silent.caller_ne {made : UInt64 × Arguments} (h : Silent [m])
    (hmade : m.dispatched? = some made) : m.before.current ≠ some .idle := by
  intro hidle
  rw [h m List.mem_cons_self hidle] at hmade
  contradiction

variable [Platform P]

theorem Booted.inStep {log : List (Happening P)} {idleEntry : UInt64} {programs : List Program}
    {first : Pid} (hbooted : Booted idleEntry programs k first k') (hfresh : Fresh log k) :
    InStep (· ≠ .idle) k' :=
  ⟨hbooted.steady hfresh.coherent, (hbooted.idles hfresh).restless,
    fun _ hidle hout => absurd hidle hout⟩

/-! ## Calls -/

/-- Behind a call whoever has the processor is active, unless the call gave it back. -/
theorem Served.engaged {call : Call} {arguments : Arguments} {result : Except Stop Int64}
    (hserved : Served k call arguments result k') (h : InStep S k)
    (hresult : ∀ fault, result ≠ .error (.fault fault)) : k'.tasks.Engaged := by
  have hk := h.coherent
  have htable := hk.tasks.table
  have hengaged := h.engaged
  cases hserved with
  | fault => exact absurd rfl (hresult _)
  | lost => exact absurd rfl (hresult _)
  | refused | answered | mutexAlloc | mutexFree => exact hengaged
  | exec hcreate => exact hengaged.create htable hcreate
  | exit hdestroy => exact hengaged.destroy htable hdestroy
  | sleep | yield => exact fun _ hnobody => by contradiction
  | mutexLock hcurrent hlock =>
      obtain ⟨_, _, _, _, _, _, _, hcases⟩ := MutexTable.replace_lock hk.mutexes hlock
      rcases hcases with ⟨_, _, rfl⟩ | ⟨_, hpark⟩
      · exact hengaged
      · obtain ⟨_, _, hrewrite⟩ := Tasks.rewrite_park htable hpark
        exact hengaged.park hrewrite
  | mutexUnlock _ hunlock =>
      obtain ⟨index, mutex, hfind, _, hcases⟩ := MutexTable.replace_unlock hk.mutexes hunlock
      rcases hcases with ⟨_, _, rfl⟩ |
        ⟨_, _, _, ⟨_, _, rfl⟩ | ⟨next, slot, hwaiting, hplace, henqueue⟩⟩
      · exact hengaged
      · exact hengaged
      have hrewrite := (Tasks.rewrite_enqueue htable hplace henqueue).2
      -- who waited has not got the processor
      refine hengaged.queue hrewrite fun hcurrent => h.not_mem_waiters hcurrent ?_
      refine List.mem_append_left _ (MutexTable.mem_waiters_iff.2 ⟨index, ?_⟩)
      rw [MutexTable.waitingAt_of_entry (MutexTable.find?_eq_some_iff.1 hfind).2, hwaiting]
      exact List.mem_cons_self
  | send _ hsend => exact h.engaged_send hsend
  | deliver _ hsend hfind => exact (h.engaged_send hsend).touch hfind rfl rfl
  | receive hcurrent hreceive =>
      obtain ⟨_, _, _, hcases⟩ := MailboxTable.receive_cases hreceive
      rcases hcases with ⟨_, rfl, _⟩ | ⟨_, _, _, _, slot, hfind, hpark⟩
      · exact hengaged
      · exact hengaged.park (Tasks.rewrite_modify_park htable hfind
          (ProcessTable.find?_eq_some hfind).1 rfl hpark)

/-- A call of another process than idle keeps the tables in step. -/
theorem Dispatched.inStep {number : UInt64} {arguments : Arguments} {value : Int64}
    (hdispatched : Dispatched k number arguments (.ok value) k') (h : InStep S k)
    (hcaller : k.current ≠ some .idle) : InStep S k' := by
  refine h.step (hdispatched.coherent h.coherent h.engaged) ?_
    (hdispatched.evolvesAt h.coherent).continues
    (hdispatched.waiters h.coherent hcaller h.restless)
  cases hdispatched with
  | value _ hserved => exact hserved.engaged h fun _ h => by contradiction
  | refused _ hserved => exact hserved.engaged h fun _ h => by injection h; contradiction

/-! ## Phases without a call -/

theorem InStep.ticked (h : InStep S k) (hticked : Ticked k (.ok ()) k') : Calm S k k' :=
  h.calm (hticked.coherent h.coherent) (hticked.engaged h.engaged) (hticked.continues h.coherent)
    (by cases hticked <;> exact ⟨rfl, rfl⟩)
    fun _ _ _ hother hget _ => (hticked.others hother).trans hget

theorem InStep.operated (h : InStep S k) (hoperated : Operated k (.ok ()) k') : Calm S k k' := by
  refine h.calm (hoperated.coherent h.coherent) ?_ (hoperated.evolvesAt h.coherent).continues
    (by cases hoperated <;> exact ⟨rfl, rfl⟩)
    fun _ _ _ hother hget _ => hoperated.others h.coherent hother hget
  cases hoperated with
  | quiet => exact h.engaged
  | killed hdestroy => exact h.engaged.destroy h.coherent.tasks.table hdestroy
  | spawned _ hcreate => exact h.engaged.create h.coherent.tasks.table hcreate

theorem InStep.painted (h : InStep S k) (hpainted : Painted k (.ok ()) k') : Calm S k k' :=
  h.untouched (by cases hpainted; exact ⟨rfl, rfl, rfl⟩)

theorem InStep.passed {transition : Transition} (h : InStep S k)
    (hpassed : Passed k (.ok transition) k') : Calm S k k' := by
  have hsettled : k'.tasks.Settled := ⟨_, hpassed.settled h.coherent⟩
  refine h.calm (hpassed.coherent h.coherent) hsettled.engaged
    (hpassed.evolvesAt h.coherent).continues (by cases hpassed; exact ⟨rfl, rfl⟩) ?_
  intro pid p hidle _ hget hwaiting
  rcases hpassed.resting h.coherent hidle hget (.inr hwaiting) with hsame | ⟨hsleeping, _⟩
  · exact hsame
  · rw [hwaiting] at hsleeping
    contradiction

theorem InStep.spawned {entry : UInt64} {name : String} {result : Except Refusal Pid}
    (h : InStep S k) (hspawned : Spawned entry name k (.ok result) k') : Calm S k k' :=
  h.calm (hspawned.coherent h.coherent) (hspawned.engaged h.coherent h.engaged)
    (hspawned.evolvesAt h.coherent).continues (by cases hspawned <;> exact ⟨rfl, rfl⟩)
    fun _ _ _ _ hget _ => hspawned.others h.coherent hget

/-- What is left of a trap behind its handler. -/
theorem InStep.finished (h : InStep S k) (hfinished : Finished k k') : Calm S k k' := by
  obtain ⟨k₁, transition, hattend, hschedule⟩ := hfinished
  obtain ⟨operated, hoperated, hpainted⟩ := attend_eq_ok hattend
  have hcalm := h.operated hoperated
  have hcalm' := hcalm.trans (hcalm.inStep.painted hpainted)
  exact hcalm'.trans (hcalm'.inStep.passed ((leads_schedule k₁).of_ok hschedule))

/-! ## Deeds -/

/-- A call is served at a moment, and everything around it leaves those who wait alone. -/
structure Dispatches (S : Pid → Prop) (m : Moment P) (number : UInt64) (arguments : Arguments)
    (saved answered : Kernel P) : Prop where
  made : m.dispatched? = some (number, arguments)
  current : saved.current = m.before.current
  dispatch : ∃ value, dispatch number arguments saved = .ok value answered
  inStep : InStep S answered
  before : Calm S m.before saved
  after : Calm S answered m.after

/-- Serving the call in the saved registers. -/
theorem InStep.called (h : InStep S k) (hcalled : Called k (.ok ()) k')
    (hcaller : k.current ≠ some .idle) :
    ∃ pid p value answered, k.current = some pid ∧ k.tasks.table.get? pid = some p ∧
      dispatch p.context.callNumber p.context.arguments k = .ok value answered ∧
      InStep S answered ∧ Calm S answered k' := by
  have hdispatched {number : UInt64} {arguments : Arguments} {value : Int64} {answered : Kernel P}
      (hdispatch : dispatch number arguments k = .ok value answered) : InStep S answered :=
    ((leads_dispatch number arguments k).of_ok hdispatch).inStep h hcaller
  cases hcalled with
  | gone hcurrent hget hdispatch =>
      have hafter := hdispatched hdispatch
      exact ⟨_, _, _, _, hcurrent, hget, hdispatch, hafter, .refl hafter⟩
  | answered hcurrent hget hdispatch hfind =>
      have hafter := hdispatched hdispatch
      exact ⟨_, _, _, _, hcurrent, hget, hdispatch, hafter, hafter.answered (.saved hfind)⟩

theorem Called.context (hcalled : Called k (.ok ()) k') :
    ∃ frame, k.current.bind k.context? = some frame := by
  cases hcalled with
  | gone hcurrent hget | answered hcurrent hget =>
      rw [hcurrent, Option.bind_some, context?, hget]
      exact ⟨_, rfl⟩

/-- Destroying a process from outside leaves it out of step. -/
theorem InStep.exit {target : Option Pid} {result : Except Refusal Unit} (h : InStep S k)
    (hexit : attempt (exit target) k = .ok result k') :
    ∃ S', (∀ pid, S' pid → S pid) ∧ Calm S' k k' := by
  have hended := (leads_attempt (leads_exit target k)).of_ok hexit
  cases result with
  | error reason =>
      obtain ⟨p, _, _, rfl⟩ := hended
      exact ⟨S, fun _ hpid => hpid, h.untouched ⟨rfl, rfl, rfl⟩⟩
  | ok =>
      obtain ⟨p, _, tasks, hdestroy, rfl⟩ := hended
      have htable := h.coherent.tasks.table
      obtain ⟨q, htarget, hidle, hlives, hrewrite⟩ := Tasks.rewrite_destroy htable hdestroy
      obtain ⟨slot, hfind⟩ := Option.isSome_iff_exists.1 hlives
      have hcoherent : k.CoherentOn fun pid => S pid ∧ pid ≠ q :=
        h.coherent.weaken fun _ hpid => hpid.1
      have hcontinues : k.tasks.Continues tasks :=
        (Tasks.evolvesAt_destroy htable hdestroy : k.tasks.EvolvesAt k.clock.now tasks).continues
      refine ⟨fun pid => S pid ∧ pid ≠ q, fun _ hpid => hpid.1,
        ⟨⟨⟨?_, ?_, ?_⟩, h.restless, ?_⟩, rfl, ?_⟩⟩
      · refine hcoherent.destroy hdestroy fun pid hsame hpid => ?_
        exact absurd (Option.some.inj (hsame.symm.trans htarget)) hpid.2
      · exact h.engaged.destroy htable hdestroy
      · exact hcontinues.idle h.idle
      · intro pid hpid hout
        by_cases hself : pid = q
        · subst hself
          refine ⟨Nat.lt_of_lt_of_le (htable.lt_nextPid (ProcessTable.get?_of_find? hfind))
            hcontinues.nextPid, ?_⟩
          rw [Lives, hrewrite.get?, if_pos rfl]
          exact Bool.false_ne_true
        · obtain ⟨hissued, hgone⟩ := h.gone pid hpid fun hin => hout ⟨hin, hself⟩
          exact ⟨Nat.lt_of_lt_of_le hissued hcontinues.nextPid,
            fun hlives => hgone (hcontinues.live pid hissued hlives)⟩
      · intro pid hpid hwaiting
        rw [hrewrite.stateOf, hrewrite.destinationOf, if_neg hpid.2, if_neg hpid.2]
        exact ⟨hwaiting, rfl⟩

theorem InStep.trap (h : InStep S m.before) (hdeed : m.deed = .trap frame)
    (hdone : m.deed.carryOut m.before = .ok () m.after) (hsilent : Silent [m]) :
    CalmBut S m ∨ ∃ number arguments saved answered,
      Dispatches S m number arguments saved answered := by
  rw [hdeed] at hdone
  obtain ⟨resumed, htrap⟩ := exists_of_discard hdone
  obtain ⟨served, k₂, transition, henter, hattend, hschedule, _⟩ := stages_of_trap htrap
  obtain ⟨saved, hsave, hentered⟩ := enter_eq_ok henter
  have hsaved := (leads_saveContext frame m.before).of_ok hsave
  have hbefore := h.saved hsaved
  have hfinished : Finished served m.after := ⟨k₂, transition, hattend, hschedule⟩
  cases hentered with
  | timer _ hticked =>
      have hserved := hbefore.trans (hbefore.inStep.ticked hticked)
      exact .inl (hserved.trans (hserved.inStep.finished hfinished)).but
  | call hvector hcalled =>
      have hmade : m.dispatched? = some (frame.callNumber, frame.arguments) := by
        rw [Moment.dispatched?, hdeed]
        exact if_pos hvector
      obtain ⟨pid, p, value, answered, hcurrent, hget, hdispatch, hafter, hserved⟩ :=
        hbefore.inStep.called hcalled (hsaved.current ▸ hsilent.caller_ne hmade)
      -- the registers that were saved are those of the frame
      rw [hsaved.context h.coherent hcurrent hget] at hdispatch
      exact .inr ⟨_, _, saved, answered, hmade, hsaved.current, ⟨value, hdispatch⟩, hafter,
        hbefore, hserved.trans (hserved.inStep.finished hfinished)⟩

theorem InStep.dispatches (h : InStep S m.before) {number : UInt64} {arguments : Arguments}
    {value : Int64} (hmade : m.dispatched? = some (number, arguments))
    (hdispatch : dispatch number arguments m.before = .ok value m.after) (hsilent : Silent [m]) :
    Dispatches S m number arguments m.before m.after := by
  have hafter := ((leads_dispatch number arguments m.before).of_ok hdispatch).inStep h
    (hsilent.caller_ne hmade)
  exact ⟨hmade, rfl, ⟨value, hdispatch⟩, hafter, .refl h, .refl hafter⟩

/-- The same call, made with the registers that were saved last. -/
theorem InStep.systemCall (h : InStep S m.before) (hdeed : m.deed = .systemCall)
    (hdone : m.deed.carryOut m.before = .ok () m.after) (hsilent : Silent [m]) :
    ∃ number arguments saved answered, Dispatches S m number arguments saved answered := by
  rw [hdeed] at hdone
  have hcalled : Called m.before (.ok ()) m.after := (leads_systemCall m.before).of_ok hdone
  have hmade {frame : Frame} (hcontext : m.before.current.bind m.before.context? = some frame) :
      m.dispatched? = some (frame.callNumber, frame.arguments) := by
    rw [Moment.dispatched?, hdeed]
    dsimp only
    rw [hcontext]
    rfl
  obtain ⟨frame, hcontext⟩ := hcalled.context
  obtain ⟨pid, p, value, answered, hcurrent, hget, hdispatch, hafter, hserved⟩ :=
    h.called hcalled (hsilent.caller_ne (hmade hcontext))
  have hregisters : m.before.current.bind m.before.context? = some p.context := by
    rw [hcurrent, Option.bind_some, context?, hget]
    rfl
  exact ⟨_, _, m.before, answered, hmade hregisters, rfl, ⟨value, hdispatch⟩, hafter, .refl h,
    hserved⟩

/-- A moment serves a call, or it leaves those who wait alone. -/
theorem InStep.calmBut_or_dispatches (h : InStep S m.before)
    (hdone : m.deed.carryOut m.before = .ok () m.after) (hsilent : Silent [m]) :
    CalmBut S m ∨ ∃ number arguments saved answered,
      Dispatches S m number arguments saved answered := by
  cases hdeed : m.deed with
  | trap frame => exact h.trap hdeed hdone hsilent
  | systemCall => exact .inr (h.systemCall hdeed hdone hsilent)
  | call number arguments =>
      rw [hdeed] at hdone
      obtain ⟨value, hdispatch⟩ := exists_of_discard hdone
      have hmade : m.dispatched? = some (number, arguments) := by rw [Moment.dispatched?, hdeed]
      exact .inr ⟨_, _, _, _, h.dispatches hmade hdispatch hsilent⟩
  | bind key program =>
      rw [hdeed] at hdone
      obtain ⟨bound, hbind⟩ := exists_of_discard hdone
      obtain ⟨console, hafter, _⟩ := exists_console hbind
      exact .inl (h.untouched (by rw [hafter]; exact ⟨rfl, rfl, rfl⟩)).but
  | spawn entry name =>
      rw [hdeed] at hdone
      obtain ⟨result, hspawn⟩ := exists_of_discard hdone
      exact .inl (h.spawned ((leads_attempt_spawn entry name m.before).of_ok hspawn)).but
  | machine machine =>
      rw [hdeed] at hdone
      injection hdone with _ hafter
      exact .inl (h.untouched (by rw [← hafter]; exact ⟨rfl, rfl, rfl⟩)).but
  | exit target =>
      rw [hdeed] at hdone
      obtain ⟨result, hexit⟩ := exists_of_discard hdone
      exact .inl (h.exit hexit)
  | schedule =>
      rw [hdeed] at hdone
      obtain ⟨transition, hschedule⟩ := exists_of_discard hdone
      exact .inl (h.passed ((leads_schedule m.before).of_ok hschedule)).but
  | tick =>
      rw [hdeed] at hdone
      exact .inl (h.ticked ((leads_timerTick m.before).of_ok hdone)).but
  | press key =>
      rw [hdeed] at hdone
      exact .inl (h.operated ((leads_handleKey key .refl).of_ok hdone (.inl rfl))).but
  | paint =>
      rw [hdeed] at hdone
      exact .inl (h.painted ((leads_paintStats m.before).of_ok hdone)).but

/-- In whatever course idle is silent, the tables are in step. -/
theorem Course.inStep (hcourse : Course moments k) (hsilent : Silent moments) :
    ∃ S, InStep S k := by
  induction hcourse with
  | boot hfresh hboot => exact ⟨_, ((leads_boot _ _ _).of_ok hboot _ rfl).inStep hfresh⟩
  | step hcourse hdone ih =>
      obtain ⟨hlast, hpast⟩ := hsilent.past
      obtain ⟨S, h⟩ := ih hpast
      rcases InStep.calmBut_or_dispatches (m := ⟨_, _, _⟩) h hdone hlast with
        ⟨S', _, hcalm⟩ | ⟨_, _, _, _, hdispatches⟩
      · exact ⟨S', hcalm.inStep⟩
      · exact ⟨S, hdispatches.after.inStep⟩

end Kernel

end Timeshare
