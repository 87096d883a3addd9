import Timeshare.Proofs.Kernel.Evolution
import Timeshare.Proofs.Kernel.Keeps
import Timeshare.Proofs.Kernel.Kept

/-!
# The processes that do not run

A call is about its caller.  The control block of another process changes only when the
process is taken off a wait queue, to become ready.  Apart from that a process that sleeps
or waits is touched by nothing but a scheduling pass when its time has come.
-/

namespace Timeshare

/-- The process sleeps or waits. -/
def Process.Resting (p : Process) : Prop := p.state = .sleeping ∨ p.state = .waiting

namespace Tasks

variable {before after t t' : Tasks} {pid q : Pid} {p : Process} {p' : Option Process}
  {queue : List Pid} {current : Option Pid} {now slice : UInt64}

theorem Rewrite.get?_of_ne (h : Rewrite before after q p' queue current) (hne : pid ≠ q) :
    after.table.get? pid = before.table.get? pid := by
  rw [h.get?, if_neg hne]

/-- Creating a process touches nobody who lives. -/
theorem get?_of_create {entry : UInt64} {name : String} (hsound : t.table.Sound)
    (hcreate : (t.create entry name now).outcome = .ok (q, t'))
    (hget : t.table.get? pid = some p) : t'.table.get? pid = some p := by
  obtain ⟨hnext, _, _, _, _, _, hrewrite⟩ := rewrite_create hsound hcreate
  refine (hrewrite.get?_of_ne ?_).trans hget
  rintro rfl
  rw [hnext, hsound.get?_nextPid] at hget
  contradiction

/-- Changing one control block touches no other process. -/
theorem get?_modify_of_ne {slot : Slot} {f : Process → Process}
    (hfind : t.table.find? q = some slot) (hlive : (f (t.table.block slot)).isLive)
    (hpid : (f (t.table.block slot)).pid = (t.table.block slot).pid) (hne : pid ≠ q) :
    (t.modify slot f).table.get? pid = t.table.get? pid := by
  rw [modify, ProcessTable.get?_modify hfind hlive hpid, if_neg hne]

/-- A pass wakes a sleeper whose time has come and changes nothing else about a process
that rests. -/
theorem Move.resting (hmove : Move now t t') (hsound : t.Sound) (hidle : pid ≠ .idle)
    (hget : t.table.get? pid = some p) (hrest : p.Resting) :
    t'.table.get? pid = some p ∨ p.state = .sleeping ∧ p.wakeTime ≤ now := by
  cases hmove with
  | drop => exact .inl hget
  | expire hcurrent hother hstate _ hrewrite =>
      refine .inl ((hrewrite.get?_of_ne ?_).trans hget)
      rintro rfl
      rw [hget] at hother
      injection hother with heq
      subst heq
      rcases hrest with hsleeping | hwaiting
      · rw [hsleeping] at hstate
        contradiction
      · rw [hwaiting] at hstate
        contradiction
  | wake hother hstate hdue hfresh hrewrite =>
      rename_i q _
      by_cases hself : pid = q
      · subst hself
        rw [hget] at hother
        injection hother with heq
        subst heq
        exact .inr ⟨hstate, hdue⟩
      · exact .inl ((hrewrite.get?_of_ne hself).trans hget)
  | pick _ _ hhead hrewrite =>
      refine .inl ((hrewrite.get?_of_ne ?_).trans hget)
      rintro rfl
      -- the queue holds ready processes, and only idle is picked without being queued
      rcases hhead with hqueue | ⟨_, _, hself⟩
      · have hrunning := hsound.queued pid (hqueue ▸ List.mem_cons_self)
        rw [stateOf_of_get? hget] at hrunning
        injection hrunning with hstate
        rcases hrest with hsleeping | hwaiting
        · rw [hsleeping] at hstate
          contradiction
        · rw [hwaiting] at hstate
          contradiction
      · exact hidle hself

theorem Moves.resting (hmoves : Moves now t t') (hsound : t.Sound) (hidle : pid ≠ .idle)
    (hget : t.table.get? pid = some p) (hrest : p.Resting) :
    t'.table.get? pid = some p ∨ p.state = .sleeping ∧ p.wakeTime ≤ now := by
  induction hmoves with
  | refl => exact .inl hget
  | tail hmoves hmove ih =>
      rcases ih with hsame | hdue
      · exact hmove.resting (Moves.keeps_sound hmoves hsound) hidle hsame hrest
      · exact .inr hdue

end Tasks

namespace Kernel

variable {P : Type} {S : Pid → Prop} {k k' : Kernel P} {pid : Pid} {p : Process} {frame : Frame}

theorem Saved.others (hsaved : Saved frame k (.ok ()) k') (hother : k.current ≠ some pid) :
    k'.tasks.table.get? pid = k.tasks.table.get? pid := by
  cases hsaved with
  | nobody => rfl
  | saved hcurrent hfind =>
      exact Tasks.get?_modify_of_ne hfind (ProcessTable.find?_eq_some hfind).1 rfl
        fun heq => hother (heq ▸ hcurrent)

/-- A process that rests has not got the processor. -/
theorem Coherent.current_ne (hk : k.Coherent) (hidle : pid ≠ .idle)
    (hget : k.tasks.table.get? pid = some p) (hrest : p.Resting) : k.current ≠ some pid := by
  intro hcurrent
  have hactive := hk.engaged pid hcurrent hidle
  rw [Tasks.stateOf_of_get? hget] at hactive
  injection hactive with hstate
  rcases hrest with hsleeping | hwaiting
  · rw [hsleeping] at hstate
    contradiction
  · rw [hwaiting] at hstate
    contradiction

/-- The process was taken off a wait queue and is ready, with what is left of its time slice. -/
structure Roused (k k' : Kernel P) (pid : Pid) : Prop where
  waited : pid ∈ k.waiters
  state : k'.tasks.stateOf pid = some .running
  slice : k'.tasks.sliceOf pid = k.tasks.sliceOf pid

/-- Sending touches nobody but the receiver. -/
theorem others_send {id now : UInt64} {message stamped : Message} {handoff : Option Handoff}
    {sender : Pid} {mailboxes : MailboxTable} {tasks : Tasks} (hk : k.CoherentOn S)
    (hsend : (k.mailboxes.send id message sender now k.tasks).outcome =
      .ok ((stamped, handoff), mailboxes, tasks)) (pid : Pid) :
    (∀ given, handoff = some given → pid ≠ given.receiver) ∧
        tasks.table.get? pid = k.tasks.table.get? pid ∨
      pid ∈ k.waiters ∧ tasks.stateOf pid = some .running ∧
        tasks.sliceOf pid = k.tasks.sliceOf pid := by
  obtain ⟨index, _, _, _, hcases⟩ := MailboxTable.send_cases hsend
  rcases hcases with ⟨rfl, rfl, _⟩ | ⟨receiver, slot, destination, oldest, hhandoff⟩
  · exact .inl ⟨fun _ h => by contradiction, rfl⟩
  obtain ⟨rfl, hwaiting, _, hfind, _, henqueue⟩ := hhandoff
  have hrewrite := (Tasks.rewrite_modify_enqueue hk.tasks.table hfind
    (ProcessTable.find?_eq_some hfind).1 rfl henqueue).2
  by_cases hself : pid = receiver
  · refine .inr ⟨(k.waitingAt_sublist index).subset ?_, ?_, ?_⟩
    · rw [hwaiting, hself]
      exact List.mem_cons_self
    · rw [hrewrite.stateOf, if_pos hself]
      rfl
    · rw [hrewrite.sliceOf, if_pos hself, hself,
        Tasks.sliceOf_of_get? (ProcessTable.get?_of_find? hfind)]
      rfl
  · refine .inl ⟨fun given hgiven => ?_, hrewrite.get?_of_ne hself⟩
    injection hgiven with heq
    exact heq ▸ hself

variable [Platform P]

theorem Ticked.others (hticked : Ticked k (.ok ()) k') (hother : k.current ≠ some pid) :
    k'.tasks.table.get? pid = k.tasks.table.get? pid := by
  cases hticked with
  | nobody => rfl
  | charged _ hcurrent hfind =>
      exact Tasks.get?_modify_of_ne hfind (ProcessTable.find?_eq_some hfind).1 rfl
        fun heq => hother (heq ▸ hcurrent)

/-- A call leaves another process as it is, or wakes it. -/
theorem Served.others {call : Call} {arguments : Arguments} {result : Except Stop Int64}
    (hserved : Served k call arguments result k') (hk : k.CoherentOn S)
    (hresult : ∀ fault, result ≠ .error (.fault fault)) (hother : k.current ≠ some pid)
    (hlive : k.tasks.table.get? pid = some p) :
    k'.tasks.table.get? pid = some p ∨ k.Roused k' pid := by
  have htable := hk.tasks.table
  have hne {q : Pid} (hcurrent : k.current = some q) : pid ≠ q :=
    fun heq => hother (heq ▸ hcurrent)
  cases hserved with
  | fault => exact absurd rfl (hresult _)
  | lost => exact absurd rfl (hresult _)
  | refused | answered | mutexAlloc | mutexFree => exact .inl hlive
  | exec hcreate => exact .inl (Tasks.get?_of_create htable hcreate hlive)
  | exit hdestroy =>
      obtain ⟨_, hcurrent, _, _, hrewrite⟩ := Tasks.rewrite_destroy htable hdestroy
      exact .inl ((hrewrite.get?_of_ne (hne hcurrent)).trans hlive)
  | sleep hcurrent hfind hsleep =>
      subst hsleep
      have hrewrite := Tasks.rewrite_modify (f := fun p => { p with
        state := .sleeping, activeTime := 0, wakeTime := k.sleepEnd arguments.first })
        htable hfind rfl rfl
      exact .inl ((hrewrite.get?_of_ne (hne hcurrent)).trans hlive)
  | yield hcurrent hfind henqueue =>
      have hrewrite := (Tasks.rewrite_modify_enqueue htable hfind
        (ProcessTable.find?_eq_some hfind).1 rfl henqueue).2
      exact .inl ((hrewrite.get?_of_ne (hne hcurrent)).trans hlive)
  | mutexLock hcurrent hlock =>
      obtain ⟨_, _, _, _, _, _, _, hcases⟩ := MutexTable.replace_lock hk.mutexes hlock
      rcases hcases with ⟨_, _, rfl⟩ | ⟨_, hpark⟩
      · exact .inl hlive
      · obtain ⟨_, _, hrewrite⟩ := Tasks.rewrite_park htable hpark
        exact .inl ((hrewrite.get?_of_ne (hne hcurrent)).trans hlive)
  | mutexUnlock _ hunlock =>
      obtain ⟨index, mutex, hfind, _, hcases⟩ := MutexTable.replace_unlock hk.mutexes hunlock
      rcases hcases with ⟨_, _, rfl⟩ | ⟨_, _, _, ⟨_, _, rfl⟩ | ⟨next, slot, hwaiting, hplace, henqueue⟩⟩
      · exact .inl hlive
      · exact .inl hlive
      have hrewrite := (Tasks.rewrite_enqueue htable hplace henqueue).2
      by_cases hself : pid = next
      · refine .inr ⟨List.mem_append_left _ (MutexTable.mem_waiters_iff.2 ⟨index, ?_⟩), ?_, ?_⟩
        · rw [MutexTable.waitingAt_of_entry (MutexTable.find?_eq_some_iff.1 hfind).2, hwaiting, hself]
          exact List.mem_cons_self
        · show Tasks.stateOf _ pid = _
          rw [hrewrite.stateOf, if_pos hself]
          rfl
        · show Tasks.sliceOf _ pid = _
          rw [hrewrite.sliceOf, if_pos hself, hself,
            Tasks.sliceOf_of_get? (ProcessTable.get?_of_find? hplace)]
          rfl
      · exact .inl ((hrewrite.get?_of_ne hself).trans hlive)
  | send _ hsend =>
      rcases others_send hk hsend pid with ⟨_, hsame⟩ | ⟨hmem, hrunning, hslice⟩
      · exact .inl (hsame.trans hlive)
      · exact .inr ⟨hmem, hrunning, hslice⟩
  | deliver _ hsend hfind =>
      -- the receiver is woken first and answered then
      have hlive' := (ProcessTable.find?_eq_some hfind).1
      rcases others_send hk hsend pid with ⟨hothers, hsame⟩ | ⟨hmem, hrunning, hslice⟩
      · refine .inl (Eq.trans ?_ (hsame.trans hlive))
        exact Tasks.get?_modify_of_ne hfind hlive' rfl (hothers _ rfl)
      · refine .inr ⟨hmem, Eq.trans ?_ hrunning, Eq.trans ?_ hslice⟩
        · exact Tasks.stateOf_modify hfind hlive' rfl rfl
        · exact Tasks.sliceOf_modify hfind hlive' rfl rfl
  | receive hcurrent hreceive =>
      obtain ⟨_, _, _, hcases⟩ := MailboxTable.receive_cases hreceive
      rcases hcases with ⟨_, rfl, _⟩ | ⟨_, _, _, _, slot, hfind, hpark⟩
      · exact .inl hlive
      · have hrewrite := Tasks.rewrite_modify_park htable hfind
          (ProcessTable.find?_eq_some hfind).1 rfl hpark
        exact .inl ((hrewrite.get?_of_ne (hne hcurrent)).trans hlive)

theorem Dispatched.others {number : UInt64} {arguments : Arguments} {value : Int64}
    (hdispatched : Dispatched k number arguments (.ok value) k') (hk : k.CoherentOn S)
    (hother : k.current ≠ some pid) (hlive : k.tasks.table.get? pid = some p) :
    k'.tasks.table.get? pid = some p ∨ k.Roused k' pid := by
  cases hdispatched with
  | value _ hserved => exact hserved.others hk (fun _ h => by contradiction) hother hlive
  | refused _ hserved =>
      refine (hserved.others hk (fun _ h => by injection h; contradiction) hother hlive).imp_right ?_
      exact fun hroused => ⟨hroused.waited, hroused.state, hroused.slice⟩

theorem Called.others (hcalled : Called k (.ok ()) k') (hk : k.CoherentOn S)
    (hother : k.current ≠ some pid) (hlive : k.tasks.table.get? pid = some p) :
    k'.tasks.table.get? pid = some p ∨ k.Roused k' pid := by
  cases hcalled with
  | gone _ _ hdispatch =>
      exact ((leads_dispatch _ _ k).of_ok hdispatch).others hk hother hlive
  | answered hcurrent _ hdispatch hfind =>
      have hfound := (ProcessTable.find?_eq_some hfind).1
      have hdispatched := (leads_dispatch _ _ k).of_ok hdispatch
      rcases hdispatched.others hk hother hlive with hsame | ⟨hmem, hrunning, hslice⟩
      · refine .inl (Eq.trans ?_ hsame)
        exact Tasks.get?_modify_of_ne hfind hfound rfl fun heq => hother (heq ▸ hcurrent)
      · exact .inr ⟨hmem, (Tasks.stateOf_modify hfind hfound rfl rfl).trans hrunning,
          (Tasks.sliceOf_modify hfind hfound rfl rfl).trans hslice⟩

/-- Serving a trap leaves the processes that were not interrupted as they are, or wakes
them. -/
theorem Entered.others (hentered : Entered frame k (.ok ()) k') (hk : k.CoherentOn S)
    (hother : k.current ≠ some pid) (hlive : k.tasks.table.get? pid = some p) :
    k'.tasks.table.get? pid = some p ∨ k.Roused k' pid := by
  cases hentered with
  | timer _ hticked => exact .inl ((hticked.others hother).trans hlive)
  | call _ hcalled => exact hcalled.others hk hother hlive

/-- The operator destroys nobody but the process that has the processor. -/
theorem Operated.others (hoperated : Operated k (.ok ()) k') (hk : k.CoherentOn S)
    (hother : k.current ≠ some pid) (hlive : k.tasks.table.get? pid = some p) :
    k'.tasks.table.get? pid = some p := by
  cases hoperated with
  | quiet => exact hlive
  | killed hdestroy =>
      obtain ⟨_, hcurrent, _, _, hrewrite⟩ := Tasks.rewrite_destroy hk.tasks.table hdestroy
      refine (hrewrite.get?_of_ne ?_).trans hlive
      rintro rfl
      exact hother hcurrent
  | spawned _ hcreate => exact Tasks.get?_of_create hk.tasks.table hcreate hlive

/-- A creation touches nobody who lives. -/
theorem Spawned.others {entry : UInt64} {name : String} {result : Except Refusal Pid}
    (hspawned : Spawned entry name k (.ok result) k') (hk : k.CoherentOn S)
    (hlive : k.tasks.table.get? pid = some p) : k'.tasks.table.get? pid = some p := by
  cases hspawned with
  | created hcreate => exact Tasks.get?_of_create hk.tasks.table hcreate hlive
  | refused => exact hlive

theorem Passed.resting {transition : Transition} (hpassed : Passed k (.ok transition) k')
    (hk : k.CoherentOn S) (hidle : pid ≠ .idle) (hget : k.tasks.table.get? pid = some p)
    (hrest : p.Resting) :
    k'.tasks.table.get? pid = some p ∨ p.state = .sleeping ∧ p.wakeTime ≤ k.clock.now := by
  cases hpassed with
  | passed hpass =>
      exact (Tasks.moves_reschedule hk.tasks.table hpass).1.resting hk.tasks hidle hget hrest

/-- What is left of a trap behind its handler: a resting process wakes only if it is due. -/
theorem resting_of_rest {k₁ k₂ : Kernel P} {transition : Transition}
    (hattend : attend k₁ = .ok () k₂) (hschedule : schedule k₂ = .ok transition k')
    (hk : k₁.Coherent) (hidle : pid ≠ .idle) (hget : k₁.tasks.table.get? pid = some p)
    (hrest : p.Resting) :
    k'.tasks.table.get? pid = some p ∨ p.state = .sleeping ∧ p.wakeTime ≤ k'.clock.now := by
  obtain ⟨k₃, hoperated, hpainted⟩ := attend_eq_ok hattend
  have hpassed := (leads_schedule k₂).of_ok hschedule
  have hk₃ := hoperated.coherent hk
  have hget₂ : k₂.tasks.table.get? pid = some p := by
    rw [hpainted.tables.2]
    exact hoperated.others hk (hk.current_ne hidle hget hrest) hget
  rw [hpassed.kept.clock]
  exact hpassed.resting (hpainted.coherent hk₃) hidle hget₂ hrest

theorem apart_waiters : Apart (waiters (P := P)) :=
  ⟨fun _ _ => rfl, fun _ _ => rfl, fun _ _ => rfl, fun _ _ => rfl, fun _ _ => rfl, fun _ => rfl,
    fun _ => rfl, fun _ => rfl, fun _ _ _ _ _ => rfl⟩

/-- A resting process is left alone by a trap, unless its time has come at the end, or it
is taken off a wait queue. -/
theorem resting_of_trap {resumed : Frame} (htrap : trap frame k = .ok resumed k')
    (hk : k.Coherent) (hsettled : k.tasks.Settled) (hidle : pid ≠ .idle)
    (hget : k.tasks.table.get? pid = some p) (hrest : p.Resting) :
    k'.tasks.table.get? pid = some p ∨ p.state = .sleeping ∧ p.wakeTime ≤ k'.clock.now ∨
      pid ∈ k.waiters ∧ pid ∉ k'.waiters := by
  obtain ⟨k₁, k₂, transition, henter, hattend, hschedule, _⟩ := stages_of_trap htrap
  obtain ⟨k₀, hsave, hentered⟩ := enter_eq_ok henter
  have hsaved := (leads_saveContext frame k).of_ok hsave
  have hother := hk.current_ne hidle hget hrest
  have hk₀ := hsaved.coherent hk
  have hget₀ := (hsaved.others hother).trans hget
  have hk₁ := hentered.coherent hk₀ (hsaved.engaged hsettled.engaged)
  rcases hentered.others hk₀ (hsaved.current ▸ hother) hget₀ with hget₁ | ⟨hmem, hrunning, _⟩
  · rcases resting_of_rest hattend hschedule hk₁ hidle hget₁ hrest with hsame | hdue
    · exact .inl hsame
    · exact .inr (.inl hdue)
  · -- whoever is ready is on no wait queue, and the rest of the trap leaves the queues alone
    have hqueues : k₀.waiters = k.waiters := (apart_waiters.saveContext frame k).of_ok hsave
    have hattended : k₂.waiters = k₁.waiters := (apart_waiters.attend k₁).of_ok hattend
    have hscheduled : k'.waiters = k₂.waiters := (apart_waiters.schedule k₂).of_ok hschedule
    refine .inr (.inr ⟨hqueues ▸ hmem, fun hstays => ?_⟩)
    rw [hscheduled, hattended] at hstays
    rw [(hk₁.count_eq_one hidle hstays).1] at hrunning
    contradiction

end Kernel

end Timeshare
