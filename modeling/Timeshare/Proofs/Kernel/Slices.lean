import Timeshare.Proofs.Kernel.Contexts
import Timeshare.Proofs.Kernel.Idle
import Timeshare.Proofs.Tasks.Slices

/-!
# What is left of a time slice

The timer, a yield and a sleep take the processor from a process and begin its time slice anew.
A call that has to wait does not, and nothing else does until the process runs again: it is
given the processor with the ticks that it had used up when it began to wait.
-/

namespace Timeshare.Kernel

open Machine (Simulated)

variable {P : Type} {k k₁ k' : Kernel P} {frame : Frame} {deed : Deed P} {pid : Pid}
  {used : UInt64} {moments past : List (Moment P)} {u : Moment P}

/-- The ticks of its time slice with which a process gets the processor: those with which it
stopped when it had it last, and none if it never had it. -/
def carriedOver (past : List (Moment P)) (pid : Pid) : UInt64 :=
  match past.find? fun m => m.before.current = some pid with
  | none => 0
  | some m => m.before.tasks.stopsWith m.after.tasks pid

theorem carriedOver_of_current (hcurrent : u.before.current = some pid) :
    carriedOver (u :: past) pid = u.before.tasks.stopsWith u.after.tasks pid := by
  rw [carriedOver, List.find?_cons_of_pos (by simpa using hcurrent)]

theorem carriedOver_of_other (hother : u.before.current ≠ some pid) :
    carriedOver (u :: past) pid = carriedOver past pid := by
  rw [carriedOver, List.find?_cons_of_neg (by simpa using hother)]
  rfl

variable [Platform P]

/-! ## How a call stops its caller -/

/-- A caller that loses the processor keeps its ticks if it has to wait. -/
theorem Served.stops {call : Call} {arguments : Arguments} {result : Except Stop Int64}
    (hserved : Served k call arguments result k') (hk : k.Coherent)
    (hresult : ∀ fault, result ≠ .error (.fault fault)) (hcurrent : k.current = some pid)
    (hstopped : k'.current ≠ some pid) :
    k'.tasks.CarriesOver pid (k.tasks.stopsWith k'.tasks pid) := by
  have htable := hk.tasks.table
  have hself {caller : Pid} (hcaller : k.current = some caller) : caller = pid :=
    Option.some.inj (hcaller.symm.trans hcurrent)
  cases hserved with
  | fault => exact absurd rfl (hresult _)
  | lost => exact absurd rfl (hresult _)
  | refused | answered | mutexAlloc | mutexFree => exact absurd hcurrent hstopped
  | exec hcreate =>
      obtain ⟨_, _, _, _, _, _, hrewrite⟩ := Tasks.rewrite_create htable hcreate
      exact absurd (hrewrite.current.trans hcurrent) hstopped
  | exit hdestroy =>
      obtain ⟨caller, hcaller, _, _, hrewrite⟩ := Tasks.rewrite_destroy htable hdestroy
      obtain rfl := hself hcaller
      have hgone := (hrewrite.get? caller).trans (if_pos rfl)
      exact Tasks.stopsWith_of_gone hgone ▸ Tasks.carriesOver_of_gone hgone
  | sleep hcaller hfind hsleep =>
      subst hsleep
      obtain rfl := hself hcaller
      have hrewrite := (Tasks.rewrite_modify (f := fun p => { p with
        state := .sleeping, activeTime := 0, wakeTime := k.sleepEnd arguments.first })
        htable hfind rfl rfl).clearCurrent
      exact hrewrite.stops_anew (by simp) rfl
  | yield hcaller hfind henqueue =>
      obtain rfl := hself hcaller
      have hrewrite := (Tasks.rewrite_modify_enqueue htable hfind
        (ProcessTable.find?_eq_some hfind).1 rfl henqueue).2.clearCurrent
      exact hrewrite.stops_anew (by simp) rfl
  | mutexLock hcaller hlock =>
      obtain ⟨_, _, _, _, _, _, _, hcases⟩ := MutexTable.replace_lock hk.mutexes hlock
      rcases hcases with ⟨_, _, rfl⟩ | ⟨_, hpark⟩
      · exact absurd hcurrent hstopped
      · obtain rfl := hself hcaller
        obtain ⟨_, hfind, hrewrite⟩ := Tasks.rewrite_park htable hpark
        exact hrewrite.stops_waiting (ProcessTable.get?_of_find? hfind) rfl rfl
  | mutexUnlock _ hunlock =>
      obtain ⟨_, _, _, _, hcases⟩ := MutexTable.replace_unlock hk.mutexes hunlock
      rcases hcases with ⟨_, _, rfl⟩ | ⟨_, _, _, ⟨_, _, rfl⟩ | ⟨_, _, _, hfind, henqueue⟩⟩
      · exact absurd hcurrent hstopped
      · exact absurd hcurrent hstopped
      · have hrewrite := (Tasks.rewrite_enqueue htable hfind henqueue).2
        exact absurd (hrewrite.current.trans hcurrent) hstopped
  | send _ hsend | deliver _ hsend =>
      obtain ⟨_, _, _, _, hcases⟩ := MailboxTable.send_cases hsend
      rcases hcases with ⟨_, rfl, _⟩ | ⟨_, _, _, _, _, _, _, hfind, _, henqueue⟩
      · exact absurd hcurrent hstopped
      · have hrewrite := (Tasks.rewrite_modify_enqueue htable hfind
          (ProcessTable.find?_eq_some hfind).1 rfl henqueue).2
        exact absurd (hrewrite.current.trans hcurrent) hstopped
  | receive hcaller hreceive =>
      obtain ⟨_, _, _, hcases⟩ := MailboxTable.receive_cases hreceive
      rcases hcases with ⟨_, rfl, _⟩ | ⟨_, _, _, _, slot, hfind, hpark⟩
      · exact absurd hcurrent hstopped
      · obtain rfl := hself hcaller
        have hrewrite := Tasks.rewrite_modify_park htable hfind
          (ProcessTable.find?_eq_some hfind).1 rfl hpark
        exact hrewrite.stops_waiting (ProcessTable.get?_of_find? hfind) rfl rfl

theorem Called.stops (hcalled : Called k (.ok ()) k') (hk : k.Coherent)
    (hcurrent : k.current = some pid) (hstopped : k'.current ≠ some pid) :
    k'.tasks.CarriesOver pid (k.tasks.stopsWith k'.tasks pid) := by
  have hdispatched {number : UInt64} {arguments : Arguments} {value : Int64} {k₁ : Kernel P}
      (hdispatch : dispatch number arguments k = .ok value k₁) (hstopped : k₁.current ≠ some pid) :
      k₁.tasks.CarriesOver pid (k.tasks.stopsWith k₁.tasks pid) := by
    cases (leads_dispatch _ _ k).of_ok hdispatch with
    | value _ hserved => exact hserved.stops hk (fun _ h => by contradiction) hcurrent hstopped
    | refused _ hserved =>
        exact hserved.stops hk (fun _ h => by injection h; contradiction) hcurrent hstopped
  cases hcalled with
  | gone _ _ hdispatch => exact hdispatched hdispatch hstopped
  | answered _ _ hdispatch hfind =>
      exact (hdispatched hdispatch hstopped).touch hfind rfl rfl rfl

/-! ## Stages of a trap that do not concern a process -/

theorem Called.carriesOver (hcalled : Called k (.ok ()) k') (hk : k.Coherent)
    (hengaged : k.tasks.Engaged) (hother : k.current ≠ some pid)
    (h : k.tasks.CarriesOver pid used) : k'.tasks.CarriesOver pid used := by
  by_cases hused : used = 0
  · subst hused
    exact (hcalled.evolvesAt hk hengaged).toEvolves.carriesOver h
  obtain ⟨p, hget, _⟩ := h.exists_get? hused
  rcases hcalled.others hk hother hget with hsame | hroused
  · exact h.of_get? (hsame.trans hget.symm)
  · exact h.of_slice hroused.slice (.inr hroused.state)

theorem carriesOver_enter (henter : enter frame k = .ok () k') (hk : k.Coherent)
    (hsettled : k.tasks.Settled) (hother : k.current ≠ some pid)
    (h : k.tasks.CarriesOver pid used) :
    k'.tasks.CarriesOver pid used ∧ k'.current ≠ some pid := by
  have hfree : k'.current ≠ some pid := by
    have hself := hsettled
    obtain ⟨caller, hcurrent, _⟩ := hself
    rcases current_of_enter henter hk hsettled hcurrent with hnone | hsame
    · rw [hnone]
      simp
    · exact fun heq => hother ((hcurrent.trans hsame.symm).trans heq)
  refine ⟨?_, hfree⟩
  obtain ⟨saved, hsave, hentered⟩ := enter_eq_ok henter
  have hsaved := (leads_saveContext frame k).of_ok hsave
  have hbefore := h.of_get? (hsaved.others hother)
  have hother₁ := hsaved.current.symm ▸ hother
  cases hentered with
  | timer _ hticked => exact hbefore.of_get? (hticked.others hother₁)
  | call _ hcalled =>
      exact hcalled.carriesOver (hsaved.coherent hk) (hsaved.engaged hsettled.engaged) hother₁ hbefore

theorem carriesOver_attend (hattend : attend k = .ok () k') (hk : k.Coherent)
    (hother : k.current ≠ some pid) (h : k.tasks.CarriesOver pid used) :
    k'.tasks.CarriesOver pid used ∧ k'.current ≠ some pid := by
  obtain ⟨operated, hoperated, hpainted⟩ := attend_eq_ok hattend
  rw [current, hpainted.tables.2]
  refine ⟨h.evolves (hoperated.evolvesAt hk).toEvolves fun p hget _ =>
    hoperated.others hk hother hget, ?_⟩
  rcases (hoperated.linesUp hk).current with hnone | ⟨hsame, _⟩
  · rw [hnone]
    simp
  · rw [hsame]
    exact hother

theorem Passed.carriesOver {transition : Transition} (hpassed : Passed k (.ok transition) k')
    (hk : k.Coherent) (hother : k.current ≠ some pid) (h : k.tasks.CarriesOver pid used) :
    (∀ ticks, k'.tasks.sliceOf pid = some ticks → ticks = used) ∧
      (k'.current ≠ some pid → k'.tasks.CarriesOver pid used) := by
  cases hpassed with
  | passed hpass => exact h.reschedule hk.tasks hother hpass

/-- Behind its handler a trap carries ticks over. -/
theorem Finished.carriesOver (hfinished : Finished k k') (hk : k.Coherent)
    (hother : k.current ≠ some pid) (h : k.tasks.CarriesOver pid used) :
    (∀ ticks, k'.tasks.sliceOf pid = some ticks → ticks = used) ∧
      (k'.current ≠ some pid → k'.tasks.CarriesOver pid used) := by
  obtain ⟨k₂, transition, hattend, hschedule⟩ := hfinished
  obtain ⟨hattended, hfree⟩ := carriesOver_attend hattend hk hother h
  exact ((leads_schedule k₂).of_ok hschedule).carriesOver (coherent_attend hattend hk) hfree hattended

/-- Behind its handler a trap makes nobody wait. -/
theorem Finished.waiting (hfinished : Finished k k') (hk : k.Coherent)
    (hwaiting : k'.tasks.stateOf pid = some .waiting) : k.tasks.stateOf pid = some .waiting := by
  obtain ⟨k₂, transition, hattend, hschedule⟩ := hfinished
  obtain ⟨operated, hoperated, hpainted⟩ := attend_eq_ok hattend
  have hk₂ := coherent_attend hattend hk
  have hready : k₂.tasks.stateOf pid = some .waiting := by
    cases (leads_schedule k₂).of_ok hschedule with
    | passed hpass => exact (Tasks.moves_reschedule hk₂.tasks.table hpass).1.waiting hwaiting
  rw [hpainted.tables.2] at hready
  cases hoperated with
  | quiet => exact hready
  | killed hdestroy =>
      obtain ⟨_, _, _, _, hrewrite⟩ := Tasks.rewrite_destroy hk.tasks.table hdestroy
      have hready := (hrewrite.stateOf pid).symm.trans hready
      split at hready
      · contradiction
      · exact hready
  | spawned _ hcreate =>
      obtain ⟨_, _, _, _, _, _, hrewrite⟩ := Tasks.rewrite_create hk.tasks.table hcreate
      have hready := (hrewrite.stateOf pid).symm.trans hready
      split at hready
      · simp [Tasks.newborn] at hready
      · exact hready

/-- Whoever keeps the processor up to the pass begins its time slice anew when the pass takes
it; the operator may have ended the process. -/
theorem Finished.stops (hfinished : Finished k k') (hk : k.Coherent)
    (hcurrent : k.current = some pid) (hactive : k.tasks.stateOf pid = some .active)
    (hstopped : k'.current ≠ some pid) : k'.tasks.CarriesOver pid 0 := by
  obtain ⟨k₂, transition, hattend, hschedule⟩ := hfinished
  obtain ⟨operated, hoperated, hpainted⟩ := attend_eq_ok hattend
  have hk₂ := coherent_attend hattend hk
  have hends : k₂.tasks.table.get? pid = none ∧ k₂.current ≠ some pid ∨
      k₂.current = some pid ∧ k₂.tasks.stateOf pid = some .active := by
    rw [current, hpainted.tables.2]
    cases hoperated with
    | quiet => exact .inr ⟨hcurrent, hactive⟩
    | killed hdestroy =>
        obtain ⟨killed, hkilled, _, _, hrewrite⟩ := Tasks.rewrite_destroy hk.tasks.table hdestroy
        obtain rfl := Option.some.inj (hkilled.symm.trans hcurrent)
        refine .inl ⟨(hrewrite.get? killed).trans (if_pos rfl), fun hself => ?_⟩
        have hfree := hrewrite.current.trans (if_pos hcurrent)
        exact absurd (hfree.symm.trans hself) (by simp)
    | spawned _ hcreate =>
        obtain ⟨_, _, _, _, _, _, hrewrite⟩ := Tasks.rewrite_create hk.tasks.table hcreate
        obtain ⟨p, hget, hstate⟩ := Option.map_eq_some_iff.1 hactive
        refine .inr ⟨hrewrite.current.trans hcurrent, ?_⟩
        rw [Tasks.stateOf_of_get? (Tasks.get?_of_create hk.tasks.table hcreate hget), hstate]
  have hpassed := (leads_schedule k₂).of_ok hschedule
  rcases hends with ⟨hgone, hfree⟩ | ⟨hrecorded, hrunning⟩
  · exact (hpassed.carriesOver hk₂ hfree (Tasks.carriesOver_of_gone hgone)).2 hstopped
  · cases hpassed with
    | passed hpass =>
        exact Tasks.carriesOver_of_reschedule hk₂.tasks hrecorded hrunning hpass hstopped

/-! ## Traps -/

theorem Saved.sliceOf {P : Type} {k k' : Kernel P} (hsaved : Saved frame k (.ok ()) k') :
    k'.tasks.sliceOf pid = k.tasks.sliceOf pid := by
  cases hsaved with
  | nobody => rfl
  | saved _ hfind => exact Tasks.sliceOf_modify hfind (ProcessTable.find?_eq_some hfind).1 rfl rfl

/-- A trap carries over the ticks of whoever it does not interrupt. -/
theorem carriesOver_of_trap {resumed : Frame} (htrap : trap frame k = .ok resumed k')
    (hk : k.Coherent) (hsettled : k.tasks.Settled) (hother : k.current ≠ some pid)
    (h : k.tasks.CarriesOver pid used) :
    (∀ ticks, k'.tasks.sliceOf pid = some ticks → ticks = used) ∧
      (k'.current ≠ some pid → k'.tasks.CarriesOver pid used) := by
  obtain ⟨served, k₂, transition, henter, hattend, hschedule, _⟩ := stages_of_trap htrap
  have hfinished : Finished served k' := ⟨k₂, transition, hattend, hschedule⟩
  obtain ⟨hserved, hfree⟩ := carriesOver_enter henter hk hsettled hother h
  exact hfinished.carriesOver (coherent_enter henter hk hsettled.engaged) hfree hserved

/-- Whoever a trap takes the processor from keeps its ticks if it has to wait, and begins its
time slice anew if not. -/
theorem stops_of_trap {resumed : Frame} (htrap : trap frame k = .ok resumed k') (hk : k.Coherent)
    (hsettled : k.tasks.Settled) (hcurrent : k.current = some pid)
    (htimed : pid = .idle → frame.vector = timerVector) (hstopped : k'.current ≠ some pid) :
    k'.tasks.CarriesOver pid (k.tasks.stopsWith k'.tasks pid) := by
  obtain ⟨served, k₂, transition, henter, hattend, hschedule, _⟩ := stages_of_trap htrap
  have hfinished : Finished served k' := ⟨k₂, transition, hattend, hschedule⟩
  have hserved := coherent_enter henter hk hsettled.engaged
  obtain ⟨saved, hsave, hentered⟩ := enter_eq_ok henter
  have hsaved := (leads_saveContext frame k).of_ok hsave
  have hk₀ := hsaved.coherent hk
  have hself := hsaved.current.trans hcurrent
  have hengaged := hsaved.engaged hsettled.engaged
  by_cases hkept : served.current = some pid
  · -- the handler has left it the processor
    have hactive : served.tasks.stateOf pid = some .active := by
      cases hentered with
      | timer _ hticked => exact hticked.engaged hengaged pid hkept
      | call hvector =>
          refine hserved.engaged pid hkept fun hidle => ?_
          rw [htimed hidle] at hvector
          contradiction
    have hzero : k.tasks.stopsWith k'.tasks pid = 0 := by
      refine if_neg fun hwaiting => ?_
      rw [hfinished.waiting hserved hwaiting] at hactive
      contradiction
    rw [hzero]
    exact hfinished.stops hserved hkept hactive hstopped
  cases hentered with
  | timer _ hticked => exact absurd ((hticked.spent hk₀ hself).2.1.trans hself) hkept
  | call hvector hcalled =>
      have hidle : pid ≠ .idle := by
        intro hidle
        rw [htimed hidle] at hvector
        contradiction
      have hcarried := hfinished.carriesOver hserved hkept (hcalled.stops hk₀ hself hkept)
      -- it waits behind the trap exactly if it waits behind its handler
      have hsame : k'.tasks.stateOf pid = some .waiting ↔
          served.tasks.stateOf pid = some .waiting := by
        refine ⟨hfinished.waiting hserved, fun hwaiting => ?_⟩
        obtain ⟨p, hget, hstate⟩ := Option.map_eq_some_iff.1 hwaiting
        rcases resting_of_rest hattend hschedule hserved hidle hget (.inr hstate) with
          hafter | ⟨hsleeping, _⟩
        · rw [Tasks.stateOf_of_get? hafter, hstate]
        · rw [hstate] at hsleeping
          contradiction
      have hends := hcarried.2 hstopped
      simp only [Tasks.stopsWith, ← hsame, hsaved.sliceOf] at hends
      exact hends

/-! ## Courses -/

/-- A moment carries over the ticks of whoever had not got the processor before. -/
theorem Moment.carriesOver (hordinary : u.deed.ordinary)
    (hdone : u.deed.carryOut u.before = .ok () u.after) (hk : u.before.Coherent)
    (hsettled : u.before.tasks.Settled) (hother : u.before.current ≠ some pid)
    (h : u.before.tasks.CarriesOver pid used) :
    (∀ ticks, u.after.tasks.sliceOf pid = some ticks → ticks = used) ∧
      (u.after.current ≠ some pid → u.after.tasks.CarriesOver pid used) := by
  rcases Deed.effect hordinary hdone with
    ⟨_, _, _, htrap⟩ | ⟨_, _, _, _, hspawned⟩ | ⟨_, _, _, hafter⟩
  · exact carriesOver_of_trap htrap hk hsettled hother h
  · have hafter := h.evolves (hspawned.evolvesAt hk).toEvolves fun p hget _ =>
      hspawned.others hk hget
    exact ⟨hafter.slice, fun _ => hafter⟩
  · rw [hafter]
    exact ⟨h.slice, fun _ => h⟩

/-- Only a trap takes the processor from a process. -/
theorem Moment.exists_trap (hordinary : u.deed.ordinary)
    (hdone : u.deed.carryOut u.before = .ok () u.after) (hk : u.before.Coherent)
    (hmoved : u.after.current ≠ u.before.current) : ∃ frame, u.deed = .trap frame := by
  rcases Deed.effect hordinary hdone with
    ⟨frame, _, hdeed, _⟩ | ⟨_, _, _, _, hspawned⟩ | ⟨_, _, _, hafter⟩
  · exact ⟨frame, hdeed⟩
  · exact absurd (hspawned.current hk) hmoved
  · rw [hafter] at hmoved
    exact absurd rfl hmoved

/-- Whoever has not got the processor carries over what it stopped with. -/
theorem Course.carriesOver (hcourse : Course moments k)
    (hordinary : ∀ m ∈ moments, m.deed.ordinary) (htimed : pid = .idle → OnlyTimed moments)
    (hother : k.current ≠ some pid) : k.tasks.CarriesOver pid (carriedOver moments pid) := by
  induction hcourse with
  | boot hfresh hboot =>
      have hevolves := ((((leads_boot _ _ _).of_ok hboot) _ rfl).evolvesAt hfresh.coherent).toEvolves
      refine hevolves.carriesOver (Tasks.carriesOver_of_gone ?_)
      rw [hfresh.tables.1]
      exact ProcessTable.get?_empty pid
  | step hcourse hdone ih =>
      rename_i past k k' deed
      have hpast (m : Moment P) (hm : m ∈ past) : m.deed.ordinary :=
        hordinary m (List.mem_cons_of_mem _ hm)
      obtain ⟨hk, hsettled⟩ := hcourse.coherent hpast
      have hdeed := hordinary _ List.mem_cons_self
      by_cases hcurrent : k.current = some pid
      · rw [carriedOver_of_current hcurrent]
        obtain ⟨frame, hframe⟩ := Moment.exists_trap (u := ⟨k, deed, k'⟩) hdeed hdone hk
          fun hsame => hother (hsame.trans hcurrent)
        dsimp only at hframe
        subst hframe
        obtain ⟨resumed, htrap⟩ := exists_of_discard hdone
        exact stops_of_trap htrap hk hsettled hcurrent
          (fun hidle => htimed hidle _ List.mem_cons_self (hidle ▸ hcurrent) frame rfl) hother
      · rw [carriedOver_of_other hcurrent]
        have hbefore := ih hpast
          (fun hidle m hm => htimed hidle m (List.mem_cons_of_mem _ hm)) hcurrent
        exact (Moment.carriesOver (u := ⟨k, deed, k'⟩) hdeed hdone hk hsettled hcurrent hbefore).2
          hother

/-- Whoever gets the processor has used up the ticks of its time slice with which it stopped:
none, unless it had to wait, and then as many as it had used up at that time. The idle process is
asked to take timer interrupts only, since it would go on running while it waits. -/
theorem time_slice_carried_over (hcourse : Course (u :: past) k)
    (hordinary : ∀ m ∈ u :: past, m.deed.ordinary) (htimed : pid = .idle → OnlyTimed past)
    (hbefore : u.before.current ≠ some pid) (hafter : k.current = some pid) :
    k.tasks.sliceOf pid = some (carriedOver past pid) := by
  obtain ⟨_, hsettled⟩ := hcourse.coherent hordinary
  obtain ⟨hpast, hdone, rfl⟩ := hcourse.tail
  have hordinaryPast (m : Moment P) (hm : m ∈ past) : m.deed.ordinary :=
    hordinary m (List.mem_cons_of_mem _ hm)
  obtain ⟨hk, hsettledBefore⟩ := hpast.coherent hordinaryPast
  have hcarried := hpast.carriesOver hordinaryPast htimed hbefore
  have hslice := (Moment.carriesOver (hordinary u List.mem_cons_self) hdone hk hsettledBefore hbefore
    hcarried).1
  obtain ⟨p, hget⟩ := Option.isSome_iff_exists.1
    (Tasks.isSome_of_stateOf (Settled.active hsettled hafter))
  rw [Tasks.sliceOf_of_get? hget, hslice p.activeTime (Tasks.sliceOf_of_get? hget)]

/-- The second process uses up two ticks and waits for the mutex of the first, which unlocks it:
then the second one gets the processor with these two ticks. -/
theorem time_slice_carried_over_unlock :
    ∃ (u : Moment Simulated) (past : List (Moment Simulated)) (k : Kernel Simulated),
      Course (u :: past) k ∧ (∀ m ∈ u :: past, m.deed.ordinary) ∧ OnlyTimed past ∧
      u.before.current ≠ some ⟨2⟩ ∧ k.current = some ⟨2⟩ ∧ carriedOver past ⟨2⟩ = 2 ∧
      k.tasks.sliceOf ⟨2⟩ = some (carriedOver past ⟨2⟩) := by
  obtain ⟨moments, k, hcourse, hcheck⟩ := exists_course
    (List.replicate 5 (.trap timerFrame) ++ [.trap (callFrame .mutexAlloc 0 0),
      .trap (callFrame .mutexLock 0 0), .trap (callFrame .yield 0 0), .trap timerFrame,
      .trap timerFrame, .trap (callFrame .mutexLock 0 0), .trap (callFrame .yield 0 0),
      .trap (callFrame .mutexUnlock 0 0), .trap (callFrame .yield 0 0),
      .trap (callFrame .yield 0 0)])
    (fun moments k => decide ((∀ m ∈ moments, m.deed.ordinary) ∧ OnlyTimed moments.tail ∧
        k.current = some ⟨2⟩ ∧ carriedOver moments.tail ⟨2⟩ = 2) &&
      moments.head?.any fun (u : Moment Simulated) => decide (u.before.current ≠ some ⟨2⟩))
    (by decide +kernel)
  obtain ⟨hends, hlast⟩ := (Bool.and_eq_true ..).mp hcheck
  obtain ⟨hordinary, htimed, hafter, hused⟩ := of_decide_eq_true hends
  obtain ⟨u, hhead, hbefore⟩ := (Option.any_eq_true ..).1 hlast
  obtain ⟨past, rfl⟩ := List.head?_eq_some_iff.1 hhead
  replace hbefore := of_decide_eq_true hbefore
  exact ⟨u, past, k, hcourse, hordinary, htimed, hbefore, hafter, hused,
    time_slice_carried_over hcourse hordinary (fun _ => htimed) hbefore hafter⟩

/-- The first process uses up two ticks and waits for a message, which the second one sends:
then a pass gives the first one the processor, and its time slice is not a full one. -/
theorem no_full_time_slice_behind_send :
    ∃ (u : Moment Simulated) (past : List (Moment Simulated)) (k : Kernel Simulated) (p : Process),
      Course (u :: past) k ∧ (∀ m ∈ u :: past, m.deed.ordinary) ∧
      (∃ frame, u.deed = .trap frame) ∧ u.before.current ≠ some ⟨1⟩ ∧ k.current = some ⟨1⟩ ∧
      k.tasks.table.get? ⟨1⟩ = some p ∧ p.state = .active ∧ p.activeTime = 2 := by
  obtain ⟨moments, k, hcourse, hcheck⟩ := exists_course_on 288
    (List.replicate 7 (.trap timerFrame) ++ [.trap (callFrame .receive 0 0x1000),
      .trap (callFrame .send 0 0x1008), .trap (callFrame .yield 0 0),
      .trap (callFrame .yield 0 0)])
    (fun moments k => decide ((∀ m ∈ moments, m.deed.ordinary) ∧ k.current = some ⟨1⟩) &&
      (k.tasks.table.get? ⟨1⟩).any (fun (p : Process) =>
        decide (p.state = .active ∧ p.activeTime = 2)) &&
      moments.head?.any fun (u : Moment Simulated) =>
        decide (u.before.current ≠ some ⟨1⟩) && u.deed.frame?.isSome) (by decide +kernel)
  obtain ⟨hends, hlast⟩ := (Bool.and_eq_true ..).mp hcheck
  obtain ⟨hends, hslice⟩ := (Bool.and_eq_true ..).mp hends
  obtain ⟨hordinary, hafter⟩ := of_decide_eq_true hends
  obtain ⟨p, hget, hused⟩ := (Option.any_eq_true ..).1 hslice
  obtain ⟨u, hhead, hpass⟩ := (Option.any_eq_true ..).1 hlast
  obtain ⟨past, rfl⟩ := List.head?_eq_some_iff.1 hhead
  obtain ⟨hbefore, htrap⟩ := (Bool.and_eq_true ..).mp hpass
  obtain ⟨frame, hframe⟩ := Option.isSome_iff_exists.1 htrap
  exact ⟨u, past, k, p, hcourse, hordinary, ⟨frame, Deed.frame?_eq_some.1 hframe⟩,
    of_decide_eq_true hbefore, hafter, hget, of_decide_eq_true hused⟩

end Timeshare.Kernel
