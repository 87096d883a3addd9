import Timeshare.Proofs.Kernel.Others
import Timeshare.Proofs.Kernel.Waits

/-!
# Whoever is blocked runs when it is woken

A pass gives the processor to a process that is ready, and to idle, whatever idle is doing,
if nobody is.  So any other process that sleeps does not run before its time, and one that
waits for a mutex or a message does not run before it is given what it waits for.
-/

namespace Timeshare

/-- Whoever is active behind the choice was active or ready before it; idle was
neither only if nobody was ready. -/
theorem Tasks.active_of_pick {t after : Tasks} {next pid : Pid} (hsound : t.Sound)
    (hpick : t.pick = .ok (next, after)) (hactive : after.stateOf pid = some .active) :
    t.stateOf pid = some .active ∨ t.stateOf pid = some .running ∨ pid = .idle ∧ t.queue = [] := by
  rcases pick_eq_ok hsound.table hpick with ⟨rfl, _⟩ | ⟨_, p, rest, _, hhead, hrewrite⟩
  · exact .inl hactive
  rw [hrewrite.stateOf] at hactive
  split at hactive
  · rename_i hself
    subst hself
    rcases hhead with hqueue | ⟨hempty, _, hidle⟩
    · exact .inr (.inl (hsound.queued pid (hqueue ▸ List.mem_cons_self)))
    · exact .inr (.inr ⟨hidle, hempty⟩)
  · exact .inl hactive

namespace Kernel

open Machine (Simulated)

variable {P : Type} {k k' : Kernel P} {m : Moment P} {past later : List (Moment P)}
  {pid : Pid} {arguments : Arguments} {wake : UInt64}

/-- The process sleeps until `wake`, or this time has come. -/
def Asleep (k : Kernel P) (pid : Pid) (wake : UInt64) : Prop :=
  (∃ p, k.tasks.table.get? pid = some p ∧ p.state = .sleeping ∧ p.wakeTime = wake) ∨
    wake ≤ k.clock.now

/-- A process that runs has slept as long as it asked for. -/
theorem Asleep.due (h : k.Asleep pid wake) (hactive : k.tasks.stateOf pid = some .active) :
    wake ≤ k.clock.now := by
  rcases h with ⟨p, hget, hstate, _⟩ | hdue
  · rw [Tasks.stateOf_of_get? hget, hstate] at hactive
    contradiction
  · exact hdue

variable [Platform P]

/-! ## The pass of a trap -/

/-- The pass of a trap, from the kernel before the pass on: `roused` are the processes as
the pass finds them when it chooses. -/
structure Chooses (frame : Frame) (k before : Kernel P) (roused : Tasks) (k' : Kernel P) : Prop where
  reached : (do enter frame; attend : Step P Unit) k = .ok () before
  roused : (before.tasks.rouse before.clock.now before.config.timeSlice).outcome = .ok roused
  passed : ∃ transition, schedule before = .ok transition k'

/-- The processes that the pass of a trap finds when it chooses. -/
def atChoice (frame : Frame) (k : Kernel P) : Option Tasks :=
  match (do enter frame; attend : Step P Unit) k with
  | .error _ _ => none
  | .ok _ before =>
      (before.tasks.rouse before.clock.now before.config.timeSlice).outcome.toOption

theorem Chooses.atChoice {frame : Frame} {before : Kernel P} {roused : Tasks}
    (h : Chooses frame k before roused k') : atChoice frame k = some roused := by
  rw [Kernel.atChoice, h.reached]
  dsimp only
  rw [h.roused]
  rfl

/-- A pass makes nobody active who is not ready, but for idle if nobody is ready. -/
theorem chooses_of_trap {frame resumed : Frame} (htrap : trap frame k = .ok resumed k')
    (hk : k.Coherent) (hsettled : k.tasks.Settled) :
    ∃ before roused, Chooses frame k before roused k' ∧
      ∀ pid, k'.tasks.stateOf pid = some .active →
        before.tasks.stateOf pid = some .active ∧ roused.stateOf pid = some .active ∨
          roused.stateOf pid = some .running ∨ pid = .idle ∧ roused.queue = [] := by
  obtain ⟨k₁, k₂, transition, henter, hattend, hschedule, _⟩ := stages_of_trap htrap
  have hk₂ := coherent_attend hattend (coherent_enter henter hk hsettled.engaged)
  cases (leads_schedule k₂).of_ok hschedule with
  | passed hpass =>
      obtain ⟨roused, hrouse, hpick⟩ := Tasks.reschedule_eq_ok hpass
      obtain ⟨hmoves, hrecorded⟩ := Tasks.moves_rouse hk₂.tasks.table hrouse
      have hsound := Tasks.Moves.keeps_sound hmoves hk₂.tasks
      refine ⟨k₂, roused, ⟨bind_eq_ok_iff.2 ⟨(), k₁, henter, hattend⟩, hrouse, _, hschedule⟩, ?_⟩
      intro pid hactive
      rcases Tasks.active_of_pick hsound hpick hactive with hbefore | hready
      · exact .inl (hrecorded pid (hsound.active pid hbefore))
      · exact .inr hready

/-! ## Sleeping -/

/-- Nobody who can be identified is refused a sleep. -/
theorem leads_sleep_refused (seconds : UInt64) (k : Kernel P) :
    Leads (sleep seconds k) fun result _ =>
      ∀ reason, result = .error (.refused reason) → k.current = none := by
  unfold sleep
  rw [caller_bind]
  split
  · rename_i hcurrent
    exact fun _ _ => hcurrent
  rw [get_bind, placeOf_bind]
  split
  · intro reason hrefused
    injection hrefused with hstop
    contradiction
  rw [modify_bind, report_bind]
  exact fun _ hrefused => by contradiction

/-- Behind its handler whoever asked to sleep sleeps. -/
theorem Staged.slept {value : Int64} {frame : Frame} {saved answered served : Kernel P}
    (hstaged : Staged m pid .sleep arguments value frame saved answered served)
    (hk : m.before.Coherent) :
    ∃ p, served.tasks.table.get? pid = some p ∧ p.state = .sleeping ∧
      p.wakeTime = m.before.sleepEnd arguments.first := by
  have hsaved := (leads_saveContext frame m.before).of_ok hstaged.save
  have hk₀ := hsaved.coherent hk
  have hend : saved.sleepEnd arguments.first = m.before.sleepEnd arguments.first := by
    rw [sleepEnd, sleepEnd, hsaved.kept.clock, hsaved.kept.config]
  rcases dispatch_eq_ok hstaged.dispatch with hserve | ⟨reason, k₁, hserve, _⟩
  · cases (leads_serve .sleep arguments saved).of_ok hserve with
    | answered hcall => rcases hcall with h | h | h <;> contradiction
    | sleep hcurrent hfind hsleep =>
        obtain rfl := Option.some.inj (hcurrent.symm.trans hstaged.current)
        subst hsleep
        have hrewrite := (Tasks.rewrite_modify (f := fun p => { p with
          state := .sleeping, activeTime := 0, wakeTime := saved.sleepEnd arguments.first })
          hk₀.tasks.table hfind rfl rfl).clearCurrent
        exact ⟨_, hstaged.answered.get? hrewrite.table ((hrewrite.get? _).trans (if_pos rfl)), rfl,
          hend⟩
  · have hnobody := (leads_sleep_refused arguments.first saved).of_error hserve reason rfl
    rw [hstaged.current] at hnobody
    contradiction

theorem asleep_of_calls (hcalls : m.Calls pid .sleep arguments)
    (hdone : m.deed.carryOut m.before = .ok () m.after) (hk : m.before.Coherent)
    (hsettled : m.before.tasks.Settled) (hidle : pid ≠ .idle) :
    m.after.Asleep pid (m.before.sleepEnd arguments.first) := by
  obtain ⟨frame, saved, value, answered, served, hstaged⟩ := hcalls.staged hdone hk
  obtain ⟨p, hget, hstate, hwake⟩ := hstaged.slept hk
  obtain ⟨k₂, transition, hattend, hschedule⟩ := hstaged.finished
  have hrest := resting_of_rest hattend hschedule (coherent_enter hstaged.enter hk hsettled.engaged)
    hidle hget (.inl hstate)
  rcases hrest with hsame | ⟨_, hdue⟩
  · exact .inl ⟨_, hsame, hstate, hwake⟩
  · exact .inr (hwake ▸ hdue)

/-- Time does not go back. -/
theorem now_le_of_ordinary (hordinary : m.deed.ordinary)
    (hdone : m.deed.carryOut m.before = .ok () m.after) :
    m.before.clock.now ≤ m.after.clock.now := by
  rcases Deed.effect hordinary hdone with
    ⟨frame, _, _, htrap⟩ | ⟨_, _, _, _, hspawned⟩ | ⟨_, _, _, hafter⟩
  · rw [UInt64.le_iff_toNat_le, ((leads_trap frame m.before).of_ok htrap).clock]
    exact Nat.le_add_right _ _
  · rw [hspawned.kept.clock]
    exact UInt64.le_refl _
  · rw [hafter]
    exact UInt64.le_refl _

/-- A resting process is left alone, unless its time has come or it is taken off a wait
queue. -/
theorem resting_of_ordinary {p : Process} (hordinary : m.deed.ordinary)
    (hdone : m.deed.carryOut m.before = .ok () m.after) (hk : m.before.Coherent)
    (hsettled : m.before.tasks.Settled) (hidle : pid ≠ .idle)
    (hget : m.before.tasks.table.get? pid = some p) (hrest : p.Resting) :
    m.after.tasks.table.get? pid = some p ∨
      p.state = .sleeping ∧ p.wakeTime ≤ m.after.clock.now ∨
      pid ∈ m.before.waiters ∧ pid ∉ m.after.waiters := by
  rcases Deed.effect hordinary hdone with
    ⟨_, _, _, htrap⟩ | ⟨_, _, _, _, hspawned⟩ | ⟨_, _, _, hafter⟩
  · exact resting_of_trap htrap hk hsettled hidle hget hrest
  · exact .inl (hspawned.others hk hget)
  · rw [hafter]
    exact .inl hget

theorem Asleep.step (h : m.before.Asleep pid wake) (hordinary : m.deed.ordinary)
    (hdone : m.deed.carryOut m.before = .ok () m.after) (hk : m.before.Coherent)
    (hsettled : m.before.tasks.Settled) (hidle : pid ≠ .idle) : m.after.Asleep pid wake := by
  rcases h with ⟨p, hget, hstate, hwake⟩ | hdue
  · rcases resting_of_ordinary hordinary hdone hk hsettled hidle hget (.inl hstate) with
      hsame | ⟨_, hdue⟩ | ⟨hmem, _⟩
    · exact .inl ⟨p, hsame, hstate, hwake⟩
    · exact .inr (hwake ▸ hdue)
    · -- it is on no wait queue to be taken from
      have hwaiting := (hk.count_eq_one hidle hmem).1
      rw [Tasks.stateOf_of_get? hget, hstate] at hwaiting
      contradiction
  · exact .inr (UInt64.le_trans hdue (now_le_of_ordinary hordinary hdone))

/-! ## Courses -/

/-- Whoever waited for a mutex and runs was made its owner. -/
theorem Course.handedOver (hcourse : Course (later ++ m :: past) k)
    (hordinary : ∀ u ∈ later ++ m :: past, u.deed.ordinary)
    (hcalls : m.Calls pid .mutexLock arguments) (hidle : pid ≠ .idle)
    (hwaiting : m.after.tasks.stateOf pid = some .waiting)
    (hactive : k.tasks.stateOf pid = some .active) :
    ∃ u ∈ later, u.HandsOver arguments.first pid := by
  have hk := (hcourse.coherent hordinary).1
  have hends : pid ∈ (k.mutexes.ticketsAt arguments.first).tail ∨
      ∃ u ∈ later, u.HandsOver arguments.first pid := by
    refine hcourse.since_ordinary (Q := fun later k =>
      pid ∈ (k.mutexes.ticketsAt arguments.first).tail ∨
        ∃ u ∈ later, u.HandsOver arguments.first pid) hordinary ?_ ?_
    · intro hm hk hsettled hdone
      rcases hcalls.waits hm hdone hk hsettled hidle hwaiting with ⟨_, htail⟩ | ⟨hcall, _⟩
      · exact .inl htail
      · contradiction
    · rintro u later hu hk hsettled hdone (htail | ⟨v, hv, hgiven⟩)
      · rcases mem_tail_or_handsOver hu hdone hk hsettled htail with hstays | hgiven
        · exact .inl hstays
        · exact .inr ⟨u, List.mem_cons_self, hgiven⟩
      · exact .inr ⟨v, List.mem_cons_of_mem _ hv, hgiven⟩
  refine hends.resolve_left fun htail => Coherent.not_mem_waiters hk hidle hactive ?_
  exact List.mem_append_left _ (hk.mutexes.mem_waiters_iff.2 ⟨_, htail⟩)

/-- Whoever waited for a message and runs was handed one. -/
theorem Course.handedMessage (hcourse : Course (later ++ m :: past) k)
    (hordinary : ∀ u ∈ later ++ m :: past, u.deed.ordinary)
    (hcalls : m.Calls pid .receive arguments) (hidle : pid ≠ .idle)
    (hwaiting : m.after.tasks.stateOf pid = some .waiting)
    (hactive : k.tasks.stateOf pid = some .active) :
    ∃ u ∈ later, u.HandsMessage arguments.first pid := by
  have hk := (hcourse.coherent hordinary).1
  have hends : ∃ index : MailboxId, index.val = arguments.first.toNat ∧
      (pid ∈ k.mailboxes.waitingAt index ∨ ∃ u ∈ later, u.HandsMessage arguments.first pid) := by
    refine hcourse.since_ordinary (Q := fun later k => ∃ index : MailboxId,
      index.val = arguments.first.toNat ∧ (pid ∈ k.mailboxes.waitingAt index ∨
        ∃ u ∈ later, u.HandsMessage arguments.first pid)) hordinary ?_ ?_
    · intro hm hk hsettled hdone
      rcases hcalls.waits hm hdone hk hsettled hidle hwaiting with
        ⟨hcall, _⟩ | ⟨_, index, hindex, hbox⟩
      · contradiction
      · exact ⟨index, hindex, .inl hbox⟩
    · rintro u later hu hk hsettled hdone ⟨index, hindex, hbox | ⟨v, hv, hgiven⟩⟩
      · rcases mem_waitingAt_or_handsMessage hindex hu hdone hk hbox with hstays | hgiven
        · exact ⟨index, hindex, .inl hstays⟩
        · exact ⟨index, hindex, .inr ⟨u, List.mem_cons_self, hgiven⟩⟩
      · exact ⟨index, hindex, .inr ⟨v, List.mem_cons_of_mem _ hv, hgiven⟩⟩
  obtain ⟨index, _, hends⟩ := hends
  refine hends.resolve_left fun hbox => Coherent.not_mem_waiters hk hidle hactive ?_
  exact (k.waitingAt_sublist index).subset hbox

/-- A pass makes nobody active but who is ready, or idle if nobody is.  So a process other
than idle that runs has slept as long as it asked for, was given the mutex that it waited
for, and was handed a message if it waited for one. -/
theorem blocked_until_woken (hcourse : Course (later ++ m :: past) k)
    (hordinary : ∀ u ∈ later ++ m :: past, u.deed.ordinary) :
    (∀ frame, m.deed = .trap frame → ∃ before roused, Chooses frame m.before before roused m.after ∧
      ∀ pid, m.after.tasks.stateOf pid = some .active →
        before.tasks.stateOf pid = some .active ∧ roused.stateOf pid = some .active ∨
          roused.stateOf pid = some .running ∨ pid = .idle ∧ roused.queue = []) ∧
    ∀ pid, pid ≠ .idle → k.tasks.stateOf pid = some .active → ∀ arguments,
      (m.Calls pid .sleep arguments → m.before.sleepEnd arguments.first ≤ k.clock.now) ∧
      (m.Calls pid .mutexLock arguments → m.after.tasks.stateOf pid = some .waiting →
        ∃ u ∈ later, u.HandsOver arguments.first pid) ∧
      (m.Calls pid .receive arguments → m.after.tasks.stateOf pid = some .waiting →
        ∃ u ∈ later, u.HandsMessage arguments.first pid) := by
  refine ⟨fun frame hdeed => ?_, fun pid hidle hactive arguments => ⟨fun hcalls => ?_,
    fun hcalls hwaiting => ?_, fun hcalls hwaiting => ?_⟩⟩
  · refine hcourse.since_ordinary (Q := fun _ _ => _) hordinary ?_ fun _ _ _ _ _ _ h => h
    intro _ hk hsettled hdone
    rw [hdeed] at hdone
    obtain ⟨resumed, htrap⟩ := exists_of_discard hdone
    exact chooses_of_trap htrap hk hsettled
  · have hasleep : k.Asleep pid (m.before.sleepEnd arguments.first) := by
      refine hcourse.since_ordinary (Q := fun _ k => k.Asleep pid _) hordinary ?_ ?_
      · exact fun _ hk hsettled hdone => asleep_of_calls hcalls hdone hk hsettled hidle
      · exact fun u _ hu hk hsettled hdone h => h.step hu hdone hk hsettled hidle
    exact hasleep.due hactive
  · exact hcourse.handedOver hordinary hcalls hidle hwaiting hactive
  · exact hcourse.handedMessage hordinary hcalls hidle hwaiting hactive

/-- The second process waits for the mutex of the first, gets it and runs. -/
theorem blocked_until_woken_by_unlock :
    ∃ (later past : List (Moment Simulated)) (m : Moment Simulated) (k : Kernel Simulated),
      Course (later ++ m :: past) k ∧ (∀ u ∈ later ++ m :: past, u.deed.ordinary) ∧
      m.Calls ⟨2⟩ .mutexLock ⟨0, 0, 0⟩ ∧ m.after.tasks.stateOf ⟨2⟩ = some .waiting ∧
      k.tasks.stateOf ⟨2⟩ = some .active ∧ ∃ u ∈ later, u.HandsOver 0 ⟨2⟩ := by
  obtain ⟨moments, k, hcourse, hcheck⟩ := exists_course
    [.trap (callFrame .yield 0 0), .trap (callFrame .mutexAlloc 0 0),
      .trap (callFrame .mutexLock 0 0), .trap (callFrame .yield 0 0),
      .trap (callFrame .mutexLock 0 0), .trap (callFrame .yield 0 0),
      .trap (callFrame .yield 0 0), .trap (callFrame .mutexUnlock 0 0),
      .trap (callFrame .yield 0 0), .trap (callFrame .yield 0 0), .trap (callFrame .yield 0 0)]
    (fun moments k => decide ((∀ u ∈ moments, u.deed.ordinary) ∧
      k.tasks.stateOf ⟨2⟩ = some .active) &&
      match moments.drop 6 with
      | [] => false
      | m :: _ => decide (m.Calls ⟨2⟩ .mutexLock ⟨0, 0, 0⟩ ∧
          m.after.tasks.stateOf ⟨2⟩ = some .waiting)) (by decide +kernel)
  obtain ⟨hends, hmoment⟩ := (Bool.and_eq_true ..).mp hcheck
  obtain ⟨hordinary, hactive⟩ := of_decide_eq_true hends
  split at hmoment
  · contradiction
  rename_i m past hdrop
  obtain ⟨hcalls, hwaiting⟩ := of_decide_eq_true hmoment
  rw [← List.take_append_drop 6 moments, hdrop] at hcourse hordinary
  exact ⟨moments.take 6, past, m, k, hcourse, hordinary, hcalls, hwaiting, hactive,
    ((blocked_until_woken hcourse hordinary).2 ⟨2⟩ (by decide) hactive _).2.1 hcalls hwaiting⟩

/-- The first process has the mutex and everybody sleeps but idle, which has to wait for the
mutex.  The pass finds it waiting and makes it active, and the mutex is still the first's. -/
theorem idle_runs_while_it_waits :
    ∃ (past : List (Moment Simulated)) (m : Moment Simulated) (frame : Frame)
      (before : Kernel Simulated) (roused : Tasks),
      Course (m :: past) m.after ∧ (∀ u ∈ m :: past, u.deed.ordinary) ∧
      m.Calls .idle .mutexLock ⟨0, 0, 0⟩ ∧ m.deed = .trap frame ∧
      Chooses frame m.before before roused m.after ∧ roused.stateOf .idle = some .waiting ∧
      m.after.tasks.stateOf .idle = some .active ∧ m.after.mutexes.ownerOf 0 = some ⟨1⟩ ∧
      .idle ∈ m.after.mutexes.waiters := by
  obtain ⟨moments, k, hcourse, hcheck⟩ := exists_course
    [.trap (callFrame .yield 0 0), .trap (callFrame .mutexAlloc 0 0),
      .trap (callFrame .mutexLock 0 0), .trap (callFrame .sleep 9 0),
      .trap (callFrame .sleep 9 0), .trap (callFrame .sleep 9 0),
      .trap (callFrame .mutexLock 0 0)]
    (fun moments _ => decide (∀ u ∈ moments, u.deed.ordinary) &&
      match moments with
      | [] => false
      | m :: _ => decide (m.Calls .idle .mutexLock ⟨0, 0, 0⟩ ∧
          m.after.tasks.stateOf .idle = some .active ∧ m.after.mutexes.ownerOf 0 = some ⟨1⟩ ∧
          .idle ∈ m.after.mutexes.waiters) &&
          m.deed.frame?.any fun frame => (atChoice frame m.before).any fun roused =>
            decide (roused.stateOf .idle = some .waiting)) (by decide +kernel)
  obtain ⟨hordinary, hmoment⟩ := (Bool.and_eq_true ..).mp hcheck
  replace hordinary := of_decide_eq_true hordinary
  split at hmoment
  · contradiction
  rename_i m past
  obtain ⟨hends, hfound⟩ := (Bool.and_eq_true ..).mp hmoment
  obtain ⟨hcalls, hactive, howner, hwaits⟩ := of_decide_eq_true hends
  obtain ⟨frame, hframe, hfound⟩ := (Option.any_eq_true ..).1 hfound
  have hdeed := Deed.frame?_eq_some.1 hframe
  obtain ⟨hpast, hdone, rfl⟩ := hcourse.tail
  obtain ⟨hk, hsettled⟩ := hpast.coherent fun u hu => hordinary u (List.mem_cons_of_mem _ hu)
  rw [hdeed] at hdone
  obtain ⟨resumed, htrap⟩ := exists_of_discard hdone
  obtain ⟨before, roused, hchooses, _⟩ := chooses_of_trap htrap hk hsettled
  rw [hchooses.atChoice] at hfound
  exact ⟨past, m, frame, before, roused, hcourse, hordinary, hcalls, hdeed, hchooses,
    of_decide_eq_true hfound, hactive, howner, hwaits⟩

end Kernel

end Timeshare
