import Timeshare.Proofs.Tasks.Order

/-!
# Time slices of processes that do not run

A process that loses the processor, gives it up or goes to sleep begins its time slice anew,
and so does a sleeper that is woken.  A process that has to wait keeps the ticks that it has
used up: neither what hands it a mutex or a message nor the pass that gives it the processor
begins a time slice.
-/

namespace Timeshare.Tasks

variable {now slice used : UInt64} {t before after : Tasks} {pid : Pid} {slot : Slot}
  {p p' : Process} {queue : List Pid} {current : Option Pid} {transition : Transition}

/-- A process without the processor that has `used` up these ticks of a time slice; unless they
are none, it waits or is ready. -/
structure CarriesOver (t : Tasks) (pid : Pid) (used : UInt64) : Prop where
  slice : ∀ ticks, t.sliceOf pid = some ticks → ticks = used
  state : used = 0 ∨ t.stateOf pid = some .waiting ∨ t.stateOf pid = some .running

/-- The ticks with which a process stops: those that it has used up if it has to wait. -/
def stopsWith (before after : Tasks) (pid : Pid) : UInt64 :=
  if after.stateOf pid = some .waiting then (before.sliceOf pid).getD 0 else 0

/-! ## What does not concern the process -/

theorem carriesOver_of_gone (hgone : t.table.get? pid = none) : t.CarriesOver pid 0 := by
  refine ⟨fun ticks hslice => ?_, .inl rfl⟩
  rw [sliceOf, hgone] at hslice
  contradiction

/-- Between two time slices a process does not use up ticks, and a new process has none. -/
theorem Evolves.carriesOver (h : before.Evolves after) (hbefore : before.CarriesOver pid 0) :
    after.CarriesOver pid 0 := by
  refine ⟨fun ticks hslice => ?_, .inl rfl⟩
  obtain ⟨p', hget, rfl⟩ := Option.map_eq_some_iff.1 hslice
  rcases h.process pid p' hget with ⟨p, hget, hp⟩ | ⟨_, p, ⟨_, _, _, _, _, _, rfl⟩, hp⟩
  · rcases hp.activeTime with hsame | hzero
    · exact hsame.trans (hbefore.slice _ (sliceOf_of_get? hget))
    · exact hzero
  · rcases hp.activeTime with hsame | hzero
    · exact hsame
    · exact hzero

theorem CarriesOver.of_slice (h : before.CarriesOver pid used)
    (hslice : after.sliceOf pid = before.sliceOf pid)
    (hstate : after.stateOf pid = before.stateOf pid ∨ after.stateOf pid = some .running) :
    after.CarriesOver pid used := by
  refine ⟨fun ticks hticks => h.slice ticks (hslice ▸ hticks), ?_⟩
  rcases hstate with hsame | hrunning
  · rw [hsame]
    exact h.state
  · exact .inr (.inr hrunning)

theorem CarriesOver.of_get? (h : before.CarriesOver pid used)
    (hsame : after.table.get? pid = before.table.get? pid) : after.CarriesOver pid used :=
  h.of_slice (by rw [sliceOf, sliceOf, hsame]) (.inl (by rw [stateOf, stateOf, hsame]))

/-- A process that has used up ticks lives, and it does not sleep. -/
theorem CarriesOver.exists_get? (h : t.CarriesOver pid used) (hused : used ≠ 0) :
    ∃ p, t.table.get? pid = some p ∧ p.state ≠ .sleeping := by
  rcases h.state.resolve_left hused with hstate | hstate <;>
    obtain ⟨p, hget, heq⟩ := Option.map_eq_some_iff.1 hstate <;>
    exact ⟨p, hget, by rw [heq]; decide⟩

/-- Processes evolve, and whoever carries ticks over is left as it is. -/
theorem CarriesOver.evolves (h : before.CarriesOver pid used) (hevolves : before.Evolves after)
    (hothers : ∀ p, before.table.get? pid = some p → p.state ≠ .sleeping →
      after.table.get? pid = some p) : after.CarriesOver pid used := by
  by_cases hused : used = 0
  · subst hused
    exact hevolves.carriesOver h
  · obtain ⟨p, hget, hstate⟩ := h.exists_get? hused
    exact h.of_get? ((hothers p hget hstate).trans hget.symm)

/-! ## How a process stops -/

/-- A process that has to wait keeps the ticks that it has used up. -/
theorem Rewrite.stops_waiting (h : Rewrite before after pid (some p') queue current)
    (hget : before.table.get? pid = some p) (hstate : p'.state = .waiting)
    (hslice : p'.activeTime = p.activeTime) :
    after.CarriesOver pid (before.stopsWith after pid) := by
  have hwaiting : after.stateOf pid = some .waiting := by
    rw [h.stateOf, if_pos rfl, Option.map_some, hstate]
  refine ⟨fun ticks hticks => ?_, .inr (.inl hwaiting)⟩
  rw [h.sliceOf, if_pos rfl] at hticks
  rw [stopsWith, if_pos hwaiting, sliceOf_of_get? hget, ← Option.some.inj hticks]
  exact hslice

/-- A process that is ready or sleeps begins its time slice anew. -/
theorem Rewrite.stops_anew (h : Rewrite before after pid (some p') queue current)
    (hstate : p'.state ≠ .waiting) (hslice : p'.activeTime = 0) :
    after.CarriesOver pid (before.stopsWith after pid) := by
  have hzero : before.stopsWith after pid = 0 := by
    refine if_neg ?_
    rw [h.stateOf, if_pos rfl]
    exact fun hwaiting => hstate (Option.some.inj hwaiting)
  rw [hzero]
  refine ⟨fun ticks hticks => ?_, .inl rfl⟩
  rw [h.sliceOf, if_pos rfl] at hticks
  exact (Option.some.inj hticks).symm.trans hslice

/-- A process that has stopped is changed elsewhere than in its state and its time slice. -/
theorem CarriesOver.touch {q : Pid} {f : Process → Process}
    (h : after.CarriesOver pid (before.stopsWith after pid))
    (hfind : after.table.find? q = some slot)
    (hpid : (f (after.table.block slot)).pid = (after.table.block slot).pid)
    (hstate : (f (after.table.block slot)).state = (after.table.block slot).state)
    (htime : (f (after.table.block slot)).activeTime = (after.table.block slot).activeTime) :
    (after.modify slot f).CarriesOver pid (before.stopsWith (after.modify slot f) pid) := by
  have hlive : (f (after.table.block slot)).isLive := by
    rw [Process.isLive, hstate]
    exact (ProcessTable.find?_eq_some hfind).1
  have hsame : (after.modify slot f).stateOf pid = after.stateOf pid :=
    stateOf_modify hfind hlive hpid hstate
  rw [stopsWith, hsame]
  exact h.of_slice (sliceOf_modify hfind hlive hpid htime) (.inl hsame)

theorem stopsWith_of_gone (hgone : after.table.get? pid = none) :
    before.stopsWith after pid = 0 := by
  refine if_neg ?_
  rw [stateOf, hgone]
  simp

/-! ## Passes -/

/-- A pass makes nobody wait. -/
theorem Move.waiting (hmove : Move now t after) (hwaiting : after.stateOf pid = some .waiting) :
    t.stateOf pid = some .waiting := by
  have hkept {q : Pid} {p' : Process} {queue : List Pid} {current : Option Pid}
      (hrewrite : Rewrite t after q (some p') queue current) (hstate : p'.state ≠ .waiting) :
      t.stateOf pid = some .waiting := by
    rw [hrewrite.stateOf] at hwaiting
    split at hwaiting
    · exact absurd (Option.some.inj hwaiting) hstate
    · exact hwaiting
  cases hmove with
  | drop => exact hwaiting
  | expire _ _ _ _ hrewrite => exact hkept hrewrite (by simp)
  | wake _ _ _ _ hrewrite => exact hkept hrewrite (by simp)
  | pick _ _ _ hrewrite => exact hkept hrewrite (by simp)

theorem Moves.waiting (hmoves : Moves now t after) (hwaiting : after.stateOf pid = some .waiting) :
    t.stateOf pid = some .waiting := by
  induction hmoves with
  | refl => exact hwaiting
  | tail _ hmove ih => exact ih (hmove.waiting hwaiting)

/-- Up to its choice a pass touches sleepers and the recorded process only. -/
theorem get?_of_rouse (hsound : t.Sound) (hrouse : (t.rouse now slice).outcome = .ok after)
    (hother : t.current ≠ some pid) (hget : t.table.get? pid = some p)
    (hstate : p.state ≠ .sleeping) : after.table.get? pid = some p := by
  obtain ⟨expired, hexpire, hwake⟩ := Run.outcome_bind_eq_ok_iff.1 hrouse
  rw [Run.outcome_lift] at hexpire
  obtain ⟨_, htable, hactive⟩ := moves_dropStale now t
  have hexpired : Moves now t.dropStale expired :=
    (moves_expire (htable ▸ hsound.table) hactive hexpire).1
  refine get?_of_wake (hexpired.sound (htable ▸ hsound.table)) hwake ?_ fun h => hstate h.1
  rw [← htable] at hget
  rcases expire_eq_ok hexpire with ⟨rfl, _⟩ | ⟨q, slot, hcurrent, hfind, _, _, hmodify, _⟩
  · exact hget
  have hne : pid ≠ q := by
    rintro rfl
    rcases dropStale_eq t with ⟨hsame, _⟩ | ⟨hdropped, _⟩
    · exact hother (hsame ▸ hcurrent)
    · rw [hdropped] at hcurrent
      contradiction
  rw [hmodify, ProcessTable.get?_modify hfind rfl rfl, if_neg hne]
  exact hget

/-- A pass carries ticks over, whether it gives the processor to the process or not. -/
theorem CarriesOver.reschedule (h : t.CarriesOver pid used) (hsound : t.Sound)
    (hother : t.current ≠ some pid)
    (hpass : (t.reschedule now slice).outcome = .ok (transition, after)) :
    (∀ ticks, after.sliceOf pid = some ticks → ticks = used) ∧
      (after.current ≠ some pid → after.CarriesOver pid used) := by
  obtain ⟨roused, hrouse, hpick⟩ := reschedule_eq_ok hpass
  have hmoves := (moves_rouse hsound.table hrouse).1
  have hroused : roused.CarriesOver pid used :=
    h.evolves hmoves.evolvesAt.toEvolves fun p hget => get?_of_rouse hsound hrouse hother hget
  rcases pick_eq_ok (hmoves.sound hsound.table) hpick with
    ⟨rfl, _⟩ | ⟨_, p, rest, hget, _, hrewrite⟩
  · exact ⟨hroused.slice, fun _ => hroused⟩
  by_cases hself : pid = transition.next
  · subst hself
    refine ⟨fun ticks hticks => ?_, fun hstopped => absurd hrewrite.current hstopped⟩
    rw [hrewrite.sliceOf, if_pos rfl] at hticks
    exact hroused.slice ticks ((sliceOf_of_get? hget).trans hticks)
  · have hafter := hroused.of_get? ((hrewrite.get? pid).trans (if_neg hself))
    exact ⟨hafter.slice, fun _ => hafter⟩

/-- A process that a pass takes the processor from begins its time slice anew. -/
theorem carriesOver_of_reschedule (hsound : t.Sound) (hcurrent : t.current = some pid)
    (hactive : t.stateOf pid = some .active)
    (hpass : (t.reschedule now slice).outcome = .ok (transition, after))
    (hstopped : after.current ≠ some pid) : after.CarriesOver pid 0 := by
  obtain ⟨roused, hrouse, hpick⟩ := reschedule_eq_ok hpass
  obtain ⟨hmoves, hrecorded⟩ := moves_rouse hsound.table hrouse
  have hpicked : Moves now roused after :=
    (moves_pick (hmoves.sound hsound.table) (fun pid h => (hrecorded pid h).2) hpick).1
  obtain ⟨expired, hexpire, hwake⟩ := Run.outcome_bind_eq_ok_iff.1 hrouse
  rw [Run.outcome_lift] at hexpire
  have hfresh : t.dropStale = t := by
    rcases dropStale_eq t with ⟨hsame, _⟩ | ⟨_, q, hother, hstale⟩
    · exact hsame
    · obtain rfl := Option.some.inj (hcurrent.symm.trans hother)
      exact absurd hactive hstale
  rw [hfresh] at hexpire
  rcases expire_eq_ok hexpire with ⟨rfl, _⟩ | ⟨q, slot, hother, hfind, _, _, hmodify, _⟩
  · -- it has some of its time slice left, so it keeps the processor
    have hkept := (moves_wake Slot.all hsound.table hwake).2.1.trans hcurrent
    rcases pick_eq_ok (hmoves.sound hsound.table) hpick with ⟨rfl, _⟩ | ⟨hnobody, _⟩
    · exact absurd hkept hstopped
    · rw [hkept] at hnobody
      contradiction
  · obtain rfl := Option.some.inj (hcurrent.symm.trans hother)
    have hexpired : expired.CarriesOver pid 0 := by
      refine ⟨fun ticks hticks => ?_, .inl rfl⟩
      rw [sliceOf, hmodify, ProcessTable.get?_modify hfind rfl rfl, if_pos rfl] at hticks
      exact (Option.some.inj hticks).symm
    have honly (q : Pid) (h : t.current = some q) : t.stateOf q = some .active :=
      Option.some.inj (hcurrent.symm.trans h) ▸ hactive
    have hmoved : Moves now t expired := (moves_expire hsound.table honly hexpire).1
    have hrest : Moves now expired after :=
      (moves_wake Slot.all (hmoved.sound hsound.table) hwake).1.trans hpicked
    exact hrest.evolvesAt.toEvolves.carriesOver hexpired

end Timeshare.Tasks
