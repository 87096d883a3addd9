import Timeshare.Proofs.Tasks.Order

/-!
# Idle among the tasks

Once idle has got the processor for the first time it stands aside: it is not queued, and it
is ready or active.  Nothing that is done to other processes changes that, nor does a
scheduling pass.  A pass that gives the processor to idle found nobody else to give it to.
-/

namespace Timeshare.Tasks

variable {now slice : UInt64} {before after t : Tasks} {pid : Pid} {slot : Slot} {p : Process}
  {p' : Option Process} {queue : List Pid} {current : Option Pid}

/-- Idle is not queued, and it is ready or active. -/
structure Aside (t : Tasks) : Prop where
  queue : Pid.idle ∉ t.queue
  state : t.stateOf .idle = some .running ∨ t.stateOf .idle = some .active

/-! ## What leaves idle aside -/

/-- Another process is rewritten, and idle is not queued with it. -/
theorem Rewrite.aside (h : Rewrite before after pid p' queue current) (hbefore : before.Aside)
    (hother : pid ≠ .idle) (hqueue : Pid.idle ∉ queue) : after.Aside where
  queue := h.queue ▸ hqueue
  state := by
    rw [h.stateOf, if_neg fun heq : Pid.idle = pid => hother heq.symm]
    exact hbefore.state

/-- Whoever is changed does what it did before. -/
theorem Aside.touch {f : Process → Process} (haside : t.Aside)
    (hfind : t.table.find? pid = some slot)
    (hstate : (f (t.table.block slot)).state = (t.table.block slot).state)
    (hpid : (f (t.table.block slot)).pid = (t.table.block slot).pid) : (t.modify slot f).Aside := by
  have hlive : (f (t.table.block slot)).isLive := by
    rw [Process.isLive, hstate]
    exact (ProcessTable.find?_eq_some hfind).1
  refine ⟨haside.queue, ?_⟩
  rw [stateOf_modify hfind hlive hpid hstate]
  exact haside.state

theorem Aside.not_mem_append (haside : t.Aside) (hother : pid ≠ .idle) :
    Pid.idle ∉ t.queue ++ [pid] := by
  rw [List.mem_append, List.mem_singleton, not_or]
  exact ⟨haside.queue, fun heq => hother heq.symm⟩

theorem Aside.not_mem_filter {Q : Pid → Bool} (haside : t.Aside) :
    Pid.idle ∉ t.queue.filter Q :=
  fun hmem => haside.queue (List.mem_of_mem_filter hmem)

theorem Aside.clearCurrent (haside : t.Aside) : Aside { t with sched := t.sched.clearCurrent } :=
  ⟨haside.queue, haside.state⟩

/-- A process that is created is not idle, for idle lives. -/
theorem Aside.create {entry : UInt64} {name : String} (haside : t.Aside) (hsound : t.table.Sound)
    (hcreate : (t.create entry name now).outcome = .ok (pid, after)) : after.Aside := by
  obtain ⟨hnext, _, _, _, _, _, hrewrite⟩ := rewrite_create hsound hcreate
  have hother : pid ≠ .idle := by
    rintro rfl
    have hstate := haside.state
    rw [hnext, stateOf, hsound.get?_nextPid] at hstate
    rcases hstate with hstate | hstate <;> contradiction
  exact hrewrite.aside haside hother (haside.not_mem_append hother)

theorem Aside.destroy {target : Option Pid} (haside : t.Aside) (hsound : t.table.Sound)
    (hdestroy : (t.destroy target).outcome = .ok after) : after.Aside := by
  obtain ⟨pid, _, hother, _, hrewrite⟩ := rewrite_destroy hsound hdestroy
  exact hrewrite.aside haside hother haside.not_mem_filter

/-- Idle loses the processor without being queued, and gets it without having been queued. -/
theorem Move.aside (hmove : Move now t after) (haside : t.Aside) : after.Aside := by
  cases hmove with
  | drop => exact haside.clearCurrent
  | expire hcurrent hget hstate hfresh hrewrite =>
      rename_i pid p
      by_cases hidle : pid = .idle
      · subst hidle
        rw [if_pos rfl] at hrewrite
        refine ⟨hrewrite.queue ▸ haside.queue, .inl ?_⟩
        rw [hrewrite.stateOf, if_pos rfl]
        rfl
      · rw [if_neg hidle] at hrewrite
        exact hrewrite.aside haside hidle (haside.not_mem_append hidle)
  | wake hget hstate hdue hfresh hrewrite =>
      rename_i pid p
      have hother : pid ≠ .idle := by
        rintro rfl
        have hidle := haside.state
        rw [stateOf_of_get? hget, hstate] at hidle
        rcases hidle with hidle | hidle <;> contradiction
      exact hrewrite.aside haside hother (haside.not_mem_append hother)
  | pick hcurrent hget hhead hrewrite =>
      rename_i pid p rest
      have hrest : Pid.idle ∉ rest := by
        rcases hhead with hqueue | ⟨_, hrest, _⟩
        · exact fun hmem => haside.queue (hqueue ▸ List.mem_cons_of_mem _ hmem)
        · rw [hrest]
          exact List.not_mem_nil
      by_cases hidle : pid = .idle
      · subst hidle
        refine ⟨hrewrite.queue ▸ hrest, .inr ?_⟩
        rw [hrewrite.stateOf, if_pos rfl]
        rfl
      · exact hrewrite.aside haside hidle hrest

theorem Moves.aside (hmoves : Moves now t after) (haside : t.Aside) : after.Aside := by
  induction hmoves with
  | refl => exact haside
  | tail _ hmove ih => exact hmove.aside ih

/-- The first pass takes idle, which was created first, off the queue. -/
theorem aside_of_first_pass {transition : Transition} (hsound : t.Sound)
    (hpass : (t.reschedule now slice).outcome = .ok (transition, after))
    (hnobody : t.current = none) (hfirst : [.idle] <+: t.queue) : after.Aside := by
  obtain ⟨roused, hrouse, hpick⟩ := reschedule_eq_ok hpass
  have hsoundRoused := Moves.keeps_sound (moves_rouse hsound.table hrouse).1 hsound
  have hroused := linesUp_rouse hsound hrouse
  obtain ⟨others, hqueue⟩ := hfirst.trans hroused.queue
  have hfree : roused.current = none := hroused.current.elim id fun h => h.1.trans hnobody
  rcases pick_eq_ok hsoundRoused.table hpick with
    ⟨_, hcurrent⟩ | ⟨_, p, rest, _, hhead, hrewrite⟩
  · rw [hfree] at hcurrent
    contradiction
  · rw [← hqueue] at hhead
    rcases hhead with hhead | ⟨hempty, _⟩
    · obtain ⟨hself, hrest⟩ := List.cons_eq_cons.1 hhead
      subst hrest
      rw [← hself] at hrewrite
      have hnodup := hsoundRoused.queue_nodup
      rw [← hqueue] at hnodup
      refine ⟨hrewrite.queue ▸ (List.nodup_cons.1 hnodup).1, .inr ?_⟩
      rw [hrewrite.stateOf, if_pos rfl]
      rfl
    · contradiction

/-! ## What a pass leaves to idle -/

/-- When everybody who is due was woken, nobody is due. -/
theorem not_isDue_of_wake {slots : List Slot} (hnodup : slots.Nodup)
    (hwake : (slots.foldlM (wakeAt now) t).outcome = .ok after) :
    ∀ slot ∈ slots, ¬ after.IsDue now slot := by
  induction slots generalizing t with
  | nil => exact fun _ hmem => absurd hmem List.not_mem_nil
  | cons first rest ih =>
      rw [List.foldlM_cons] at hwake
      obtain ⟨woken, hfirst, hrest⟩ := Run.outcome_bind_eq_ok_iff.1 hwake
      have hnodupRest := (List.nodup_cons.1 hnodup).2
      intro slot hmem
      rcases List.mem_cons.1 hmem with rfl | hmem
      · -- the first one was woken or is not due, and the others are at other places
        have hearly : ¬ woken.IsDue now slot := by
          rcases wakeAt_eq_ok hfirst with ⟨rfl, hearly⟩ | ⟨_, _, hmodify, _⟩
          · exact hearly
          · rw [IsDue, hmodify, ProcessTable.block_modify_self]
            exact fun hdue => by have hstate := hdue.1; contradiction
        rwa [IsDue, (wake_eq_ok hnodupRest hrest).2.2 slot hearly]
      · exact ih hnodupRest hrest slot hmem

/-- Whoever is still recorded when a pass chooses has some of its time slice left. -/
theorem activeTime_lt_of_rouse (hrouse : (t.rouse now slice).outcome = .ok after)
    (hcurrent : after.current = some pid) (hget : t.table.get? pid = some p) :
    p.activeTime < slice := by
  obtain ⟨expired, hexpire, hwake⟩ := Run.outcome_bind_eq_ok_iff.1 hrouse
  rw [Run.outcome_lift] at hexpire
  rw [(wake_eq_ok (List.nodup_finRange _) hwake).2.1] at hcurrent
  rcases expire_eq_ok hexpire with ⟨rfl, hleft⟩ | ⟨_, _, _, _, _, _, _, _, hnone⟩
  · refine hleft pid p hcurrent ?_
    rw [(moves_dropStale now t).2.1]
    exact hget
  · rw [hnone] at hcurrent
    contradiction

/-- Nobody but idle can run. -/
structure Alone (t : Tasks) (now : UInt64) : Prop where
  queue : t.queue = []
  blocked : ∀ pid p, pid ≠ .idle → t.table.get? pid = some p →
    p.state = .sleeping ∧ now < p.wakeTime ∨ p.state = .waiting

/-- With a free processor and nobody queued, everybody but idle is blocked. -/
theorem blocked_of_rouse (hsound : after.Sound) (hrouse : (t.rouse now slice).outcome = .ok after)
    (hnobody : after.current = none) (hqueue : after.queue = []) (hother : pid ≠ .idle)
    (hget : after.table.get? pid = some p) :
    p.state = .sleeping ∧ now < p.wakeTime ∨ p.state = .waiting := by
  have hstateOf := stateOf_of_get? hget
  obtain ⟨slot, _, rfl, hlive, _⟩ := ProcessTable.get?_eq_some hget
  cases hstate : (after.table.block slot).state with
  | free =>
      rw [Process.isLive, hstate] at hlive
      contradiction
  | running =>
      have hqueued := hsound.ready pid (hstate ▸ hstateOf) hother
      rw [hqueue] at hqueued
      exact absurd hqueued List.not_mem_nil
  | active =>
      have hrecorded := hsound.active pid (hstate ▸ hstateOf)
      rw [hnobody] at hrecorded
      contradiction
  | sleeping =>
      obtain ⟨expired, _, hwake⟩ := Run.outcome_bind_eq_ok_iff.1 hrouse
      have hearly := not_isDue_of_wake (List.nodup_finRange _) hwake slot (List.mem_finRange slot)
      exact .inl ⟨rfl, UInt64.not_le.1 fun hdue => hearly ⟨hstate, hdue⟩⟩
  | waiting => exact .inr rfl

/-- A pass that gives the processor to idle, or leaves it to idle after its time slice, finds
nobody else to give it to. -/
theorem alone_of_reschedule {transition : Transition} (hsound : t.Sound) (haside : t.Aside)
    (hpass : (t.reschedule now slice).outcome = .ok (transition, after))
    (hidle : after.current = some .idle)
    (hpicked : t.stateOf .idle ≠ some .active ∨
      ∃ p, t.table.get? .idle = some p ∧ slice ≤ p.activeTime) : after.Alone now := by
  obtain ⟨roused, hrouse, hpick⟩ := reschedule_eq_ok hpass
  obtain ⟨hmoves, hrecorded⟩ := moves_rouse hsound.table hrouse
  have hsoundRoused := Moves.keeps_sound hmoves hsound
  have hasideRoused := Moves.aside hmoves haside
  rcases pick_eq_ok hsoundRoused.table hpick with
    ⟨rfl, hcurrent⟩ | ⟨hnobody, p, rest, _, hhead, hrewrite⟩
  · -- idle kept the processor, so it was active and had time left
    rcases hpicked with hstate | ⟨p, hget, hused⟩
    · exact absurd (hrecorded .idle hidle).1 hstate
    · exact absurd (activeTime_lt_of_rouse hrouse hidle hget) (UInt64.not_lt.2 hused)
  · obtain hnext := Option.some.inj (hrewrite.current.symm.trans hidle)
    rw [hnext] at hhead hrewrite
    rcases hhead with hqueue | ⟨hqueue, hrest, _⟩
    · exact absurd (hqueue ▸ List.mem_cons_self) hasideRoused.queue
    refine ⟨hrewrite.queue.trans hrest, fun pid q hother hget => ?_⟩
    rw [hrewrite.get?, if_neg hother] at hget
    exact blocked_of_rouse hsoundRoused hrouse hnobody hqueue hother hget

end Timeshare.Tasks
