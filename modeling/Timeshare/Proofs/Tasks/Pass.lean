import Mathlib.Logic.Relation
import Timeshare.Proofs.Tasks.Rewrite

/-!
# The moves of a scheduling pass

A scheduling pass is a chain of small moves: it forgets a recorded process that
is not active, takes the processor from a process whose slice is used up, wakes
sleepers one by one and gives a free processor away.  `Move` has one constructor
for each; whatever every move keeps, a pass keeps.
-/

namespace Timeshare.Tasks

variable {now slice : UInt64} {t after : Tasks} {pid : Pid} {slot : Slot} {p : Process}

/-- One move of a scheduling pass at tick `now`. -/
inductive Move (now : UInt64) : Tasks → Tasks → Prop
  /-- A recorded process that is not active is forgotten. -/
  | drop {t : Tasks} {pid : Pid} (hcurrent : t.current = some pid)
      (hstate : t.stateOf pid ≠ some .active) :
      Move now t { t with sched := t.sched.clearCurrent }
  /-- The active process loses the processor; idle is not queued. -/
  | expire {t after : Tasks} {pid : Pid} {p : Process} (hcurrent : t.current = some pid)
      (hget : t.table.get? pid = some p) (hstate : p.state = .active)
      (hfresh : pid ≠ .idle → pid ∉ t.queue)
      (hrewrite : Rewrite t after pid (some { p with activeTime := 0, state := .running })
        (if pid = .idle then t.queue else t.queue ++ [pid]) none) :
      Move now t after
  /-- A sleeper whose time has come is queued. -/
  | wake {t after : Tasks} {pid : Pid} {p : Process} (hget : t.table.get? pid = some p)
      (hstate : p.state = .sleeping) (hdue : p.wakeTime ≤ now) (hfresh : pid ∉ t.queue)
      (hrewrite : Rewrite t after pid
        (some { p with wakeTime := 0, activeTime := 0, state := .running })
        (t.queue ++ [pid]) t.current) :
      Move now t after
  /-- A free processor goes to the head of the queue, or to idle if there is none. -/
  | pick {t after : Tasks} {pid : Pid} {p : Process} {rest : List Pid}
      (hcurrent : t.current = none) (hget : t.table.get? pid = some p)
      (hhead : t.queue = pid :: rest ∨ t.queue = [] ∧ rest = [] ∧ pid = .idle)
      (hrewrite : Rewrite t after pid (some { p with state := .active }) rest (some pid)) :
      Move now t after

/-- A chain of moves. -/
abbrev Moves (now : UInt64) : Tasks → Tasks → Prop := Relation.ReflTransGen (Move now)

theorem isActive_iff : t.isActive pid = true ↔ t.stateOf pid = some .active := by
  rw [isActive, stateOf]
  cases t.table.get? pid <;> simp

theorem Move.sound (hsound : t.table.Sound) (hmove : Move now t after) : after.table.Sound := by
  cases hmove with
  | drop => exact hsound
  | expire _ _ _ _ hrewrite => exact hrewrite.table
  | wake _ _ _ _ hrewrite => exact hrewrite.table
  | pick _ _ _ hrewrite => exact hrewrite.table

/-! ## The parts of a pass -/

/-- After forgetting a stale process, the recorded process is active. -/
theorem moves_dropStale (now : UInt64) (t : Tasks) :
    Moves now t t.dropStale ∧ t.dropStale.table = t.table ∧
      ∀ pid, t.dropStale.current = some pid → t.dropStale.stateOf pid = some .active := by
  unfold dropStale
  split
  · rename_i hnone
    refine ⟨.refl, rfl, fun pid hcurrent => ?_⟩
    rw [hnone] at hcurrent
    contradiction
  · rename_i pid hcurrent
    split
    · rename_i hactive
      refine ⟨.refl, rfl, fun other hother => ?_⟩
      rw [hcurrent] at hother
      injection hother with heq
      rw [← heq]
      exact isActive_iff.1 hactive
    · rename_i hstale
      rw [isActive_iff] at hstale
      exact ⟨.single (.drop hcurrent hstale), rfl, fun _ h => by contradiction⟩

/-- The recorded process has some of its time slice left, or it becomes ready behind all
others; idle is not queued. -/
theorem expire_eq_ok (hexpire : t.expire slice = .ok after) :
    after = t ∧ (∀ pid p, t.current = some pid → t.table.get? pid = some p → p.activeTime < slice) ∨
      ∃ pid slot, t.current = some pid ∧ t.table.find? pid = some slot ∧
        slice ≤ (t.table.block slot).activeTime ∧ (pid ≠ .idle → pid ∉ t.queue) ∧
        after.table =
          (t.table.modify slot fun p => { p with activeTime := 0, state := .running }) ∧
        after.queue = (if pid = .idle then t.queue else t.queue ++ [pid]) ∧
        after.current = none := by
  unfold expire at hexpire
  split at hexpire
  · rename_i hnone
    injection hexpire with heq
    refine .inl ⟨heq.symm, fun pid p hcurrent => ?_⟩
    rw [hnone] at hcurrent
    contradiction
  rename_i pid hcurrent
  obtain ⟨slot, hexpect, hexpire⟩ := bind_eq_ok_iff.1 hexpire
  rw [ProcessTable.expect_eq_ok_iff] at hexpect
  split at hexpire
  · rename_i hleft
    injection hexpire with heq
    refine .inl ⟨heq.symm, fun other p hother hget => ?_⟩
    obtain rfl := Option.some.inj (hcurrent.symm.trans hother)
    rw [ProcessTable.get?_of_find? hexpect] at hget
    exact Option.some.inj hget ▸ hleft
  rename_i hused
  obtain ⟨_, hname⟩ := ProcessTable.find?_eq_some hexpect
  refine .inr ⟨pid, slot, hcurrent, hexpect, UInt64.not_lt.1 hused, ?_⟩
  dsimp only at hexpire
  split at hexpire
  · rename_i hidle
    replace hidle : pid = .idle := by simpa [Pid.isIdle] using hidle
    injection hexpire with heq
    subst heq
    refine ⟨fun hne => absurd hidle hne, ?_, ?_, rfl⟩
    · dsimp only
      rw [modify, modify, ProcessTable.modify_modify]
    · rw [if_pos hidle]
      rfl
  · rename_i hidle
    replace hidle : pid ≠ .idle := by simpa [Pid.isIdle] using hidle
    obtain ⟨queued, hqueued, hexpire⟩ := bind_eq_ok_iff.1 hexpire
    injection hexpire with heq
    subst heq
    obtain ⟨hfresh, hmodify, hqueue, _⟩ := enqueue_eq_ok hqueued
    have hself : ((t.modify slot fun p => { p with activeTime := 0 }).table.block slot).pid = pid := by
      rw [modify, ProcessTable.block_modify_self]
      exact hname
    rw [hself] at hfresh hqueue
    refine ⟨fun _ => hfresh, ?_, ?_, rfl⟩
    · rw [hmodify, modify, ProcessTable.modify_modify]
    · rw [if_neg hidle]
      exact hqueue

theorem moves_expire (hsound : t.table.Sound)
    (hactive : ∀ pid, t.current = some pid → t.stateOf pid = some .active)
    (hexpire : t.expire slice = .ok after) :
    Moves now t after ∧ (after = t ∨ after.current = none) := by
  rcases expire_eq_ok hexpire with
    ⟨rfl, _⟩ | ⟨pid, slot, hcurrent, hfind, _, hfresh, hmodify, hqueue, hnone⟩
  · exact ⟨.refl, .inl rfl⟩
  have hget := ProcessTable.get?_of_find? hfind
  have hstate : (t.table.block slot).state = .active := by
    have hstateOf := hactive pid hcurrent
    rw [stateOf_of_get? hget] at hstateOf
    exact Option.some.inj hstateOf
  have hrewrite := rewrite_of_modify (f := fun p => { p with activeTime := 0, state := .running })
    hsound hfind rfl rfl hmodify hqueue hnone
  exact ⟨.single (.expire hcurrent hget hstate hfresh hrewrite), .inr hnone⟩

theorem Moves.sound (hsound : t.table.Sound) (hmoves : Moves now t after) :
    after.table.Sound := by
  induction hmoves with
  | refl => exact hsound
  | tail _ hmove ih => exact hmove.sound ih

/-- The process at the place sleeps, and its time has come. -/
def IsDue (t : Tasks) (now : UInt64) (slot : Slot) : Prop :=
  (t.table.block slot).state = .sleeping ∧ (t.table.block slot).wakeTime ≤ now

instance (t : Tasks) (now : UInt64) : DecidablePred (t.IsDue now) :=
  fun _ => inferInstanceAs (Decidable (_ ∧ _))

/-- A sleeper whose time has come is queued behind all others. -/
theorem wakeAt_eq_ok (hwake : (wakeAt now t slot).outcome = .ok after) :
    after = t ∧ ¬ t.IsDue now slot ∨
      t.IsDue now slot ∧ (t.table.block slot).pid ∉ t.queue ∧
        after.table =
          (t.table.modify slot fun p =>
            { p with wakeTime := 0, activeTime := 0, state := .running }) ∧
        after.queue = t.queue ++ [(t.table.block slot).pid] ∧ after.current = t.current := by
  unfold wakeAt at hwake
  dsimp only at hwake
  split at hwake
  · rename_i hdue
    obtain ⟨_, _, hwake⟩ := Run.outcome_bind_eq_ok_iff.1 hwake
    obtain ⟨hfresh, hmodify, hqueue, hcurrent⟩ := enqueue_eq_ok hwake
    rw [modify, ProcessTable.block_modify_self] at hfresh hqueue
    refine .inr ⟨hdue, hfresh, ?_, hqueue, hcurrent⟩
    rw [hmodify, modify, ProcessTable.modify_modify]
  · rename_i hdue
    injection hwake with heq
    exact .inl ⟨heq.symm, hdue⟩

theorem moves_wakeAt (hsound : t.table.Sound) (hwake : (wakeAt now t slot).outcome = .ok after) :
    Moves now t after ∧ after.current = t.current ∧
      ∀ pid, t.stateOf pid = some .active → after.stateOf pid = some .active := by
  rcases wakeAt_eq_ok hwake with ⟨rfl, _⟩ | ⟨hdue, hfresh, hmodify, hqueue, hcurrent⟩
  · exact ⟨.refl, rfl, fun _ hactive => hactive⟩
  have hlive : (t.table.block slot).isLive = true := by rw [Process.isLive, hdue.1]; rfl
  have hfind := hsound.distinct.find?_block hlive
  have hget := ProcessTable.get?_of_find? hfind
  have hrewrite := rewrite_of_modify
    (f := fun p => { p with wakeTime := 0, activeTime := 0, state := .running })
    hsound hfind rfl rfl hmodify hqueue hcurrent
  refine ⟨.single (.wake hget hdue.1 hdue.2 hfresh hrewrite), hcurrent, fun pid hactive => ?_⟩
  -- a sleeper is not active, so the active process is another one
  have hother : pid ≠ (t.table.block slot).pid := by
    rintro rfl
    rw [stateOf_of_get? hget, hdue.1] at hactive
    contradiction
  rwa [hrewrite.stateOf, if_neg hother]

/-- Waking goes through the places in table order and leaves the active process
alone. -/
theorem moves_wake (slots : List Slot) (hsound : t.table.Sound)
    (hwake : (slots.foldlM (wakeAt now) t).outcome = .ok after) :
    Moves now t after ∧ after.current = t.current ∧
      ∀ pid, t.stateOf pid = some .active → after.stateOf pid = some .active := by
  induction slots generalizing t with
  | nil =>
      injection hwake with heq
      subst heq
      exact ⟨.refl, rfl, fun _ hactive => hactive⟩
  | cons slot rest ih =>
      rw [List.foldlM_cons] at hwake
      obtain ⟨woken, hfirst, hrest⟩ := Run.outcome_bind_eq_ok_iff.1 hwake
      obtain ⟨hmove, hcurrent, hactive⟩ := moves_wakeAt hsound hfirst
      obtain ⟨hmoves, hcurrent', hactive'⟩ := ih (hmove.sound hsound) hrest
      exact ⟨hmove.trans hmoves, hcurrent'.trans hcurrent,
        fun pid h => hactive' pid (hactive pid h)⟩

/-- A process that has the processor keeps it; a free processor goes to the head of the
queue, or to idle if there is none. -/
theorem pick_eq_ok (hsound : t.table.Sound) (hpick : t.pick = .ok (pid, after)) :
    after = t ∧ t.current = some pid ∨
      t.current = none ∧ ∃ p rest, t.table.get? pid = some p ∧
        (t.queue = pid :: rest ∨ t.queue = [] ∧ rest = [] ∧ pid = .idle) ∧
        Rewrite t after pid (some { p with state := .active }) rest (some pid) := by
  unfold pick at hpick
  split at hpick
  · rename_i pid' hcurrent
    injection hpick with hpick
    injection hpick with hpid hafter
    subst hpid hafter
    exact .inl ⟨rfl, hcurrent⟩
  · rename_i hcurrent
    have hhead := Scheduler.toList_pop_getD t.sched.runQueue
    dsimp only at hpick hhead
    generalize t.sched.runQueue.pop.getD (Pid.idle, t.sched.runQueue) = next at hpick hhead
    split at hpick
    · contradiction
    rename_i slot hfind
    injection hpick with hpick
    injection hpick with hpid hafter
    subst hpid hafter
    obtain ⟨htable, hget⟩ :=
      hsound.modify (f := fun p => { p with state := .active }) hfind rfl rfl
    exact .inr ⟨hcurrent, t.table.block slot, next.2.toList, ProcessTable.get?_of_find? hfind,
      hhead, htable, hget, rfl, rfl, Nat.le_refl _⟩

theorem moves_pick (hsound : t.table.Sound)
    (hactive : ∀ pid, t.current = some pid → t.stateOf pid = some .active)
    (hpick : t.pick = .ok (pid, after)) :
    Moves now t after ∧ after.current = some pid ∧ after.stateOf pid = some .active := by
  rcases pick_eq_ok hsound hpick with ⟨rfl, hcurrent⟩ | ⟨hcurrent, p, rest, hget, hhead, hrewrite⟩
  · exact ⟨.refl, hcurrent, hactive pid hcurrent⟩
  · refine ⟨.single (.pick hcurrent hget hhead hrewrite), hrewrite.current, ?_⟩
    rw [hrewrite.stateOf, if_pos rfl]
    rfl

/-- The pass up to the choice: who must not keep the processor has lost it, and the
sleepers whose time has come are queued. -/
def rouse (t : Tasks) (now slice : UInt64) : Run Fault Tasks := do
  let t ← t.dropStale.expire slice
  t.wake now

/-- Up to the choice nobody gets the processor. -/
theorem moves_rouse (hsound : t.table.Sound) (hrouse : (t.rouse now slice).outcome = .ok after) :
    Moves now t after ∧ ∀ pid, after.current = some pid →
      t.stateOf pid = some .active ∧ after.stateOf pid = some .active := by
  obtain ⟨expired, hexpire, hwake⟩ := Run.outcome_bind_eq_ok_iff.1 hrouse
  rw [Run.outcome_lift] at hexpire
  obtain ⟨hdropped, htable, hactive⟩ := moves_dropStale now t
  obtain ⟨hexpired, hcurrent⟩ : Moves now t.dropStale expired ∧ _ :=
    moves_expire (htable ▸ hsound) hactive hexpire
  obtain ⟨hwoken, hsame, hkept⟩ := moves_wake Slot.all (hexpired.sound (htable ▸ hsound)) hwake
  refine ⟨(hdropped.trans hexpired).trans hwoken, fun pid hrecorded => ?_⟩
  rw [hsame] at hrecorded
  -- the recorded process was not expired, and the wake-ups do not touch it
  rcases hcurrent with rfl | hnone
  · refine ⟨?_, hkept pid (hactive pid hrecorded)⟩
    rw [stateOf, ← htable]
    exact hactive pid hrecorded
  · rw [hnone] at hrecorded
    contradiction

theorem reschedule_eq_ok {transition : Transition}
    (hpass : (t.reschedule now slice).outcome = .ok (transition, after)) :
    ∃ roused, (t.rouse now slice).outcome = .ok roused ∧
      roused.pick = .ok (transition.next, after) := by
  unfold reschedule at hpass
  dsimp only at hpass
  obtain ⟨expired, hexpire, hpass⟩ := Run.outcome_bind_eq_ok_iff.1 hpass
  obtain ⟨roused, hwake, hpass⟩ := Run.outcome_bind_eq_ok_iff.1 hpass
  obtain ⟨⟨next, picked⟩, hpick, hpass⟩ := Run.outcome_bind_eq_ok_iff.1 hpass
  rw [Run.outcome_lift] at hpick
  refine ⟨roused, Run.outcome_bind_eq_ok_iff.2 ⟨expired, hexpire, hwake⟩, ?_⟩
  split at hpass
  · injection hpass with hpass
    injection hpass with htransition hafter
    subst htransition hafter
    exact hpick
  · obtain ⟨_, _, hpass⟩ := Run.outcome_bind_eq_ok_iff.1 hpass
    injection hpass with hpass
    injection hpass with htransition hafter
    subst htransition hafter
    exact hpick

/-- A pass is a chain of moves that ends with an active process. -/
theorem moves_reschedule {transition : Transition} (hsound : t.table.Sound)
    (hpass : (t.reschedule now slice).outcome = .ok (transition, after)) :
    Moves now t after ∧ after.current = some transition.next ∧
      after.stateOf transition.next = some .active := by
  obtain ⟨roused, hrouse, hpick⟩ := reschedule_eq_ok hpass
  obtain ⟨hroused, hactive⟩ := moves_rouse hsound hrouse
  obtain ⟨hpicked, hnext⟩ : Moves now roused after ∧ _ :=
    moves_pick (hroused.sound hsound) (fun pid h => (hactive pid h).2) hpick
  exact ⟨hroused.trans hpicked, hnext⟩

end Timeshare.Tasks
