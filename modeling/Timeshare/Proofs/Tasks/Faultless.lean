import Timeshare.Proofs.Tasks.Evolves
import Timeshare.Proofs.Tasks.Sound

/-!
# Operations on tasks that cannot fault

On sound tasks a process that is not ready can be queued, a live one can be
parked and destroyed, and a process can be created as long as there are pids.  If
idle lives, a scheduling pass always finds somebody to run.
-/

namespace Timeshare.Tasks

variable {t after : Tasks} {pid : Pid} {slot : Slot} {entry now slice : UInt64}

theorem find?_of_stateOf {state : ProcessState} (hstate : t.stateOf pid = some state) :
    ∃ slot, t.table.find? pid = some slot ∧ (t.table.block slot).state = state := by
  obtain ⟨p, hget, hp⟩ := Option.map_eq_some_iff.1 hstate
  obtain ⟨slot, hfind, hblock, _⟩ := ProcessTable.get?_eq_some hget
  exact ⟨slot, hfind, by rw [hblock, hp]⟩

theorem find?_of_isSome (hlive : (t.table.get? pid).isSome) :
    ∃ slot, t.table.find? pid = some slot := by
  obtain ⟨p, hget⟩ := Option.isSome_iff_exists.1 hlive
  obtain ⟨slot, hfind, _⟩ := ProcessTable.get?_eq_some hget
  exact ⟨slot, hfind⟩

theorem find?_ne_none (hlive : (t.table.get? pid).isSome) : t.table.find? pid ≠ none := by
  obtain ⟨slot, hfind⟩ := find?_of_isSome hlive
  rw [hfind]
  exact Option.some_ne_none slot

/-- A process that is not ready can be changed and queued. -/
theorem Sound.exists_modify_enqueue {f : Process → Process} (hsound : t.Sound)
    (hfind : t.table.find? pid = some slot) (hstate : t.stateOf pid ≠ some .running)
    (hlive : (f (t.table.block slot)).isLive)
    (hpid : (f (t.table.block slot)).pid = (t.table.block slot).pid) :
    ∃ after, (t.modify slot f).enqueue slot = .ok after :=
  exists_enqueue (ProcessTable.find?_modify_self hfind hlive hpid) (hsound.not_mem_queue hstate)
    hsound.length_queue_lt

theorem Sound.exists_enqueue (hsound : t.Sound) (hfind : t.table.find? pid = some slot)
    (hstate : t.stateOf pid ≠ some .running) : ∃ after, t.enqueue slot = .ok after :=
  Tasks.exists_enqueue hfind (hsound.not_mem_queue hstate) hsound.length_queue_lt

/-! ## Creating and destroying -/

theorem exists_start (entry : UInt64) (slot : Slot) :
    ∃ context, Frame.start entry slot.stackTop = .ok context := by
  have hroom : ∀ slot : Slot, 8 ≤ slot.stackTop := by decide
  exact ⟨_, by rw [Frame.start, Word.sub, if_pos (hroom slot)]; rfl⟩

/-- While there is another pid, creating a process does not fault. -/
theorem Sound.faultless_create {name : String} {nextPid : UInt32} (hsound : t.Sound)
    (hentry : entry ≠ 0) (hnext : Word.next32 t.table.nextPid = .ok nextPid) :
    (t.create entry name now).Faultless := by
  unfold create
  rw [if_neg hentry]
  split
  · exact .bind (.of_ok rfl) fun _ _ => .of_refused rfl
  rename_i slot free hpop
  refine .bind (.lift ⟨_, hnext⟩) fun _ _ => .bind (.lift (exists_start entry slot)) fun context _ =>
    .bind (.lift ?_) fun _ _ => .bind (.of_ok rfl) fun _ _ => .of_ok rfl
  -- queued processes live, and nobody lives under the next pid
  have hfresh : (⟨t.table.nextPid⟩ : Pid) ∉ t.queue := by
    apply hsound.not_mem_queue
    rw [stateOf, hsound.table.get?_nextPid]
    simp
  obtain ⟨sched, hsched⟩ := Scheduler.exists_enqueue hfresh hsound.length_queue_lt
  rw [enqueue, ProcessTable.block_fill, hsched]
  exact ⟨_, rfl⟩

/-- Creating a process faults only when the pids are used up. -/
theorem Sound.create_fault {name : String} {fault : Fault} (hsound : t.Sound)
    (hentry : entry ≠ 0)
    (hcreate : (t.create entry name now).outcome = .error (.fault fault)) :
    fault = .arithmetic .add ∧ t.table.nextPid.toNat + 1 = Word.halfRange := by
  cases hnext : Word.next32 t.table.nextPid with
  | ok nextPid => exact absurd hcreate (hsound.faultless_create hentry hnext fault)
  | error other =>
      unfold create at hcreate
      rw [if_neg hentry] at hcreate
      split at hcreate
      · exact absurd hcreate (Run.Faultless.bind (.of_ok rfl) (fun _ _ => .of_refused rfl) fault)
      dsimp only at hcreate
      rw [hnext] at hcreate
      injection hcreate with hstop
      injection hstop with hfault
      subst hfault
      unfold Word.next32 at hnext
      split at hnext
      · contradiction
      · rename_i hfull
        injection hnext with hother
        have hlt := t.table.nextPid.toNat_lt
        refine ⟨hother.symm, ?_⟩
        simp only [Word.halfRange] at hfull ⊢
        omega

/-- A process that lives and is not idle can be destroyed. -/
theorem Sound.exists_destroy (hsound : t.Sound) (hidle : pid ≠ .idle)
    (hfind : t.table.find? pid = some slot) :
    ∃ after, (t.destroy (some pid)).outcome = .ok after := by
  have hother : ¬ pid.isIdle := by simpa [Pid.isIdle] using hidle
  unfold destroy
  dsimp only
  rw [if_neg hother, hfind]
  obtain ⟨sched, hremove, _⟩ := t.sched.exists_remove pid
  have hroom : t.table.free.toList.length < queueCapacity :=
    Nat.lt_of_le_of_lt hsound.table.length_free_le (by decide)
  obtain ⟨free, hpush, _⟩ := Ring.exists_push hroom slot
  refine Run.exists_bind ⟨sched, Run.outcome_lift_eq_ok_iff.2 hremove⟩ fun _ _ =>
    Run.exists_bind ⟨(), rfl⟩ fun _ _ => ?_
  rw [hpush]
  exact ⟨_, rfl⟩

/-- Destroying a process that lives does not fault. -/
theorem Sound.faultless_destroy {target : Option Pid} (hsound : t.Sound)
    (hlive : ∀ pid, target = some pid → pid ≠ .idle → (t.table.get? pid).isSome) :
    (t.destroy target).Faultless := by
  cases target with
  | none => exact .bind (.of_ok rfl) fun _ _ => .of_refused rfl
  | some pid =>
      by_cases hidle : pid = .idle
      · subst hidle
        exact .of_refused rfl
      · obtain ⟨slot, hfind⟩ := find?_of_isSome (hlive pid rfl hidle)
        obtain ⟨after, hdestroy⟩ := hsound.exists_destroy hidle hfind
        exact .of_ok hdestroy

/-! ## The scheduling pass -/

/-- An active process that has used up its time can be queued. -/
theorem Sound.exists_expire (hsound : t.Sound)
    (hactive : ∀ pid, t.current = some pid → t.stateOf pid = some .active) :
    ∃ after, t.expire slice = .ok after := by
  unfold expire
  split
  · exact ⟨_, rfl⟩
  rename_i pid hcurrent
  have hstate := hactive pid hcurrent
  obtain ⟨slot, hfind, _⟩ := find?_of_stateOf hstate
  rw [ProcessTable.expect_eq_ok_iff.2 hfind]
  dsimp only [bind, Except.bind]
  split
  · exact ⟨_, rfl⟩
  split
  · exact ⟨_, rfl⟩
  obtain ⟨after, henqueue⟩ := hsound.exists_modify_enqueue
    (f := fun p => { p with activeTime := 0 }) hfind (by rw [hstate]; simp)
    (ProcessTable.find?_eq_some hfind).1 rfl
  rw [henqueue]
  exact ⟨_, rfl⟩

/-- A sleeper can be queued. -/
theorem Sound.exists_wakeAt (hsound : t.Sound) (slot : Slot) :
    ∃ after, (wakeAt now t slot).outcome = .ok after := by
  unfold wakeAt
  dsimp only
  split
  · rename_i hdue
    have hlive : (t.table.block slot).isLive = true := by rw [Process.isLive, hdue.1]; rfl
    have hfind := hsound.table.distinct.find?_block hlive
    obtain ⟨after, henqueue⟩ := hsound.exists_modify_enqueue
      (f := fun p => { p with wakeTime := 0, activeTime := 0 }) hfind
      (by rw [stateOf, ProcessTable.get?_of_find? hfind, Option.map_some, hdue.1]; simp) hlive rfl
    exact Run.exists_bind ⟨_, rfl⟩ fun _ _ => ⟨after, henqueue⟩
  · exact ⟨t, rfl⟩

theorem Sound.exists_wake (hsound : t.Sound) (slots : List Slot) :
    ∃ after, (slots.foldlM (wakeAt now) t).outcome = .ok after := by
  induction slots generalizing t with
  | nil => exact ⟨t, rfl⟩
  | cons slot rest ih =>
      rw [List.foldlM_cons]
      refine Run.exists_bind (hsound.exists_wakeAt slot) fun woken hwoken => ih ?_
      exact (moves_wakeAt hsound.table hwoken).1.keeps_sound hsound

/-- The head of the queue lives, and so does idle. -/
theorem Sound.exists_pick (hsound : t.Sound) (hidle : (t.table.get? .idle).isSome) :
    ∃ picked, t.pick = .ok picked := by
  unfold pick
  split
  · exact ⟨_, rfl⟩
  have hhead := Scheduler.toList_pop_getD t.sched.runQueue
  dsimp only at hhead ⊢
  generalize t.sched.runQueue.pop.getD (Pid.idle, t.sched.runQueue) = next at hhead ⊢
  have hlive : ∃ slot, t.table.find? next.1 = some slot := by
    rcases hhead with hqueue | ⟨_, _, hnext⟩
    · have hmem : next.1 ∈ t.queue := by
        rw [queue, Scheduler.queue, hqueue]
        exact List.mem_cons_self
      obtain ⟨slot, hfind, _⟩ := find?_of_stateOf (hsound.queued next.1 hmem)
      exact ⟨slot, hfind⟩
    · rw [hnext]
      exact find?_of_isSome hidle
  obtain ⟨slot, hfind⟩ := hlive
  rw [hfind]
  exact ⟨_, rfl⟩

/-- A pass always finds a process to run. -/
theorem Sound.exists_reschedule (hsound : t.Sound) (hidle : (t.table.get? .idle).isSome) :
    ∃ result, (t.reschedule now slice).outcome = .ok result := by
  obtain ⟨hdropped, htable, hactive⟩ := moves_dropStale now t
  have hsoundDropped := hdropped.keeps_sound hsound
  unfold reschedule
  refine Run.exists_bind (hsoundDropped.exists_expire hactive) fun expired hexpire => ?_
  rw [Run.outcome_lift] at hexpire
  obtain ⟨hexpired, _⟩ : Moves now t.dropStale expired ∧ _ :=
    moves_expire hsoundDropped.table hactive hexpire
  have hsoundExpired := hexpired.keeps_sound hsoundDropped
  refine Run.exists_bind (hsoundExpired.exists_wake Slot.all) fun woken hwake => ?_
  have hwoken := (moves_wake Slot.all hsoundExpired.table hwake).1
  have hmoves : Moves now t woken := (hdropped.trans hexpired).trans hwoken
  have hlive := hmoves.evolvesAt.idle hidle
  apply Run.exists_bind ((hwoken.keeps_sound hsoundExpired).exists_pick hlive)
  rintro ⟨next, picked⟩ _
  dsimp only
  split
  · exact ⟨_, rfl⟩
  · exact Run.exists_bind ⟨_, rfl⟩ fun _ _ => ⟨_, rfl⟩

end Timeshare.Tasks
