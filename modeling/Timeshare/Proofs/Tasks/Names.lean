import Timeshare.Proofs.Tasks.Pass

/-!
# Names stay

Nothing that happens to the tasks renames a process.  Whoever is new has a pid that was never
given out and a name that was made from text, and whoever has the processor lives.
-/

namespace Timeshare.Tasks

variable {before middle after t : Tasks} {pid : Pid} {slot : Slot} {now : UInt64}
  {p : Option Process} {queue : List Pid} {current : Option Pid}

/-- The process was there before under the same name, or it is new and its name was made from
text. -/
def NamedAs (t : Tasks) (pid : Pid) (name : ProcessName) : Prop :=
  (∃ p, t.table.get? pid = some p ∧ p.name = name) ∨
    t.table.nextPid.toNat ≤ pid.number.toNat ∧ ∃ text, name = .ofText text

/-- Processes keep their names, and the processor is not given to anybody who does not live. -/
structure KeepsNames (before after : Tasks) : Prop where
  table : after.table.Sound
  nextPid : before.table.nextPid.toNat ≤ after.table.nextPid.toNat
  named : ∀ pid p, after.table.get? pid = some p → before.NamedAs pid p.name
  current : (∀ pid, before.current = some pid → (before.table.get? pid).isSome) →
    ∀ pid, after.current = some pid → (after.table.get? pid).isSome

namespace KeepsNames

theorem refl (hsound : t.table.Sound) : t.KeepsNames t :=
  ⟨hsound, Nat.le_refl _, fun _ p hget => .inl ⟨p, hget, rfl⟩, id⟩

theorem trans (h : before.KeepsNames middle) (h' : middle.KeepsNames after) :
    before.KeepsNames after := by
  refine ⟨h'.table, h.nextPid.trans h'.nextPid, fun pid p hget => ?_, h'.current ∘ h.current⟩
  rcases h'.named pid p hget with ⟨q, hget', hname⟩ | ⟨hnew, htext⟩
  · exact hname ▸ h.named pid q hget'
  · exact .inr ⟨h.nextPid.trans hnew, htext⟩

theorem clearCurrent (h : before.KeepsNames after) :
    before.KeepsNames { after with sched := after.sched.clearCurrent } :=
  ⟨h.table, h.nextPid, h.named, fun _ _ hnobody => by contradiction⟩

/-- Who lives goes by its name as long as it lives. -/
theorem name (h : before.KeepsNames after) {p p' : Process}
    (hissued : pid.number.toNat < before.table.nextPid.toNat)
    (hget : before.table.get? pid = some p) (hget' : after.table.get? pid = some p') :
    p'.name = p.name := by
  rcases h.named pid p' hget' with ⟨q, hq, hname⟩ | ⟨hnew, _⟩
  · obtain rfl := Option.some.inj (hget.symm.trans hq)
    exact hname.symm
  · omega

end KeepsNames

/-- A rewrite keeps names if the process is not renamed and does not leave the processor to
itself. -/
theorem Rewrite.keepsNames (h : Rewrite before after pid p queue current)
    (hname : ∀ p', p = some p' → before.NamedAs pid p'.name)
    (hself : current = some pid → p.isSome)
    (hothers : ∀ q, q ≠ pid → current = some q → before.current = some q) :
    before.KeepsNames after := by
  refine ⟨h.table, h.nextPid, fun q q' hq => ?_, fun hlives q hcurrent => ?_⟩
  · rw [h.get?] at hq
    split at hq
    · rename_i heq
      exact heq ▸ hname q' hq
    · exact .inl ⟨q', hq, rfl⟩
  · rw [h.current] at hcurrent
    rw [h.get?]
    split
    · rename_i heq
      exact hself (heq ▸ hcurrent)
    · rename_i hother
      exact hlives q (hothers q hother hcurrent)

/-- Whoever is there may change in everything but its name. -/
theorem Rewrite.keepsNames_of_get? {b p' : Process}
    (h : Rewrite before after pid (some p') queue current)
    (hget : before.table.get? pid = some b) (hname : p'.name = b.name)
    (hothers : ∀ q, q ≠ pid → current = some q → before.current = some q) :
    before.KeepsNames after := by
  refine h.keepsNames (fun q hq => .inl ⟨b, hget, ?_⟩) (fun _ => rfl) hothers
  rw [← Option.some.inj hq, hname]

/-! ## The operations -/

theorem keepsNames_create {entry : UInt64} {name : String} (hsound : t.table.Sound)
    (hcreate : (t.create entry name now).outcome = .ok (pid, after)) : t.KeepsNames after := by
  obtain ⟨hnext, _, _, _, _, _, hrewrite⟩ := rewrite_create hsound hcreate
  refine hrewrite.keepsNames (fun p hp => .inr ⟨by rw [hnext], name, ?_⟩) (fun _ => rfl)
    fun _ _ hcurrent => hcurrent
  rw [← Option.some.inj hp]
  rfl

/-- Whoever was created is called by the longest start of the text that fits. -/
theorem name_of_create {entry : UInt64} {name : String} (hsound : t.table.Sound)
    (hcreate : (t.create entry name now).outcome = .ok (pid, after)) :
    ∃ p, after.table.get? pid = some p ∧ p.name = .ofText name := by
  obtain ⟨_, _, _, _, _, _, hrewrite⟩ := rewrite_create hsound hcreate
  exact ⟨_, (hrewrite.get? pid).trans (if_pos rfl), rfl⟩

/-- Whether a process can be created does not depend on its name. -/
theorem exists_create_of_create {entry : UInt64} {name : String}
    (hcreate : (t.create entry name now).outcome = .ok (pid, after)) (other : String) :
    ∃ after', (t.create entry other now).outcome = .ok (pid, after') := by
  have hentry : entry ≠ 0 := by
    rintro rfl
    contradiction
  obtain ⟨slot, free, nextPid, context, hpop, hnext, hcontext, rfl, hfresh, _, hqueue, _⟩ :=
    create_eq_ok hcreate
  -- the run queue had room for the pid that was queued
  have hroom : t.queue.length < queueCapacity := by
    have hlength := Ring.length_toList_le after.sched.runQueue
    rw [show after.sched.runQueue.toList = t.queue ++ [⟨t.table.nextPid⟩] from hqueue,
      List.length_append] at hlength
    exact hlength
  obtain ⟨sched, henqueue⟩ := Scheduler.exists_enqueue hfresh hroom
  unfold create
  rw [if_neg hentry, hpop]
  dsimp only
  rw [hnext, Run.outcome_bind_of_ok (Run.outcome_lift_ok nextPid), hcontext,
    Run.outcome_bind_of_ok (Run.outcome_lift_ok context), enqueue, ProcessTable.block_fill,
    henqueue]
  exact ⟨_, rfl⟩

theorem keepsNames_destroy {target : Option Pid} (hsound : t.table.Sound)
    (hdestroy : (t.destroy target).outcome = .ok after) : t.KeepsNames after := by
  obtain ⟨pid, _, _, _, hrewrite⟩ := rewrite_destroy hsound hdestroy
  refine hrewrite.keepsNames (fun _ hp => by contradiction) (fun hcurrent => ?_)
    fun q _ hcurrent => ?_
  · split at hcurrent
    · contradiction
    · rename_i hother
      exact absurd hcurrent hother
  · split at hcurrent
    · contradiction
    · exact hcurrent

theorem keepsNames_modify {f : Process → Process} (hsound : t.table.Sound)
    (hfind : t.table.find? pid = some slot) (hlive : (f (t.table.block slot)).isLive)
    (hpid : (f (t.table.block slot)).pid = (t.table.block slot).pid)
    (hname : (f (t.table.block slot)).name = (t.table.block slot).name) :
    t.KeepsNames (t.modify slot f) :=
  (rewrite_modify hsound hfind hlive hpid).keepsNames_of_get? (ProcessTable.get?_of_find? hfind)
    hname fun _ _ hcurrent => hcurrent

theorem keepsNames_modify_enqueue {f : Process → Process} (hsound : t.table.Sound)
    (hfind : t.table.find? pid = some slot)
    (henqueue : (t.modify slot f).enqueue slot = .ok after)
    (hlive : (f (t.table.block slot)).isLive)
    (hpid : (f (t.table.block slot)).pid = (t.table.block slot).pid)
    (hname : (f (t.table.block slot)).name = (t.table.block slot).name) : t.KeepsNames after :=
  (rewrite_modify_enqueue hsound hfind hlive hpid henqueue).2.keepsNames_of_get?
    (ProcessTable.get?_of_find? hfind) hname fun _ _ hcurrent => hcurrent

theorem keepsNames_enqueue (hsound : t.table.Sound) (hfind : t.table.find? pid = some slot)
    (henqueue : t.enqueue slot = .ok after) : t.KeepsNames after :=
  (rewrite_enqueue hsound hfind henqueue).2.keepsNames_of_get?
    (ProcessTable.get?_of_find? hfind) rfl fun _ _ hcurrent => hcurrent

theorem keepsNames_park (hsound : t.table.Sound) (hpark : t.park pid = .ok after) :
    t.KeepsNames after := by
  obtain ⟨slot, hfind, hrewrite⟩ := rewrite_park hsound hpark
  refine hrewrite.keepsNames_of_get? (ProcessTable.get?_of_find? hfind) rfl fun q _ hcurrent => ?_
  split at hcurrent
  · contradiction
  · exact hcurrent

theorem keepsNames_modify_park {f : Process → Process} (hsound : t.table.Sound)
    (hfind : t.table.find? pid = some slot) (hpark : (t.modify slot f).park pid = .ok after)
    (hlive : (f (t.table.block slot)).isLive)
    (hpid : (f (t.table.block slot)).pid = (t.table.block slot).pid)
    (hname : (f (t.table.block slot)).name = (t.table.block slot).name) : t.KeepsNames after := by
  have hmodified := keepsNames_modify hsound hfind hlive hpid hname
  exact hmodified.trans (keepsNames_park hmodified.table hpark)

theorem Moves.keepsNames (hmoves : Moves now before after) (hsound : before.table.Sound) :
    before.KeepsNames after := by
  induction hmoves with
  | refl => exact .refl hsound
  | tail _ hmove ih =>
      apply ih.trans
      cases hmove with
      | drop => exact (KeepsNames.refl ih.table).clearCurrent
      | expire _ hget _ _ hrewrite =>
          exact hrewrite.keepsNames_of_get? hget rfl fun _ _ hnobody => by contradiction
      | wake hget _ _ _ hrewrite =>
          exact hrewrite.keepsNames_of_get? hget rfl fun _ _ hcurrent => hcurrent
      | pick _ hget _ hrewrite =>
          exact hrewrite.keepsNames_of_get? hget rfl fun _ hother hcurrent =>
            absurd (Option.some.inj hcurrent).symm hother

theorem keepsNames_reschedule {slice : UInt64} {transition : Transition} (hsound : t.table.Sound)
    (hpass : (t.reschedule now slice).outcome = .ok (transition, after)) : t.KeepsNames after :=
  (moves_reschedule hsound hpass).1.keepsNames hsound

end Timeshare.Tasks
