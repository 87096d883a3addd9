import Timeshare.Proofs.Tasks.Pass

/-!
# How processes change between traps

Apart from saving registers and charging a tick, the kernel changes a process in
few ways: its state, its wake-up tick and its destination are set, its time slice
may start anew and a result may be put into its registers.  New processes get
pids that were never given out, so a process with an old pid was there before.
-/

namespace Timeshare

/-- What may become of a process while its registers are saved. -/
structure Process.Evolves (p p' : Process) : Prop where
  pid : p'.pid = p.pid
  name : p'.name = p.name
  startTime : p'.startTime = p.startTime
  cpuTime : p'.cpuTime = p.cpuTime
  /-- The time slice goes on or starts anew. -/
  activeTime : p'.activeTime = p.activeTime ∨ p'.activeTime = 0
  /-- A call may have been answered. -/
  context : p'.context = p.context ∨ ∃ value, p'.context = p.context.withResult value

namespace Process.Evolves

variable {p p' p'' : Process}

theorem refl (p : Process) : p.Evolves p := ⟨rfl, rfl, rfl, rfl, .inl rfl, .inl rfl⟩

theorem trans (h : p.Evolves p') (h' : p'.Evolves p'') : p.Evolves p'' where
  pid := h'.pid.trans h.pid
  name := h'.name.trans h.name
  startTime := h'.startTime.trans h.startTime
  cpuTime := h'.cpuTime.trans h.cpuTime
  activeTime := by
    rcases h'.activeTime with hsame | hzero
    · rw [hsame]
      exact h.activeTime
    · exact .inr hzero
  context := by
    rcases h'.context with hsame' | ⟨value, hvalue⟩ <;> rcases h.context with hsame | ⟨old, hold⟩
    · exact .inl (hsame'.trans hsame)
    · exact .inr ⟨old, hsame'.trans hold⟩
    · exact .inr ⟨value, by rw [hvalue, hsame]⟩
    · exact .inr ⟨value, by rw [hvalue, hold]; rfl⟩

/-- What the result of a call and a running time slice do not change is kept. -/
theorem interruptible (h : p.Evolves p') : p'.context.interruptible = p.context.interruptible := by
  rcases h.context with hsame | ⟨value, hvalue⟩
  · rw [hsame]
  · rw [hvalue]
    rfl

theorem activeTime_le (h : p.Evolves p') : p'.activeTime.toNat ≤ p.activeTime.toNat := by
  rcases h.activeTime with hsame | hzero
  · rw [hsame]
  · rw [hzero]
    exact Nat.zero_le _

end Process.Evolves

namespace Tasks

variable {before middle after t : Tasks} {pid : Pid} {slot : Slot} {p p' : Process}
  {queue : List Pid} {current : Option Pid} {now : UInt64}

/-- A process as it is created. -/
def Born (pid : Pid) (p : Process) : Prop :=
  ∃ (slot : Slot) (entry now : UInt64) (name : String) (context : Frame),
    Frame.start entry slot.stackTop = .ok context ∧ p = newborn pid name now context

/-- Every process was there before or was created since. -/
structure Evolves (before after : Tasks) : Prop where
  nextPid : before.table.nextPid.toNat ≤ after.table.nextPid.toNat
  process : ∀ pid p', after.table.get? pid = some p' →
    (∃ p, before.table.get? pid = some p ∧ p.Evolves p') ∨
      (before.table.nextPid.toNat ≤ pid.number.toNat ∧ ∃ p, Born pid p ∧ p.Evolves p')
  /-- Idle is there for good. -/
  idle : (before.table.get? .idle).isSome → (after.table.get? .idle).isSome

theorem Evolves.refl (t : Tasks) : t.Evolves t :=
  ⟨Nat.le_refl _, fun _ p hget => .inl ⟨p, hget, .refl p⟩, id⟩

theorem Evolves.trans (h : before.Evolves middle) (h' : middle.Evolves after) :
    before.Evolves after := by
  refine ⟨h.nextPid.trans h'.nextPid, fun pid p'' hget => ?_, fun hidle => h'.idle (h.idle hidle)⟩
  rcases h'.process pid p'' hget with ⟨p', hget', hp'⟩ | ⟨hnew, hborn⟩
  · rcases h.process pid p' hget' with ⟨p, hget, hp⟩ | ⟨hnew, p, hborn, hp⟩
    · exact .inl ⟨p, hget, hp.trans hp'⟩
    · exact .inr ⟨hnew, p, hborn, hp.trans hp'⟩
  · exact .inr ⟨h.nextPid.trans hnew, hborn⟩

theorem Evolves.clearCurrent (h : before.Evolves after) :
    before.Evolves { after with sched := after.sched.clearCurrent } :=
  ⟨h.nextPid, h.process, h.idle⟩

/-- The same at one tick: whoever is created starts at `now`. -/
structure EvolvesAt (now : UInt64) (before after : Tasks) : Prop extends Evolves before after where
  started : ∀ pid p', after.table.get? pid = some p' →
    (∃ p, before.table.get? pid = some p ∧ p.Evolves p') ∨ p'.startTime = now

theorem EvolvesAt.refl (now : UInt64) (t : Tasks) : t.EvolvesAt now t :=
  ⟨.refl t, fun _ p hget => .inl ⟨p, hget, .refl p⟩⟩

theorem EvolvesAt.trans (h : before.EvolvesAt now middle) (h' : middle.EvolvesAt now after) :
    before.EvolvesAt now after := by
  refine ⟨h.toEvolves.trans h'.toEvolves, fun pid p'' hget => ?_⟩
  rcases h'.started pid p'' hget with ⟨p', hget', hp'⟩ | hstart
  · rcases h.started pid p' hget' with ⟨p, hbefore, hp⟩ | hstart
    · exact .inl ⟨p, hbefore, hp.trans hp'⟩
    · exact .inr (hp'.startTime.trans hstart)
  · exact .inr hstart

theorem EvolvesAt.clearCurrent (h : before.EvolvesAt now after) :
    before.EvolvesAt now { after with sched := after.sched.clearCurrent } :=
  ⟨h.toEvolves.clearCurrent, h.started⟩

/-- A rewrite keeps idle unless it removes idle. -/
theorem Rewrite.idle {p' : Option Process} (h : Rewrite before after pid p' queue current)
    (hp : p'.isSome ∨ pid ≠ .idle) (hidle : (before.table.get? .idle).isSome) :
    (after.table.get? .idle).isSome := by
  rw [h.get?]
  split
  · rename_i hself
    exact hp.resolve_right fun hne => hne hself.symm
  · exact hidle

theorem Rewrite.evolvesAt (h : Rewrite before after pid (some p') queue current)
    (hget : before.table.get? pid = some p) (hp : p.Evolves p') : before.EvolvesAt now after := by
  have hprocess (q : Pid) (q' : Process) (hq : after.table.get? q = some q') :
      ∃ p, before.table.get? q = some p ∧ p.Evolves q' := by
    rw [h.get?] at hq
    split at hq
    · rename_i hself
      injection hq with heq
      exact ⟨p, hself ▸ hget, heq ▸ hp⟩
    · exact ⟨q', hq, .refl q'⟩
  exact ⟨⟨h.nextPid, fun q q' hq => .inl (hprocess q q' hq), h.idle (.inl rfl)⟩,
    fun q q' hq => .inl (hprocess q q' hq)⟩

/-! ## Pids are not used again -/

/-- A process with an old pid was there before, and idle still is. -/
structure Continues (before after : Tasks) : Prop where
  nextPid : before.table.nextPid.toNat ≤ after.table.nextPid.toNat
  live : ∀ pid, pid.number.toNat < before.table.nextPid.toNat →
    (after.table.get? pid).isSome → (before.table.get? pid).isSome
  idle : (before.table.get? .idle).isSome → (after.table.get? .idle).isSome

theorem Continues.refl (t : Tasks) : t.Continues t := ⟨Nat.le_refl _, fun _ _ h => h, id⟩

theorem Continues.trans (h : before.Continues middle) (h' : middle.Continues after) :
    before.Continues after :=
  ⟨h.nextPid.trans h'.nextPid, fun pid hold hlive =>
    h.live pid hold (h'.live pid (Nat.lt_of_lt_of_le hold h.nextPid) hlive),
    fun hidle => h'.idle (h.idle hidle)⟩

theorem Evolves.continues (h : before.Evolves after) : before.Continues after := by
  refine ⟨h.nextPid, fun pid hold hlive => ?_, h.idle⟩
  obtain ⟨p', hget⟩ := Option.isSome_iff_exists.1 hlive
  rcases h.process pid p' hget with ⟨p, hget, _⟩ | ⟨hnew, _⟩
  · rw [hget]
    rfl
  · omega

theorem continues_modify {f : Process → Process} (hsound : t.table.Sound)
    (hfind : t.table.find? pid = some slot) (hlive : (f (t.table.block slot)).isLive)
    (hpid : (f (t.table.block slot)).pid = (t.table.block slot).pid) :
    t.Continues (t.modify slot f) := by
  have hrewrite := rewrite_modify hsound hfind hlive hpid
  refine ⟨hrewrite.nextPid, fun q _ hq => ?_, hrewrite.idle (.inl rfl)⟩
  rw [hrewrite.get?] at hq
  split at hq
  · rename_i hself
    rw [hself, ProcessTable.get?_of_find? hfind]
    rfl
  · exact hq

/-! ## The operations -/

theorem evolvesAt_create {entry : UInt64} {name : String} (hsound : t.table.Sound)
    (hcreate : (t.create entry name now).outcome = .ok (pid, after)) : t.EvolvesAt now after := by
  obtain ⟨hnext, _, _, slot, context, hcontext, hrewrite⟩ := rewrite_create hsound hcreate
  refine ⟨⟨hrewrite.nextPid, fun q q' hq => ?_, hrewrite.idle (.inl rfl)⟩, fun q q' hq => ?_⟩
  · rw [hrewrite.get?] at hq
    split at hq
    · rename_i hself
      injection hq with heq
      refine .inr ⟨by rw [hself, hnext], q', ⟨slot, entry, now, name, context, hcontext, ?_⟩, .refl q'⟩
      rw [← heq, hself]
    · exact .inl ⟨q', hq, .refl q'⟩
  · rw [hrewrite.get?] at hq
    split at hq
    · injection hq with heq
      exact .inr (heq ▸ rfl)
    · exact .inl ⟨q', hq, .refl q'⟩

theorem evolvesAt_destroy {target : Option Pid} (hsound : t.table.Sound)
    (hdestroy : (t.destroy target).outcome = .ok after) : t.EvolvesAt now after := by
  obtain ⟨pid, _, hidle, _, hrewrite⟩ := rewrite_destroy hsound hdestroy
  have hprocess (q : Pid) (q' : Process) (hq : after.table.get? q = some q') :
      t.table.get? q = some q' := by
    rw [hrewrite.get?] at hq
    split at hq
    · contradiction
    · exact hq
  exact ⟨⟨hrewrite.nextPid, fun q q' hq => .inl ⟨q', hprocess q q' hq, .refl q'⟩,
    hrewrite.idle (.inr hidle)⟩, fun q q' hq => .inl ⟨q', hprocess q q' hq, .refl q'⟩⟩

theorem evolvesAt_modify {f : Process → Process} (hsound : t.table.Sound)
    (hfind : t.table.find? pid = some slot) (hlive : (f (t.table.block slot)).isLive)
    (hp : (t.table.block slot).Evolves (f (t.table.block slot))) :
    t.EvolvesAt now (t.modify slot f) :=
  (rewrite_modify hsound hfind hlive hp.pid).evolvesAt (ProcessTable.get?_of_find? hfind) hp

theorem evolvesAt_modify_enqueue {f : Process → Process} (hsound : t.table.Sound)
    (hfind : t.table.find? pid = some slot)
    (henqueue : (t.modify slot f).enqueue slot = .ok after)
    (hlive : (f (t.table.block slot)).isLive)
    (hp : (t.table.block slot).Evolves (f (t.table.block slot))) : t.EvolvesAt now after :=
  (rewrite_modify_enqueue hsound hfind hlive hp.pid henqueue).2.evolvesAt
    (ProcessTable.get?_of_find? hfind) (hp.trans ⟨rfl, rfl, rfl, rfl, .inl rfl, .inl rfl⟩)

theorem evolvesAt_enqueue (hsound : t.table.Sound) (hfind : t.table.find? pid = some slot)
    (henqueue : t.enqueue slot = .ok after) : t.EvolvesAt now after :=
  (rewrite_enqueue hsound hfind henqueue).2.evolvesAt (ProcessTable.get?_of_find? hfind)
    ⟨rfl, rfl, rfl, rfl, .inl rfl, .inl rfl⟩

theorem evolvesAt_park (hsound : t.table.Sound) (hpark : t.park pid = .ok after) :
    t.EvolvesAt now after := by
  obtain ⟨slot, hfind, hrewrite⟩ := rewrite_park hsound hpark
  exact hrewrite.evolvesAt (ProcessTable.get?_of_find? hfind)
    ⟨rfl, rfl, rfl, rfl, .inl rfl, .inl rfl⟩

theorem evolvesAt_modify_park {f : Process → Process} (hsound : t.table.Sound)
    (hfind : t.table.find? pid = some slot) (hpark : (t.modify slot f).park pid = .ok after)
    (hlive : (f (t.table.block slot)).isLive)
    (hp : (t.table.block slot).Evolves (f (t.table.block slot))) : t.EvolvesAt now after :=
  (rewrite_modify_park hsound hfind hlive hp.pid hpark).evolvesAt
    (ProcessTable.get?_of_find? hfind) (hp.trans ⟨rfl, rfl, rfl, rfl, .inl rfl, .inl rfl⟩)

theorem Moves.evolvesAt (hmoves : Moves now before after) : before.EvolvesAt now after := by
  induction hmoves with
  | refl => exact .refl _ _
  | tail _ hmove ih =>
      apply ih.trans
      cases hmove with
      | drop => exact (EvolvesAt.refl _ _).clearCurrent
      | expire _ hget _ _ hrewrite =>
          exact hrewrite.evolvesAt hget ⟨rfl, rfl, rfl, rfl, .inr rfl, .inl rfl⟩
      | wake hget _ _ _ hrewrite =>
          exact hrewrite.evolvesAt hget ⟨rfl, rfl, rfl, rfl, .inr rfl, .inl rfl⟩
      | pick _ hget _ hrewrite =>
          exact hrewrite.evolvesAt hget ⟨rfl, rfl, rfl, rfl, .inl rfl, .inl rfl⟩

end Tasks

end Timeshare
