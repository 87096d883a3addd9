import Mathlib.Data.List.Basic
import Timeshare.Proofs.Dealings
import Timeshare.Proofs.Stepwise.Tasks
import Timeshare.Proofs.Tasks.Faultless
import Timeshare.Proofs.Tasks.Order

/-!
# Places of processes

Processes are created, scheduled, written to and destroyed.  Whatever the order, the queue of
free places holds the free places, each once, and these are cleared, so that a new process
finds nothing of the one that had its place before.  A process is refused exactly when every
place is taken, and every process but idle can be destroyed, on the processor or not.  Pids
only grow, so one that is gone stays gone.
-/

namespace Timeshare

/-! ## The free places of a table -/

namespace ProcessTable

variable {table : ProcessTable} {slot : Slot} {p : Process}

/-- Free places are cleared. -/
def Cleared (table : ProcessTable) : Prop :=
  ∀ slot : Slot, (table.block slot).isLive = false → table.block slot = Process.vacant

theorem cleared_empty : empty.Cleared := by
  intro slot _
  simp [empty, block]

/-- What is put at a place is a process, or the place is cleared. -/
theorem Cleared.put (hcleared : table.Cleared) (hp : p.isLive = false → p = Process.vacant) :
    (table.put slot p).Cleared := by
  intro other hfree
  by_cases hslot : other = slot
  · rw [hslot, block_put_self] at hfree ⊢
    exact hp hfree
  · rw [block_put_of_ne table p hslot] at hfree ⊢
    exact hcleared other hfree

theorem Cleared.modify {f : Process → Process} (hcleared : table.Cleared)
    (hlive : (f (table.block slot)).isLive) : (table.modify slot f).Cleared :=
  hcleared.put fun hfree => absurd (hlive.symm.trans hfree) (by decide)

/-- A place is either taken or free. -/
theorem Sound.length_live (hsound : table.Sound) :
    table.live.length + table.free.toList.length = processCapacity := by
  have hfree : table.free.toList.Perm (Slot.all.filter fun slot => !(table.block slot).isLive) := by
    refine (List.perm_ext_iff_of_nodup hsound.free_nodup ((List.nodup_finRange _).filter _)).2 ?_
    intro slot
    rw [hsound.mem_free, List.mem_filter, Bool.not_eq_true']
    exact ⟨fun hfree => ⟨List.mem_finRange slot, hfree⟩, fun hmem => hmem.2⟩
  rw [hfree.length_eq, live, ← List.length_eq_length_filter_add, Slot.all, List.length_finRange]

theorem Sound.size_eq (hsound : table.Sound) : table.size = table.live.length := by
  have hlength := hsound.length_live
  rw [Ring.length_toList] at hlength
  rw [size]
  omega

theorem Sound.pop_eq_none_iff (hsound : table.Sound) :
    table.free.pop = none ↔ table.live.length = processCapacity := by
  have hlength := hsound.length_live
  rw [Ring.length_toList] at hlength
  rw [Ring.pop_eq_none_iff, Ring.isEmpty, beq_iff_eq]
  omega

end ProcessTable

namespace Tasks

variable {t after : Tasks} {pid : Pid} {slot : Slot} {entry now slice : UInt64} {name : String}

/-! ## Passes write to live processes -/

theorem cleared_expire (hcleared : t.table.Cleared) (hexpire : t.expire slice = .ok after) :
    after.table.Cleared := by
  rcases expire_eq_ok hexpire with ⟨rfl, _⟩ | ⟨_, _, _, _, _, _, hmodify, _⟩
  · exact hcleared
  · rw [hmodify]
    exact hcleared.modify rfl

theorem cleared_wake (slots : List Slot) (hcleared : t.table.Cleared)
    (hwake : (slots.foldlM (wakeAt now) t).outcome = .ok after) : after.table.Cleared := by
  induction slots generalizing t with
  | nil =>
      injection hwake with heq
      exact heq ▸ hcleared
  | cons slot rest ih =>
      rw [List.foldlM_cons] at hwake
      obtain ⟨woken, hfirst, hrest⟩ := Run.outcome_bind_eq_ok_iff.1 hwake
      refine ih ?_ hrest
      rcases wakeAt_eq_ok hfirst with ⟨rfl, _⟩ | ⟨_, _, hmodify, _⟩
      · exact hcleared
      · rw [hmodify]
        exact hcleared.modify rfl

theorem cleared_pick (hcleared : t.table.Cleared) (hpick : t.pick = .ok (pid, after)) :
    after.table.Cleared := by
  unfold pick at hpick
  split at hpick
  · injection hpick with hpick
    injection hpick with _ hafter
    exact hafter ▸ hcleared
  · dsimp only at hpick
    split at hpick
    · contradiction
    · injection hpick with hpick
      injection hpick with _ hafter
      subst hafter
      exact hcleared.modify rfl

theorem cleared_reschedule {transition : Transition} (hcleared : t.table.Cleared)
    (hpass : (t.reschedule now slice).outcome = .ok (transition, after)) :
    after.table.Cleared := by
  obtain ⟨roused, hrouse, hpick⟩ := reschedule_eq_ok hpass
  obtain ⟨expired, hexpire, hwake⟩ := Run.outcome_bind_eq_ok_iff.1 hrouse
  rw [Run.outcome_lift] at hexpire
  have hdropped : t.dropStale.table.Cleared := by
    rw [(moves_dropStale now t).2.1]
    exact hcleared
  exact cleared_pick (cleared_wake Slot.all (cleared_expire hdropped hexpire) hwake) hpick

/-! ## Requests -/

/-- The stack and the times that are written to a process. -/
structure Writing where
  stack : Stack
  startTime : UInt64
  cpuTime : UInt64
  activeTime : UInt64
  wakeTime : UInt64

/-- A process with another stack and other times. -/
def Writing.apply (written : Writing) (p : Process) : Process :=
  { p with
    stack := written.stack
    startTime := written.startTime
    cpuTime := written.cpuTime
    activeTime := written.activeTime
    wakeTime := written.wakeTime }

/-- What may be done to tasks. -/
inductive Request where
  | create (entry : UInt64) (name : String) (now : UInt64)
  | destroy (target : Option Pid)
  | pass (now slice : UInt64)
  | write (pid : Pid) (written : Writing)

/-- Requests to tasks; a process that is created answers with its pid.  The tasks are the table
that is asked, and no others play a part. -/
def desk : Desk Request (Option Pid) Tasks where
  empty := empty
  serve t request _ :=
    match request with
    | .create entry name now => do
        let (pid, t) ← t.create entry name now
        return (some pid, t, t)
    | .destroy target => do
        let t ← t.destroy target
        return (none, t, t)
    | .pass now slice => do
        let (_, t) ← Run.orFault (t.reschedule now slice)
        return (none, t, t)
    | .write pid written => do
        let t ← t.amend pid fun p => .ok (written.apply p)
        return (none, t, t)
  Admits _ _ := True

instance (log : Dealings Request (Option Pid)) (request : Request) :
    Decidable (desk.Admits log request) :=
  inferInstanceAs (Decidable True)

/-- The pids that were given out, the oldest first. -/
def created (log : Dealings Request (Option Pid)) : List Pid :=
  log.filterMap fun entry =>
    match entry with
    | (.create .., .ok pid) => pid
    | _ => none

/-- The processes that were destroyed. -/
def destroyed (log : Dealings Request (Option Pid)) : List Pid :=
  log.filterMap fun entry =>
    match entry with
    | (.destroy target, .ok _) => target
    | _ => none

/-! ## What requests keep -/

/-- What every request keeps. -/
structure Kept (log : Dealings Request (Option Pid)) (t : Tasks) : Prop where
  sound : t.Sound
  cleared : t.table.Cleared
  increasing : (created log).Pairwise fun earlier later => earlier.number < later.number
  issued : ∀ pid ∈ created log, pid.number.toNat < t.table.nextPid.toNat
  gone : ∀ pid ∈ destroyed log,
    pid.number.toNat < t.table.nextPid.toNat ∧ t.table.get? pid = none

variable {log : Dealings Request (Option Pid)}

theorem kept_empty : Kept [] empty where
  sound := sound_empty
  cleared := ProcessTable.cleared_empty
  increasing := .nil
  issued _ hmem := absurd hmem List.not_mem_nil
  gone _ hmem := absurd hmem List.not_mem_nil

/-- A request that keeps old pids unused may give out a new pid and end a process. -/
theorem Kept.extend {answered : Request × Except Refusal (Option Pid)} (hkept : Kept log t)
    (hsound : after.Sound) (hcleared : after.table.Cleared) (hcontinues : t.Continues after)
    (hcreated : ∀ pid ∈ created [answered],
      t.table.nextPid.toNat ≤ pid.number.toNat ∧ pid.number.toNat < after.table.nextPid.toNat)
    (hdestroyed : ∀ pid ∈ destroyed [answered],
      pid.number.toNat < after.table.nextPid.toNat ∧ after.table.get? pid = none) :
    Kept (log ++ [answered]) after where
  sound := hsound
  cleared := hcleared
  increasing := by
    have hone : (created [answered]).Pairwise fun earlier later => earlier.number < later.number := by
      unfold created
      rw [List.filterMap_cons]
      split
      · exact .nil
      · exact List.pairwise_singleton _ _
    rw [created, List.filterMap_append]
    refine List.pairwise_append.2 ⟨hkept.increasing, hone, fun earlier hold later hnew => ?_⟩
    rw [UInt32.lt_iff_toNat_lt]
    exact Nat.lt_of_lt_of_le (hkept.issued earlier hold) (hcreated later hnew).1
  issued pid hmem := by
    rw [created, List.filterMap_append] at hmem
    rcases List.mem_append.1 hmem with hold | hnew
    · exact Nat.lt_of_lt_of_le (hkept.issued pid hold) hcontinues.nextPid
    · exact (hcreated pid hnew).2
  gone pid hmem := by
    rw [destroyed, List.filterMap_append] at hmem
    rcases List.mem_append.1 hmem with hold | hnew
    · obtain ⟨hissued, habsent⟩ := hkept.gone pid hold
      refine ⟨Nat.lt_of_lt_of_le hissued hcontinues.nextPid, ?_⟩
      cases hget : after.table.get? pid with
      | none => rfl
      | some p =>
          have hlive := hcontinues.live pid hissued (by rw [hget]; rfl)
          rw [habsent] at hlive
          contradiction
    · exact hdestroyed pid hnew

theorem Kept.create (hkept : Kept log t)
    (hcreate : (t.create entry name now).outcome = .ok (pid, after)) :
    Kept (log ++ [(.create entry name now, .ok (some pid))]) after := by
  have hcontinues := (evolvesAt_create hkept.sound.table hcreate).continues
  obtain ⟨rfl, hfresh, hnext, _, _, _, hrewrite⟩ := rewrite_create hkept.sound.table hcreate
  obtain ⟨slot, free, nextPid, context, _, _, _, _, _, htable, _⟩ := create_eq_ok hcreate
  have hsound := hrewrite.sound_of_queued hkept.sound hfresh rfl fun q _ => hkept.sound.active q
  have hcleared : after.table.Cleared := by
    rw [htable]
    exact hkept.cleared.put fun hfree => by contradiction
  refine hkept.extend hsound hcleared hcontinues (fun pid hmem => ?_) fun pid hmem => ?_
  · obtain rfl := List.mem_singleton.1 hmem
    exact ⟨Nat.le_refl _, hnext ▸ Nat.lt_succ_self _⟩
  · exact absurd hmem List.not_mem_nil

theorem Kept.destroy {target : Option Pid} (hkept : Kept log t)
    (hdestroy : (t.destroy target).outcome = .ok after) :
    Kept (log ++ [(.destroy target, .ok none)]) after := by
  have hevolves : t.EvolvesAt 0 after := evolvesAt_destroy hkept.sound.table hdestroy
  have hcontinues := hevolves.continues
  obtain ⟨pid, rfl, _, hlive, hrewrite⟩ := rewrite_destroy hkept.sound.table hdestroy
  obtain ⟨_, slot, free, _, _, _, _, htable, _⟩ := destroy_eq_ok hdestroy
  have hsound := hrewrite.sound_of_stopped hkept.sound (by simp) (by simp)
  have hcleared : after.table.Cleared := by
    rw [htable]
    exact hkept.cleared.put fun _ => rfl
  refine hkept.extend hsound hcleared hcontinues (fun pid hmem => ?_) fun other hmem => ?_
  · exact absurd hmem List.not_mem_nil
  · obtain rfl := List.mem_singleton.1 hmem
    obtain ⟨slot, hfind⟩ := Option.isSome_iff_exists.1 hlive
    have hissued := hkept.sound.table.lt_nextPid (ProcessTable.get?_of_find? hfind)
    exact ⟨Nat.lt_of_lt_of_le hissued hcontinues.nextPid, (hrewrite.get? other).trans (if_pos rfl)⟩

theorem Kept.pass {transition : Transition} (hkept : Kept log t)
    (hpass : (t.reschedule now slice).outcome = .ok (transition, after)) :
    Kept (log ++ [(.pass now slice, .ok none)]) after := by
  have hmoves := (moves_reschedule hkept.sound.table hpass).1
  exact hkept.extend (hmoves.keeps_sound hkept.sound) (cleared_reschedule hkept.cleared hpass)
    hmoves.evolvesAt.continues (fun _ hmem => absurd hmem List.not_mem_nil)
    fun _ hmem => absurd hmem List.not_mem_nil

theorem Kept.write {written : Writing} (hkept : Kept log t)
    (hwrite : t.amend pid (fun p => .ok (written.apply p)) = .ok after) :
    Kept (log ++ [(.write pid written, .ok none)]) after := by
  obtain ⟨slot, hexpect, hwrite⟩ := bind_eq_ok_iff.1 hwrite
  injection hwrite with heq
  subst heq
  have hfind := ProcessTable.expect_eq_ok_iff.1 hexpect
  have hlive := (ProcessTable.find?_eq_some hfind).1
  have hrewrite := rewrite_modify (f := fun _ => written.apply (t.table.block slot))
    hkept.sound.table hfind hlive rfl
  have hsame : some (written.apply (t.table.block slot)).state = t.stateOf pid :=
    (stateOf_of_get? (ProcessTable.get?_of_find? hfind)).symm
  exact hkept.extend (hrewrite.sound_of_same_state hkept.sound hsame) (hkept.cleared.modify hlive)
    (continues_modify hkept.sound.table hfind hlive rfl)
    (fun _ hmem => absurd hmem List.not_mem_nil) fun _ hmem => absurd hmem List.not_mem_nil

/-- A refused request changes nothing, and nothing is given out or ended. -/
theorem Kept.refused {request : Request} {reason : Refusal} (hkept : Kept log t) :
    Kept (log ++ [(request, .error reason)]) t := by
  refine hkept.extend hkept.sound hkept.cleared (.refl t) (fun pid hmem => ?_) fun pid hmem => ?_
  · cases request <;> exact absurd hmem List.not_mem_nil
  · cases request <;> exact absurd hmem List.not_mem_nil

theorem kept_of_dealt (hdealt : desk.Dealt log t) : Kept log t := by
  induction hdealt with
  | start => exact kept_empty
  | @served log table after request answer _ _ _ _ hserve ih =>
      cases request with
      | create entry name now =>
          obtain ⟨⟨pid, made⟩, hcreate, hserve⟩ := Run.outcome_bind_eq_ok_iff.1 hserve
          injection hserve with hserve
          obtain ⟨rfl, hrest⟩ := Prod.mk.inj hserve
          exact (Prod.mk.inj hrest).1 ▸ ih.create hcreate
      | destroy target =>
          obtain ⟨made, hdestroy, hserve⟩ := Run.outcome_bind_eq_ok_iff.1 hserve
          injection hserve with hserve
          obtain ⟨rfl, hrest⟩ := Prod.mk.inj hserve
          exact (Prod.mk.inj hrest).1 ▸ ih.destroy hdestroy
      | pass now slice =>
          obtain ⟨⟨transition, made⟩, hpass, hserve⟩ := Run.outcome_bind_eq_ok_iff.1 hserve
          injection hserve with hserve
          obtain ⟨rfl, hrest⟩ := Prod.mk.inj hserve
          exact (Prod.mk.inj hrest).1 ▸ ih.pass (Run.outcome_orFault_eq_ok_iff.1 hpass)
      | write pid written =>
          obtain ⟨made, hwrite, hserve⟩ := Run.outcome_bind_eq_ok_iff.1 hserve
          injection hserve with hserve
          obtain ⟨rfl, hrest⟩ := Prod.mk.inj hserve
          exact (Prod.mk.inj hrest).1 ▸ ih.write (Run.outcome_lift_eq_ok_iff.1 hwrite)
  | refused _ _ _ ih => exact ih.refused

/-! ## What a request finds and leaves -/

/-- A process moved into a free place and finds nothing there; nobody else was touched. -/
structure MovesIn (t after : Tasks) (pid : Pid) (slot : Slot) : Prop where
  free : (t.table.block slot).state = .free
  find? : after.table.find? pid = some slot
  others : ∀ other, other ≠ slot → after.table.block other = t.table.block other
  stack : (after.table.block slot).stack = Stack.zero
  cpuTime : (after.table.block slot).cpuTime = 0
  activeTime : (after.table.block slot).activeTime = 0
  wakeTime : (after.table.block slot).wakeTime = 0
  destination : (after.table.block slot).destination = none

/-- A process other than idle is gone; the other processes, and their order in the run queue,
are as they were. -/
structure MovesOut (t after : Tasks) (pid : Pid) : Prop where
  idle : pid ≠ .idle
  find? : after.table.find? pid = none
  others : ∀ slot, (t.table.block slot).isLive → (t.table.block slot).pid ≠ pid →
    after.table.block slot = t.table.block slot
  queue : after.queue = t.queue.filter (· ≠ pid)
  current : after.current = if t.current = some pid then none else t.current

theorem movesIn_of_create (hsound : t.table.Sound)
    (hcreate : (t.create entry name now).outcome = .ok (pid, after)) :
    ∃ slot, MovesIn t after pid slot := by
  have hafter : after.table.Sound := by
    obtain ⟨_, _, _, _, _, _, hrewrite⟩ := rewrite_create hsound hcreate
    exact hrewrite.table
  obtain ⟨slot, free, nextPid, context, hpop, _, _, _, _, htable, _⟩ := create_eq_ok hcreate
  have hself : after.table.block slot = newborn pid name now context := by
    rw [htable]
    exact ProcessTable.block_fill ..
  have hfree : (t.table.block slot).isLive = false :=
    (hsound.mem_free slot).1 (Ring.toList_pop hpop ▸ List.mem_cons_self)
  have hlive : (after.table.block slot).isLive = true := by rw [hself]; rfl
  have hfind := hafter.distinct.find?_block hlive
  rw [hself] at hfind
  refine ⟨slot, by simpa [Process.isLive] using hfree, hfind, fun other hother => ?_, ?_, ?_, ?_, ?_,
    ?_⟩
  · rw [htable]
    exact ProcessTable.block_put_of_ne _ _ hother
  all_goals
    rw [hself]
    rfl

theorem movesOut_of_destroy (hsound : t.table.Sound)
    (hdestroy : (t.destroy (some pid)).outcome = .ok after) : MovesOut t after pid := by
  obtain ⟨_, htarget, _, _, hrewrite⟩ := rewrite_destroy hsound hdestroy
  obtain rfl := Option.some.inj htarget
  obtain ⟨_, slot, free, htarget, hidle, hfind, _, htable, hqueue, hcurrent⟩ :=
    destroy_eq_ok hdestroy
  obtain rfl := Option.some.inj htarget
  have hgone : after.table.get? pid = none := (hrewrite.get? pid).trans (if_pos rfl)
  refine ⟨hidle, Option.map_eq_none_iff.1 hgone, fun other hlive hother => ?_, hqueue, hcurrent⟩
  have hne : other ≠ slot := fun heq => hother (heq ▸ (ProcessTable.find?_eq_some hfind).2)
  rw [htable]
  exact ProcessTable.block_put_of_ne _ _ hne

/-- A process is refused exactly when every place is taken. -/
theorem create_refused_iff {reason : Refusal} (hsound : t.table.Sound) (hentry : entry ≠ 0) :
    (t.create entry name now).outcome = .error (.refused reason) ↔
      reason = .tableFull ∧ t.table.live.length = processCapacity := by
  rw [← hsound.pop_eq_none_iff]
  unfold create
  rw [if_neg hentry]
  split
  · rename_i hpop
    rw [Run.outcome_bind_of_ok (Run.outcome_report _), Run.outcome_refuse]
    simp [hpop, eq_comm]
  · rename_i slot free hpop
    refine ⟨fun hrefused => ?_, fun ⟨_, hfull⟩ => by rw [hpop] at hfull; contradiction⟩
    obtain ⟨_, _, hrefused⟩ := Run.refused_lift_bind hrefused
    obtain ⟨_, _, hrefused⟩ := Run.refused_lift_bind hrefused
    obtain ⟨_, _, hrefused⟩ := Run.refused_lift_bind hrefused
    contradiction

/-- How the places stand after requests, and what another one would do. -/
structure Places (log : Dealings Request (Option Pid)) (t : Tasks) : Prop where
  free_nodup : t.table.free.toList.Nodup
  mem_free : ∀ slot, slot ∈ t.table.free.toList ↔ (t.table.block slot).state = .free
  vacant : ∀ slot, (t.table.block slot).state = .free → t.table.block slot = Process.vacant
  size : t.table.size = t.table.live.length
  distinct : t.table.Distinct
  /-- The pids that were given out grow. -/
  increasing : (created log).Pairwise fun earlier later => earlier.number < later.number
  gone : ∀ pid ∈ destroyed log, t.table.find? pid = none
  refuses : ∀ entry name now reason, entry ≠ 0 →
    ((t.create entry name now).outcome = .error (.refused reason) ↔
      reason = .tableFull ∧ t.table.live.length = processCapacity)
  /-- Where there is a place, a process gets it until the pids are used up. -/
  creates : ∀ entry name now, entry ≠ 0 → t.table.live.length < processCapacity →
    t.table.nextPid.toNat + 1 < Word.halfRange →
    ∃ pid after, (t.create entry name now).outcome = .ok (pid, after)
  movesIn : ∀ entry name now pid after, (t.create entry name now).outcome = .ok (pid, after) →
    (∀ earlier ∈ created log, earlier.number < pid.number) ∧ ∃ slot, MovesIn t after pid slot
  /-- Every other process can be destroyed, the one that has the processor as well. -/
  destroys : ∀ pid, pid ≠ .idle → (t.table.find? pid).isSome →
    ∃ after, (t.destroy (some pid)).outcome = .ok after
  movesOut : ∀ pid after, (t.destroy (some pid)).outcome = .ok after → MovesOut t after pid
  nobody : (t.destroy none).outcome = .error (.refused .noCurrentProcess)
  idle : (t.destroy (some .idle)).outcome = .error (.refused .idleProcess)
  /-- A process that is refused has changed nothing on the way, step by step. -/
  createUndone : ∀ (P : Type) [Platform P] (k : Kernel P) entry name now reason, k.tasks = t →
    (t.create entry name now).outcome = .error (.refused reason) →
    ∃ p, Kernel.Stepwise.create entry name now k = .error (.refused reason) { k with platform := p }
  /-- Nor has a request to destroy nobody or idle. -/
  destroyUndone : ∀ (P : Type) [Platform P] (k : Kernel P) target reason, k.tasks = t →
    (t.destroy target).outcome = .error (.refused reason) →
    ∃ p, Kernel.Stepwise.destroy target k = .error (.refused reason) { k with platform := p }

theorem places_of_dealt (hdealt : desk.Dealt log t) : Places log t := by
  have hkept := kept_of_dealt hdealt
  have hsound := hkept.sound.table
  have hfree (slot : Slot) :
      (t.table.block slot).isLive = false ↔ (t.table.block slot).state = .free := by
    simp [Process.isLive]
  exact
    { free_nodup := hsound.free_nodup
      mem_free := fun slot => (hsound.mem_free slot).trans (hfree slot)
      vacant := fun slot hstate => hkept.cleared slot ((hfree slot).2 hstate)
      size := hsound.size_eq
      distinct := hsound.distinct
      increasing := hkept.increasing
      gone := fun pid hmem => Option.map_eq_none_iff.1 (hkept.gone pid hmem).2
      refuses := fun _ _ _ _ hentry => create_refused_iff hsound hentry
      creates := by
        intro entry name now hentry hroom hpids
        have hfaultless : (t.create entry name now).Faultless :=
          hkept.sound.faultless_create hentry (if_pos hpids)
        cases hcreate : (t.create entry name now).outcome with
        | ok made => exact ⟨made.1, made.2, rfl⟩
        | error stop =>
            cases stop with
            | refused reason =>
                have hfull := ((create_refused_iff hsound hentry).1 hcreate).2
                exact absurd hfull (Nat.ne_of_lt hroom)
            | fault fault => exact absurd hcreate (hfaultless fault)
      movesIn := by
        intro entry name now pid after hcreate
        refine ⟨fun earlier hmem => ?_, movesIn_of_create hsound hcreate⟩
        rw [(rewrite_create hsound hcreate).1, UInt32.lt_iff_toNat_lt]
        exact hkept.issued earlier hmem
      destroys := by
        intro pid hidle hlive
        obtain ⟨slot, hfind⟩ := Option.isSome_iff_exists.1 hlive
        exact hkept.sound.exists_destroy hidle hfind
      movesOut := fun _ _ hdestroy => movesOut_of_destroy hsound hdestroy
      nobody := rfl
      idle := rfl
      createUndone := by
        rintro P _ k entry name now reason rfl hrefused
        exact (Kernel.Stepwise.agrees_create entry name now k).refused hrefused
      destroyUndone := by
        rintro P _ k target reason rfl hrefused
        exact (Kernel.Stepwise.agrees_destroy target k).refused hrefused }

/-- Twenty-four processes take all places, so another one is refused.  The one whose place
is written to is destroyed, and the next one moves in.  Then whoever has the processor is
destroyed, and so can be whoever has it next. -/
theorem places_of_dealt_reused :
    ∃ log t, desk.Dealt log t ∧ (log.map (·.2)).drop 24 =
        [.error .tableFull, .ok none, .ok none, .ok none, .error .idleProcess,
          .error .noCurrentProcess, .ok (some ⟨24⟩), .ok none, .ok none, .ok none] ∧
      t.table.find? ⟨24⟩ = some 3 ∧ Places log t ∧ t.current = some ⟨2⟩ ∧
      ∃ after, (t.destroy (some ⟨2⟩)).outcome = .ok after ∧ after.current = none := by
  obtain ⟨log, t, hdealt, hcheck⟩ := desk.exists_dealt 0
    (List.replicate 24 (.create 0x1000 "worker" 0) ++ [.create 0x1000 "worker" 1,
      .write ⟨3⟩ ⟨Vector.replicate stackCapacity 0xAA, 1, 2, 3, 4⟩, .pass 5 5, .destroy (some ⟨3⟩),
      .destroy (some .idle), .destroy none, .create 0x1000 "worker" 6, .pass 6 0,
      .destroy (some ⟨1⟩), .pass 7 0])
    (fun log t => decide ((log.map (·.2)).drop 24 =
        [.error .tableFull, .ok none, .ok none, .ok none, .error .idleProcess,
          .error .noCurrentProcess, .ok (some ⟨24⟩), .ok none, .ok none, .ok none] ∧
      t.table.find? ⟨24⟩ = some 3 ∧ t.current = some ⟨2⟩ ∧ (t.table.find? ⟨2⟩).isSome))
    (by decide +kernel)
  obtain ⟨hanswers, hfind, hcurrent, hlive⟩ := of_decide_eq_true hcheck
  have hplaces := places_of_dealt hdealt
  obtain ⟨after, hdestroy⟩ := hplaces.destroys ⟨2⟩ (by decide) hlive
  have hgone := (hplaces.movesOut ⟨2⟩ after hdestroy).current
  rw [hcurrent, if_pos rfl] at hgone
  exact ⟨log, t, hdealt, hanswers, hfind, hplaces, hcurrent, after, hdestroy, hgone⟩

end Tasks

end Timeshare
