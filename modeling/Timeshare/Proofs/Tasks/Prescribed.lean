import Timeshare.Proofs.Tasks.Faultless
import Timeshare.Proofs.Tasks.Order

/-!
# The prescribed scheduling pass

What a scheduling pass has to do, told without its phases: who keeps the
processor or gets it, who is queued behind it, and what becomes of each control
block.  On any table in which live processes have different pids, with any
queue of different ready processes, a pass does exactly that.  Nothing is asked
of the recorded process: it may be missing, dead or not active.
-/

namespace Timeshare

namespace ProcessTable

/-- `after` is `table` with the control block at each place sent through `f`. -/
structure Revised (table after : ProcessTable) (f : Slot → Process → Process) : Prop where
  block : ∀ slot, after.block slot = f slot (table.block slot)
  free : after.free = table.free
  nextPid : after.nextPid = table.nextPid

variable {table middle after : ProcessTable} {f g : Slot → Process → Process}

theorem Revised.trans (h : table.Revised middle f) (h' : middle.Revised after g) :
    table.Revised after fun slot p => g slot (f slot p) where
  block slot := by rw [h'.block, h.block]
  free := h'.free.trans h.free
  nextPid := h'.nextPid.trans h.nextPid

/-- Only what the revision makes of the blocks that are there matters. -/
theorem Revised.congr (h : table.Revised after f)
    (hsame : ∀ slot, f slot (table.block slot) = g slot (table.block slot)) :
    table.Revised after g :=
  ⟨fun slot => (h.block slot).trans (hsame slot), h.free, h.nextPid⟩

theorem revised_modify (table : ProcessTable) (slot : Slot) (f : Process → Process) :
    table.Revised (table.modify slot f) fun other p => if other = slot then f p else p where
  block other := by
    by_cases hother : other = slot
    · rw [if_pos hother, hother, block_modify_self]
    · rw [if_neg hother, block_modify_of_ne table f hother]
  free := rfl
  nextPid := rfl

/-- A revision that keeps who lives where moves nobody. -/
theorem Revised.find? (h : table.Revised after f)
    (hlive : ∀ slot p, (f slot p).isLive = p.isLive) (hpid : ∀ slot p, (f slot p).pid = p.pid)
    (pid : Pid) : after.find? pid = table.find? pid := by
  unfold ProcessTable.find?
  congr 1
  funext slot
  rw [h.block, hlive, hpid]

end ProcessTable

namespace Tasks

variable {t after : Tasks} {now slice : UInt64} {pid : Pid} {slot : Slot}

/-! ## What a pass has to do -/

/-- The process that stays on the processor: the recorded one, if it lives, is active and has
some of its time slice left. -/
def keeper (t : Tasks) (slice : UInt64) : Option Pid :=
  t.current.filter fun pid =>
    (t.table.get? pid).any fun p => p.state = .active ∧ p.activeTime < slice

/-- The queue, then the active process if it has used up its time slice and is not idle, then
the sleepers whose time has come, in table order. -/
def lineup (t : Tasks) (now slice : UInt64) : List Pid :=
  t.queue ++ t.preempted slice ++ t.due now

/-- Who has the processor behind the pass: whoever stays on it, else the first in line, else
idle. -/
def chosen (t : Tasks) (now slice : UInt64) : Pid :=
  (t.keeper slice).getD ((t.lineup now slice).headD .idle)

/-- Who is queued behind the pass. -/
def remaining (t : Tasks) (now slice : UInt64) : List Pid :=
  if (t.keeper slice).isSome then t.lineup now slice else (t.lineup now slice).tail

/-- A control block once the active process has lost the processor if its time slice is used
up. -/
def expired (t : Tasks) (slice : UInt64) (p : Process) : Process :=
  if t.current = some p.pid ∧ p.state = .active ∧ slice ≤ p.activeTime then
    { p with activeTime := 0, state := .running }
  else p

/-- A control block once its process is awake if its time has come. -/
def woken (now : UInt64) (p : Process) : Process :=
  if p.state = .sleeping ∧ p.wakeTime ≤ now then
    { p with wakeTime := 0, activeTime := 0, state := .running }
  else p

/-- What a pass makes of a control block. -/
def prescribed (t : Tasks) (now slice : UInt64) (p : Process) : Process :=
  let ready := woken now (t.expired slice p)
  if t.keeper slice = none ∧ p.isLive ∧ p.pid = t.chosen now slice then
    { ready with state := .active }
  else ready

/-- The pass at tick `now` that ends with `transition` and `after` did what it has to do, and
nothing else. -/
structure AsPrescribed (t : Tasks) (now slice : UInt64) (transition : Transition)
    (after : Tasks) : Prop where
  transition : transition = if t.current = some (t.chosen now slice) then .keep (t.chosen now slice)
    else .switch t.current (t.chosen now slice)
  current : after.current = some (t.chosen now slice)
  queue : after.queue = t.remaining now slice
  table : t.table.Revised after.table fun _ => t.prescribed now slice

/-- Nobody stays on the processor, nobody is in line, and there is no idle process. -/
def Deserted (t : Tasks) (now slice : UInt64) : Prop :=
  t.keeper slice = none ∧ t.lineup now slice = [] ∧ t.table.find? .idle = none

/-- Live processes have different pids, and different ready processes are queued. -/
structure Lined (t : Tasks) : Prop where
  distinct : t.table.Distinct
  nodup : t.queue.Nodup
  running : ∀ pid ∈ t.queue, t.stateOf pid = some .running

/-! ## Queueing -/

theorem Lined.length_lt (h : t.Lined) : t.queue.length < queueCapacity :=
  Nat.lt_of_le_of_lt
    (ProcessTable.length_le_of_live h.nodup fun pid hmem => isSome_of_stateOf (h.running pid hmem))
    (by decide)

/-- A live process that is not ready is not queued. -/
theorem Lined.not_mem (h : t.Lined) (hlive : (t.table.block slot).isLive)
    (hstate : (t.table.block slot).state ≠ .running) : (t.table.block slot).pid ∉ t.queue := by
  intro hmem
  have hrunning := h.running _ hmem
  rw [stateOf_of_get? (h.distinct.get?_block hlive)] at hrunning
  exact hstate (Option.some.inj hrunning)

/-- A process that is not queued changes, and it may be queued then if it is ready. -/
theorem Lined.of_modify {f : Process → Process} {added : List Pid} (h : t.Lined)
    (hlive : (t.table.block slot).isLive) (hfresh : (t.table.block slot).pid ∉ t.queue)
    (hlive' : (f (t.table.block slot)).isLive)
    (hpid : (f (t.table.block slot)).pid = (t.table.block slot).pid)
    (hmodify : after.table = t.table.modify slot f) (hqueue : after.queue = t.queue ++ added)
    (hadded : added = [] ∨ added = [(t.table.block slot).pid] ∧
      (f (t.table.block slot)).state = .running) : after.Lined := by
  have hfind := h.distinct.find?_block hlive
  have hstateOf (q : Pid) : after.stateOf q =
      if q = (t.table.block slot).pid then some (f (t.table.block slot)).state
      else t.stateOf q := by
    rw [stateOf, hmodify, ProcessTable.get?_modify hfind hlive' hpid]
    split <;> rfl
  refine ⟨?_, ?_, ?_⟩
  · rw [hmodify]
    refine h.distinct.put fun _ other hother hlives heq => hother ?_
    exact h.distinct other slot hlives hlive (heq.trans hpid)
  · rw [hqueue]
    refine h.nodup.append ?_ ?_ <;> rcases hadded with rfl | ⟨rfl, _⟩
    · exact List.nodup_nil
    · exact List.nodup_singleton _
    · exact List.disjoint_nil_right _
    · exact List.disjoint_singleton.2 hfresh
  · intro q hmem
    rw [hqueue, List.mem_append] at hmem
    rw [hstateOf]
    rcases hmem with hmem | hmem
    · have hne : q ≠ (t.table.block slot).pid := fun heq => hfresh (heq ▸ hmem)
      rw [if_neg hne]
      exact h.running q hmem
    · rcases hadded with rfl | ⟨rfl, hstate⟩
      · contradiction
      · rw [if_pos (List.mem_singleton.1 hmem), hstate]

/-- A process that is not ready changes and is queued. -/
theorem Lined.exists_queued {f : Process → Process} (h : t.Lined)
    (hlive : (t.table.block slot).isLive) (hstate : (t.table.block slot).state ≠ .running)
    (hlive' : (f (t.table.block slot)).isLive)
    (hpid : (f (t.table.block slot)).pid = (t.table.block slot).pid) :
    ∃ after, (t.modify slot f).enqueue slot = .ok after ∧ after.Lined ∧
      after.table = (t.table.modify slot fun p => { f p with state := .running }) ∧
      after.queue = t.queue ++ [(t.table.block slot).pid] ∧ after.current = t.current := by
  have hfind := h.distinct.find?_block hlive
  have hfresh := h.not_mem hlive hstate
  obtain ⟨after, henqueue⟩ := exists_enqueue
    (t := t.modify slot f) (ProcessTable.find?_modify_self hfind hlive' hpid) hfresh h.length_lt
  obtain ⟨_, hmodify, hqueue, hcurrent⟩ := enqueue_eq_ok henqueue
  rw [modify, ProcessTable.block_modify_self, hpid] at hqueue
  rw [modify, ProcessTable.modify_modify] at hmodify
  refine ⟨after, henqueue, ?_, hmodify, hqueue, hcurrent⟩
  exact h.of_modify (f := fun p => { f p with state := .running }) hlive hfresh rfl hpid hmodify
    hqueue (.inr ⟨rfl, rfl⟩)

/-! ## The phases -/

theorem pid_expired (t : Tasks) (slice : UInt64) (p : Process) :
    (t.expired slice p).pid = p.pid := by
  unfold expired
  split <;> rfl

theorem isLive_expired (t : Tasks) (slice : UInt64) (p : Process) :
    (t.expired slice p).isLive = p.isLive := by
  unfold expired
  split
  · rename_i hused
    rw [Process.isLive, Process.isLive, hused.2.1]
    rfl
  · rfl

theorem pid_woken (now : UInt64) (p : Process) : (woken now p).pid = p.pid := by
  unfold woken
  split <;> rfl

theorem isLive_woken (now : UInt64) (p : Process) : (woken now p).isLive = p.isLive := by
  unfold woken
  split
  · rename_i hdue
    rw [Process.isLive, Process.isLive, hdue.1]
    rfl
  · rfl

theorem keeper_of_current_none (hnone : t.current = none) : t.keeper slice = none := by
  rw [keeper, hnone]
  rfl

theorem keeper_of_get? {p : Process} (hcurrent : t.current = some pid)
    (hget : t.table.get? pid = some p) :
    t.keeper slice = if p.state = .active ∧ p.activeTime < slice then some pid else none := by
  rw [keeper, hcurrent, Option.filter_some, hget]
  simp

theorem keeper_of_get?_none (hcurrent : t.current = some pid) (hget : t.table.get? pid = none) :
    t.keeper slice = none := by
  rw [keeper, hcurrent, Option.filter_some, hget]
  rfl

theorem Lined.stateOf_active (h : t.Lined) (hactive : (t.table.block slot).state = .active) :
    t.stateOf (t.table.block slot).pid = some .active := by
  have hlive : (t.table.block slot).isLive := by rw [Process.isLive, hactive]; rfl
  rw [stateOf_of_get? (h.distinct.get?_block hlive), hactive]

/-- A recorded process that is not active loses nothing but the record. -/
theorem dropStale_prescribed (h : t.Lined) (slice : UInt64) (hcurrent : t.current = some pid)
    (hstale : t.stateOf pid ≠ some .active) :
    t.keeper slice = none ∧ ∀ slot, t.expired slice (t.table.block slot) = t.table.block slot := by
  refine ⟨?_, fun slot => if_neg fun ⟨hself, hactive, _⟩ => hstale ?_⟩
  · cases hget : t.table.get? pid with
    | none => exact keeper_of_get?_none hcurrent hget
    | some p =>
        rw [stateOf_of_get? hget] at hstale
        rw [keeper_of_get? hcurrent hget, if_neg fun hkept => hstale (by rw [hkept.1])]
  · obtain rfl := Option.some.inj (hcurrent.symm.trans hself)
    exact h.stateOf_active hactive

/-- Taking the processor from an active process always succeeds. -/
theorem Lined.exists_expire (h : t.Lined) (slice : UInt64)
    (hactive : ∀ pid, t.current = some pid → t.stateOf pid = some .active) :
    ∃ after, t.expire slice = .ok after := by
  unfold expire
  cases hcurrent : t.current with
  | none => exact ⟨t, rfl⟩
  | some pid =>
      obtain ⟨p, hget, hstate⟩ := Option.map_eq_some_iff.1 (hactive pid hcurrent)
      obtain ⟨slot, hfind, rfl, hlive, rfl⟩ := ProcessTable.get?_eq_some hget
      simp only [ProcessTable.expect_eq_ok_iff.2 hfind, bind, Except.bind]
      split
      · exact ⟨t, rfl⟩
      split
      · exact ⟨_, rfl⟩
      · obtain ⟨queued, hqueued, _⟩ := h.exists_queued (f := fun p => { p with activeTime := 0 })
          hlive (by rw [hstate]; decide) hlive rfl
        rw [hqueued]
        exact ⟨_, rfl⟩

/-- An active process that has time left keeps the processor, and nobody expires. -/
theorem kept_prescribed (h : t.Lined)
    (hactive : ∀ pid, t.current = some pid → t.stateOf pid = some .active)
    (hleft : ∀ pid p, t.current = some pid → t.table.get? pid = some p → p.activeTime < slice) :
    t.current = t.keeper slice ∧
      ∀ slot, t.expired slice (t.table.block slot) = t.table.block slot := by
  constructor
  · cases hcurrent : t.current with
    | none => rw [keeper_of_current_none hcurrent]
    | some pid =>
        obtain ⟨p, hget, hstate⟩ := Option.map_eq_some_iff.1 (hactive pid hcurrent)
        rw [keeper_of_get? hcurrent hget, if_pos ⟨hstate, hleft pid p hcurrent hget⟩]
  · refine fun slot => if_neg fun ⟨hself, hstate, hused⟩ => ?_
    have hlive : (t.table.block slot).isLive := by rw [Process.isLive, hstate]; rfl
    exact UInt64.not_le.2 (hleft _ _ hself (h.distinct.get?_block hlive)) hused

/-- What taking the processor from an active process does. -/
theorem expire_prescribed (h : t.Lined)
    (hactive : ∀ pid, t.current = some pid → t.stateOf pid = some .active)
    (hexpire : t.expire slice = .ok after) :
    after.Lined ∧ after.current = t.keeper slice ∧
      t.table.Revised after.table fun _ => t.expired slice := by
  rcases expire_eq_ok hexpire with
    ⟨rfl, hleft⟩ | ⟨pid, slot, hcurrent, hfind, hused, hfresh, hmodify, hqueue, hnone⟩
  · obtain ⟨hkeeper, hsame⟩ := kept_prescribed h hactive hleft
    exact ⟨h, hkeeper, fun slot => (hsame slot).symm, rfl, rfl⟩
  obtain ⟨hlive, rfl⟩ := ProcessTable.find?_eq_some hfind
  have hstate : (t.table.block slot).state = .active := by
    have hstateOf := hactive _ hcurrent
    rw [stateOf_of_get? (ProcessTable.get?_of_find? hfind)] at hstateOf
    exact Option.some.inj hstateOf
  have hunqueued := h.not_mem hlive (by rw [hstate]; decide)
  refine ⟨?_, ?_, ?_⟩
  · by_cases hidle : (t.table.block slot).pid = .idle
    · rw [if_pos hidle, ← List.append_nil t.queue] at hqueue
      exact h.of_modify (f := fun p => { p with activeTime := 0, state := .running }) hlive
        hunqueued rfl rfl hmodify hqueue (.inl rfl)
    · rw [if_neg hidle] at hqueue
      exact h.of_modify (f := fun p => { p with activeTime := 0, state := .running }) hlive
        hunqueued rfl rfl hmodify hqueue (.inr ⟨rfl, rfl⟩)
  · rw [hnone, keeper_of_get? hcurrent (ProcessTable.get?_of_find? hfind),
      if_neg fun hkept => UInt64.not_le.2 hkept.2 hused]
  · rw [hmodify]
    refine (t.table.revised_modify slot _).congr fun other => ?_
    by_cases hother : other = slot
    · subst hother
      rw [if_pos rfl, expired, if_pos ⟨hcurrent, hstate, hused⟩]
    · rw [if_neg hother, expired, if_neg]
      rintro ⟨hself, hactive, _⟩
      have hlive' : (t.table.block other).isLive := by rw [Process.isLive, hactive]; rfl
      have hpid := Option.some.inj (hself.symm.trans hcurrent)
      exact hother (h.distinct other slot hlive' hlive hpid)

/-- Up to the wake-ups a pass does what is prescribed for the process it finds recorded. -/
theorem Lined.exists_dropStale_expire (h : t.Lined) (now slice : UInt64) :
    ∃ after, t.dropStale.expire slice = .ok after ∧ after.Lined ∧
      after.queue = t.queue ++ t.preempted slice ∧ after.current = t.keeper slice ∧
      after.due now = t.due now ∧ t.table.Revised after.table fun _ => t.expired slice := by
  rcases dropStale_eq t with ⟨hsame, hactive⟩ | ⟨hdropped, pid, hcurrent, hstale⟩
  · obtain ⟨after, hexpire⟩ := h.exists_expire slice hactive
    obtain ⟨hqueue, hdue⟩ : _ ∧ after.due now = _ := expire_active hactive hexpire
    obtain ⟨hlined, hkeeper, hrevised⟩ := expire_prescribed h hactive hexpire
    exact ⟨after, by rw [hsame, hexpire], hlined, hqueue, hkeeper, hdue, hrevised⟩
  · obtain ⟨hkeeper, hexpired⟩ := dropStale_prescribed h slice hcurrent hstale
    refine ⟨{ t with sched := t.sched.clearCurrent }, by rw [hdropped]; rfl,
      ⟨h.distinct, h.nodup, h.running⟩, ?_, hkeeper.symm, rfl, fun slot => (hexpired slot).symm,
      rfl, rfl⟩
    rw [preempted_of_stale hcurrent hstale, List.append_nil]
    rfl

theorem woken_of_due (hdue : t.IsDue now slot) :
    woken now (t.table.block slot) =
      { t.table.block slot with wakeTime := 0, activeTime := 0, state := .running } :=
  if_pos hdue

theorem woken_of_early (hearly : ¬ t.IsDue now slot) :
    woken now (t.table.block slot) = t.table.block slot :=
  if_neg hearly

/-- No wake-up fails. -/
theorem Lined.exists_wakeAt (h : t.Lined) (now : UInt64) (slot : Slot) :
    ∃ after, (wakeAt now t slot).outcome = .ok after ∧ after.Lined ∧
      t.table.Revised after.table fun other p => if other = slot then woken now p else p := by
  unfold wakeAt
  dsimp only
  split
  · rename_i hdue
    have hlive : (t.table.block slot).isLive := by rw [Process.isLive, hdue.1]; rfl
    obtain ⟨queued, hqueued, hlined, hmodify, _⟩ := h.exists_queued
      (f := fun p => { p with wakeTime := 0, activeTime := 0 }) hlive
      (by rw [hdue.1]; decide) hlive rfl
    refine ⟨queued, hqueued, hlined, ?_⟩
    rw [hmodify]
    refine (t.table.revised_modify slot _).congr fun other => ?_
    by_cases hother : other = slot
    · rw [if_pos hother, if_pos hother, hother, woken_of_due hdue]
    · rw [if_neg hother, if_neg hother]
  · rename_i hearly
    refine ⟨t, rfl, h, fun other => ?_, rfl, rfl⟩
    by_cases hother : other = slot
    · rw [if_pos hother, hother, woken_of_early hearly]
    · rw [if_neg hother]

/-- The wake-ups at the given places revise the blocks there. -/
theorem Lined.exists_wakeAll {slots : List Slot} (h : t.Lined) (hnodup : slots.Nodup) :
    ∃ after, (slots.foldlM (wakeAt now) t).outcome = .ok after ∧ after.Lined ∧
      t.table.Revised after.table fun slot p => if slot ∈ slots then woken now p else p := by
  induction slots generalizing t with
  | nil => exact ⟨t, rfl, h, fun slot => by simp, rfl, rfl⟩
  | cons slot rest ih =>
      obtain ⟨hfresh, hnodup⟩ := List.nodup_cons.1 hnodup
      obtain ⟨first, hfirst, hlined, hrevised⟩ := h.exists_wakeAt now slot
      obtain ⟨after, hrest, hlined', hrevised'⟩ := ih hlined hnodup
      refine ⟨after, ?_, hlined', (hrevised.trans hrevised').congr fun other => ?_⟩
      · rw [List.foldlM_cons, Run.outcome_bind_of_ok hfirst]
        exact hrest
      · by_cases hother : other = slot
        · subst hother
          simp [hfresh]
        · simp [hother]

/-- Every sleeper whose time has come is woken and queued. -/
theorem Lined.exists_wake (h : t.Lined) (now : UInt64) :
    ∃ after, (t.wake now).outcome = .ok after ∧ after.Lined ∧
      after.queue = t.queue ++ t.due now ∧ after.current = t.current ∧
      t.table.Revised after.table fun _ => woken now := by
  obtain ⟨after, hwake, hlined, hrevised⟩ := h.exists_wakeAll (List.nodup_finRange _)
  obtain ⟨hqueue, hcurrent, _⟩ := wake_eq_ok (List.nodup_finRange _) hwake
  exact ⟨after, hwake, hlined, hqueue, hcurrent,
    hrevised.congr fun slot => if_pos (List.mem_finRange slot)⟩

/-- The choice of a pass takes the head off the queue, or idle if nobody is queued. -/
theorem pick_of_current_none (hnone : t.current = none) :
    ∃ runQueue, runQueue.toList = t.queue.tail ∧
      t.pick = match t.table.find? (t.queue.headD .idle) with
        | none => .error (.breach (.nothingToRun (t.queue.headD .idle)))
        | some slot => .ok (t.queue.headD .idle, {
            table := t.table.modify slot fun p => { p with state := .active }
            sched := { runQueue, current := some (t.queue.headD .idle) } }) := by
  have hhead := Scheduler.toList_pop_getD t.sched.runQueue
  rw [pick, hnone]
  dsimp only at hhead ⊢
  generalize t.sched.runQueue.pop.getD (Pid.idle, t.sched.runQueue) = next at hhead ⊢
  obtain ⟨pid, rest⟩ := next
  refine ⟨rest, ?_⟩
  rcases hhead with hhead | ⟨hempty, hrest, hidle⟩
  · have hqueue : t.queue = pid :: rest.toList := hhead
    rw [hqueue]
    exact ⟨rfl, rfl⟩
  · have hqueue : t.queue = [] := hempty
    dsimp only at hidle hrest
    rw [hqueue, hidle]
    exact ⟨hrest, rfl⟩

/-! ## The pass -/

/-- Up to the choice a pass always goes on. -/
theorem Lined.exists_rouse (h : t.Lined) (now slice : UInt64) :
    ∃ roused, (t.rouse now slice).outcome = .ok roused ∧ roused.Lined ∧
      roused.queue = t.lineup now slice ∧ roused.current = t.keeper slice ∧
      t.table.Revised roused.table fun _ p => woken now (t.expired slice p) := by
  obtain ⟨ready, hexpire, hready, hqueue, hcurrent, hdue, hrevised⟩ :=
    h.exists_dropStale_expire now slice
  obtain ⟨roused, hwake, hroused, hqueue', hcurrent', hrevised'⟩ := hready.exists_wake now
  refine ⟨roused, ?_, hroused, ?_, hcurrent'.trans hcurrent, hrevised.trans hrevised'⟩
  · exact Run.outcome_bind_eq_ok_iff.2 ⟨ready, hexpire, hwake⟩
  · rw [hqueue', hqueue, hdue, lineup]

/-- Behind the wake-ups, the choice decides how the pass ends. -/
theorem reschedule_of_rouse {roused : Tasks} (hrouse : (t.rouse now slice).outcome = .ok roused) :
    (t.reschedule now slice).outcome = roused.pick.map fun chosen =>
      (if t.current = some chosen.1 then .keep chosen.1 else .switch t.current chosen.1,
        chosen.2) := by
  obtain ⟨ready, hexpire, hwake⟩ := Run.outcome_bind_eq_ok_iff.1 hrouse
  unfold reschedule
  dsimp only
  rw [Run.outcome_bind_of_ok hexpire, Run.outcome_bind_of_ok hwake, Run.outcome_bind,
    Run.outcome_lift]
  cases roused.pick with
  | error fault => rfl
  | ok chosen =>
      obtain ⟨next, after⟩ := chosen
      show Run.outcome (if t.current = some next then _ else _) = _
      by_cases hsame : t.current = some next
      · simp only [if_pos hsame, Except.map]
        rfl
      · simp only [if_neg hsame, Except.map]
        rfl

/-- The pass of a process that stays on the processor. -/
theorem Lined.reschedule_of_keeper (h : t.Lined) (now : UInt64)
    (hkeeper : t.keeper slice = some pid) :
    ∃ transition after, (t.reschedule now slice).outcome = .ok (transition, after) ∧
      t.AsPrescribed now slice transition after := by
  obtain ⟨roused, hrouse, _, hqueue, hcurrent, hrevised⟩ := h.exists_rouse now slice
  have hchosen : t.chosen now slice = pid := by rw [chosen, hkeeper]; rfl
  have hpick : roused.pick = .ok (pid, roused) := by rw [pick, hcurrent, hkeeper]
  refine ⟨_, roused, by rw [reschedule_of_rouse hrouse, hpick]; rfl, ?_, ?_, ?_, ?_⟩
  · rw [hchosen]
  · rw [hcurrent, hkeeper, hchosen]
  · rw [hqueue, remaining, hkeeper]
    rfl
  · refine hrevised.congr fun slot => ?_
    rw [prescribed, hkeeper]
    rfl

/-- The end of a pass that has to choose somebody, by whether the choice lives. -/
theorem Lined.reschedule_of_free (h : t.Lined) (now : UInt64) (hkeeper : t.keeper slice = none) :
    (t.table.find? (t.chosen now slice) = none → t.lineup now slice = [] ∧
      (t.reschedule now slice).outcome = .error (.breach (.nothingToRun .idle))) ∧
    ∀ slot, t.table.find? (t.chosen now slice) = some slot →
      ∃ transition after, (t.reschedule now slice).outcome = .ok (transition, after) ∧
        t.AsPrescribed now slice transition after := by
  obtain ⟨roused, hrouse, hroused, hqueue, hcurrent, hrevised⟩ := h.exists_rouse now slice
  have hchosen : t.chosen now slice = (t.lineup now slice).headD .idle := by
    rw [chosen, hkeeper]
    rfl
  have hfind (pid : Pid) : roused.table.find? pid = t.table.find? pid :=
    hrevised.find? (fun _ p => (isLive_woken now _).trans (isLive_expired t slice p))
      (fun _ p => (pid_woken now _).trans (pid_expired t slice p)) pid
  obtain ⟨runQueue, htail, hpick⟩ := pick_of_current_none (hcurrent.trans hkeeper)
  rw [hqueue] at htail hpick
  rw [← hchosen, hfind] at hpick
  refine ⟨fun hmissing => ?_, fun slot hslot => ?_⟩
  · have hempty : t.lineup now slice = [] := by
      cases hline : t.lineup now slice with
      | nil => rfl
      | cons next rest =>
          -- whoever is in line is ready, so the first one lives
          have hmem : next ∈ roused.queue := by rw [hqueue, hline]; exact List.mem_cons_self
          have hlives := find?_ne_none (isSome_of_stateOf (hroused.running next hmem))
          rw [hchosen, hline, ← hfind] at hmissing
          exact absurd hmissing hlives
    refine ⟨hempty, ?_⟩
    rw [reschedule_of_rouse hrouse, hpick, hmissing, hchosen, hempty]
    rfl
  · rw [hslot] at hpick
    refine ⟨_, _, by rw [reschedule_of_rouse hrouse, hpick]; rfl, rfl, rfl, ?_, ?_⟩
    · rw [remaining, hkeeper]
      exact htail
    · refine (hrevised.trans (roused.table.revised_modify slot fun p =>
        { p with state := .active })).congr fun other => ?_
      obtain ⟨hlive, hpid⟩ := ProcessTable.find?_eq_some hslot
      by_cases hother : other = slot
      · rw [if_pos hother, hother, prescribed, if_pos ⟨hkeeper, hlive, hpid⟩]
      · rw [if_neg hother, prescribed, if_neg]
        rintro ⟨_, hlive', hpid'⟩
        exact hother (h.distinct other slot hlive' hlive (hpid'.trans hpid.symm))

/-- A pass does what is prescribed, and nothing else: it ends with the chosen process on the
processor, the remaining ones queued and each control block as prescribed, and it tells
whether the processor changes hands.  Only where there is nobody to choose does it break off. -/
theorem reschedule_prescribed (h : t.Lined) (now slice : UInt64) :
    (t.Deserted now slice →
      (t.reschedule now slice).outcome = .error (.breach (.nothingToRun .idle))) ∧
    (¬ t.Deserted now slice → ∃ transition after,
      (t.reschedule now slice).outcome = .ok (transition, after) ∧
        t.AsPrescribed now slice transition after) := by
  cases hkeeper : t.keeper slice with
  | some pid =>
      refine ⟨fun ⟨hnone, _⟩ => ?_, fun _ => h.reschedule_of_keeper now hkeeper⟩
      rw [hnone] at hkeeper
      contradiction
  | none =>
      obtain ⟨hmissing, hfound⟩ := h.reschedule_of_free now hkeeper
      have hidle (hempty : t.lineup now slice = []) : t.chosen now slice = .idle := by
        rw [chosen, hkeeper, hempty]
        rfl
      refine ⟨fun ⟨_, hempty, hgone⟩ => (hmissing (by rw [hidle hempty, hgone])).2,
        fun hpeopled => ?_⟩
      cases hslot : t.table.find? (t.chosen now slice) with
      | none =>
          have hempty := (hmissing hslot).1
          rw [hidle hempty] at hslot
          exact absurd ⟨hkeeper, hempty, hslot⟩ hpeopled
      | some slot => exact hfound slot hslot

/-- Idle is ready, one process has used up a slice of five ticks, one sleeps until tick seven,
one is queued and one sleeps until tick eight. -/
def crowd : Tasks where
  table :=
    ((((ProcessTable.empty.put 0 { Process.vacant with pid := ⟨0⟩, state := .running }).put 1
      { Process.vacant with pid := ⟨1⟩, state := .active, activeTime := 5 }).put 2
      { Process.vacant with pid := ⟨2⟩, state := .sleeping, wakeTime := 7 }).put 3
      { Process.vacant with pid := ⟨3⟩, state := .running }).put 4
      { Process.vacant with pid := ⟨4⟩, state := .sleeping, wakeTime := 8 }
  sched := { runQueue := Ring.empty.pushAll [⟨3⟩], current := some ⟨1⟩ }

/-- The queued process runs; behind it are the one that ran and the sleeper whose time has
come. -/
theorem reschedule_prescribed_crowd :
    crowd.Lined ∧ ¬ crowd.Deserted 7 5 ∧ crowd.chosen 7 5 = ⟨3⟩ ∧
      crowd.remaining 7 5 = [⟨1⟩, ⟨2⟩] ∧ ∃ transition after,
        (crowd.reschedule 7 5).outcome = .ok (transition, after) ∧
          crowd.AsPrescribed 7 5 transition after := by
  have hlined : crowd.Lined := by
    refine ⟨?_, by decide +kernel, by decide +kernel⟩
    unfold ProcessTable.Distinct
    decide +kernel
  have hpeopled : ¬ crowd.Deserted 7 5 := by
    rintro ⟨_, hempty, _⟩
    exact absurd hempty (by decide +kernel)
  exact ⟨hlined, hpeopled, by decide +kernel, by decide +kernel,
    (reschedule_prescribed hlined 7 5).2 hpeopled⟩

/-- Without any process the queue is empty and nobody is recorded, but idle does not get the
processor: the pass breaks off. -/
theorem reschedule_without_idle :
    empty.Lined ∧ empty.queue = [] ∧ empty.current = none ∧
      (empty.reschedule 0 10).outcome = .error (.breach (.nothingToRun .idle)) ∧
      ¬ ∃ after, (empty.reschedule 0 10).outcome = .ok (.switch none .idle, after) := by
  have hbreach : (empty.reschedule 0 10).outcome = .error (.breach (.nothingToRun .idle)) := rfl
  refine ⟨⟨ProcessTable.empty_sound.distinct, List.nodup_nil, fun _ hmem => by contradiction⟩,
    rfl, rfl, hbreach, ?_⟩
  rintro ⟨after, hpass⟩
  rw [hbreach] at hpass
  contradiction

end Tasks

end Timeshare
