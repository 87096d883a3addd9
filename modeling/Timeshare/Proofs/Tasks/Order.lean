import Timeshare.Proofs.Tasks.Evolves
import Timeshare.Proofs.Tasks.Sound

/-!
# The order of the run queue

Up to its choice a scheduling pass only appends to the run queue: first the process that
loses the processor, then the sleepers whose time has come, in table order.  The choice takes
the head off.  So whoever is queued comes closer to the processor, by places in the queue and
by ticks that the active process has used up.
-/

namespace Timeshare.Tasks

variable {now slice : UInt64} {t t' t'' after : Tasks} {pid : Pid} {p : Process}
  {p' : Option Process} {queue : List Pid} {current : Option Pid}

/-! ## What a pass appends -/

/-- The process that a pass takes the processor from and queues, if there is one; idle is not
queued. -/
def preempted (t : Tasks) (slice : UInt64) : List Pid :=
  match t.current with
  | none => []
  | some pid =>
      if pid ≠ .idle ∧ (t.table.get? pid).any fun p => p.state = .active ∧ slice ≤ p.activeTime
      then [pid] else []

/-- The sleepers at the given places whose time has come. -/
def dueAmong (t : Tasks) (now : UInt64) (slots : List Slot) : List Pid :=
  (slots.filter fun slot => t.IsDue now slot).map fun slot => (t.table.block slot).pid

/-- The sleepers whose time has come, in table order. -/
def due (t : Tasks) (now : UInt64) : List Pid := t.dueAmong now Slot.all

/-- Who is due depends on the control blocks at the places only. -/
theorem dueAmong_congr {slots : List Slot}
    (hblock : ∀ slot ∈ slots, t'.table.block slot = t.table.block slot) :
    t'.dueAmong now slots = t.dueAmong now slots := by
  have hfilter : slots.filter (fun slot => t'.IsDue now slot) =
      slots.filter fun slot => t.IsDue now slot := by
    refine List.filter_congr fun slot hmem => decide_eq_decide.2 ?_
    rw [IsDue, IsDue, hblock slot hmem]
  rw [dueAmong, dueAmong, hfilter]
  exact List.map_congr_left fun slot hmem => by rw [hblock slot (List.mem_of_mem_filter hmem)]

/-- Waking appends the sleepers that are due and leaves everybody else alone. -/
theorem wake_eq_ok {slots : List Slot} (hnodup : slots.Nodup)
    (hwake : (slots.foldlM (wakeAt now) t).outcome = .ok after) :
    after.queue = t.queue ++ t.dueAmong now slots ∧ after.current = t.current ∧
      ∀ slot, ¬ t.IsDue now slot → after.table.block slot = t.table.block slot := by
  induction slots generalizing t with
  | nil =>
      injection hwake with heq
      subst heq
      simp [dueAmong]
  | cons slot rest ih =>
      rw [List.foldlM_cons] at hwake
      obtain ⟨woken, hfirst, hrest⟩ := Run.outcome_bind_eq_ok_iff.1 hwake
      obtain ⟨hfresh, hnodup⟩ := List.nodup_cons.1 hnodup
      obtain ⟨hqueue, hcurrent, hblock⟩ := ih hnodup hrest
      rcases wakeAt_eq_ok hfirst with ⟨rfl, hearly⟩ | ⟨hdue, _, hmodify, hqueued, hsame⟩
      · refine ⟨?_, hcurrent, hblock⟩
        rw [hqueue, dueAmong, dueAmong, List.filter_cons_of_neg (by simpa using hearly)]
      -- the other places are still to be looked at, and they are as they were
      have hothers (other : Slot) (hne : other ≠ slot) :
          woken.table.block other = t.table.block other := by
        rw [hmodify]
        exact ProcessTable.block_modify_of_ne t.table _ hne
      have hrest : woken.dueAmong now rest = t.dueAmong now rest :=
        dueAmong_congr fun other hmem => hothers other fun heq => hfresh (heq ▸ hmem)
      refine ⟨?_, hcurrent.trans hsame, fun other hearly => ?_⟩
      · rw [hqueue, hrest, hqueued, dueAmong, dueAmong,
          List.filter_cons_of_pos (by simpa using hdue), List.map_cons, List.append_assoc,
          List.singleton_append]
      · have hne : other ≠ slot := fun heq => hearly (heq ▸ hdue)
        rw [hblock other (by rwa [IsDue, hothers other hne]), hothers other hne]

/-- A process that sleeps not, or not long enough, is not touched by waking. -/
theorem get?_of_wake (hsound : t.table.Sound) (hwake : (t.wake now).outcome = .ok after)
    (hget : t.table.get? pid = some p) (hearly : ¬ (p.state = .sleeping ∧ p.wakeTime ≤ now)) :
    after.table.get? pid = some p := by
  obtain ⟨slot, _, rfl, hlive, rfl⟩ := ProcessTable.get?_eq_some hget
  obtain ⟨_, _, hblock⟩ := wake_eq_ok (List.nodup_finRange _) hwake
  have hsame := hblock slot hearly
  have hafter := ((moves_wake Slot.all hsound hwake).1.sound hsound).distinct
  rw [← hsame] at hlive ⊢
  exact hafter.get?_block hlive

/-- A recorded process is forgotten exactly if it is not active. -/
theorem dropStale_eq (t : Tasks) :
    t.dropStale = t ∧ (∀ pid, t.current = some pid → t.stateOf pid = some .active) ∨
      t.dropStale = { t with sched := t.sched.clearCurrent } ∧
        ∃ pid, t.current = some pid ∧ t.stateOf pid ≠ some .active := by
  unfold dropStale
  split
  · rename_i hnone
    exact .inl ⟨rfl, fun pid hcurrent => by rw [hnone] at hcurrent; contradiction⟩
  · rename_i pid hcurrent
    split
    · rename_i hactive
      refine .inl ⟨rfl, fun other hother => ?_⟩
      obtain rfl := Option.some.inj (hcurrent.symm.trans hother)
      exact isActive_iff.1 hactive
    · rename_i hstale
      exact .inr ⟨rfl, pid, hcurrent, fun hactive => hstale (isActive_iff.2 hactive)⟩

theorem preempted_of_current_none (hnone : t.current = none) : t.preempted slice = [] := by
  rw [preempted, hnone]

/-- Only an active process is preempted. -/
theorem preempted_of_stale (hcurrent : t.current = some pid)
    (hstate : t.stateOf pid ≠ some .active) : t.preempted slice = [] := by
  rw [preempted, hcurrent]
  refine if_neg fun ⟨_, hany⟩ => hstate ?_
  obtain ⟨p, hget, hused⟩ := (Option.any_eq_true ..).1 hany
  rw [stateOf_of_get? hget, (of_decide_eq_true hused).1]

theorem preempted_of_get? (hcurrent : t.current = some pid) (hget : t.table.get? pid = some p)
    (hactive : p.state = .active) :
    t.preempted slice = if pid ≠ .idle ∧ slice ≤ p.activeTime then [pid] else [] := by
  rw [preempted, hcurrent]
  simp [hget, hactive]

/-- Taking the processor away appends the preempted process; nobody who sleeps is touched. -/
theorem expire_active (hactive : ∀ pid, t.current = some pid → t.stateOf pid = some .active)
    (hexpire : t.expire slice = .ok after) :
    after.queue = t.queue ++ t.preempted slice ∧ after.due now = t.due now := by
  rcases expire_eq_ok hexpire with
    ⟨rfl, hleft⟩ | ⟨pid, slot, hcurrent, hfind, hused, _, hmodify, hqueue, _⟩
  · refine ⟨?_, rfl⟩
    cases hcurrent : after.current with
    | none => rw [preempted_of_current_none hcurrent, List.append_nil]
    | some pid =>
        obtain ⟨p, hget, hstate⟩ := Option.map_eq_some_iff.1 (hactive pid hcurrent)
        have hbelow := hleft pid p hcurrent hget
        rw [preempted_of_get? hcurrent hget hstate, if_neg, List.append_nil]
        exact fun h => UInt64.not_le.2 hbelow h.2
  have hget := ProcessTable.get?_of_find? hfind
  have hstate : (t.table.block slot).state = .active := by
    have hstateOf := hactive pid hcurrent
    rw [stateOf_of_get? hget] at hstateOf
    exact Option.some.inj hstateOf
  refine ⟨?_, ?_⟩
  · rw [hqueue, preempted_of_get? hcurrent hget hstate]
    by_cases hidle : pid = .idle <;> simp [hidle, hused]
  -- the preempted process sleeps neither before nor behind its preemption
  have hsame : (Slot.all.filter fun other => after.IsDue now other) =
      Slot.all.filter fun other => t.IsDue now other := by
    refine List.filter_congr fun other _ => decide_eq_decide.2 ?_
    by_cases hother : other = slot
    · subst hother
      simp [IsDue, hmodify, hstate]
    · rw [IsDue, IsDue, hmodify, ProcessTable.block_modify_of_ne _ _ hother]
  rw [due, due, dueAmong, dueAmong, hsame]
  refine List.map_congr_left fun other hmem => ?_
  have hdue : t.IsDue now other := by simpa using List.of_mem_filter hmem
  have hother : other ≠ slot := by
    rintro rfl
    rw [IsDue, hstate] at hdue
    exact absurd hdue.1 (by decide)
  rw [hmodify, ProcessTable.block_modify_of_ne _ _ hother]

/-- Up to its choice a pass appends the preempted process and then the sleepers that are due. -/
theorem queue_rouse (hrouse : (t.rouse now slice).outcome = .ok after) :
    after.queue = t.queue ++ t.preempted slice ++ t.due now := by
  obtain ⟨expired, hexpire, hwake⟩ := Run.outcome_bind_eq_ok_iff.1 hrouse
  rw [Run.outcome_lift] at hexpire
  rw [(wake_eq_ok (List.nodup_finRange _) hwake).1]
  rcases dropStale_eq t with ⟨hsame, hactive⟩ | ⟨hdropped, pid, hcurrent, hstale⟩
  · rw [hsame] at hexpire
    obtain ⟨hqueue, hdue⟩ : _ ∧ _ = t.due now := expire_active hactive hexpire
    rw [hqueue]
    exact congrArg _ hdue
  · rw [hdropped] at hexpire
    injection hexpire with heq
    subst heq
    rw [preempted_of_stale hcurrent hstale, List.append_nil]
    rfl

/-! ## Nobody is overtaken -/

/-- The ticks of its time slice that the recorded process has used up. -/
def spent (t : Tasks) : Nat :=
  ((t.current.bind t.table.get?).map fun p => p.activeTime.toNat).getD 0

/-- Nobody leaves the queue, and whoever keeps the processor goes on with its time slice. -/
structure LinesUp (t t' : Tasks) : Prop where
  queue : t.queue <+: t'.queue
  current : t'.current = none ∨ t'.current = t.current ∧ t'.spent = t.spent

theorem LinesUp.refl (t : Tasks) : t.LinesUp t := ⟨List.prefix_rfl, .inr ⟨rfl, rfl⟩⟩

theorem LinesUp.trans (h : t.LinesUp t') (h' : t'.LinesUp t'') : t.LinesUp t'' := by
  refine ⟨h.queue.trans h'.queue, ?_⟩
  rcases h'.current with hnone | ⟨hsame', hspent'⟩
  · exact .inl hnone
  rcases h.current with hnone | ⟨hsame, hspent⟩
  · exact .inl (hsame'.trans hnone)
  · exact .inr ⟨hsame'.trans hsame, hspent'.trans hspent⟩

theorem Rewrite.linesUp (h : Rewrite t t' pid p' queue current) (hqueue : t.queue <+: queue)
    (hcurrent : current = none ∨ current = t.current ∧
      (p'.map fun p => p.activeTime.toNat).getD 0 =
        ((t.table.get? pid).map fun p => p.activeTime.toNat).getD 0) : t.LinesUp t' := by
  refine ⟨h.queue ▸ hqueue, ?_⟩
  rw [h.current]
  refine hcurrent.imp id fun ⟨hsame, hticks⟩ => ⟨hsame, ?_⟩
  rw [spent, spent, h.current, hsame]
  cases t.current with
  | none => rfl
  | some active =>
      rw [Option.bind_some, Option.bind_some, h.get?]
      split
      · rename_i hself
        rw [hself]
        exact hticks
      · rfl

/-- A process that keeps its time slice is queued behind all others. -/
theorem Rewrite.linesUp_of_queued {p' : Process}
    (h : Rewrite t t' pid (some p') (t.queue ++ [pid]) t.current)
    (hget : t.table.get? pid = some p) (htime : p'.activeTime = p.activeTime) : t.LinesUp t' := by
  refine h.linesUp (List.prefix_append _ _) (.inr ⟨rfl, ?_⟩)
  rw [hget, Option.map_some, Option.map_some, htime]

/-- The active process stops. -/
theorem Rewrite.linesUp_of_stopped
    (h : Rewrite t t' pid p' (t.queue.filter (· ≠ pid))
      (if t.current = some pid then none else t.current))
    (hcurrent : t.current = some pid) (hfresh : pid ∉ t.queue) : t.LinesUp t' := by
  refine h.linesUp ?_ (.inl (if_pos hcurrent))
  rw [List.filter_eq_self.2 fun q hmem => by simpa using fun heq : q = pid => hfresh (heq ▸ hmem)]

theorem linesUp_modify {slot : Slot} {f : Process → Process} (hsound : t.table.Sound)
    (hfind : t.table.find? pid = some slot) (hlive : (f (t.table.block slot)).isLive)
    (hpid : (f (t.table.block slot)).pid = (t.table.block slot).pid)
    (htime : (f (t.table.block slot)).activeTime = (t.table.block slot).activeTime) :
    t.LinesUp (t.modify slot f) := by
  refine (rewrite_modify hsound hfind hlive hpid).linesUp List.prefix_rfl (.inr ⟨rfl, ?_⟩)
  rw [ProcessTable.get?_of_find? hfind, Option.map_some, Option.map_some, htime]

theorem linesUp_create {entry : UInt64} {name : String} (hsound : t.table.Sound)
    (hcreate : (t.create entry name now).outcome = .ok (pid, t')) : t.LinesUp t' := by
  obtain ⟨rfl, _, _, _, _, _, hrewrite⟩ := rewrite_create hsound hcreate
  refine hrewrite.linesUp (List.prefix_append _ _) (.inr ⟨rfl, ?_⟩)
  rw [hsound.get?_nextPid]
  rfl

/-- The active process is not queued, so its end leaves no gap. -/
theorem linesUp_destroy_current (hsound : t.Sound)
    (hactive : ∀ pid, t.current = some pid → pid ≠ .idle → t.stateOf pid = some .active)
    (hdestroy : (t.destroy t.current).outcome = .ok t') : t.LinesUp t' := by
  obtain ⟨pid, hcurrent, hidle, _, hrewrite⟩ := rewrite_destroy hsound.table hdestroy
  refine hrewrite.linesUp_of_stopped hcurrent (hsound.not_mem_queue ?_)
  rw [hactive pid hcurrent hidle]
  decide

/-- Up to the choice of a pass nobody is overtaken. -/
theorem linesUp_rouse (hsound : t.Sound) (hrouse : (t.rouse now slice).outcome = .ok after) :
    t.LinesUp after := by
  refine ⟨?_, ?_⟩
  · rw [queue_rouse hrouse, List.append_assoc]
    exact List.prefix_append _ _
  cases hcurrent : after.current with
  | none => exact .inl rfl
  | some pid =>
      obtain ⟨hactive, _⟩ := (moves_rouse hsound.table hrouse).2 pid hcurrent
      have hrecorded := hsound.active pid hactive
      obtain ⟨expired, hexpire, hwake⟩ := Run.outcome_bind_eq_ok_iff.1 hrouse
      rw [Run.outcome_lift] at hexpire
      obtain ⟨_, hkept, _⟩ := wake_eq_ok (List.nodup_finRange _) hwake
      -- the process is still recorded, so it was not preempted
      have hsame : t.dropStale = t := by
        rcases dropStale_eq t with ⟨hsame, _⟩ | ⟨_, other, hother, hstale⟩
        · exact hsame
        · obtain rfl := Option.some.inj (hrecorded.symm.trans hother)
          exact absurd hactive hstale
      rw [hsame] at hexpire
      obtain rfl : expired = t := by
        rcases expire_eq_ok hexpire with ⟨heq, _⟩ | ⟨_, _, _, _, _, _, _, _, hnone⟩
        · exact heq
        · rw [hkept, hnone] at hcurrent
          contradiction
      obtain ⟨p, hget, hstate⟩ := Option.map_eq_some_iff.1 hactive
      have hget' := get?_of_wake hsound.table hwake hget fun hdue => by
        rw [hstate] at hdue
        exact absurd hdue.1 (by decide)
      refine .inr ⟨hrecorded.symm, ?_⟩
      rw [spent, spent, hcurrent, hrecorded, Option.bind_some, Option.bind_some, hget', hget]

/-! ## Coming closer -/

/-- How far a queued process is from the processor: a whole time slice for each process
ahead of it, and what the active process has left of its own. -/
def distance (t : Tasks) (slice : UInt64) (pid : Pid) : Nat :=
  t.queue.idxOf pid * slice.toNat + (slice.toNat - t.spent)

/-- What happens to the queue while `ticks` ticks pass. -/
structure InTurn (slice : UInt64) (ticks : Nat) (t t' : Tasks) : Prop where
  /-- Those who stay queued stay in order, and the others queue up behind them. -/
  order : ∃ added, t'.queue = t.queue.filter (· ∈ t'.queue) ++ added ∧ ∀ pid ∈ added, pid ∉ t.queue
  /-- A process leaves the queue by becoming active. -/
  leaves : ∀ pid ∈ t.queue, pid ∉ t'.queue → t'.stateOf pid = some .active
  /-- Whoever stays queued comes closer with every tick and never gets further away. -/
  closer : ∀ pid ∈ t.queue, pid ∈ t'.queue → t'.distance slice pid + ticks ≤ t.distance slice pid

/-- A tick that is charged before the queue moves. -/
theorem InTurn.tick {charged : Tasks} {ticks : Nat} (h : InTurn slice 0 charged t')
    (hqueue : charged.queue = t.queue)
    (hspent : slice.toNat - charged.spent + ticks = slice.toNat - t.spent) :
    InTurn slice ticks t t' := by
  refine ⟨hqueue ▸ h.order, hqueue ▸ h.leaves, fun pid hmem hstays => ?_⟩
  have hcloser := h.closer pid (hqueue ▸ hmem) hstays
  rw [distance.eq_def charged, hqueue] at hcloser
  rw [distance.eq_def t]
  omega

/-- The order of a queue that only grew, or grew and lost its head. -/
theorem exists_added {before added queue : List Pid} (hnodup : (before ++ added).Nodup)
    (hqueue : queue = before ++ added ∨ ∃ next, before ++ added = next :: queue) :
    ∃ added, queue = before.filter (· ∈ queue) ++ added ∧ ∀ pid ∈ added, pid ∉ before := by
  have hdisjoint : ∀ pid ∈ added, pid ∉ before := fun pid hadded hbefore =>
    (List.disjoint_of_nodup_append hnodup) hbefore hadded
  rcases hqueue with rfl | ⟨next, hpopped⟩
  · refine ⟨added, ?_, hdisjoint⟩
    rw [List.filter_eq_self.2 fun pid hmem => by simp [hmem]]
  cases before with
  | nil => exact ⟨queue, rfl, fun _ _ => List.not_mem_nil⟩
  | cons head rest =>
      rw [List.cons_append] at hpopped
      obtain ⟨rfl, rfl⟩ := List.cons.inj hpopped
      have hgone : head ∉ rest ++ added := (List.nodup_cons.1 hnodup).1
      refine ⟨added, ?_, hdisjoint⟩
      rw [List.filter_cons_of_neg (by simpa using hgone),
        List.filter_eq_self.2 fun pid hmem => by simp [hmem]]

/-- If everybody lines up, nobody gets further away from the processor by the choice. -/
theorem LinesUp.inTurn {roused : Tasks} {next : Pid} (h : t.LinesUp roused) (hsound : roused.Sound)
    (hpick : roused.pick = .ok (next, t')) : InTurn slice 0 t t' := by
  obtain ⟨added, hqueue⟩ := h.queue
  have hnodup : (t.queue ++ added).Nodup := hqueue ▸ hsound.queue_nodup
  rcases pick_eq_ok hsound.table hpick with ⟨rfl, hkept⟩ | ⟨_, p, rest, _, hhead, hrewrite⟩
  · have hstays (pid : Pid) (hmem : pid ∈ t.queue) : pid ∈ t'.queue := h.queue.subset hmem
    refine ⟨exists_added hnodup (.inl hqueue.symm), fun pid hmem hgone => ?_, fun pid hmem _ => ?_⟩
    · exact absurd (hstays pid hmem) hgone
    · rcases h.current with hnone | ⟨_, hspent⟩
      · rw [hnone] at hkept
        contradiction
      · rw [distance, distance, hspent, ← hqueue, List.idxOf_append_of_mem hmem, Nat.add_zero]
  rcases hhead with hhead | ⟨hempty, rfl, _⟩
  · have hafter : roused.queue = next :: t'.queue := by rw [hhead, hrewrite.queue]
    rw [← hqueue] at hafter
    refine ⟨exists_added hnodup (.inr ⟨next, hafter⟩), fun pid hmem hgone => ?_,
      fun pid hmem hstays => ?_⟩
    · have hfirst : pid ∈ next :: t'.queue := hafter ▸ List.mem_append_left _ hmem
      obtain rfl := (List.mem_cons.1 hfirst).resolve_right hgone
      rw [hrewrite.stateOf, if_pos rfl]
      rfl
    · -- one process less is ahead, which is worth a whole time slice
      have hne : next ≠ pid := by
        rintro rfl
        rw [hafter] at hnodup
        exact (List.nodup_cons.1 hnodup).1 hstays
      have hindex : t.queue.idxOf pid = t'.queue.idxOf pid + 1 := by
        rw [← List.idxOf_append_of_mem hmem, hafter, List.idxOf_cons_ne _ hne]
      rw [distance, distance, hindex, Nat.succ_mul]
      omega
  · rw [← hqueue] at hempty
    obtain ⟨hnobody, rfl⟩ := List.append_eq_nil_iff.1 hempty
    have hnone (pid : Pid) : pid ∉ t.queue := by rw [hnobody]; exact List.not_mem_nil
    refine ⟨⟨[], ?_, fun _ h => absurd h List.not_mem_nil⟩, fun pid hmem => absurd hmem (hnone pid),
      fun pid hmem => absurd hmem (hnone pid)⟩
    rw [hnobody, hrewrite.queue]
    rfl

/-- The same without a choice, as long as the active process stays. -/
theorem LinesUp.inTurn_of_current (h : t.LinesUp t') (hnodup : t'.queue.Nodup)
    (hcurrent : t'.current ≠ none) : InTurn slice 0 t t' := by
  obtain ⟨added, hqueue⟩ := h.queue
  refine ⟨exists_added (hqueue ▸ hnodup) (.inl hqueue.symm), fun pid hmem hgone => ?_,
    fun pid hmem _ => ?_⟩
  · exact absurd (h.queue.subset hmem) hgone
  · have hspent := (h.current.resolve_left hcurrent).2
    rw [distance, distance, hspent, ← hqueue, List.idxOf_append_of_mem hmem, Nat.add_zero]

/-! ## Time slices -/

/-- Every process has some of its time slice left. -/
def Unexpired (slice : UInt64) (t : Tasks) : Prop :=
  ∀ pid p, t.table.get? pid = some p → p.activeTime < slice

/-- Only the active process may have used up its time slice. -/
def OnlyActiveExpired (slice : UInt64) (t : Tasks) : Prop :=
  ∀ pid p, t.table.get? pid = some p →
    p.activeTime < slice ∨ t.current = some pid ∧ p.state = .active

theorem Unexpired.spent_lt (h : t.Unexpired slice) (hslice : 0 < slice) :
    t.spent < slice.toNat := by
  have hpositive : 0 < slice.toNat := UInt64.lt_iff_toNat_lt.1 hslice
  rw [spent]
  cases hactive : t.current.bind t.table.get? with
  | none => exact hpositive
  | some p =>
      obtain ⟨pid, _, hget⟩ := Option.bind_eq_some_iff.1 hactive
      exact UInt64.lt_iff_toNat_lt.1 (h pid p hget)

/-- Time slices go on or start anew, so nobody uses up one by what evolves. -/
theorem Evolves.unexpired (hevolves : t.Evolves t') (hslice : 0 < slice) (h : t.Unexpired slice) :
    t'.Unexpired slice := by
  intro pid p' hget
  rcases hevolves.process pid p' hget with ⟨p, hbefore, hp⟩ | ⟨_, p, hborn, hp⟩
  · exact UInt64.lt_iff_toNat_lt.2 (Nat.lt_of_le_of_lt hp.activeTime_le
      (UInt64.lt_iff_toNat_lt.1 (h pid p hbefore)))
  · obtain ⟨_, _, _, _, _, _, rfl⟩ := hborn
    exact UInt64.lt_iff_toNat_lt.2 (Nat.lt_of_le_of_lt hp.activeTime_le
      (UInt64.lt_iff_toNat_lt.1 hslice))

/-- A pass takes the processor from a process that has used up its time slice. -/
theorem unexpired_reschedule {transition : Transition} (hsound : t.table.Sound)
    (hslice : 0 < slice) (h : t.OnlyActiveExpired slice)
    (hpass : (t.reschedule now slice).outcome = .ok (transition, after)) :
    after.Unexpired slice := by
  obtain ⟨roused, hrouse, hpick⟩ := reschedule_eq_ok hpass
  obtain ⟨expired, hexpire, hwake⟩ := Run.outcome_bind_eq_ok_iff.1 hrouse
  rw [Run.outcome_lift] at hexpire
  obtain ⟨_, htable, hactive⟩ := moves_dropStale now t
  have hexpired : expired.table.Sound ∧ expired.Unexpired slice := by
    have hothers (pid : Pid) (p : Process) (hget : t.dropStale.table.get? pid = some p)
        (hother : t.dropStale.current ≠ some pid) : p.activeTime < slice := by
      rw [htable] at hget
      refine (h pid p hget).resolve_right fun ⟨hcurrent, hstate⟩ => hother ?_
      rcases dropStale_eq t with ⟨hsame, _⟩ | ⟨_, stale, hrecorded, hstale⟩
      · rw [hsame]
        exact hcurrent
      · obtain rfl := Option.some.inj (hcurrent.symm.trans hrecorded)
        rw [stateOf_of_get? hget, hstate] at hstale
        exact absurd rfl hstale
    rcases expire_eq_ok hexpire with
      ⟨rfl, hleft⟩ | ⟨active, slot, hcurrent, hfind, _, _, hmodify, hqueue, hnone⟩
    · refine ⟨htable ▸ hsound, fun pid p hget => ?_⟩
      by_cases hself : t.dropStale.current = some pid
      · exact hleft pid p hself hget
      · exact hothers pid p hget hself
    · have hrewrite := rewrite_of_modify
        (f := fun p => { p with activeTime := 0, state := .running })
        (htable.symm ▸ hsound) hfind rfl rfl hmodify hqueue hnone
      refine ⟨hrewrite.table, fun pid p hget => ?_⟩
      rw [hrewrite.get?] at hget
      split at hget
      · obtain rfl := Option.some.inj hget
        exact hslice
      · rename_i hother
        exact hothers pid p hget fun heq => hother (Option.some.inj (heq.symm.trans hcurrent))
  obtain ⟨hmoves, _⟩ := moves_wake Slot.all hexpired.1 hwake
  obtain ⟨hroused, hrecorded⟩ := moves_rouse hsound hrouse
  have hpicked : Moves now _ after := (moves_pick (hroused.sound hsound)
    (fun pid hcurrent => (hrecorded pid hcurrent).2) hpick).1
  exact (Moves.evolvesAt (hmoves.trans hpicked)).unexpired hslice hexpired.2

end Timeshare.Tasks
