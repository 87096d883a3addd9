import Timeshare.Proofs.Process.Table
import Timeshare.Proofs.Run
import Timeshare.Proofs.Scheduler.Queue
import Timeshare.Proofs.Word
import Timeshare.Tasks

/-!
# What an operation on tasks changes

Every operation on the process table and the scheduler rewrites one process,
the run queue and the active process, and nothing else.  `Rewrite` states this
once, over the table as a map; each operation is then described by what it
writes.
-/

namespace Timeshare.Tasks

/-- The queued processes, in the order in which they run. -/
def queue (t : Tasks) : List Pid := t.sched.queue

/-- What a process is doing, if it lives. -/
def stateOf (t : Tasks) (pid : Pid) : Option ProcessState := (t.table.get? pid).map (·.state)

/-- The address at which a process expects a message. -/
def destinationOf (t : Tasks) (pid : Pid) : Option UInt64 :=
  (t.table.get? pid).bind (·.destination)

/-- The ticks of its time slice that a process has used up. -/
def sliceOf (t : Tasks) (pid : Pid) : Option UInt64 := (t.table.get? pid).map (·.activeTime)

/-- `after` is `before` except for the process `pid`, which becomes `p`, the run
queue and the active process. -/
structure Rewrite (before after : Tasks) (pid : Pid) (p : Option Process) (queue : List Pid)
    (current : Option Pid) : Prop where
  table : after.table.Sound
  get? : ∀ q, after.table.get? q = if q = pid then p else before.table.get? q
  queue : after.queue = queue
  current : after.current = current
  /-- Pids are never taken back. -/
  nextPid : before.table.nextPid.toNat ≤ after.table.nextPid.toNat

variable {before middle after t : Tasks} {pid : Pid} {slot : Slot} {p p' : Option Process}
  {queue queue' : List Pid} {current current' : Option Pid}

theorem stateOf_of_get? {p : Process} (hget : t.table.get? pid = some p) :
    t.stateOf pid = some p.state := by
  rw [stateOf, hget]
  rfl

theorem sliceOf_of_get? {p : Process} (hget : t.table.get? pid = some p) :
    t.sliceOf pid = some p.activeTime := by
  rw [sliceOf, hget]
  rfl

/-- Whoever does something lives. -/
theorem isSome_of_stateOf {state : ProcessState} (hstate : t.stateOf pid = some state) :
    (t.table.get? pid).isSome := by
  obtain ⟨p, hget, _⟩ := Option.map_eq_some_iff.1 hstate
  exact Option.isSome_iff_exists.2 ⟨p, hget⟩

theorem Rewrite.stateOf (h : Rewrite before after pid p queue current) (q : Pid) :
    after.stateOf q = if q = pid then p.map (·.state) else before.stateOf q := by
  rw [Tasks.stateOf, h.get?]
  split <;> rfl

theorem Rewrite.destinationOf (h : Rewrite before after pid p queue current) (q : Pid) :
    after.destinationOf q = if q = pid then p.bind (·.destination) else before.destinationOf q := by
  rw [Tasks.destinationOf, h.get?]
  split <;> rfl

theorem Rewrite.sliceOf (h : Rewrite before after pid p queue current) (q : Pid) :
    after.sliceOf q = if q = pid then p.map (·.activeTime) else before.sliceOf q := by
  rw [Tasks.sliceOf, h.get?]
  split <;> rfl

/-- Two rewrites of one process amount to the second. -/
theorem Rewrite.trans (h : Rewrite before middle pid p queue current)
    (h' : Rewrite middle after pid p' queue' current') :
    Rewrite before after pid p' queue' current' where
  table := h'.table
  get? q := by
    rw [h'.get?, h.get?]
    split <;> rfl
  queue := h'.queue
  current := h'.current
  nextPid := h.nextPid.trans h'.nextPid

theorem Rewrite.clearCurrent (h : Rewrite before after pid p queue current) :
    Rewrite before { after with sched := after.sched.clearCurrent } pid p queue none :=
  ⟨h.table, h.get?, h.queue, rfl, h.nextPid⟩

/-! ## The operations -/

/-- Changing the control block of a live process. -/
theorem rewrite_modify {f : Process → Process} (hsound : t.table.Sound)
    (hfind : t.table.find? pid = some slot) (hlive : (f (t.table.block slot)).isLive)
    (hpid : (f (t.table.block slot)).pid = (t.table.block slot).pid) :
    Rewrite t (t.modify slot f) pid (some (f (t.table.block slot))) t.queue t.current := by
  obtain ⟨htable, hget⟩ := hsound.modify hfind hlive hpid
  exact ⟨htable, hget, rfl, rfl, Nat.le_refl _⟩

/-- The same, when the run queue and the processor change with it. -/
theorem rewrite_of_modify {f : Process → Process} (hsound : t.table.Sound)
    (hfind : t.table.find? pid = some slot) (hlive : (f (t.table.block slot)).isLive)
    (hpid : (f (t.table.block slot)).pid = (t.table.block slot).pid)
    (hmodify : after.table = t.table.modify slot f) (hqueue : after.queue = queue)
    (hcurrent : after.current = current) :
    Rewrite t after pid (some (f (t.table.block slot))) queue current := by
  obtain ⟨htable, hget⟩ := hsound.modify hfind hlive hpid
  rw [← hmodify] at htable hget
  exact ⟨htable, hget, hqueue, hcurrent, by rw [hmodify]; exact Nat.le_refl _⟩

/-- A control block changes and keeps its state. -/
theorem stateOf_modify {q : Pid} {f : Process → Process} (hfind : t.table.find? q = some slot)
    (hlive : (f (t.table.block slot)).isLive)
    (hpid : (f (t.table.block slot)).pid = (t.table.block slot).pid)
    (hstate : (f (t.table.block slot)).state = (t.table.block slot).state) :
    (t.modify slot f).stateOf pid = t.stateOf pid := by
  rw [Tasks.stateOf, Tasks.stateOf, modify, ProcessTable.get?_modify hfind hlive hpid]
  split
  · rename_i hself
    rw [hself, ProcessTable.get?_of_find? hfind, Option.map_some, Option.map_some, hstate]
  · rfl

/-- The same for its time slice. -/
theorem sliceOf_modify {q : Pid} {f : Process → Process} (hfind : t.table.find? q = some slot)
    (hlive : (f (t.table.block slot)).isLive)
    (hpid : (f (t.table.block slot)).pid = (t.table.block slot).pid)
    (htime : (f (t.table.block slot)).activeTime = (t.table.block slot).activeTime) :
    (t.modify slot f).sliceOf pid = t.sliceOf pid := by
  rw [Tasks.sliceOf, Tasks.sliceOf, modify, ProcessTable.get?_modify hfind hlive hpid]
  split
  · rename_i hself
    rw [hself, ProcessTable.get?_of_find? hfind, Option.map_some, Option.map_some, htime]
  · rfl

/-- A process that is queued was not queued before. -/
theorem enqueue_eq_ok (henqueue : t.enqueue slot = .ok after) :
    (t.table.block slot).pid ∉ t.queue ∧
      after.table = (t.table.modify slot fun p => { p with state := .running }) ∧
      after.queue = t.queue ++ [(t.table.block slot).pid] ∧ after.current = t.current := by
  unfold enqueue at henqueue
  obtain ⟨sched, hsched, henqueue⟩ := bind_eq_ok_iff.1 henqueue
  injection henqueue with heq
  subst heq
  obtain ⟨hfresh, hqueue, hcurrent⟩ := Scheduler.queue_enqueue hsched
  exact ⟨hfresh, rfl, hqueue, hcurrent⟩

/-- A process that has to wait leaves the queue and the processor. -/
theorem park_eq_ok (hpark : t.park pid = .ok after) :
    ∃ slot, t.table.find? pid = some slot ∧
      after.table = (t.table.modify slot fun p => { p with state := .waiting }) ∧
      after.queue = t.queue.filter (· ≠ pid) ∧
      after.current = if t.current = some pid then none else t.current := by
  unfold park at hpark
  obtain ⟨slot, hexpect, hpark⟩ := bind_eq_ok_iff.1 hpark
  obtain ⟨sched, hremove, hpark⟩ := bind_eq_ok_iff.1 hpark
  injection hpark with heq
  subst heq
  obtain ⟨hqueue, hcurrent⟩ := Scheduler.queue_remove hremove
  refine ⟨slot, ProcessTable.expect_eq_ok_iff.1 hexpect, rfl, ?_, ?_⟩
  · exact (sched.queue_release pid).trans hqueue
  · exact (sched.current_release pid).trans (by rw [hcurrent]; rfl)

/-- Queueing a process: it was not queued, and it is ready behind all others. -/
theorem rewrite_enqueue (hsound : t.table.Sound) (hfind : t.table.find? pid = some slot)
    (henqueue : t.enqueue slot = .ok after) :
    pid ∉ t.queue ∧
      Rewrite t after pid (some { t.table.block slot with state := .running })
        (t.queue ++ [pid]) t.current := by
  obtain ⟨_, hname⟩ := ProcessTable.find?_eq_some hfind
  obtain ⟨hfresh, hmodify, hqueue, hcurrent⟩ := enqueue_eq_ok henqueue
  rw [hname] at hfresh hqueue
  exact ⟨hfresh, rewrite_of_modify (f := fun p => { p with state := .running }) hsound hfind rfl
    rfl hmodify hqueue hcurrent⟩

theorem exists_enqueue (hfind : t.table.find? pid = some slot) (hfresh : pid ∉ t.queue)
    (hroom : t.queue.length < queueCapacity) : ∃ after, t.enqueue slot = .ok after := by
  obtain ⟨_, hname⟩ := ProcessTable.find?_eq_some hfind
  obtain ⟨sched, hsched⟩ := Scheduler.exists_enqueue hfresh hroom
  exact ⟨_, by rw [enqueue, hname, hsched]; rfl⟩

theorem rewrite_park (hsound : t.table.Sound) (hpark : t.park pid = .ok after) :
    ∃ slot, t.table.find? pid = some slot ∧
      Rewrite t after pid (some { t.table.block slot with state := .waiting })
        (t.queue.filter (· ≠ pid)) (if t.current = some pid then none else t.current) := by
  obtain ⟨slot, hfind, hmodify, hqueue, hcurrent⟩ := park_eq_ok hpark
  exact ⟨slot, hfind, rewrite_of_modify (f := fun p => { p with state := .waiting }) hsound hfind
    rfl rfl hmodify hqueue hcurrent⟩

theorem exists_park (hfind : t.table.find? pid = some slot) : ∃ after, t.park pid = .ok after := by
  obtain ⟨sched, hremove, _, _⟩ := t.sched.exists_remove pid
  rw [park, ProcessTable.expect_eq_ok_iff.2 hfind]
  simp only [bind, Except.bind, hremove]
  exact ⟨_, rfl⟩

/-- Changing a control block before its process is queued. -/
theorem rewrite_modify_enqueue {f : Process → Process} (hsound : t.table.Sound)
    (hfind : t.table.find? pid = some slot) (hlive : (f (t.table.block slot)).isLive)
    (hpid : (f (t.table.block slot)).pid = (t.table.block slot).pid)
    (henqueue : (t.modify slot f).enqueue slot = .ok after) :
    pid ∉ t.queue ∧
      Rewrite t after pid (some { f (t.table.block slot) with state := .running })
        (t.queue ++ [pid]) t.current := by
  have hmodify := rewrite_modify hsound hfind hlive hpid
  obtain ⟨hfresh, hrewrite⟩ :=
    rewrite_enqueue hmodify.table (ProcessTable.find?_modify_self hfind hlive hpid) henqueue
  have hblock : (t.modify slot f).table.block slot = f (t.table.block slot) :=
    ProcessTable.block_modify_self t.table slot f
  rw [hblock] at hrewrite
  exact ⟨hfresh, hmodify.trans hrewrite⟩

/-- Changing a control block before its process has to wait. -/
theorem rewrite_modify_park {f : Process → Process} (hsound : t.table.Sound)
    (hfind : t.table.find? pid = some slot) (hlive : (f (t.table.block slot)).isLive)
    (hpid : (f (t.table.block slot)).pid = (t.table.block slot).pid)
    (hpark : (t.modify slot f).park pid = .ok after) :
    Rewrite t after pid (some { f (t.table.block slot) with state := .waiting })
      (t.queue.filter (· ≠ pid)) (if t.current = some pid then none else t.current) := by
  have hmodify := rewrite_modify hsound hfind hlive hpid
  obtain ⟨found, hfound, hrewrite⟩ := rewrite_park hmodify.table hpark
  have hsame : found = slot := by
    have hfind' := ProcessTable.find?_modify_self hfind hlive hpid
    exact Option.some.inj (hfound.symm.trans hfind')
  have hblock : (t.modify slot f).table.block slot = f (t.table.block slot) :=
    ProcessTable.block_modify_self t.table slot f
  rw [hsame, hblock] at hrewrite
  exact hmodify.trans hrewrite

/-- The control block of a process that was just created. -/
def newborn (pid : Pid) (name : String) (now : UInt64) (context : Frame) : Process :=
  { Process.vacant with
    pid, state := .running, name := ProcessName.ofText name, startTime := now, context }

/-- A created process moves into the oldest free place, gets the next pid and is queued behind
all others. -/
theorem create_eq_ok {entry : UInt64} {name : String} {now : UInt64}
    (hcreate : (t.create entry name now).outcome = .ok (pid, after)) :
    ∃ slot free nextPid context, t.table.free.pop = some (slot, free) ∧
      Word.next32 t.table.nextPid = .ok nextPid ∧ Frame.start entry slot.stackTop = .ok context ∧
      pid = ⟨t.table.nextPid⟩ ∧ pid ∉ t.queue ∧
      after.table = { t.table.put slot (newborn pid name now context) with free, nextPid } ∧
      after.queue = t.queue ++ [pid] ∧ after.current = t.current := by
  unfold create at hcreate
  split at hcreate
  · simp at hcreate
  split at hcreate
  · simp [Run.outcome_bind, Except.bind] at hcreate
  rename_i slot free hpop
  obtain ⟨nextPid, hnext, hcreate⟩ := Run.outcome_bind_eq_ok_iff.1 hcreate
  obtain ⟨context, hcontext, hcreate⟩ := Run.outcome_bind_eq_ok_iff.1 hcreate
  obtain ⟨queued, henqueue, hcreate⟩ := Run.outcome_bind_eq_ok_iff.1 hcreate
  obtain ⟨_, _, hcreate⟩ := Run.outcome_bind_eq_ok_iff.1 hcreate
  rw [Run.outcome_lift_eq_ok_iff] at hnext hcontext henqueue
  injection hcreate with hcreate
  injection hcreate with hpid hafter
  subst hpid hafter
  -- the place is filled first and queued then
  obtain ⟨hfresh, htable, hqueue, hcurrent⟩ := enqueue_eq_ok henqueue
  rw [ProcessTable.block_fill] at hfresh hqueue
  rw [ProcessTable.modify_fill] at htable
  exact ⟨slot, free, nextPid, context, hpop, hnext, hcontext, rfl, hfresh, htable, hqueue, hcurrent⟩

theorem rewrite_create {entry : UInt64} {name : String} {now : UInt64}
    (hsound : t.table.Sound) (hcreate : (t.create entry name now).outcome = .ok (pid, after)) :
    pid = ⟨t.table.nextPid⟩ ∧ pid ∉ t.queue ∧
      after.table.nextPid.toNat = t.table.nextPid.toNat + 1 ∧
      ∃ slot : Slot, ∃ context, Frame.start entry slot.stackTop = .ok context ∧
        Rewrite t after pid (some (newborn pid name now context)) (t.queue ++ [pid]) t.current := by
  obtain ⟨slot, free, nextPid, context, hpop, hnext, hcontext, rfl, hfresh, hmodify, hqueue,
    hcurrent⟩ := create_eq_ok hcreate
  have hnextPid : nextPid.toNat = t.table.nextPid.toNat + 1 := Word.toNat_next32 hnext
  obtain ⟨htable, hget⟩ := hsound.add
    (p := newborn ⟨t.table.nextPid⟩ name now context) hpop rfl rfl hnextPid
  rw [← hmodify] at htable hget
  have hsucc : after.table.nextPid.toNat = t.table.nextPid.toNat + 1 := by rw [hmodify, hnextPid]
  exact ⟨rfl, hfresh, hsucc, slot, context, hcontext, htable, hget, hqueue, hcurrent,
    hsucc ▸ Nat.le_succ _⟩

/-- A process that is destroyed leaves its place cleared, the run queue and the processor; idle
stays. -/
theorem destroy_eq_ok {target : Option Pid} (hdestroy : (t.destroy target).outcome = .ok after) :
    ∃ pid slot free, target = some pid ∧ pid ≠ .idle ∧ t.table.find? pid = some slot ∧
      t.table.free.push slot = some free ∧
      after.table = { t.table.put slot Process.vacant with free } ∧
      after.queue = t.queue.filter (· ≠ pid) ∧
      after.current = if t.current = some pid then none else t.current := by
  cases target with
  | none => simp [destroy, Run.outcome_bind, Except.bind] at hdestroy
  | some pid =>
      unfold destroy at hdestroy
      dsimp only at hdestroy
      split at hdestroy
      · simp [Run.outcome_bind, Except.bind] at hdestroy
      rename_i hidle
      split at hdestroy
      · simp at hdestroy
      rename_i slot hfind
      obtain ⟨sched, hremove, hdestroy⟩ := Run.outcome_bind_eq_ok_iff.1 hdestroy
      obtain ⟨_, _, hdestroy⟩ := Run.outcome_bind_eq_ok_iff.1 hdestroy
      split at hdestroy
      · simp at hdestroy
      rename_i free hpush
      injection hdestroy with heq
      subst heq
      obtain ⟨hqueue, hcurrent⟩ :=
        Scheduler.queue_remove (Run.outcome_lift_eq_ok_iff.1 hremove)
      refine ⟨pid, slot, free, rfl, by simpa [Pid.isIdle] using hidle, hfind, hpush, rfl, ?_, ?_⟩
      · exact (sched.queue_release pid).trans hqueue
      · exact (sched.current_release pid).trans (by rw [hcurrent]; rfl)

theorem rewrite_destroy {target : Option Pid} (hsound : t.table.Sound)
    (hdestroy : (t.destroy target).outcome = .ok after) :
    ∃ pid, target = some pid ∧ pid ≠ .idle ∧ (t.table.find? pid).isSome ∧
      Rewrite t after pid none (t.queue.filter (· ≠ pid))
        (if t.current = some pid then none else t.current) := by
  obtain ⟨pid, slot, free, htarget, hidle, hfind, hpush, hmodify, hqueue, hcurrent⟩ :=
    destroy_eq_ok hdestroy
  obtain ⟨htable, hget⟩ := hsound.remove hfind hpush
  rw [← hmodify] at htable hget
  exact ⟨pid, htarget, hidle, by rw [hfind]; rfl, htable, hget, hqueue, hcurrent,
    by rw [hmodify]; exact Nat.le_refl _⟩

end Timeshare.Tasks
