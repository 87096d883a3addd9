import Timeshare.Proofs.Kernel.Booted
import Timeshare.Proofs.Mailbox
import Timeshare.Proofs.Tasks.Sound

/-!
# Tasks and wait queues in step

Coherent tables agree on who waits: the wait queues of the mutexes and mailboxes
hold every waiting process exactly once, and exactly those of the mailboxes
expect a message at some address.  This is asked of the processes in a given set
only.  Idle is never in it, since a scheduling pass may run idle from any state.
Every phase of a trap keeps the tables coherent, and behind the pass the recorded
process is active.
-/

namespace Timeshare

/-- The entries of all wait queues. -/
def waitersOf (mutexes : MutexTable) (mailboxes : MailboxTable) : List Pid :=
  mutexes.waiters ++ mailboxes.waiters

/-- What the tables of the kernel keep between and during traps for the processes
that satisfy `S`. -/
structure Coherence (S : Pid → Prop) (t : Tasks) (m : MutexTable) (b : MailboxTable) : Prop where
  tasks : t.Sound
  mutexes : m.Sound
  idle : ¬ S .idle
  /-- A recorded process is active. -/
  engaged : ∀ pid, t.current = some pid → S pid → t.stateOf pid = some .active
  waiting : ∀ pid, S pid →
    (waitersOf m b).count pid = if t.stateOf pid = some .waiting then 1 else 0
  destination : ∀ pid, S pid → ((t.destinationOf pid).isSome ↔ pid ∈ b.waiters)

/-- A recorded process is active, idle included. -/
def Tasks.Engaged (t : Tasks) : Prop := ∀ pid, t.current = some pid → t.stateOf pid = some .active

/-- There is a recorded process, and it is active. -/
def Tasks.Settled (t : Tasks) : Prop :=
  ∃ pid, t.current = some pid ∧ t.stateOf pid = some .active

namespace Coherence

open Tasks (Rewrite)

variable {S : Pid → Prop} {t t' : Tasks} {mutexes mutexes' : MutexTable} {mailboxes mailboxes' : MailboxTable}
  {pid : Pid} {p : Option Process} {queue : List Pid} {current : Option Pid}

/-- What is asked of more processes is asked of fewer. -/
theorem weaken {S' : Pid → Prop} (h : Coherence S t mutexes mailboxes)
    (hfewer : ∀ pid, S' pid → S pid) : Coherence S' t mutexes mailboxes :=
  ⟨h.tasks, h.mutexes, fun hidle => h.idle (hfewer _ hidle),
    fun pid hcurrent hpid => h.engaged pid hcurrent (hfewer pid hpid),
    fun pid hpid => h.waiting pid (hfewer pid hpid),
    fun pid hpid => h.destination pid (hfewer pid hpid)⟩

/-- A rewrite keeps tables coherent if it does so at the rewritten process and
leaves the entries of the others alone. -/
theorem rewrite (h : Coherence S t mutexes mailboxes) (hrewrite : Rewrite t t' pid p queue current)
    (hsound : t'.Sound) (hmutexes : mutexes'.Sound)
    (hcurrent : current = some pid → S pid → p.map (·.state) = some .active)
    (hothers : ∀ q, q ≠ pid → current = some q → t.current = some q)
    (hcount : S pid → (waitersOf mutexes' mailboxes').count pid =
      if p.map (·.state) = some .waiting then 1 else 0)
    (hcounts : ∀ q, q ≠ pid →
      (waitersOf mutexes' mailboxes').count q = (waitersOf mutexes mailboxes).count q)
    (hmember : S pid → ((p.bind (·.destination)).isSome ↔ pid ∈ mailboxes'.waiters))
    (hmembers : ∀ q, q ≠ pid → (q ∈ mailboxes'.waiters ↔ q ∈ mailboxes.waiters)) :
    Coherence S t' mutexes' mailboxes' := by
  -- at the rewritten process the hypotheses decide, at all others the old tables do
  refine ⟨hsound, hmutexes, h.idle, ?_, ?_, ?_⟩
  · intro q hq hpid
    rw [hrewrite.current] at hq
    rw [hrewrite.stateOf]
    by_cases hself : q = pid
    · rw [if_pos hself]
      exact hcurrent (hself ▸ hq) (hself ▸ hpid)
    · rw [if_neg hself]
      exact h.engaged q (hothers q hself hq) hpid
  · intro q hpid
    rw [hrewrite.stateOf]
    by_cases hself : q = pid
    · rw [if_pos hself, hself]
      exact hcount (hself ▸ hpid)
    · rw [if_neg hself, hcounts q hself]
      exact h.waiting q hpid
  · intro q hpid
    rw [hrewrite.destinationOf]
    by_cases hself : q = pid
    · rw [if_pos hself, hself]
      exact hmember (hself ▸ hpid)
    · rw [if_neg hself, hmembers q hself]
      exact h.destination q hpid

/-- A rewrite of a process that neither starts nor stops waiting. -/
theorem rewrite_tasks (h : Coherence S t mutexes mailboxes)
    (hrewrite : Rewrite t t' pid p queue current) (hsound : t'.Sound)
    (hcurrent : current = some pid → S pid → p.map (·.state) = some .active)
    (hothers : ∀ q, q ≠ pid → current = some q → t.current = some q)
    (hwaiting : S pid →
      (p.map (·.state) = some .waiting ↔ t.stateOf pid = some .waiting))
    (hdestination : S pid →
      (p.bind (·.destination)).isSome = (t.destinationOf pid).isSome) :
    Coherence S t' mutexes mailboxes := by
  refine h.rewrite hrewrite hsound h.mutexes hcurrent hothers ?_ (fun _ _ => rfl) ?_
    (fun _ _ => Iff.rfl)
  · intro hpid
    rw [h.waiting pid hpid]
    simp only [hwaiting hpid]
  · intro hpid
    rw [hdestination hpid]
    exact h.destination pid hpid

/-- A process that is not waiting is on no wait queue. -/
theorem count_eq_zero (h : Coherence S t mutexes mailboxes) (hpid : S pid)
    (hstate : t.stateOf pid ≠ some .waiting) : (waitersOf mutexes mailboxes).count pid = 0 := by
  rw [h.waiting pid hpid, if_neg hstate]

/-- A process on a wait queue is waiting, and it is there once. -/
theorem count_eq_one (h : Coherence S t mutexes mailboxes) (hpid : S pid)
    (hmem : pid ∈ waitersOf mutexes mailboxes) :
    t.stateOf pid = some .waiting ∧ (waitersOf mutexes mailboxes).count pid = 1 := by
  have hcount := h.waiting pid hpid
  have hpositive := List.count_pos_iff.2 hmem
  split at hcount
  · rename_i hstate
    exact ⟨hstate, hcount⟩
  · omega

/-- A process that is not waiting expects no message. -/
theorem destinationOf_eq_none (h : Coherence S t mutexes mailboxes) (hpid : S pid)
    (hstate : t.stateOf pid ≠ some .waiting) : t.destinationOf pid = none := by
  have hcount := h.count_eq_zero hpid hstate
  have habsent : pid ∉ mailboxes.waiters := fun hmem =>
    List.count_eq_zero.1 hcount (List.mem_append_right _ hmem)
  rw [← h.destination pid hpid] at habsent
  simpa using habsent

/-! ## Changes of tasks alone -/

/-- A process is rewritten in fields that do not matter here. -/
theorem touch {slot : Slot} {f : Process → Process} (h : Coherence S t mutexes mailboxes)
    (hfind : t.table.find? pid = some slot)
    (hstate : (f (t.table.block slot)).state = (t.table.block slot).state)
    (hpid : (f (t.table.block slot)).pid = (t.table.block slot).pid)
    (hdestination : (f (t.table.block slot)).destination = (t.table.block slot).destination) :
    Coherence S (t.modify slot f) mutexes mailboxes := by
  have hlive := (ProcessTable.find?_eq_some hfind).1
  have hget := ProcessTable.get?_of_find? hfind
  have hrewrite := Tasks.rewrite_modify (f := f) h.tasks.table hfind
    (by rwa [Process.isLive, hstate]) hpid
  have hsame : (some (f (t.table.block slot))).map (·.state) = t.stateOf pid := by
    rw [Tasks.stateOf, hget, Option.map_some, Option.map_some, hstate]
  refine h.rewrite_tasks hrewrite (hrewrite.sound_of_same_state h.tasks hsame) ?_ ?_ ?_ ?_
  · intro hcurrent hpid
    rw [hsame]
    exact h.engaged pid hcurrent hpid
  · exact fun _ _ hcurrent => hcurrent
  · intro _
    rw [hsame]
  · intro _
    rw [Tasks.destinationOf, hget]
    exact congrArg Option.isSome hdestination

theorem create {entry now : UInt64} {name : String} (h : Coherence S t mutexes mailboxes)
    (hcreate : (t.create entry name now).outcome = .ok (pid, t')) :
    Coherence S t' mutexes mailboxes := by
  obtain ⟨hnext, hfresh, _, _, _, _, hrewrite⟩ := Tasks.rewrite_create h.tasks.table hcreate
  have hnobody : t.table.get? pid = none := hnext ▸ h.tasks.table.get?_nextPid
  have hstate : t.stateOf pid = none := by rw [Tasks.stateOf, hnobody]; rfl
  refine h.rewrite_tasks hrewrite ?_ ?_ ?_ ?_ ?_
  · exact hrewrite.sound_of_queued h.tasks hfresh rfl fun q _ => h.tasks.active q
  · intro hcurrent hpid
    have hactive := h.engaged pid hcurrent hpid
    rw [hstate] at hactive
    contradiction
  · exact fun _ _ hcurrent => hcurrent
  · intro _
    rw [hstate]
    simp [Tasks.newborn]
  · intro _
    rw [Tasks.destinationOf, hnobody]
    rfl

/-- A process that is destroyed must not be waiting. -/
theorem destroy {target : Option Pid} (h : Coherence S t mutexes mailboxes)
    (hdestroy : (t.destroy target).outcome = .ok t')
    (hrest : ∀ pid, target = some pid → S pid → t.stateOf pid ≠ some .waiting) :
    Coherence S t' mutexes mailboxes := by
  obtain ⟨pid, htarget, _, _, hrewrite⟩ := Tasks.rewrite_destroy h.tasks.table hdestroy
  refine h.rewrite_tasks hrewrite ?_ ?_ ?_ ?_ ?_
  · exact hrewrite.sound_of_stopped h.tasks (by simp) (by simp)
  · intro hself
    split at hself
    · contradiction
    · rename_i hother
      exact absurd hself hother
  · intro q _ hq
    split at hq
    · contradiction
    · exact hq
  · intro hpid
    simp [hrest pid htarget hpid]
  · intro hpid
    rw [h.destinationOf_eq_none hpid (hrest pid htarget hpid)]
    rfl

/-- The recorded process is not waiting. -/
theorem destroy_current (h : Coherence S t mutexes mailboxes)
    (hdestroy : (t.destroy t.current).outcome = .ok t') : Coherence S t' mutexes mailboxes := by
  refine h.destroy hdestroy fun pid hcurrent hpid => ?_
  rw [h.engaged pid hcurrent hpid]
  simp

/-- The recorded process goes to sleep. -/
theorem sleep {slot : Slot} {f : Process → Process} (h : Coherence S t mutexes mailboxes)
    (hcurrent : t.current = some pid) (hactive : t.stateOf pid = some .active)
    (hfind : t.table.find? pid = some slot) (hstate : (f (t.table.block slot)).state = .sleeping)
    (hpid : (f (t.table.block slot)).pid = (t.table.block slot).pid)
    (hdestination : (f (t.table.block slot)).destination = (t.table.block slot).destination) :
    Coherence S { t.modify slot f with sched := (t.modify slot f).sched.clearCurrent }
      mutexes mailboxes := by
  have hget := ProcessTable.get?_of_find? hfind
  have hrewrite := (Tasks.rewrite_modify (f := f) h.tasks.table hfind
    (by rw [Process.isLive, hstate]; rfl) hpid).clearCurrent
  have hqueued : pid ∉ t.queue := h.tasks.not_mem_queue (by rw [hactive]; simp)
  refine h.rewrite_tasks hrewrite ?_ ?_ ?_ ?_ ?_
  · refine hrewrite.sound h.tasks h.tasks.queue_nodup (fun _ _ => Iff.rfl) ?_ ?_ ?_ ?_
    · exact fun hmem => absurd hmem hqueued
    · intro hrunning
      simp [hstate] at hrunning
    · intro hrunning
      simp [hstate] at hrunning
    · exact fun q hq hother => absurd (h.tasks.eq_of_active hcurrent hother) hq
  · exact fun hnone => by contradiction
  · exact fun _ _ hnone => by contradiction
  · intro _
    rw [hactive]
    simp [hstate]
  · intro _
    rw [Tasks.destinationOf, hget]
    exact congrArg Option.isSome hdestination

/-- The recorded process is queued behind all others. -/
theorem yield {slot : Slot} {f : Process → Process} (h : Coherence S t mutexes mailboxes)
    (hcurrent : t.current = some pid) (hactive : t.stateOf pid = some .active)
    (hfind : t.table.find? pid = some slot) (hlive : (f (t.table.block slot)).isLive)
    (hpid : (f (t.table.block slot)).pid = (t.table.block slot).pid)
    (hdestination : (f (t.table.block slot)).destination = (t.table.block slot).destination)
    (henqueue : (t.modify slot f).enqueue slot = .ok t') :
    Coherence S { t' with sched := t'.sched.clearCurrent } mutexes mailboxes := by
  have hget := ProcessTable.get?_of_find? hfind
  obtain ⟨hfresh, hrewrite⟩ :=
    Tasks.rewrite_modify_enqueue h.tasks.table hfind hlive hpid henqueue
  replace hrewrite := hrewrite.clearCurrent
  refine h.rewrite_tasks hrewrite ?_ ?_ ?_ ?_ ?_
  · exact hrewrite.sound_of_queued h.tasks hfresh rfl fun q hq hother =>
      absurd (h.tasks.eq_of_active hcurrent hother) hq
  · exact fun hnone => by contradiction
  · exact fun _ _ hnone => by contradiction
  · intro _
    rw [hactive]
    simp
  · intro _
    rw [Tasks.destinationOf, hget]
    exact congrArg Option.isSome hdestination

/-! ## Joining and leaving a wait queue -/

/-- The recorded process joins one wait queue. -/
theorem join {process : Process} (h : Coherence S t mutexes mailboxes)
    (hcurrent : t.current = some pid) (hactive : t.stateOf pid = some .active)
    (hrewrite : Rewrite t t' pid (some { process with state := .waiting })
      (t.queue.filter (· ≠ pid)) (if t.current = some pid then none else t.current))
    (hmutexes : mutexes'.Sound)
    (hcounts : ∀ q, (waitersOf mutexes' mailboxes').count q =
      (waitersOf mutexes mailboxes).count q + [pid].count q)
    (hmember : S pid → (process.destination.isSome ↔ pid ∈ mailboxes'.waiters))
    (hmembers : ∀ q, q ≠ pid → (q ∈ mailboxes'.waiters ↔ q ∈ mailboxes.waiters)) :
    Coherence S t' mutexes' mailboxes' := by
  refine h.rewrite hrewrite ?_ hmutexes ?_ ?_ ?_ ?_ hmember hmembers
  · exact hrewrite.sound_of_stopped h.tasks (by simp) (by simp)
  · rw [if_pos hcurrent]
    exact fun hnone => by contradiction
  · rw [if_pos hcurrent]
    exact fun _ _ hnone => by contradiction
  · intro hpid
    rw [hcounts, h.count_eq_zero hpid (by rw [hactive]; simp), List.count_singleton_self]
    rfl
  · intro q hq
    rw [hcounts, List.count_singleton, if_neg (by simpa using fun heq => hq heq.symm), Nat.add_zero]

/-- A process leaves its wait queue and is queued behind all others. -/
theorem leave {process : Process} (h : Coherence S t mutexes mailboxes)
    (hfresh : pid ∉ t.queue)
    (hrewrite : Rewrite t t' pid (some { process with state := .running })
      (t.queue ++ [pid]) t.current)
    (hmutexes : mutexes'.Sound)
    (hcounts : ∀ q, (waitersOf mutexes mailboxes).count q =
      (waitersOf mutexes' mailboxes').count q + [pid].count q)
    (hmember : S pid → (process.destination.isSome ↔ pid ∈ mailboxes'.waiters))
    (hmembers : ∀ q, q ≠ pid → (q ∈ mailboxes'.waiters ↔ q ∈ mailboxes.waiters)) :
    Coherence S t' mutexes' mailboxes' := by
  have hself := hcounts pid
  rw [List.count_singleton_self] at hself
  have hmem : pid ∈ waitersOf mutexes mailboxes := List.count_pos_iff.1 (by omega)
  refine h.rewrite hrewrite ?_ hmutexes ?_ ?_ ?_ ?_ hmember hmembers
  · exact hrewrite.sound_of_queued h.tasks hfresh rfl fun q _ => h.tasks.active q
  · intro hcurrent hpid
    have hactive := h.engaged pid hcurrent hpid
    rw [(h.count_eq_one hpid hmem).1] at hactive
    contradiction
  · exact fun _ _ hcurrent => hcurrent
  · intro hpid
    have hone := (h.count_eq_one hpid hmem).2
    rw [Option.map_some, if_neg (by simp)]
    omega
  · intro q hq
    rw [hcounts q, List.count_singleton, if_neg (by simpa using fun heq => hq heq.symm),
      Nat.add_zero]

/-! ## Mutexes -/

/-- A change of mutexes that moves nobody. -/
theorem replace_mutexes (h : Coherence S t mutexes mailboxes) {index : MutexId}
    {mutex : Option Mutex} (hreplace : MutexTable.Replace mutexes mutexes' index mutex)
    (hwaiting : mutexes'.waitingAt index = mutexes.waitingAt index) :
    Coherence S t mutexes' mailboxes := by
  refine ⟨h.tasks, hreplace.sound, h.idle, h.engaged, fun pid hpid => ?_, h.destination⟩
  rw [← h.waiting pid hpid, waitersOf, waitersOf, List.count_append, List.count_append]
  have hcount := hreplace.count_waiters pid
  rw [hwaiting] at hcount
  omega

theorem mutexAlloc {index : MutexId} (h : Coherence S t mutexes mailboxes)
    (halloc : mutexes.alloc.outcome = .ok (index, mutexes')) :
    Coherence S t mutexes' mailboxes := by
  obtain ⟨hfree, hreplace⟩ := MutexTable.replace_alloc h.mutexes halloc
  apply h.replace_mutexes hreplace
  rw [hreplace.waitingAt, MutexTable.waitingAt_of_entry_none hfree]
  rfl

theorem mutexFree {id : UInt64} (h : Coherence S t mutexes mailboxes)
    (hrelease : (mutexes.release id).outcome = .ok mutexes') : Coherence S t mutexes' mailboxes := by
  obtain ⟨index, mutex, hfind, hcount, hreplace⟩ := MutexTable.replace_release h.mutexes hrelease
  have hentry := (MutexTable.find?_eq_some_iff.1 hfind).2
  apply h.replace_mutexes hreplace
  rw [MutexTable.waitingAt_of_entry_none hreplace.entry_self, MutexTable.waitingAt_of_entry hentry,
    (h.mutexes.mutex index mutex hentry).waiting_of_lockCount_zero hcount]

/-- A caller that has to wait joins one wait queue. -/
theorem mutexLock {id : UInt64} {previous : Nat} (h : Coherence S t mutexes mailboxes)
    (hcurrent : t.current = some pid) (hactive : t.stateOf pid = some .active)
    (hlock : (mutexes.lock id pid t).outcome = .ok (previous, mutexes', t')) :
    Coherence S t' mutexes' mailboxes := by
  obtain ⟨index, mutex, mutex', hfind, _, hreplace, _, hcases⟩ :=
    MutexTable.replace_lock h.mutexes hlock
  have hentry := (MutexTable.find?_eq_some_iff.1 hfind).2
  rcases hcases with ⟨_, hwaiting, rfl⟩ | ⟨hwaiting, hpark⟩
  · apply h.replace_mutexes hreplace
    rw [hreplace.waitingAt, MutexTable.waitingAt_of_entry hentry, hwaiting]
  obtain ⟨slot, hplace, hrewrite⟩ := Tasks.rewrite_park h.tasks.table hpark
  have hget := ProcessTable.get?_of_find? hplace
  refine h.join hcurrent hactive hrewrite hreplace.sound ?_ ?_ (fun _ _ => Iff.rfl)
  · intro q
    have hcount := hreplace.count_waiters q
    rw [hreplace.waitingAt, MutexTable.waitingAt_of_entry hentry, hwaiting, List.count_append]
      at hcount
    rw [waitersOf, waitersOf, List.count_append, List.count_append]
    omega
  · intro hpid
    rw [← h.destination pid hpid, Tasks.destinationOf, hget]
    rfl

/-- The next owner leaves the wait queue. -/
theorem mutexUnlock {id : UInt64} {lockCount : Nat} (h : Coherence S t mutexes mailboxes)
    (hunlock : (mutexes.unlock id pid t).outcome = .ok (lockCount, mutexes', t')) :
    Coherence S t' mutexes' mailboxes := by
  obtain ⟨index, mutex, hfind, _, hcases⟩ := MutexTable.replace_unlock h.mutexes hunlock
  have hentry := (MutexTable.find?_eq_some_iff.1 hfind).2
  rcases hcases with ⟨_, rfl, rfl⟩ | ⟨mutex', hreplace, _, ⟨_, hwaiting, rfl⟩ | hnext⟩
  · exact h
  · apply h.replace_mutexes hreplace
    rw [hreplace.waitingAt, MutexTable.waitingAt_of_entry hentry, hwaiting]
  obtain ⟨next, slot, hwaiting, hplace, henqueue⟩ := hnext
  obtain ⟨hfresh, hrewrite⟩ := Tasks.rewrite_enqueue h.tasks.table hplace henqueue
  have hget := ProcessTable.get?_of_find? hplace
  refine h.leave hfresh hrewrite hreplace.sound ?_ ?_ (fun _ _ => Iff.rfl)
  · intro q
    have hcount := hreplace.count_waiters q
    rw [hreplace.waitingAt, MutexTable.waitingAt_of_entry hentry, hwaiting,
      List.count_cons, ← List.count_singleton] at hcount
    rw [waitersOf, waitersOf, List.count_append, List.count_append]
    omega
  · intro hpid
    rw [← h.destination next hpid, Tasks.destinationOf, hget]
    rfl

/-! ## Mailboxes -/

/-- A receiver that waited for the message leaves the wait queue. -/
theorem send {id now : UInt64} {message stamped : Message} {handoff : Option Handoff}
    {sender : Pid} (h : Coherence S t mutexes mailboxes)
    (hsend : (mailboxes.send id message sender now t).outcome =
      .ok ((stamped, handoff), mailboxes', t')) : Coherence S t' mutexes mailboxes' := by
  obtain ⟨index, _, _, hothers, hcases⟩ := MailboxTable.send_cases hsend
  have hcount := MailboxTable.count_waiters hothers
  rcases hcases with ⟨_, rfl, hbefore, hafter, _⟩ | ⟨receiver, slot, destination, oldest, hhandoff⟩
  · -- nobody waited, so no wait queue changes
    simp only [hbefore, hafter, List.count_nil, Nat.add_zero] at hcount
    refine ⟨h.tasks, h.mutexes, h.idle, h.engaged, fun pid hpid => ?_, fun pid hpid => ?_⟩
    · rw [← h.waiting pid hpid, waitersOf, waitersOf, List.count_append, List.count_append, hcount]
    · rw [h.destination pid hpid, ← List.count_pos_iff, ← List.count_pos_iff, hcount]
  obtain ⟨_, hwaiting, _, hplace, _, henqueue⟩ := hhandoff
  have hlive := (ProcessTable.find?_eq_some hplace).1
  obtain ⟨hfresh, hrewrite⟩ :=
    Tasks.rewrite_modify_enqueue h.tasks.table hplace hlive rfl henqueue
  have hcounts (q : Pid) :
      mailboxes.waiters.count q = mailboxes'.waiters.count q + [receiver].count q := by
    have hcount := hcount q
    rw [hwaiting, List.count_cons, ← List.count_singleton] at hcount
    omega
  have hboth (q : Pid) : (waitersOf mutexes mailboxes).count q =
      (waitersOf mutexes mailboxes').count q + [receiver].count q := by
    rw [waitersOf, waitersOf, List.count_append, List.count_append, hcounts, Nat.add_assoc]
  refine h.leave hfresh hrewrite h.mutexes hboth ?_ ?_
  · intro hpid
    have hself := hboth receiver
    rw [List.count_singleton_self] at hself
    -- it stood on this wait queue and on no other, so it is on none now
    have hone := (h.count_eq_one hpid (List.count_pos_iff.1 (by omega))).2
    rw [waitersOf, List.count_append, hcounts, List.count_singleton_self] at hone
    have habsent : receiver ∉ mailboxes'.waiters := List.count_eq_zero.1 (by omega)
    exact ⟨fun hsome => by contradiction, fun hmem => absurd hmem habsent⟩
  · intro q hq
    rw [← List.count_pos_iff, ← List.count_pos_iff, hcounts, List.count_singleton,
      if_neg (by simpa using fun heq => hq heq.symm), Nat.add_zero]

/-- A receiver that finds no message joins the wait queue. -/
theorem receive {id destination now : UInt64} {received : Received}
    (h : Coherence S t mutexes mailboxes) (hcurrent : t.current = some pid)
    (hactive : t.stateOf pid = some .active)
    (hreceive : (mailboxes.receive id pid destination now t).outcome =
      .ok (received, mailboxes', t')) : Coherence S t' mutexes mailboxes' := by
  obtain ⟨index, _, hothers, hcases⟩ := MailboxTable.receive_cases hreceive
  have hcount := MailboxTable.count_waiters hothers
  rcases hcases with ⟨hsame, rfl, _⟩ | ⟨_, _, _, hwaiting, slot, hplace, hpark⟩
  · -- there was a message, so nobody starts to wait
    simp only [hsame, Nat.add_right_cancel_iff] at hcount
    refine ⟨h.tasks, h.mutexes, h.idle, h.engaged, fun pid hpid => ?_, fun pid hpid => ?_⟩
    · rw [← h.waiting pid hpid, waitersOf, waitersOf, List.count_append, List.count_append, hcount]
    · rw [h.destination pid hpid, ← List.count_pos_iff, ← List.count_pos_iff, hcount]
  have hlive := (ProcessTable.find?_eq_some hplace).1
  have hrewrite := Tasks.rewrite_modify_park h.tasks.table hplace hlive rfl hpark
  have hcounts (q : Pid) :
      mailboxes'.waiters.count q = mailboxes.waiters.count q + [pid].count q := by
    have hcount := hcount q
    rw [hwaiting, List.count_append] at hcount
    omega
  refine h.join hcurrent hactive hrewrite h.mutexes ?_ ?_ ?_
  · intro q
    rw [waitersOf, waitersOf, List.count_append, List.count_append, hcounts, Nat.add_assoc]
  · intro _
    have hself := hcounts pid
    rw [List.count_singleton_self] at hself
    have hmem : pid ∈ mailboxes'.waiters := List.count_pos_iff.1 (by omega)
    exact ⟨fun _ => hmem, fun _ => rfl⟩
  · intro q hq
    rw [← List.count_pos_iff, ← List.count_pos_iff, hcounts, List.count_singleton,
      if_neg (by simpa using fun heq => hq heq.symm), Nat.add_zero]

/-! ## Scheduling -/

/-- Every move of a pass keeps tables coherent. -/
theorem move {now : UInt64} (h : Coherence S t mutexes mailboxes) (hmove : Tasks.Move now t t') :
    Coherence S t' mutexes mailboxes := by
  have hsound := hmove.keeps_sound h.tasks
  cases hmove with
  | drop hcurrent hstate =>
      exact ⟨hsound, h.mutexes, h.idle, fun _ h => by contradiction, h.waiting, h.destination⟩
  | expire hcurrent hget hstate hfresh hrewrite =>
      rename_i pid p
      refine h.rewrite_tasks hrewrite hsound (fun h => by contradiction)
        (fun _ _ h => by contradiction) ?_ ?_
      · intro _
        rw [Tasks.stateOf, hget]
        simp [hstate]
      · intro _
        rw [Tasks.destinationOf, hget]
        rfl
  | wake hget hstate hdue hfresh hrewrite =>
      rename_i pid p
      have hsleeping : t.stateOf pid = some .sleeping := by
        rw [Tasks.stateOf, hget, Option.map_some, hstate]
      refine h.rewrite_tasks hrewrite hsound ?_ (fun _ _ h => h) ?_ ?_
      · intro hcurrent hpid
        have hactive := h.engaged pid hcurrent hpid
        rw [hsleeping] at hactive
        contradiction
      · intro _
        rw [hsleeping]
        simp
      · intro _
        rw [Tasks.destinationOf, hget]
        rfl
  | pick hcurrent hget hhead hrewrite =>
      rename_i pid p rest
      refine h.rewrite_tasks hrewrite hsound (fun _ _ => rfl) ?_ ?_ ?_
      · exact fun q hq hsome => absurd (Option.some.inj hsome).symm hq
      · intro hpid
        -- only idle is picked from any state; the others come from the run queue
        have hrunning : t.stateOf pid = some .running := by
          rcases hhead with hqueue | ⟨_, _, hself⟩
          · exact h.tasks.queued pid (hqueue ▸ List.mem_cons_self)
          · exact absurd (hself ▸ hpid) h.idle
        rw [hrunning]
        simp
      · intro _
        rw [Tasks.destinationOf, hget]
        rfl

theorem moves {now : UInt64} (h : Coherence S t mutexes mailboxes) (hmoves : Tasks.Moves now t t') :
    Coherence S t' mutexes mailboxes := by
  induction hmoves with
  | refl => exact h
  | tail _ hmove ih => exact ih.move hmove

end Coherence

end Timeshare
