import Timeshare.Proofs.Kernel.Replay

/-!
# Where every process is

Between traps every live process is in one place: the active one is recorded by
the scheduler, ready ones are on the run queue, sleeping ones are nowhere, and
waiting ones are on one wait queue.  Idle is the exception: it is ready without
being queued, and it may be run while it sleeps or waits.
-/

namespace Timeshare.Kernel

open Machine (Simulated)

variable {P : Type} [Platform P] {k : Kernel P} {log : List (Happening P)}

theorem stateOf_eq_some {t : Tasks} {pid : Pid} {state : ProcessState}
    (hstate : t.stateOf pid = some state) :
    ∃ slot, (t.table.block slot).pid = pid ∧ (t.table.block slot).state = state ∧
      (t.table.block slot).isLive := by
  obtain ⟨p, hget, rfl⟩ := Option.map_eq_some_iff.1 hstate
  obtain ⟨slot, _, hblock, hlive, hpid⟩ := ProcessTable.get?_eq_some hget
  exact ⟨slot, by rw [hblock, hpid], by rw [hblock], by rwa [hblock]⟩

theorem stateOf_block {t : Tasks} (hsound : t.table.Sound) {slot : Slot}
    (hlive : (t.table.block slot).isLive) :
    t.stateOf (t.table.block slot).pid = some (t.table.block slot).state := by
  rw [Tasks.stateOf, hsound.distinct.get?_block hlive]
  rfl

theorem isLive_of_state {p : Process} {state : ProcessState} (hstate : p.state = state)
    (hlive : state ≠ .free) : p.isLive = true := by
  simpa [Process.isLive, hstate] using hlive

/-- One process is active and recorded, and the run queue holds the ready ones. -/
structure InPlace (t : Tasks) : Prop where
  /-- Exactly one process is active, the recorded one. -/
  active : ∃ slot pid, t.sched.current = some pid ∧ (t.table.block slot).pid = pid ∧
    ∀ other, (t.table.block other).state = .active ↔ other = slot
  queued_once : t.sched.runQueue.toList.Nodup
  /-- Every queued pid is that of a live process, which is ready. -/
  queued_ready : ∀ pid ∈ t.sched.runQueue.toList, ∃ p, t.table.get? pid = some p ∧
    p.state = .running
  /-- Nobody who is active, sleeps or waits is queued. -/
  others_not_queued : ∀ slot, (t.table.block slot).isLive →
    (t.table.block slot).state ≠ .running →
    (t.table.block slot).pid ∉ t.sched.runQueue.toList
  ready_queued : ∀ slot, (t.table.block slot).state = .running →
    (t.table.block slot).pid ≠ .idle → (t.table.block slot).pid ∈ t.sched.runQueue.toList

/-- Between traps every active and every ready process is in its place. -/
theorem history_inPlace (hhistory : History log k) : InPlace k.tasks := by
  obtain ⟨hcoherent, pid, hcurrent, hactive⟩ := hhistory.coherent
  have hsound := hcoherent.tasks
  refine ⟨?_, hsound.queue_nodup, ?_, ?_, ?_⟩
  · obtain ⟨slot, hpid, hstate, hlive⟩ := stateOf_eq_some hactive
    refine ⟨slot, pid, hcurrent, hpid, fun other => ⟨fun hother => ?_, fun heq => heq ▸ hstate⟩⟩
    have hlive' : (k.tasks.table.block other).isLive = true := isLive_of_state hother (by simp)
    have hsame := hcoherent.tasks.eq_of_active hcurrent
      (by rw [stateOf_block hsound.table hlive', hother])
    exact hsound.table.distinct other slot hlive' hlive (hsame.trans hpid.symm)
  · intro queued hmem
    exact Option.map_eq_some_iff.1 (hsound.queued queued hmem)
  · intro slot hlive hstate
    apply hsound.not_mem_queue
    rw [stateOf_block hsound.table hlive]
    exact fun heq => hstate (Option.some.inj heq)
  · intro slot hrunning hidle
    have hlive : (k.tasks.table.block slot).isLive = true := isLive_of_state hrunning (by simp)
    exact hsound.ready _ (by rw [stateOf_block hsound.table hlive, hrunning]) hidle

/-- A holder that is ready, a process that waits for it and a sleeper: idle is active
and only the holder is queued. -/
theorem inPlace_with_holder_and_sleeper :
    ∃ r : Recorded Simulated, History r.1 r.2 ∧
      (r.2.tasks.stateOf ⟨2⟩ = some .waiting ∧ r.2.tasks.stateOf ⟨3⟩ = some .sleeping ∧
        r.2.tasks.sched.runQueue.toList = [⟨1⟩] ∧ r.2.tasks.sched.current = some .idle) ∧
      InPlace r.2.tasks := by
  obtain ⟨r, hhistory, hcheck⟩ := exists_history [callFrame .yield 0 0,
    callFrame .mutexAlloc 0 0, callFrame .mutexLock 0 0, callFrame .yield 0 0,
    callFrame .mutexLock 0 0, callFrame .sleep 1 0]
    (fun r => decide (r.2.tasks.stateOf ⟨2⟩ = some .waiting ∧
      r.2.tasks.stateOf ⟨3⟩ = some .sleeping ∧ r.2.tasks.sched.runQueue.toList = [⟨1⟩] ∧
      r.2.tasks.sched.current = some .idle)) (by decide +kernel)
  exact ⟨r, hhistory, of_decide_eq_true hcheck, history_inPlace hhistory⟩

/-- The wait queues hold exactly the waiting processes, idle left aside, each of
them once; those of the mailboxes hold the ones that expect a message. -/
structure WaitersInPlace (k : Kernel P) : Prop where
  once : ((waitersOf k.mutexes k.mailboxes).filter (· ≠ .idle)).Nodup
  mem_iff : ∀ pid, pid ≠ .idle → (pid ∈ waitersOf k.mutexes k.mailboxes ↔
    ∃ p, k.tasks.table.get? pid = some p ∧ p.state = .waiting)
  destination_iff : ∀ pid p, pid ≠ .idle → k.tasks.table.get? pid = some p →
    (p.destination.isSome ↔ pid ∈ k.mailboxes.waiters)

/-- Between traps every waiting process is on exactly one wait queue. -/
theorem history_waitersInPlace (hhistory : History log k) : WaitersInPlace k := by
  have hcoherent := hhistory.coherent.1
  refine ⟨?_, ?_, ?_⟩
  · rw [List.nodup_iff_count_le_one]
    intro pid
    by_cases hidle : pid = .idle
    · rw [List.count_eq_zero_of_not_mem (by simp [hidle])]
      exact Nat.zero_le _
    · rw [List.count_filter (by simpa using hidle), hcoherent.waiting pid hidle]
      split <;> simp
  · intro pid hidle
    rw [← List.count_pos_iff, hcoherent.waiting pid hidle, ← Option.map_eq_some_iff]
    show _ ↔ k.tasks.stateOf pid = some .waiting
    split <;> simp [*]
  · intro pid p hidle hget
    rw [← hcoherent.destination pid hidle, Tasks.destinationOf, hget]
    rfl

/-- Two processes wait, one behind the holder of a mutex and one for a message. -/
theorem waitersInPlace_behind_holder_and_mailbox :
    ∃ r : Recorded Simulated, History r.1 r.2 ∧
      (waitersOf r.2.mutexes r.2.mailboxes = [⟨2⟩, ⟨3⟩] ∧ r.2.mailboxes.waiters = [⟨3⟩] ∧
        r.2.tasks.destinationOf ⟨3⟩ = some 0x1000) ∧
      WaitersInPlace r.2 := by
  obtain ⟨r, hhistory, hcheck⟩ := exists_history [callFrame .yield 0 0,
    callFrame .mutexAlloc 0 0, callFrame .mutexLock 0 0, callFrame .yield 0 0,
    callFrame .mutexLock 0 0, callFrame .receive 4 0x1000]
    (fun r => decide (waitersOf r.2.mutexes r.2.mailboxes = [⟨2⟩, ⟨3⟩] ∧
      r.2.mailboxes.waiters = [⟨3⟩] ∧ r.2.tasks.destinationOf ⟨3⟩ = some 0x1000))
    (by decide +kernel)
  exact ⟨r, hhistory, of_decide_eq_true hcheck, history_waitersInPlace hhistory⟩

end Timeshare.Kernel
