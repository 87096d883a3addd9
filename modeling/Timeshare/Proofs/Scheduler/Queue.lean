import Timeshare.Proofs.Ring
import Timeshare.Scheduler

/-!
# The run queue as a list

`enqueue` appends a process that is not queued, `remove` filters a process out
and leaves the others in order, and `release` touches the active process only.
Taking a process off the queue never fails.
-/

namespace Timeshare.Scheduler

/-- The queued processes, in the order in which they run. -/
def queue (sched : Scheduler) : List Pid := sched.runQueue.toList

@[simp] theorem current_clearCurrent (sched : Scheduler) :
    sched.clearCurrent.current = none := rfl

@[simp] theorem queue_release (sched : Scheduler) (pid : Pid) :
    (sched.release pid).queue = sched.queue := by
  unfold release
  split <;> rfl

theorem current_release (sched : Scheduler) (pid : Pid) :
    (sched.release pid).current = if sched.current = some pid then none else sched.current := by
  unfold release
  split <;> simp

/-! ## Appending -/

/-- An appended process was not queued; it stands behind all others. -/
theorem queue_enqueue {sched after : Scheduler} {pid : Pid}
    (henqueue : sched.enqueue pid = .ok after) :
    pid ∉ sched.queue ∧ after.queue = sched.queue ++ [pid] ∧ after.current = sched.current := by
  unfold enqueue at henqueue
  split at henqueue
  · contradiction
  rename_i hfresh
  rw [Ring.contains_iff_mem] at hfresh
  split at henqueue
  · contradiction
  rename_i runQueue hpush
  injection henqueue with heq
  subst heq
  exact ⟨hfresh, Ring.toList_push hpush, rfl⟩

/-- A process that is not queued can be appended while there is room. -/
theorem exists_enqueue {sched : Scheduler} {pid : Pid} (hfresh : pid ∉ sched.queue)
    (hroom : sched.queue.length < queueCapacity) :
    ∃ after, sched.enqueue pid = .ok after := by
  obtain ⟨runQueue, hpush, _⟩ := Ring.exists_push hroom pid
  refine ⟨{ sched with runQueue }, ?_⟩
  have habsent : ¬ sched.runQueue.contains pid = true := by
    rwa [Ring.contains_iff_mem]
  rw [enqueue, if_neg habsent, hpush]

/-! ## Taking off -/

/-- Cycling goes through the front of the queue: what it keeps of it ends up
behind the rest. -/
theorem toList_cycle (pid : Pid) (front rest : List Pid) (queue : Ring Pid queueCapacity)
    (hqueue : queue.toList = front ++ rest) :
    ∃ after, cycle pid front.length queue = .ok after ∧
      after.toList = rest ++ front.filter (· ≠ pid) := by
  induction front generalizing rest queue with
  | nil => exact ⟨queue, rfl, by simpa using hqueue⟩
  | cons first front ih =>
      rw [List.cons_append] at hqueue
      have hlength := queue.length_toList_le
      obtain ⟨popped, hpop, hpopped⟩ := Ring.exists_pop hqueue
      simp only [List.length_cons, cycle, hpop]
      by_cases hfirst : first = pid
      · rw [if_pos hfirst]
        obtain ⟨after, hcycle, hafter⟩ := ih rest popped hpopped
        exact ⟨after, hcycle, by simpa [hfirst] using hafter⟩
      · rw [if_neg hfirst]
        have hroom : popped.toList.length < queueCapacity := by
          rw [hqueue, List.length_cons] at hlength
          rw [hpopped]
          omega
        obtain ⟨pushed, hpush, hpushed⟩ := Ring.exists_push hroom first
        rw [hpush]
        -- the item just put back belongs to the rest from here on
        obtain ⟨after, hcycle, hafter⟩ := ih (rest ++ [first]) pushed (by
          rw [hpushed, hpopped, List.append_assoc])
        exact ⟨after, hcycle, by simpa [hfirst] using hafter⟩

/-- Taking a process off the queue always succeeds and deletes just its
entries. -/
theorem exists_remove (sched : Scheduler) (pid : Pid) :
    ∃ after, sched.remove pid = .ok after ∧
      after.queue = sched.queue.filter (· ≠ pid) ∧ after.current = sched.current := by
  obtain ⟨runQueue, hcycle, hlist⟩ :=
    toList_cycle pid sched.queue [] sched.runQueue (List.append_nil _).symm
  rw [queue, Ring.length_toList] at hcycle
  refine ⟨{ sched with runQueue }, ?_, hlist.trans (List.nil_append _), rfl⟩
  rw [remove, hcycle]
  rfl

theorem queue_remove {sched after : Scheduler} {pid : Pid}
    (hremove : sched.remove pid = .ok after) :
    after.queue = sched.queue.filter (· ≠ pid) ∧ after.current = sched.current := by
  obtain ⟨other, hother, hqueue⟩ := sched.exists_remove pid
  rw [hremove] at hother
  injection hother with heq
  rwa [heq]

/-! ## The next process -/

/-- The next process is the head of the queue, or idle if nobody is queued. -/
theorem toList_pop_getD (queue : Ring Pid queueCapacity) :
    let next := queue.pop.getD (.idle, queue)
    queue.toList = next.1 :: next.2.toList ∨
      queue.toList = [] ∧ next.2.toList = [] ∧ next.1 = .idle := by
  cases hpop : queue.pop with
  | none =>
      have hempty := Ring.toList_of_pop_eq_none hpop
      exact .inr ⟨hempty, hempty, rfl⟩
  | some taken => exact .inl (Ring.toList_pop hpop)

end Timeshare.Scheduler
