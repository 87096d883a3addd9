import Timeshare.Proofs.Ring.Registers
import Timeshare.Proofs.Scheduler.Queue

/-!
# Taking a process off the run queue

The queue is turned once around: as often as there were items at first, the oldest is taken and
put back at the end unless it is the process to go.  What is left is the queue without that
process, in its old order, wherever in the ring it begins and however full it is.  Kept in
registers, the queue turns the same way, and no index or sum on the way is out of range.
-/

namespace Timeshare

namespace Ring

variable {α : Type} {n : Nat}

/-- The cells of a ring with all the numbers that say where its items are. -/
def registers (q : Ring α n) : Registers α n := ⟨q.cells, q.head, q.index q.size, q.size⟩

theorem matches_registers (q : Ring α n) : q.registers.Matches q := ⟨rfl, rfl, rfl, rfl⟩

theorem Registers.Matches.eq {r : Registers α n} {q : Ring α n} (hmatches : r.Matches q) :
    r = q.registers := by
  obtain ⟨cells, head, tail, count⟩ := r
  obtain ⟨rfl, rfl, rfl, rfl⟩ := hmatches
  rfl

variable [Inhabited α] {q r : Ring α n} {a : α}

theorem registers_pop (hcapacity : n < Word.range) (hpop : q.pop = some (a, r)) :
    q.registers.pop = .ok (.taken (some a), r.registers) := by
  have hmatch := q.matches_registers.pop hcapacity
  rw [hpop] at hmatch
  obtain ⟨r', hr', hmatches⟩ := hmatch
  rw [hr', hmatches.eq]

omit [Inhabited α] in
theorem registers_push (hcapacity : n < Word.range) (hpush : q.push a = some r) :
    q.registers.push a = .ok (.kept, r.registers) := by
  have hmatch := q.matches_registers.push hcapacity a
  rw [hpush] at hmatch
  obtain ⟨r', hr', hmatches⟩ := hmatch
  rw [hr', hmatches.eq]

end Ring

namespace Scheduler

/-- Take `steps` items from the front of a queue in registers and put all but `pid` back at the
end. -/
def cycleRegisters (pid : Pid) : (steps : Nat) → Ring.Registers Pid queueCapacity →
    Except Fault (Ring.Registers Pid queueCapacity)
  | 0, queue => .ok queue
  | steps + 1, queue => do
      match ← queue.pop with
      | (.taken (some queued), queue) =>
          if queued = pid then cycleRegisters pid steps queue
          else
            match ← queue.push queued with
            | (.kept, queue) => cycleRegisters pid steps queue
            | _ => .error (.breach (.notRequeued queued))
      | _ => .error (.breach .runQueueDry)

/-- Registers turn as the ring does. -/
theorem cycleRegisters_eq_ok {pid : Pid} {steps : Nat} {queue after : Ring Pid queueCapacity}
    (hcycle : cycle pid steps queue = .ok after) :
    cycleRegisters pid steps queue.registers = .ok after.registers := by
  have hcapacity : queueCapacity < Word.range := by decide
  induction steps generalizing queue with
  | zero =>
      injection hcycle with heq
      rw [heq]
      rfl
  | succ steps ih =>
      unfold cycle at hcycle
      unfold cycleRegisters
      cases hpop : queue.pop with
      | none =>
          rw [hpop] at hcycle
          contradiction
      | some taken =>
          obtain ⟨queued, popped⟩ := taken
          simp only [hpop] at hcycle
          simp only [Ring.registers_pop hcapacity hpop, bind, Except.bind]
          by_cases hqueued : queued = pid
          · rw [if_pos hqueued] at hcycle ⊢
            exact ih hcycle
          · rw [if_neg hqueued] at hcycle ⊢
            cases hpush : popped.push queued with
            | none =>
                rw [hpush] at hcycle
                contradiction
            | some pushed =>
                rw [hpush] at hcycle
                simp only [Ring.registers_push hcapacity hpush]
                exact ih hcycle

/-- Taking a process off the run queue never faults.  It leaves the queue without the process,
the others in order, and all else as it was; a queue without the process stays as it is. -/
theorem remove_filters (sched : Scheduler) (pid : Pid) :
    ∃ runQueue, sched.remove pid = .ok { sched with runQueue } ∧
      runQueue.toList = sched.runQueue.toList.filter (· ≠ pid) ∧
      (pid ∉ sched.runQueue.toList → runQueue.toList = sched.runQueue.toList) ∧
      cycleRegisters pid sched.runQueue.size sched.runQueue.registers = .ok runQueue.registers := by
  obtain ⟨runQueue, hcycle, hlist⟩ :=
    toList_cycle pid sched.runQueue.toList [] sched.runQueue (List.append_nil _).symm
  rw [Ring.length_toList] at hcycle
  rw [List.nil_append] at hlist
  refine ⟨runQueue, ?_, hlist, fun habsent => ?_, cycleRegisters_eq_ok hcycle⟩
  · rw [remove, hcycle]
    rfl
  · rw [hlist, List.filter_eq_self]
    intro queued hqueued
    exact decide_eq_true fun heq => habsent (heq ▸ hqueued)

/-- A full queue that wraps around behind its second item, each of four processes in it sixteen
times. -/
def crowded : Scheduler where
  runQueue :=
    { cells := Vector.ofFn fun i => ⟨UInt32.ofNat (i.val % 4)⟩
      head := 62
      size := 64
      head_le := by decide
      size_le := by decide }
  current := some ⟨1⟩

/-- The other three keep their turns. -/
theorem remove_filters_crowded :
    ∃ runQueue, crowded.remove ⟨1⟩ = .ok { crowded with runQueue } ∧
      runQueue.toList = (List.replicate 16 [⟨2⟩, ⟨3⟩, ⟨0⟩]).flatten := by
  obtain ⟨runQueue, hremove, hlist, _⟩ := remove_filters crowded ⟨1⟩
  refine ⟨runQueue, hremove, ?_⟩
  rw [hlist]
  decide +kernel

end Scheduler

end Timeshare
