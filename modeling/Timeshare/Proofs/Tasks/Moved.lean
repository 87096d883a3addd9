import Timeshare.Proofs.Tasks.Rewrite

/-!
# Processes that are parked and queued

Parking a process and queueing it set its state and change the run queue and the
processor.  Every other process is left as it is, whatever the table is like: the
control block keeps its pid and stays live, so every pid is found where it was.
-/

namespace Timeshare

namespace Tasks

variable {before after t t' : Tasks} {pid : Pid} {slot : Slot}

/-- `after` is `before` except for the state of the live process `pid`, the run queue and
the active process. -/
structure Moved (before after : Tasks) (pid : Pid) (state : ProcessState) (queue : List Pid)
    (current : Option Pid) : Prop where
  live : (before.table.get? pid).isSome
  get? : ∀ q, after.table.get? q =
    if q = pid then (before.table.get? pid).map fun p => { p with state } else before.table.get? q
  queue : after.queue = queue
  current : after.current = current

/-- The process waits: it is not queued and has not got the processor. -/
def Parked (before after : Tasks) (pid : Pid) : Prop :=
  Moved before after pid .waiting (before.queue.filter (· ≠ pid))
    (if before.current = some pid then none else before.current)

/-- The process was not queued and is ready behind all others. -/
def Readied (before after : Tasks) (pid : Pid) : Prop :=
  pid ∉ before.queue ∧ Moved before after pid .running (before.queue ++ [pid]) before.current

/-- The place stays taken, so setting the state moves nobody else. -/
theorem moved_of_modify {state : ProcessState} {queue : List Pid} {current : Option Pid}
    (hfind : t.table.find? pid = some slot) (hstate : state ≠ .free)
    (hmodify : t'.table = t.table.modify slot fun p => { p with state })
    (hqueue : t'.queue = queue) (hcurrent : t'.current = current) :
    Moved t t' pid state queue current := by
  have hget := ProcessTable.get?_of_find? hfind
  refine ⟨by rw [hget]; rfl, fun q => ?_, hqueue, hcurrent⟩
  rw [hmodify, ProcessTable.get?_modify hfind (by simpa [Process.isLive] using hstate) rfl, hget]
  rfl

theorem parked_of_park (hpark : t.park pid = .ok t') : Parked t t' pid := by
  obtain ⟨slot, hfind, hmodify, hqueue, hcurrent⟩ := park_eq_ok hpark
  exact moved_of_modify hfind (by decide) hmodify hqueue hcurrent

theorem readied_of_enqueue (hfind : t.table.find? pid = some slot)
    (henqueue : t.enqueue slot = .ok t') : Readied t t' pid := by
  obtain ⟨_, hname⟩ := ProcessTable.find?_eq_some hfind
  obtain ⟨hfresh, hmodify, hqueue, hcurrent⟩ := enqueue_eq_ok henqueue
  rw [hname] at hfresh hqueue
  exact ⟨hfresh, moved_of_modify hfind (by decide) hmodify hqueue hcurrent⟩

/-- A process can be parked as long as it lives. -/
theorem find?_of_park_error {fault : Fault} (hpark : t.park pid = .error fault) :
    t.table.find? pid = none := by
  cases hfind : t.table.find? pid with
  | none => rfl
  | some slot =>
      obtain ⟨after, hafter⟩ := exists_park hfind
      rw [hafter] at hpark
      contradiction

/-- A process can be queued unless it is queued or the run queue is full. -/
theorem queue_of_enqueue_error {fault : Fault} (hfind : t.table.find? pid = some slot)
    (henqueue : t.enqueue slot = .error fault) :
    pid ∈ t.queue ∨ t.queue.length = queueCapacity := by
  by_contra hcan
  obtain ⟨hfresh, hlength⟩ := not_or.1 hcan
  have hbound := t.sched.runQueue.length_toList_le
  obtain ⟨after, hafter⟩ := exists_enqueue hfind hfresh (Nat.lt_of_le_of_ne hbound hlength)
  rw [hafter] at henqueue
  contradiction

end Tasks

end Timeshare
