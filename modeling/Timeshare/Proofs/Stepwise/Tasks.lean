import Timeshare.Proofs.Stepwise.Basic
import Timeshare.Proofs.Tasks.Rewrite

/-!
# Processes, step by step

A process is created in the place it will have: the place leaves the queue of free ones, is
cleared and filled in field by field, and its process is queued.  A process is destroyed in
its place, which is cleared and returned.  A refusal comes before all of this.
-/

namespace Timeshare.Kernel.Stepwise

variable {P : Type} {α : Type} {k : Kernel P}

/-- Change the processes and the scheduler. -/
def changeTasks (f : Tasks → Tasks) : Handler P Unit :=
  modify fun k => { k with tasks := f k.tasks }

/-- Change the process table. -/
def changeTable (f : ProcessTable → ProcessTable) : Handler P Unit :=
  changeTasks fun t => { t with table := f t.table }

/-- Change the control block at a place. -/
def changeBlock (slot : Slot) (f : Process → Process) : Handler P Unit :=
  changeTasks fun t => t.modify slot f

/-- Change the scheduler, which may fault. -/
def changeSched (f : Scheduler → Except Fault Scheduler) : Handler P Unit := do
  let sched ← orFault (check (f (← get).tasks.sched))
  changeTasks fun t => { t with sched }

@[simp] theorem changeTable_bind (f : ProcessTable → ProcessTable) (next : Unit → Handler P α) :
    (changeTable f >>= next) k =
      next () { k with tasks := { k.tasks with table := f k.tasks.table } } := rfl

@[simp] theorem changeBlock_bind (slot : Slot) (f : Process → Process) (next : Unit → Handler P α) :
    (changeBlock slot f >>= next) k = next () { k with tasks := k.tasks.modify slot f } := rfl

theorem changeSched_bind (f : Scheduler → Except Fault Scheduler) (next : Unit → Handler P α) :
    (changeSched f >>= next) k =
      match f k.tasks.sched with
      | .error fault => .error (.fault fault) k
      | .ok sched => next () { k with tasks := { k.tasks with sched } } := by
  unfold changeSched
  rw [bind_assoc, get_bind, bind_assoc, orFault_check_bind]
  cases f k.tasks.sched <;> rfl

/-! ## The run queue -/

/-- Queue the process at a place and mark it running. -/
def enqueue (slot : Slot) : Handler P Unit := do
  let pid := ((← get).tasks.table.block slot).pid
  changeSched fun sched => sched.enqueue pid
  changeBlock slot fun p => { p with state := .running }

/-- Take a process off the run queue and the processor. -/
def remove (pid : Pid) : Handler P Unit := do
  changeSched fun sched => sched.remove pid
  changeTasks fun t => { t with sched := t.sched.release pid }

/-- Mark the process at a place waiting and take it off the run queue and the processor. -/
def park (pid : Pid) (slot : Slot) : Handler P Unit := do
  changeBlock slot fun p => { p with state := .waiting }
  remove pid

theorem enqueue_bind (slot : Slot) (next : Unit → Handler P α) :
    (enqueue slot >>= next) k =
      match k.tasks.enqueue slot with
      | .error fault => .error (.fault fault) k
      | .ok tasks => next () { k with tasks } := by
  unfold enqueue Tasks.enqueue
  rw [bind_assoc, get_bind, bind_assoc, changeSched_bind]
  cases k.tasks.sched.enqueue (k.tasks.table.block slot).pid <;> rfl

theorem remove_bind (pid : Pid) (next : Unit → Handler P α) :
    (remove pid >>= next) k =
      match k.tasks.sched.remove pid with
      | .error fault => .error (.fault fault) k
      | .ok sched => next () { k with tasks := { k.tasks with sched := sched.release pid } } := by
  unfold remove
  rw [bind_assoc, changeSched_bind]
  rfl

/-- A process that cannot be taken off the run queue has been marked by then. -/
theorem park_bind {pid : Pid} {slot : Slot} (hfind : k.tasks.table.find? pid = some slot)
    (next : Unit → Handler P α) :
    (park pid slot >>= next) k =
      match k.tasks.park pid with
      | .error fault => .error (.fault fault)
          { k with tasks := k.tasks.modify slot fun p => { p with state := .waiting } }
      | .ok tasks => next () { k with tasks } := by
  have hexpect : k.tasks.table.expect pid = .ok slot := ProcessTable.expect_eq_ok_iff.2 hfind
  unfold park Tasks.park
  rw [bind_assoc, changeBlock_bind, remove_bind, hexpect]
  show (match k.tasks.sched.remove pid with
    | .error fault => _
    | .ok sched => _) = _
  cases k.tasks.sched.remove pid <;> rfl

/-! ## Creating and destroying -/

/-- Clear a place and fill it in for a process that starts at `entry`. -/
def settle (slot : Slot) (pid : Pid) (entry : UInt64) (name : String) (now : UInt64) :
    Handler P Unit := do
  changeBlock slot fun _ => Process.vacant
  changeBlock slot fun p => { p with pid }
  changeBlock slot fun p => { p with name := ProcessName.ofText name }
  changeBlock slot fun p => { p with startTime := now }
  let context ← orFault (check (Frame.start entry slot.stackTop))
  changeBlock slot fun p => { p with context }

theorem modify_modify (t : Tasks) (slot : Slot) (f g : Process → Process) :
    (t.modify slot f).modify slot g = t.modify slot fun p => g (f p) :=
  congrArg (fun table => { t with table }) (t.table.modify_modify slot f g)

/-- Where no first frame can be made, the place has been filled in up to it. -/
theorem settle_bind (slot : Slot) (pid : Pid) (entry : UInt64) (name : String) (now : UInt64)
    (next : Unit → Handler P α) :
    (settle slot pid entry name now >>= next) k =
      let block := { Process.vacant with pid, name := ProcessName.ofText name, startTime := now }
      match Frame.start entry slot.stackTop with
      | .error fault => .error (.fault fault) { k with tasks := k.tasks.modify slot fun _ => block }
      | .ok context =>
          next () { k with tasks := k.tasks.modify slot fun _ => { block with context } } := by
  unfold settle
  simp only [bind_assoc, changeBlock_bind, orFault_check_bind, modify_modify]
  cases Frame.start entry slot.stackTop <;> rfl

variable [Platform P]

/-- Create a process that starts at `entry`, in the free place that has waited longest. -/
def create (entry : UInt64) (name : String) (now : UInt64) : Handler P Pid := do
  if entry = 0 then throw (.fault (.breach (.nullEntry name)))
  else
    match (← get).tasks.table.free.pop with
    | none => do
        report (.noPlace name)
        refuse .tableFull
    | some (slot, free) => do
        changeTable fun table => { table with free }
        let pid : Pid := ⟨(← get).tasks.table.nextPid⟩
        let nextPid ← orFault (check (Word.next32 pid.number))
        changeTable fun table => { table with nextPid }
        settle slot pid entry name now
        enqueue slot
        report (.created ((← get).tasks.table.block slot).name.text pid slot)
        return pid

/-- Destroy a process and clear its place.  The idle process stays. -/
def destroy (pid : Option Pid) : Handler P Unit := do
  match pid with
  | none => do
      report .exitOfNobody
      refuse .noCurrentProcess
  | some pid =>
      if pid.isIdle then do
        report .exitOfIdle
        refuse .idleProcess
      else
        match (← get).tasks.table.find? pid with
        | none => throw (.fault (.breach (.exitOfStranger pid)))
        | some slot => do
            remove pid
            report (.exiting ((← get).tasks.table.block slot).name.text pid slot)
            changeBlock slot fun _ => Process.vacant
            match (← get).tasks.table.free.push slot with
            | none => throw (.fault (.breach (.placeNotReleased slot)))
            | some free => changeTable fun table => { table with free }

/-- Queueing a process that was filled in is the end of its creation. -/
theorem agrees_created {slot : Slot} {t : Tasks} {name : String} (pid : Pid)
    (hname : (t.table.block slot).name = ProcessName.ofText name) (k : Kernel P) :
    Agrees
      ((do
        enqueue slot
        report (.created ((← get).tasks.table.block slot).name.text pid slot)
        return pid : Handler P Pid) { k with tasks := t })
      (carry (do
        let t ← liftM (t.enqueue slot)
        Run.report (.created (ProcessName.ofText name).text pid slot)
        return (pid, t)) (·.1) (fun made k => { k with tasks := made.2 }) k) := by
  rw [enqueue_bind]
  dsimp only
  cases henqueue : t.enqueue slot with
  | error fault => exact .fault rfl
  | ok queued =>
      have hqueued : (queued.table.block slot).name = ProcessName.ofText name := by
        rw [(Tasks.enqueue_eq_ok henqueue).2.1, ProcessTable.block_modify_self]
        exact hname
      dsimp only
      rw [get_bind, hqueued]
      exact .of_eq rfl

theorem agrees_create (entry : UInt64) (name : String) (now : UInt64) (k : Kernel P) :
    Agrees (create entry name now k)
      (carry (k.tasks.create entry name now) (·.1)
        (fun made k => { k with tasks := made.2 }) k) := by
  unfold create Tasks.create
  by_cases hentry : entry = 0
  · rw [if_pos hentry, if_pos hentry]
    exact .fault rfl
  rw [if_neg hentry, if_neg hentry, get_bind]
  cases hpop : k.tasks.table.free.pop with
  | none => exact .of_eq rfl
  | some found =>
      obtain ⟨slot, free⟩ := found
      dsimp only
      rw [changeTable_bind, get_bind, orFault_check_bind]
      cases hnext : Word.next32 k.tasks.table.nextPid with
      | error fault => exact .fault rfl
      | ok nextPid =>
          dsimp only
          rw [changeTable_bind, settle_bind]
          cases hstart : Frame.start entry slot.stackTop with
          | error fault => exact .fault rfl
          | ok context =>
              refine agrees_created _ ?_ k
              exact congrArg Process.name (ProcessTable.block_fill ..)

theorem agrees_destroy (pid : Option Pid) (k : Kernel P) :
    Agrees (destroy pid k)
      (carry (k.tasks.destroy pid) (fun _ => ()) (fun tasks k => { k with tasks }) k) := by
  unfold destroy Tasks.destroy
  cases pid with
  | none => exact .of_eq rfl
  | some pid =>
      dsimp only
      by_cases hidle : pid.isIdle
      · rw [if_pos hidle, if_pos hidle]
        exact .of_eq rfl
      rw [if_neg hidle, if_neg hidle, get_bind]
      cases hfind : k.tasks.table.find? pid with
      | none => exact .fault rfl
      | some slot =>
          dsimp only
          rw [remove_bind]
          cases hremove : k.tasks.sched.remove pid with
          | error fault => exact .fault rfl
          | ok sched =>
              dsimp only
              rw [get_bind, report_bind, changeBlock_bind, get_bind]
              dsimp only [Tasks.modify, ProcessTable.modify, ProcessTable.put]
              cases hpush : k.tasks.table.free.push slot with
              | none => exact .fault rfl
              | some free => exact .of_eq rfl

end Timeshare.Kernel.Stepwise
