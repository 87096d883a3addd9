import Timeshare.Process.Basic
import Timeshare.Ring

/-!
# The process table

The table has a fixed number of places and a queue of the free ones.  Places
are used again, pids are not, so a process is named by its pid and its place is
looked up when it is needed.
-/

namespace Timeshare

/-- The places for processes, the free places and the next pid. -/
structure ProcessTable where
  slots : Vector Process processCapacity
  /-- The free places, in the order in which they are taken. -/
  free : Ring Slot queueCapacity
  nextPid : UInt32

namespace ProcessTable

/-- A table without processes. -/
def empty : ProcessTable where
  slots := Vector.replicate processCapacity Process.vacant
  free := Ring.empty.pushAll Slot.all
  nextPid := 0

instance : Inhabited ProcessTable := ⟨empty⟩

/-- The control block at a place. -/
def block (table : ProcessTable) (slot : Slot) : Process := table.slots[slot]

/-- Replace the control block at a place. -/
def put (table : ProcessTable) (slot : Slot) (block : Process) : ProcessTable :=
  { table with slots := table.slots.set slot block }

/-- Change the control block at a place. -/
def modify (table : ProcessTable) (slot : Slot) (f : Process → Process) : ProcessTable :=
  table.put slot (f (table.block slot))

/-- The place of a live process. -/
def find? (table : ProcessTable) (pid : Pid) : Option Slot :=
  Slot.all.find? fun slot => (table.block slot).isLive && (table.block slot).pid == pid

/-- The control block of a live process. -/
def get? (table : ProcessTable) (pid : Pid) : Option Process :=
  (table.find? pid).map table.block

/-- The place of a process that has to live. -/
def expect (table : ProcessTable) (pid : Pid) : Except Fault Slot :=
  match table.find? pid with
  | none => .error (.breach (.missingProcess pid))
  | some slot => .ok slot

/-- The places that hold a process, in table order. -/
def live (table : ProcessTable) : List Slot :=
  Slot.all.filter fun slot => (table.block slot).isLive

/-- The number of places that are not in the queue of free places. -/
def size (table : ProcessTable) : Nat := processCapacity - table.free.size

/-- Whether no place is taken. -/
def isEmpty (table : ProcessTable) : Bool := table.size == 0

/-- Whether every place is taken. -/
def isFull (table : ProcessTable) : Bool := table.free.isEmpty

@[simp] theorem block_put_self (table : ProcessTable) (slot : Slot) (p : Process) :
    (table.put slot p).block slot = p := by
  simp [put, block]

theorem block_put_of_ne (table : ProcessTable) {slot other : Slot} (p : Process)
    (h : other ≠ slot) : (table.put slot p).block other = table.block other := by
  have : slot.val ≠ other.val := fun e => h (Fin.ext e.symm)
  simp [put, block, Vector.getElem_set_ne, this]

@[simp] theorem block_modify_self (table : ProcessTable) (slot : Slot) (f : Process → Process) :
    (table.modify slot f).block slot = f (table.block slot) :=
  block_put_self table slot _

theorem block_modify_of_ne (table : ProcessTable) {slot other : Slot} (f : Process → Process)
    (h : other ≠ slot) : (table.modify slot f).block other = table.block other :=
  block_put_of_ne table _ h

end ProcessTable

end Timeshare
