/-!
# Capacities of the kernel

Every table of the kernel has a fixed size, given here once.  A queue holds
more entries than there are processes, so a queue of distinct processes never
fills up.
-/

namespace Timeshare

/-- The number of processes that may live at once. -/
abbrev processCapacity : Nat := 24

/-- The longest process name, in bytes. -/
abbrev nameCapacity : Nat := 32

/-- The bytes of each process's stack. -/
abbrev stackCapacity : Nat := 8192

/-- The capacity of the run queue, of the free lists and of every wait queue. -/
abbrev queueCapacity : Nat := 64

/-- The number of mutexes. -/
abbrev mutexCapacity : Nat := 16

/-- The number of mailboxes. -/
abbrev mailboxCapacity : Nat := 10

/-- The messages that one mailbox buffers. -/
abbrev bufferCapacity : Nat := 64

/-- The payload bytes of a message. -/
abbrev payloadSize : Nat := 256

/-- The bytes a message takes in the memory of a process. -/
abbrev wireSize : Nat := 280

/-- A place in the process table. -/
abbrev Slot : Type := Fin processCapacity

/-- The first place of the process table. -/
def Slot.first : Slot := ⟨0, by decide⟩

instance : Inhabited Slot := ⟨Slot.first⟩

/-- Every place of the process table, in table order. -/
def Slot.all : List Slot := List.finRange processCapacity

/-- What may be tuned when a kernel is set up. -/
structure Config where
  /-- Ticks a process may keep the processor before it is preempted. -/
  timeSlice : UInt64 := 5
  /-- Timer ticks in a second. -/
  ticksPerSecond : UInt64 := 100
  /-- Whether the statistics panel is painted from the start. -/
  showStats : Bool := true
  deriving DecidableEq, Inhabited

end Timeshare
