import Timeshare.Kernel.Basic

/-!
# The statistics panel

The panel lists the live processes on the left, the allocated mutexes in the
middle and the system time on the right, with two dividers between them.
-/

namespace Timeshare.Kernel

variable {P : Type} [Platform P]

/-- A text at a place of the display. -/
structure Span where
  row : Nat
  column : Nat
  style : Style
  text : String
  deriving DecidableEq

namespace Panel

/-- The width of the display. -/
def width : Nat := 80

/-- The column of the mutexes. -/
def mutexColumn : Nat := 50

/-- The column of the system time. -/
def timeColumn : Nat := 72

/-- The columns of the dividers. -/
def dividerColumns : List Nat := [48, 70]

/-- The style of a process's line. -/
def styleOf : ProcessState → Style
  | .active => .active
  | .sleeping => .sleeping
  | .waiting => .waiting
  | .free | .running => .plain

/-- The line of a process: place, pid, state, processor time in seconds, name. -/
def processLine (slot : Slot) (p : Process) (seconds : UInt64) : String :=
  Text.alignRight 5 (toString slot.val) ++ "  " ++ Text.alignRight 5 (toString p.pid) ++ "  "
    ++ Text.alignRight 4 (String.singleton p.state.letter) ++ "  "
    ++ Text.alignRight 8 (toString seconds) ++ "   " ++ p.name.text

/-- The owner of a mutex as a number, or minus one if nobody owns it. -/
def ownerText : Option Pid → String
  | none => "-1"
  | some pid => toString pid

/-- The line of a mutex: number, owner, lock count. -/
def mutexLine (id : MutexId) (mutex : Mutex) : String :=
  Text.alignRight 5 (toString id.val) ++ "  " ++ Text.alignRight 5 (ownerText mutex.owner) ++ "  "
    ++ Text.alignRight 5 (toString mutex.lockCount)

/-- The heads of the columns and the system time. -/
def heads (seconds : UInt64) : List Span :=
  [⟨0, 0, .header, Text.alignLeft width "Entry    PID   State    Time   Command"⟩,
   ⟨0, mutexColumn, .header, "Mutex  Owner  Locks"⟩,
   ⟨0, timeColumn, .header, "Sys Time"⟩,
   ⟨1, timeColumn, .plain, Text.alignRight 8 (toString seconds)⟩]

/-- The lines of the live processes, from row one on. -/
def processes (table : ProcessTable) (ticksPerSecond : UInt64) : Except Fault (List Span) :=
  table.live.zipIdx.mapM fun (slot, row) => do
    let p := table.block slot
    let seconds ← Word.div p.cpuTime ticksPerSecond
    return ⟨row + 1, 0, styleOf p.state, processLine slot p seconds⟩

/-- The lines of the allocated mutexes, from row one on. -/
def mutexes (table : MutexTable) : List Span :=
  table.allocated.zipIdx.map fun ((id, mutex), row) =>
    ⟨row + 1, mutexColumn, .plain, mutexLine id mutex⟩

/-- The dividers of the first `rows` rows. -/
def dividers (rows : Nat) : List Span :=
  (List.range rows).flatMap fun row => dividerColumns.map fun column => ⟨row, column, .header, "║"⟩

/-- The whole panel, in the order in which it is painted. -/
def spans (k : Kernel P) : Except Fault (List Span) := do
  let seconds ← k.clock.seconds k.config.ticksPerSecond
  let lines ← processes k.tasks.table k.config.ticksPerSecond
  let rows := max k.tasks.table.size k.mutexes.allocated.length + 1
  return heads seconds ++ lines ++ mutexes k.mutexes ++ dividers rows

end Panel

/-- Paint one text. -/
def paintSpan (span : Span) : Step P Unit := do
  check (← onPlatform (Platform.paint span.row span.column span.style span.text))

/-- Paint texts in order. -/
def paintAll : List Span → Step P Unit
  | [] => pure ()
  | span :: rest => do
      paintSpan span
      paintAll rest

/-- Paint the statistics panel. -/
def paintStats : Step P Unit := do
  paintAll (← check (Panel.spans (← get)))

end Timeshare.Kernel
