/-!
# Process identifiers

A pid is given out in order of creation and never given out again.  The
process with the lowest pid is the idle process.
-/

namespace Timeshare

/-- The identifier of a process. -/
structure Pid where
  /-- The position of the process in the order of creation. -/
  number : UInt32
  deriving DecidableEq, Inhabited

namespace Pid

/-- The idle process, which runs when no other process can. -/
def idle : Pid := ⟨0⟩

/-- Whether `pid` is the idle process. -/
def isIdle (pid : Pid) : Bool := pid == idle

instance : ToString Pid := ⟨fun pid => toString pid.number⟩

/-- An absent or present pid, as diagnostics spell it. -/
def describe : Option Pid → String
  | none => "None"
  | some pid => s!"Some(Pid({pid}))"

end Pid

end Timeshare
