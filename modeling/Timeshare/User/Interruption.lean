import Timeshare.Fault

/-!
# Why the run of a program is broken off
-/

namespace Timeshare.User

/-- The reasons for which a gate ends a run. -/
inductive Interruption where
  /-- The program made more calls than it was allowed. -/
  | callLimit
  /-- The process did not get the processor in time. -/
  | neverActive
  /-- The process has exited. -/
  | exited
  /-- The kernel faulted. -/
  | fault (fault : Fault)
  deriving DecidableEq

end Timeshare.User
