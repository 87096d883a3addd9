import Timeshare.Kernel.Lifecycle

/-!
# Acting on the operator's keys
-/

namespace Timeshare.Kernel

variable {P : Type} [Platform P]

/-- Bind a key to a program.  The result says whether the key was free to bind. -/
def bindKey (key : Char) (program : Program) : Step P Bool := do
  match (← get).console.bind? key program with
  | none => return false
  | some console => do
      modify fun k => { k with console }
      return true

/-- Carry out what a key asks for. -/
def obey : Command → Step P Unit
  | .exitActive => do
      match ← attempt (exit (← get).current) with
      | .ok () => pure ()
      | .error reason => report (.exitRefused reason)
  | .toggleStats => do
      modify fun k => { k with console := k.console.toggleStats }
      onPlatform fun p => ((), Platform.clearScreen p)
  | .halt => do
      report .haltRequested
      onPlatform fun p => ((), Platform.halt p)
  | .spawn program => do
      match ← attempt (spawn program.entry program.name) with
      | .ok pid => report (.started program.name pid)
      | .error reason => report (.startRefused program.name reason)

/-- Act on a key, if it means anything. -/
def handleKey (key : Char) : Step P Unit := do
  match (← get).console.command? key with
  | none => pure ()
  | some command => obey command

end Timeshare.Kernel
