/-!
# Operator keys

Three keys are reserved for the operator: one destroys the active process, one
shows or hides the statistics panel and one halts the machine.  Every other key
may be bound to a program that it starts.
-/

namespace Timeshare

/-- A program that can be started: its name and its entry address. -/
structure Program where
  name : String
  entry : UInt64
  deriving DecidableEq

/-- What a key asks for. -/
inductive Command where
  /-- Destroy the active process. -/
  | exitActive
  /-- Show or hide the statistics panel. -/
  | toggleStats
  /-- Halt the machine. -/
  | halt
  /-- Start a program. -/
  | spawn (program : Program)
  deriving DecidableEq

/-- The keys that were bound and whether the panel is shown. -/
structure Console where
  showStats : Bool
  /-- Each bound key once, with its program. -/
  bindings : List (Char × Program)

namespace Console

/-- A console on which no key is bound. -/
def ofShowStats (showStats : Bool) : Console := ⟨showStats, []⟩

/-- The meaning of the reserved keys. -/
def reserved? : Char → Option Command
  | 'x' => some .exitActive
  | 's' => some .toggleStats
  | 'q' => some .halt
  | _ => none

/-- The bindings with `key` bound to `program`, in place of an earlier binding. -/
def rebind (key : Char) (program : Program) : List (Char × Program) → List (Char × Program)
  | [] => [(key, program)]
  | (other, bound) :: rest =>
      if other = key then (key, program) :: rest
      else (other, bound) :: rebind key program rest

/-- Bind a key to a program, unless the key is reserved. -/
def bind? (console : Console) (key : Char) (program : Program) : Option Console :=
  match reserved? key with
  | some _ => none
  | none => some { console with bindings := rebind key program console.bindings }

/-- What a key asks for, if anything. -/
def command? (console : Console) (key : Char) : Option Command :=
  match reserved? key with
  | some command => some command
  | none => (console.bindings.lookup key).map .spawn

/-- The panel shown if it was hidden and hidden if it was shown. -/
def toggleStats (console : Console) : Console :=
  { console with showStats := !console.showStats }

end Console

end Timeshare
