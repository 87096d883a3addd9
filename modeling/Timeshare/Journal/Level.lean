/-!
# Log lines

A log line shows its level in colour, then where it comes from, then its text.
-/

namespace Timeshare.Journal

/-- How important a log record is. -/
inductive Level where
  | error
  | warn
  | info
  | debug
  | trace
  deriving DecidableEq

namespace Level

/-- The place of a level in the order from the gravest to the most detailed. -/
def rank : Level → Nat
  | error => 1
  | warn => 2
  | info => 3
  | debug => 4
  | trace => 5

/-- The level with a given name, in capitals or not. -/
def ofName? (name : String) : Option Level :=
  match name.toLower with
  | "error" => some error
  | "warn" => some warn
  | "info" => some info
  | "debug" => some debug
  | "trace" => some trace
  | _ => none

/-- Whether a record of this level passes the limit; no limit lets nothing pass. -/
def passes (level : Level) : Option Level → Bool
  | none => false
  | some limit => level.rank ≤ limit.rank

/-- The level's label, five characters wide. -/
def label : Level → String
  | error => "ERROR"
  | warn => " WARN"
  | info => " INFO"
  | debug => "DEBUG"
  | trace => "TRACE"

/-- The terminal sequence that selects the level's colour. -/
def colour : Level → String
  | error => "\x1b[31m"
  | warn => "\x1b[33m"
  | info => "\x1b[32m"
  | debug => "\x1b[36m"
  | trace => "\x1b[90m"

/-- All labels have one width, so the lines of a log line up. -/
theorem length_label (level : Level) : level.label.length = 5 := by
  cases level <;> rfl

end Level

/-- One record of the log. -/
structure Record where
  /-- How important the record is. -/
  level : Level
  /-- Where the record comes from. -/
  source : String
  /-- What it says. -/
  text : String
  deriving DecidableEq

/-- A record as one line of the terminal. -/
def Record.line (record : Record) : String :=
  record.level.colour ++ "[" ++ record.level.label ++ "]\x1b[0m " ++ record.source ++ ": "
    ++ record.text ++ "\n"

end Timeshare.Journal
