import Timeshare.Tasks

/-!
# Dealings with a table

A table is asked for one thing after another.  It serves a request and changes, or it
turns the request down and stays as it is; a request on which it faults ends the
dealings.  What was asked and answered is taken down, the oldest first.
-/

namespace Timeshare

/-- Requests and the answers to them, the oldest first. -/
abbrev Dealings (Request Answer : Type) : Type := List (Request × Except Refusal Answer)

/-- How a table serves requests, and which request may come next. -/
structure Desk (Request Answer Table : Type) where
  empty : Table
  serve : Table → Request → Tasks → Run Stop (Answer × Table × Tasks)
  Admits : Dealings Request Answer → Request → Prop

namespace Desk

variable {Request Answer Table : Type}

/-- The table behind requests to an empty one.  Processes and the run queue may change in
between, so every request finds them as it likes. -/
inductive Dealt (desk : Desk Request Answer Table) : Dealings Request Answer → Table → Prop
  | start : Dealt desk [] desk.empty
  | served {log : Dealings Request Answer} {table after : Table} {request : Request}
      {answer : Answer} {t t' : Tasks} (hdealt : Dealt desk log table)
      (hadmits : desk.Admits log request)
      (hserve : (desk.serve table request t).outcome = .ok (answer, after, t')) :
      Dealt desk (log ++ [(request, .ok answer)]) after
  | refused {log : Dealings Request Answer} {table : Table} {request : Request} {reason : Refusal}
      {t : Tasks} (hdealt : Dealt desk log table) (hadmits : desk.Admits log request)
      (hserve : (desk.serve table request t).outcome = .error (.refused reason)) :
      Dealt desk (log ++ [(request, .error reason)]) table

/-! ## Computed dealings -/

variable (desk : Desk Request Answer Table) [∀ log request, Decidable (desk.Admits log request)]

/-- Serve requests in order, as long as they may come and none of them faults. -/
def deal : List Request → Dealings Request Answer → Table → Tasks →
    Option (Dealings Request Answer × Table)
  | [], log, table, _ => some (log, table)
  | request :: rest, log, table, t =>
      if desk.Admits log request then
        match (desk.serve table request t).outcome with
        | .ok (answer, after, t') => deal rest (log ++ [(request, .ok answer)]) after t'
        | .error (.refused reason) => deal rest (log ++ [(request, .error reason)]) table t
        | .error (.fault _) => none
      else none

variable {desk}

theorem dealt_of_deal {requests : List Request} {log : Dealings Request Answer} {table : Table}
    {t : Tasks} {r : Dealings Request Answer × Table} (hdealt : desk.Dealt log table)
    (hdeal : desk.deal requests log table t = some r) : desk.Dealt r.1 r.2 := by
  induction requests generalizing log table t with
  | nil =>
      injection hdeal with heq
      exact heq ▸ hdealt
  | cons request rest ih =>
      unfold deal at hdeal
      split at hdeal
      · rename_i hadmits
        split at hdeal
        · rename_i hserve
          exact ih (hdealt.served hadmits hserve) hdeal
        · rename_i hserve
          exact ih (hdealt.refused hadmits hserve) hdeal
        · contradiction
      · contradiction

/-- Tasks with `count` processes. -/
def staffed : (count : Nat) → Option Tasks
  | 0 => some .empty
  | count + 1 => (staffed count).bind fun t =>
      (t.create 0x1000 "worker" 0).outcome.toOption.map (·.2)

variable (desk) in
/-- Dealings of `count` processes with an empty table. -/
theorem exists_dealt (count : Nat) (requests : List Request)
    (Q : Dealings Request Answer → Table → Bool)
    (hdeal : ((staffed count).bind fun t => desk.deal requests [] desk.empty t).any
      (fun r => Q r.1 r.2) = true) :
    ∃ log table, desk.Dealt log table ∧ Q log table = true := by
  obtain ⟨r, hr, hcheck⟩ := (Option.any_eq_true ..).1 hdeal
  obtain ⟨t, _, hr⟩ := Option.bind_eq_some_iff.1 hr
  exact ⟨r.1, r.2, dealt_of_deal .start hr, hcheck⟩

end Desk

end Timeshare
