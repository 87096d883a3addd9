import Timeshare.Fault
import Timeshare.Journal.Event

/-!
# Operations that report

An operation on the kernel's tables yields the events it reports, in order, and
either a result or the reason why there is none.  Events reported before an
operation stops are kept.  The tables themselves are passed and returned as
values, so an operation without a result has none to return.  That a refusal
also comes before the first change, where the same operation is carried out
step by step on tables that stay changed, is shown in `Timeshare.Proofs.Stepwise`.
-/

namespace Timeshare

open Journal (Event)

/-- The outcome of an operation and the events it reported on the way. -/
structure Run (ε α : Type) where
  /-- What was reported, oldest first. -/
  events : List Event
  /-- The result, or why there is none. -/
  outcome : Except ε α

namespace Run

variable {ε α β : Type}

/-- A result with nothing to report. -/
protected def pure (a : α) : Run ε α := ⟨[], .ok a⟩

/-- Go on with the result, unless there is none. -/
protected def bind (r : Run ε α) (f : α → Run ε β) : Run ε β :=
  match r.outcome with
  | .error e => ⟨r.events, .error e⟩
  | .ok a => ⟨r.events ++ (f a).events, (f a).outcome⟩

instance : Monad (Run ε) where
  pure := Run.pure
  bind := Run.bind

/-- Report an event. -/
def report (event : Event) : Run ε Unit := ⟨[event], .ok ()⟩

/-- End without a result. -/
def stop (e : ε) : Run ε α := ⟨[], .error e⟩

/-- Turn the request down. -/
def refuse (reason : Refusal) : Run Stop α := stop (.refused reason)

/-- Stop at a broken invariant. -/
def breach (what : Breach) : Run Fault α := stop (.breach what)

/-- A checked step, with nothing to report. -/
def check (r : Except ε α) : Run ε α := ⟨[], r⟩

/-- An operation that only faults, among operations that may be refused. -/
def orFault (r : Run Fault α) : Run Stop α :=
  ⟨r.events, match r.outcome with
    | .ok a => .ok a
    | .error f => .error (.fault f)⟩

instance : MonadLift (Except ε) (Run ε) := ⟨check⟩

instance : MonadLift (Run Fault) (Run Stop) := ⟨orFault⟩

@[simp] theorem events_pure (a : α) : (pure a : Run ε α).events = [] := rfl

@[simp] theorem outcome_pure (a : α) : (pure a : Run ε α).outcome = .ok a := rfl

@[simp] theorem events_report (event : Event) : (report event : Run ε Unit).events = [event] := rfl

@[simp] theorem outcome_report (event : Event) :
    (report event : Run ε Unit).outcome = .ok () := rfl

@[simp] theorem events_stop (e : ε) : (stop e : Run ε α).events = [] := rfl

@[simp] theorem outcome_stop (e : ε) : (stop e : Run ε α).outcome = .error e := rfl

@[simp] theorem events_check (r : Except ε α) : (check r).events = [] := rfl

@[simp] theorem outcome_check (r : Except ε α) : (check r).outcome = r := rfl

/-- The outcome of a sequence depends on the outcomes of its parts only. -/
theorem outcome_bind (r : Run ε α) (f : α → Run ε β) :
    (r >>= f).outcome = r.outcome.bind fun a => (f a).outcome := by
  show (Run.bind r f).outcome = _
  unfold Run.bind
  cases r.outcome <;> rfl

/-- A sequence has a result exactly when both of its parts have one. -/
theorem outcome_bind_eq_ok_iff {r : Run ε α} {f : α → Run ε β} {b : β} :
    (r >>= f).outcome = .ok b ↔ ∃ a, r.outcome = .ok a ∧ (f a).outcome = .ok b := by
  rw [outcome_bind]
  cases r.outcome with
  | error e =>
    constructor
    · intro h
      contradiction
    · rintro ⟨_, h, _⟩
      contradiction
  | ok a =>
    constructor
    · intro h
      exact ⟨a, rfl, h⟩
    · rintro ⟨_, same, h⟩
      cases same
      exact h

theorem bind_of_ok {r : Run ε α} {a : α} (h : r.outcome = .ok a) (f : α → Run ε β) :
    r >>= f = ⟨r.events ++ (f a).events, (f a).outcome⟩ := by
  show Run.bind r f = _
  unfold Run.bind
  rw [h]

theorem bind_of_error {r : Run ε α} {e : ε} (h : r.outcome = .error e) (f : α → Run ε β) :
    r >>= f = ⟨r.events, .error e⟩ := by
  show Run.bind r f = _
  unfold Run.bind
  rw [h]

instance : LawfulMonad (Run ε) := LawfulMonad.mk' _
  (by
    intro α ⟨events, outcome⟩
    cases outcome with
    | error e => rfl
    | ok a => exact congrArg (Run.mk · _) (List.append_nil events))
  (fun _ _ => rfl)
  (by
    intro α β γ ⟨events, outcome⟩ f g
    cases outcome with
    | error e => rfl
    | ok a =>
      show Run.bind (Run.bind _ f) g = Run.bind _ fun a => Run.bind (f a) g
      cases h : (f a).outcome <;> simp [Run.bind, h])

end Run

end Timeshare
