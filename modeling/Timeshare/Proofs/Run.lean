import Timeshare.Run

/-!
# Outcomes of checked steps

A checked step inside an operation on tables ends as it would end alone; its
fault stays a fault where the operation may also be refused.
-/

namespace Timeshare

/-- A checked sequence has a result exactly when both of its parts have one. -/
theorem bind_eq_ok_iff {ε α β : Type} {r : Except ε α} {f : α → Except ε β} {b : β} :
    (r >>= f) = .ok b ↔ ∃ a, r = .ok a ∧ f a = .ok b := by
  cases r with
  | error e => exact ⟨fun h => by contradiction, fun ⟨_, h, _⟩ => by contradiction⟩
  | ok a => exact ⟨fun h => ⟨a, rfl, h⟩, fun ⟨_, hsame, h⟩ => by cases hsame; exact h⟩

theorem toOption_eq_some_iff {ε α : Type} {r : Except ε α} {a : α} :
    r.toOption = some a ↔ r = .ok a := by
  cases r with
  | error e => exact ⟨fun h => by contradiction, fun h => by contradiction⟩
  | ok b => exact ⟨fun h => congrArg _ (Option.some.inj h), fun h => by rw [h]; rfl⟩

/-- Checked steps that all have results have them in order. -/
theorem mapM_eq_ok {ε α β : Type} {f : α → Except ε β} {g : α → β} {items : List α}
    (hf : ∀ a ∈ items, f a = .ok (g a)) : items.mapM f = .ok (items.map g) := by
  induction items with
  | nil => rfl
  | cons a rest ih =>
      rw [List.mapM_cons, hf a List.mem_cons_self,
        ih fun a hmem => hf a (List.mem_cons_of_mem _ hmem)]
      rfl

namespace Run

variable {α β : Type}

@[simp] theorem outcome_lift (r : Except Fault α) : (liftM r : Run Fault α).outcome = r := rfl

@[simp] theorem outcome_lift_ok (a : α) :
    (liftM (.ok a : Except Fault α) : Run Stop α).outcome = .ok a := rfl

@[simp] theorem outcome_lift_error (fault : Fault) :
    (liftM (.error fault : Except Fault α) : Run Stop α).outcome = .error (.fault fault) := rfl

theorem lift_ok_bind (a : α) (f : α → Run Stop β) :
    (liftM (.ok a : Except Fault α) : Run Stop α) >>= f = f a := rfl

@[simp] theorem outcome_refuse (reason : Refusal) :
    (refuse reason : Run Stop α).outcome = .error (.refused reason) := rfl

theorem outcome_lift_eq_ok_iff {r : Except Fault α} {a : α} :
    (liftM r : Run Stop α).outcome = .ok a ↔ r = .ok a := by
  cases r <;> simp

theorem outcome_orFault_eq_ok_iff {r : Run Fault α} {a : α} :
    (orFault r).outcome = .ok a ↔ r.outcome = .ok a := by
  unfold orFault
  cases r.outcome <;> simp

/-- A sequence whose first part has a result goes on with it. -/
theorem outcome_bind_of_ok {ε : Type} {r : Run ε α} {a : α} (h : r.outcome = .ok a)
    (f : α → Run ε β) : (r >>= f).outcome = (f a).outcome := by
  rw [bind_of_ok h]

/-- A sequence of parts that have results has one. -/
theorem exists_bind {ε : Type} {r : Run ε α} {f : α → Run ε β} (hfirst : ∃ a, r.outcome = .ok a)
    (hrest : ∀ a, r.outcome = .ok a → ∃ b, (f a).outcome = .ok b) :
    ∃ b, (r >>= f).outcome = .ok b := by
  obtain ⟨a, ha⟩ := hfirst
  obtain ⟨b, hb⟩ := hrest a ha
  exact ⟨b, (outcome_bind_of_ok ha f).trans hb⟩

/-- A checked step faults or goes on, so it is what follows that is refused. -/
theorem refused_lift_bind {r : Except Fault α} {f : α → Run Stop β} {reason : Refusal}
    (hrefused : ((liftM r : Run Stop α) >>= f).outcome = .error (.refused reason)) :
    ∃ a, r = .ok a ∧ (f a).outcome = .error (.refused reason) := by
  cases r with
  | ok a => exact ⟨a, rfl, (outcome_bind_of_ok (outcome_lift_ok a) f).symm.trans hrefused⟩
  | error fault =>
      rw [outcome_bind, outcome_lift_error] at hrefused
      injection hrefused with hstop
      contradiction

/-- A sequence stops in its first part or behind it. -/
theorem error_of_bind {ε : Type} {r : Run ε α} {f : α → Run ε β} {e : ε}
    (hstop : (r >>= f).outcome = .error e) :
    r.outcome = .error e ∨ ∃ a, r.outcome = .ok a ∧ (f a).outcome = .error e := by
  rw [outcome_bind] at hstop
  cases hr : r.outcome with
  | error other =>
      rw [hr] at hstop
      injection hstop with heq
      exact .inl (by rw [heq])
  | ok a =>
      rw [hr] at hstop
      exact .inr ⟨a, rfl, hstop⟩

/-- A sequence that cannot stop in its second part stops where the first one does. -/
theorem outcome_bind_eq_error_iff {ε : Type} {r : Run ε α} {f : α → Run ε β} {e : ε}
    (hrest : ∀ a, ∃ b, (f a).outcome = .ok b) :
    (r >>= f).outcome = .error e ↔ r.outcome = .error e := by
  rw [outcome_bind]
  cases r.outcome with
  | error other =>
      show (Except.error other : Except ε β) = .error e ↔ _
      rw [Except.error.injEq, Except.error.injEq]
  | ok a =>
      obtain ⟨b, hb⟩ := hrest a
      show (f a).outcome = .error e ↔ _
      rw [hb]
      exact ⟨fun h => by contradiction, fun h => by contradiction⟩

/-! ## Runs that do not fault -/

/-- The run has a result or is refused. -/
def Faultless (r : Run Stop α) : Prop := ∀ fault, r.outcome ≠ .error (.fault fault)

theorem Faultless.of_ok {r : Run Stop α} {a : α} (hok : r.outcome = .ok a) : r.Faultless := by
  intro fault hfault
  rw [hok] at hfault
  contradiction

theorem Faultless.of_refused {r : Run Stop α} {reason : Refusal}
    (hrefused : r.outcome = .error (.refused reason)) : r.Faultless := by
  intro fault hfault
  rw [hrefused] at hfault
  injection hfault with hstop
  contradiction

theorem Faultless.lift {r : Except Fault α} (hok : ∃ a, r = .ok a) :
    (liftM r : Run Stop α).Faultless := by
  obtain ⟨a, ha⟩ := hok
  exact .of_ok (outcome_lift_eq_ok_iff.2 ha)

/-- A sequence of parts that do not fault does not fault. -/
theorem Faultless.bind {r : Run Stop α} {f : α → Run Stop β} (hfirst : r.Faultless)
    (hrest : ∀ a, r.outcome = .ok a → (f a).Faultless) : (r >>= f).Faultless := by
  intro fault hfault
  rw [outcome_bind] at hfault
  cases hr : r.outcome with
  | ok a =>
      rw [hr] at hfault
      exact hrest a hr fault hfault
  | error stop =>
      rw [hr] at hfault
      injection hfault with hstop
      exact hfirst fault (hr.trans (congrArg Except.error hstop))

end Run

end Timeshare
