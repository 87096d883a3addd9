import Timeshare.Proofs.Kernel.Leads

/-!
# Operations carried out step by step

An operation on tables takes the tables and returns changed ones, so an operation that is
refused cannot have changed any.  A kernel changes the tables it has, one step after the
other, and whatever was done before a refusal stays done.  A handler that works like this
agrees with the operation if it ends in the same way: with the same result, the same
reports and the same tables, after a refusal as well.  Only a fault may find the tables half
way, and nothing runs after a fault.
-/

namespace Timeshare.Kernel

variable {P : Type} {α β : Type} {k k' : Kernel P}
  {result expected : EStateM.Result Stop (Kernel P) α}

/-- The result is the expected one.  If that is a fault, it is this fault with the same done
to the machine, whatever has become of the tables. -/
def Agrees (result expected : EStateM.Result Stop (Kernel P) α) : Prop :=
  match expected with
  | .ok a k => result = .ok a k
  | .error (.refused reason) k => result = .error (.refused reason) k
  | .error (.fault fault) k => ∃ k', result = .error (.fault fault) k' ∧ k'.platform = k.platform

namespace Agrees

theorem refl (result : EStateM.Result Stop (Kernel P) α) : Agrees result result := by
  cases result with
  | ok a k => exact rfl
  | error stop k =>
      cases stop with
      | refused reason => exact rfl
      | fault fault => exact ⟨k, rfl, rfl⟩

theorem of_eq (h : result = expected) : Agrees result expected := h ▸ refl result

/-- A fault of the same kind, with the same done to the machine. -/
theorem fault {fault : Fault} (h : k.platform = k'.platform) :
    Agrees (.error (.fault fault) k : EStateM.Result Stop (Kernel P) α)
      (.error (.fault fault) k') :=
  ⟨k, rfl, h⟩

/-- Results that agree are the same, or they are faults. -/
theorem same_or_fault (h : Agrees result expected) :
    result = expected ∨ ∃ fault k₁ k₂, result = .error (.fault fault) k₁ ∧
      expected = .error (.fault fault) k₂ ∧ k₁.platform = k₂.platform := by
  cases expected with
  | ok a k => exact .inl h
  | error stop k =>
      cases stop with
      | refused reason => exact .inl h
      | fault fault =>
          obtain ⟨k₁, hresult, hplatform⟩ := h
          exact .inr ⟨fault, k₁, k, hresult, rfl, hplatform⟩

theorem ok_iff (h : Agrees result expected) {a : α} : result = .ok a k' ↔ expected = .ok a k' := by
  rcases h.same_or_fault with rfl | ⟨fault, k₁, k₂, rfl, rfl, _⟩
  · exact Iff.rfl
  · exact ⟨fun h => by contradiction, fun h => by contradiction⟩

theorem refused_iff (h : Agrees result expected) {reason : Refusal} :
    result = .error (.refused reason) k' ↔ expected = .error (.refused reason) k' := by
  rcases h.same_or_fault with rfl | ⟨fault, k₁, k₂, rfl, rfl, _⟩
  · exact Iff.rfl
  · constructor <;> intro h <;> injection h <;> contradiction

/-- What holds wherever a handler leads holds of one that agrees with it, faults apart. -/
theorem leads {Q : Except Stop α → Kernel P → Prop} (h : Agrees result expected)
    (hleads : Leads expected Q) (hfault : ∀ fault k, Q (.error (.fault fault)) k) :
    Leads result Q := by
  rcases h.same_or_fault with rfl | ⟨fault, k₁, k₂, rfl, rfl, _⟩
  · exact hleads
  · exact hfault fault k₁

/-- Sequences agree whose parts agree. -/
theorem bind {step step' : Handler P α} {next next' : α → Handler P β}
    (h : Agrees (step k) (step' k)) (hnext : ∀ a k', Agrees (next a k') (next' a k')) :
    Agrees ((step >>= next) k) ((step' >>= next') k) := by
  show Agrees (EStateM.bind step next k) (EStateM.bind step' next' k)
  unfold EStateM.bind
  rcases h.same_or_fault with hsame | ⟨fault, k₁, k₂, hresult, hexpected, hplatform⟩
  · rw [hsame]
    cases step' k with
    | ok a k' => exact hnext a k'
    | error stop k' => exact refl _
  · rw [hresult, hexpected]
    exact .fault hplatform

/-- A sequence whose first part is the same agrees if the rest does. -/
theorem bind_same (step : Handler P α) {next next' : α → Handler P β}
    (hnext : ∀ a k', Agrees (next a k') (next' a k')) :
    Agrees ((step >>= next) k) ((step >>= next') k) :=
  (refl (step k)).bind hnext

end Agrees

/-- Whatever goes on after a request, served or refused, goes on alike. -/
theorem attempt_bind_ok_iff {handler handler' : Handler P α} (h : Agrees (handler k) (handler' k))
    (next : Except Refusal α → Step P β) {b : β} :
    (attempt handler >>= next) k = .ok b k' ↔ (attempt handler' >>= next) k = .ok b k' := by
  show EStateM.bind (attempt handler) next k = _ ↔ EStateM.bind (attempt handler') next k = _
  unfold EStateM.bind attempt
  rcases h.same_or_fault with hsame | ⟨fault, k₁, k₂, hresult, hexpected, _⟩
  · rw [hsame]
  · rw [hresult, hexpected]
    exact ⟨fun h => by contradiction, fun h => by contradiction⟩

/-! ## Operations on tables, as handlers -/

variable [Platform P]

/-- Carry out an operation on tables, keep the tables it returns and answer. -/
def carry (r : Run Stop β) (answer : β → α) (keep : β → Kernel P → Kernel P) : Handler P α := do
  let made ← perform r
  modify (keep made)
  return answer made

theorem leads_carry (r : Run Stop β) (answer : β → α) (keep : β → Kernel P → Kernel P)
    (k : Kernel P) :
    Leads (carry r answer keep k) fun result k' => ∃ p,
      match result with
      | .ok a => ∃ made, r.outcome = .ok made ∧ a = answer made ∧
          k' = keep made { k with platform := p }
      | .error stop => r.outcome = .error stop ∧ k' = { k with platform := p } := by
  refine (leads_perform r k).bind ?_ ?_
  · rintro made k' ⟨hmade, p, _, rfl⟩
    exact ⟨p, made, hmade.symm, rfl, rfl⟩
  · rintro stop k' ⟨hstop, p, _, rfl⟩
    exact ⟨p, hstop.symm, rfl⟩

namespace Agrees

/-- Where the operation is refused, the handler leaves all tables alone. -/
theorem refused {r : Run Stop β} {answer : β → α} {keep : β → Kernel P → Kernel P}
    {reason : Refusal} (h : Agrees result (carry r answer keep k))
    (hrefused : r.outcome = .error (.refused reason)) :
    ∃ p, result = .error (.refused reason) { k with platform := p } := by
  obtain ⟨events, outcome⟩ := r
  subst hrefused
  exact ⟨_, h⟩

/-- What follows a handler follows the operation that it agrees with. -/
theorem bind_carry {γ : Type} {step : Handler P α} {r : Run Stop γ} {answer : γ → α}
    {keep : γ → Kernel P → Kernel P} (h : Agrees (step k) (carry r answer keep k))
    (next : α → Handler P β) :
    Agrees ((step >>= next) k)
      ((do
        let made ← perform r
        modify (keep made)
        next (answer made) : Handler P β) k) := by
  have hbind : Agrees ((step >>= next) k) ((carry r answer keep >>= next) k) :=
    h.bind fun a k' => refl _
  unfold carry at hbind
  simpa only [bind_assoc, pure_bind] using hbind

/-- What is answered and kept of the operation may be computed from its outcome before that. -/
theorem answer {γ δ : Type} {step : Handler P α} {r : Run Stop γ} {answer : γ → α}
    {keep : γ → Kernel P → Kernel P} {f : γ → δ} {answer' : δ → β} {keep' : δ → Kernel P → Kernel P}
    (h : Agrees (step k) (carry r answer keep k)) (g : α → β)
    (hanswer : ∀ made, answer' (f made) = g (answer made))
    (hkeep : ∀ made p,
      keep' (f made) { k with platform := p } = keep made { k with platform := p }) :
    Agrees ((step >>= fun a => pure (g a)) k)
      (carry (r >>= fun made => pure (f made)) answer' keep' k) := by
  have hafter := h.bind_carry fun a => pure (g a)
  obtain ⟨events, outcome⟩ := r
  cases outcome with
  | error stop => exact hafter
  | ok made =>
      rw [Run.bind_of_ok rfl, Run.events_pure, List.append_nil]
      -- both have a result, so to agree is to be equal
      refine Eq.trans hafter ?_
      show EStateM.Result.ok _ _ = EStateM.Result.ok _ _
      rw [hanswer, hkeep]

end Agrees

end Timeshare.Kernel
