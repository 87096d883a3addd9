import Timeshare.Kernel.Service
import Timeshare.Proofs.Platform

/-!
# Where a step leads

A step ends with a value or stops, and it leaves a kernel either way.  `Leads`
states a condition on both; the rules below take a sequence apart, one for each
thing that a step can be made of.
-/

namespace Timeshare.Kernel

open Platform (Reaches)

variable {P : Type} {ε α β : Type} {k : Kernel P}

/-- The end of a step and the kernel it leaves satisfy a condition. -/
def Leads (result : EStateM.Result ε (Kernel P) α) (Q : Except ε α → Kernel P → Prop) : Prop :=
  match result with
  | .ok a k => Q (.ok a) k
  | .error e k => Q (.error e) k

theorem Leads.mono {result : EStateM.Result ε (Kernel P) α} {Q R : Except ε α → Kernel P → Prop}
    (h : Leads result Q) (himp : ∀ a k, Q a k → R a k) : Leads result R := by
  cases result with
  | ok a k => exact himp _ _ h
  | error e k => exact himp _ _ h

theorem Leads.of_ok {step : EStateM ε (Kernel P) α} {Q : Except ε α → Kernel P → Prop} {a : α}
    {k' : Kernel P} (h : Leads (step k) Q) (hstep : step k = .ok a k') : Q (.ok a) k' := by
  rwa [hstep] at h

theorem Leads.of_error {step : EStateM ε (Kernel P) α} {Q : Except ε α → Kernel P → Prop} {e : ε}
    {k' : Kernel P} (h : Leads (step k) Q) (hstep : step k = .error e k') : Q (.error e) k' := by
  rwa [hstep] at h

/-- A step leads where it goes. -/
theorem Leads.self (step : EStateM ε (Kernel P) α) (k : Kernel P) :
    Leads (step k) fun result k' =>
      match result with
      | .ok a => step k = .ok a k'
      | .error e => step k = .error e k' := by
  cases hstep : step k with
  | ok a k' => exact rfl
  | error e k' => exact rfl

/-- A sequence goes on from wherever its first part leads. -/
theorem Leads.bind {step : EStateM ε (Kernel P) α} {next : α → EStateM ε (Kernel P) β}
    {Q : Except ε α → Kernel P → Prop} {R : Except ε β → Kernel P → Prop}
    (h : Leads (step k) Q) (hnext : ∀ a k', Q (.ok a) k' → Leads (next a k') R)
    (hstop : ∀ e k', Q (.error e) k' → R (.error e) k') : Leads ((step >>= next) k) R := by
  show Leads (EStateM.bind step next k) R
  unfold EStateM.bind
  cases hstep : step k with
  | ok a k' =>
      rw [hstep] at h
      exact hnext a k' h
  | error e k' =>
      rw [hstep] at h
      exact hstop e k' h

/-! ## Parts that always go on -/

@[simp] theorem get_bind (next : Kernel P → EStateM ε (Kernel P) β) :
    (get >>= next) k = next k k := rfl

@[simp] theorem modify_bind (f : Kernel P → Kernel P) (next : PUnit → EStateM ε (Kernel P) β) :
    (modify f >>= next) k = next () (f k) := rfl

@[simp] theorem onPlatform_bind (f : P → α × P) (next : α → EStateM ε (Kernel P) β) :
    (onPlatform f >>= next) k =
      next (f k.platform).1 { k with platform := (f k.platform).2 } := rfl

theorem discard_bind (step : EStateM ε (Kernel P) α) (next : Unit → EStateM ε (Kernel P) β) :
    (discard step >>= next) k = (step >>= fun _ => next ()) k := by
  show EStateM.bind (EStateM.map (fun _ => ()) step) next k =
    EStateM.bind step (fun _ => next ()) k
  unfold EStateM.bind EStateM.map
  cases step k <;> rfl

/-! ## Parts that may stop -/

theorem leads_check {r : Except ε α} {Q : Except ε α → Kernel P → Prop} (h : Q r k) :
    Leads (check r k) Q := by
  cases r with
  | ok a => exact h
  | error e => exact h

theorem check_bind (r : Except ε α) (next : α → EStateM ε (Kernel P) β) :
    (check r >>= next) k =
      match r with
      | .error e => .error e k
      | .ok a => next a k := by
  cases r <;> rfl

/-- A checked step inside a handler stops with the same fault. -/
theorem orFault_check_bind (r : Except Fault α) (next : α → Handler P β) :
    (orFault (check r) >>= next) k =
      match r with
      | .error fault => .error (.fault fault) k
      | .ok a => next a k := by
  cases r <;> rfl

/-- The refusal of a handler is a result; its fault stays a fault. -/
theorem leads_attempt {handler : Handler P α} {Q : Except Stop α → Kernel P → Prop}
    (h : Leads (handler k) Q) :
    Leads (attempt handler k) fun result k' =>
      match result with
      | .ok (.ok a) => Q (.ok a) k'
      | .ok (.error reason) => Q (.error (.refused reason)) k'
      | .error fault => Q (.error (.fault fault)) k' := by
  unfold attempt
  cases hhandler : handler k with
  | ok a k' =>
      rw [hhandler] at h
      exact h
  | error stop k' =>
      rw [hhandler] at h
      cases stop with
      | refused reason => exact h
      | fault fault => exact h

/-! ## The parts of handlers -/

theorem caller_bind {α : Type} (next : Pid → Handler P α) :
    (caller >>= next) k =
      match k.current with
      | none => .error (.refused .noCurrentProcess) k
      | some pid => next pid k := by
  show EStateM.bind caller next k = _
  unfold EStateM.bind caller
  simp only [get_bind]
  cases k.current <;> rfl

theorem requirePointer_bind {α : Type} (pointer : UInt64) (next : Unit → Handler P α) :
    (requirePointer pointer >>= next) k =
      if pointer = 0 then .error (.refused (.badAddress pointer)) k else next () k := by
  unfold requirePointer
  split <;> rfl

theorem placeOf_bind {α : Type} (pid : Pid) (next : Slot → Handler P α) :
    (placeOf pid >>= next) k =
      match k.tasks.table.find? pid with
      | none => .error (.fault (.breach (.missingProcess pid))) k
      | some slot => next slot k := by
  show EStateM.bind (placeOf pid) next k = _
  unfold EStateM.bind placeOf
  simp only [get_bind, orFault, check, ProcessTable.expect]
  cases k.tasks.table.find? pid <;> rfl

/-! ## Parts that use the machine -/

variable [Platform P]

@[simp] theorem report_bind (event : Journal.Event) (next : Unit → EStateM ε (Kernel P) β) :
    (report event >>= next) k = next () { k with platform := Platform.log event k.platform } := rfl

theorem leads_perform (r : Run ε α) (k : Kernel P) :
    Leads (perform r k) fun result k' =>
      result = r.outcome ∧ ∃ p, Reaches k.platform p ∧ k' = { k with platform := p } := by
  have hreach := Platform.reaches_log_all r.events k.platform
  unfold perform
  cases houtcome : r.outcome with
  | ok a => exact ⟨rfl, _, hreach, rfl⟩
  | error e => exact ⟨rfl, _, hreach, rfl⟩

theorem read_bind {α : Type} (address : UInt64) (size : Nat)
    (next : Vector UInt8 size → Handler P α) :
    (read address size >>= next) k =
      match Platform.readMemory k.platform address size with
      | .error fault => .error (.refused (.ofMemoryFault fault)) k
      | .ok bytes => next bytes k := by
  show EStateM.bind (read address size) next k = _
  unfold EStateM.bind read
  simp only [get_bind]
  cases Platform.readMemory k.platform address size <;> rfl

theorem write_bind {α : Type} (address : UInt64) (data : List UInt8) (next : Unit → Handler P α) :
    (write address data >>= next) k =
      match Platform.writeMemory address data k.platform with
      | (.error fault, p) => .error (.refused (.ofMemoryFault fault)) { k with platform := p }
      | (.ok (), p) => next () { k with platform := p } := by
  show EStateM.bind (write address data) next k = _
  unfold EStateM.bind write
  simp only [onPlatform_bind]
  cases Platform.writeMemory address data k.platform with
  | mk result p => cases result <;> rfl

/-! ## Creating and destroying -/

theorem leads_exit (pid : Option Pid) (k : Kernel P) :
    Leads (exit pid k) fun result k' => ∃ p, Reaches k.platform p ∧
      match result with
      | .ok () => ∃ tasks, (k.tasks.destroy pid).outcome = .ok tasks ∧
          k' = { k with platform := p, tasks }
      | .error stop => (k.tasks.destroy pid).outcome = .error stop ∧
          k' = { k with platform := p } := by
  unfold exit
  rw [get_bind]
  refine (leads_perform _ k).bind ?_ ?_
  · rintro tasks k' ⟨hdestroy, p, hreach, rfl⟩
    exact ⟨p, hreach, tasks, hdestroy.symm, rfl⟩
  · rintro stop k' ⟨hdestroy, p, hreach, rfl⟩
    exact ⟨p, hreach, hdestroy.symm, rfl⟩

theorem leads_spawn (entry : UInt64) (name : String) (k : Kernel P) :
    Leads (spawn entry name k) fun result k' => ∃ p, Reaches k.platform p ∧
      match result with
      | .ok pid => ∃ tasks, (k.tasks.create entry name k.clock.now).outcome = .ok (pid, tasks) ∧
          k' = { k with platform := p, tasks }
      | .error stop => (k.tasks.create entry name k.clock.now).outcome = .error stop ∧
          k' = { k with platform := p } := by
  unfold spawn
  rw [get_bind]
  refine (leads_perform _ k).bind ?_ ?_
  · rintro ⟨pid, tasks⟩ k' ⟨hcreate, p, hreach, rfl⟩
    exact ⟨p, hreach, tasks, hcreate.symm, rfl⟩
  · rintro stop k' ⟨hcreate, p, hreach, rfl⟩
    exact ⟨p, hreach, hcreate.symm, rfl⟩

end Timeshare.Kernel
