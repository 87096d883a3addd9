import Timeshare.Proofs.Kernel.Stages

/-!
# What a step leaves alone

A step keeps a part of the kernel if the part is as before, however the step ends.  A
sequence keeps what each of its members keeps, so all but the calls keep every part that
has nothing to do with processes, time, the console and the devices: they neither touch
mutexes nor mailboxes, nor do they write memory.
-/

namespace Timeshare.Kernel

variable {P γ α β : Type} {ε : Type} {f : Kernel P → γ}

/-- However the step ends, `f` is as before. -/
def Keeps (f : Kernel P → γ) (step : EStateM ε (Kernel P) α) : Prop :=
  ∀ k, Leads (step k) fun _ k' => f k' = f k

namespace Keeps

variable {step : EStateM ε (Kernel P) α} {next : α → EStateM ε (Kernel P) β}

theorem bind (h : Keeps f step) (hnext : ∀ a, Keeps f (next a)) : Keeps f (step >>= next) :=
  fun k => (h k).bind (fun a k' hkept => (hnext a k').mono fun _ _ heq => heq.trans hkept)
    fun _ _ hkept => hkept

/-- A step that goes on from the state it reads. -/
theorem bind_get {next : Kernel P → EStateM ε (Kernel P) β}
    (hnext : ∀ k, Leads (next k k) fun _ k' => f k' = f k) : Keeps f (get >>= next) :=
  fun k => hnext k

theorem discard (h : Keeps f step) : Keeps f (discard step) := by
  intro k
  show Leads (EStateM.map (fun _ => ()) step k) _
  have hk := h k
  unfold EStateM.map
  cases hstep : step k with
  | ok a k' =>
      rw [hstep] at hk
      exact hk
  | error e k' =>
      rw [hstep] at hk
      exact hk

theorem of_pure (a : α) : Keeps f (pure a : EStateM ε (Kernel P) α) := fun _ => rfl

theorem of_throw (e : ε) : Keeps f (throw e : EStateM ε (Kernel P) α) := fun _ => rfl

theorem of_check (r : Except ε α) : Keeps f (check r) := by
  intro k
  cases r <;> exact rfl

theorem of_modify {g : Kernel P → Kernel P} (hg : ∀ k, f (g k) = f k) :
    Keeps f (modify g : EStateM ε (Kernel P) PUnit) := hg

theorem of_onPlatform {g : P → α × P}
    (hg : ∀ k, f { k with platform := (g k.platform).2 } = f k) :
    Keeps f (onPlatform g : EStateM ε (Kernel P) α) := hg

theorem orFault {step : Step P α} (h : Keeps f step) : Keeps f (orFault step) := by
  intro k
  have hk := h k
  unfold Kernel.orFault
  cases hstep : step k with
  | ok a k' =>
      rw [hstep] at hk
      exact hk
  | error e k' =>
      rw [hstep] at hk
      exact hk

theorem attempt {handler : Handler P α} (h : Keeps f handler) : Keeps f (attempt handler) :=
  fun k => (leads_attempt (h k)).mono fun result k' hkept => by
    rcases result with fault | reason | a <;> exact hkept

end Keeps

/-! ## Parts that only calls change -/

variable [Platform P]

/-- The part has nothing to do with processes, time, the console and the devices. -/
structure Apart (f : Kernel P → γ) : Prop where
  tasks : ∀ k tasks, f { k with tasks } = f k
  clock : ∀ k clock, f { k with clock } = f k
  console : ∀ k console, f { k with console } = f k
  log : ∀ k event, f { k with platform := Platform.log event k.platform } = f k
  acknowledge : ∀ k line, f { k with platform := Platform.acknowledge line k.platform } = f k
  pollKey : ∀ k, f { k with platform := (Platform.pollKey k.platform).2 } = f k
  clearScreen : ∀ k, f { k with platform := Platform.clearScreen k.platform } = f k
  halt : ∀ k, f { k with platform := Platform.halt k.platform } = f k
  paint : ∀ k row column style text,
    f { k with platform := (Platform.paint row column style text k.platform).2 } = f k

theorem apart_mutexes : Apart (Kernel.mutexes (P := P)) :=
  ⟨fun _ _ => rfl, fun _ _ => rfl, fun _ _ => rfl, fun _ _ => rfl, fun _ _ => rfl, fun _ => rfl,
    fun _ => rfl, fun _ => rfl, fun _ _ _ _ _ => rfl⟩

namespace Apart

theorem report (h : Apart f) (event : Journal.Event) :
    Keeps f (report event : EStateM ε (Kernel P) Unit) := .of_modify fun k => h.log k event

theorem log_all (h : Apart f) (events : List Journal.Event) (k : Kernel P) :
    f { k with platform := events.foldl (fun p event => Platform.log event p) k.platform } = f k := by
  induction events generalizing k with
  | nil => rfl
  | cons event rest ih => exact (ih _).trans (h.log k event)

theorem perform (h : Apart f) (r : Run ε α) : Keeps f (perform r) := by
  intro k
  have hkept := h.log_all r.events k
  unfold Kernel.perform
  cases r.outcome <;> exact hkept

theorem spawn (h : Apart f) (entry : UInt64) (name : String) : Keeps f (spawn entry name) :=
  .bind_get fun k => ((h.perform _).bind fun _ => .bind (.of_modify fun k => h.tasks k _) fun _ =>
    .of_pure _) k

theorem exit (h : Apart f) (pid : Option Pid) : Keeps f (exit pid) :=
  .bind_get fun k => ((h.perform _).bind fun _ => .of_modify fun k => h.tasks k _) k

theorem schedule (h : Apart f) : Keeps f schedule :=
  .bind_get fun k => ((h.perform _).bind fun _ => .bind (.of_modify fun k => h.tasks k _) fun _ =>
    .of_pure _) k

theorem saveContext (h : Apart f) (frame : Frame) : Keeps f (saveContext frame) := by
  refine .bind_get fun k => ?_
  cases k.current with
  | none => exact rfl
  | some pid =>
      exact ((Keeps.of_check (k.tasks.table.expect pid)).bind fun _ =>
        .of_modify fun k => h.tasks k _) k

theorem charge (h : Apart f) (pid : Pid) : Keeps f (charge pid) :=
  .bind_get fun k => ((Keeps.of_check _).bind fun _ => .bind (.of_check _) fun _ =>
    .bind (.of_check _) fun _ => .of_modify fun k => h.tasks k _) k

theorem timerTick (h : Apart f) : Keeps f timerTick := by
  refine .bind_get fun k => ((Keeps.of_check _).bind fun clock =>
    .bind (.of_modify fun k => h.clock k clock) fun _ => .bind_get fun k => ?_) k
  cases k.current with
  | none => exact h.acknowledge k timerLine
  | some pid =>
      exact ((h.charge pid).bind fun _ => .of_onPlatform fun k => h.acknowledge k timerLine) k

theorem obey (h : Apart f) (command : Command) : Keeps f (obey command) := by
  cases command with
  | exitActive =>
      refine .bind_get fun k => ((h.exit _).attempt.bind fun result => ?_) k
      cases result with
      | ok => exact .of_pure ()
      | error reason => exact h.report _
  | toggleStats =>
      exact .bind (.of_modify fun k => h.console k _) fun _ => .of_onPlatform h.clearScreen
  | halt => exact (h.report _).bind fun _ => .of_onPlatform h.halt
  | spawn program =>
      refine (h.spawn program.entry program.name).attempt.bind fun result => ?_
      cases result with
      | ok pid => exact h.report _
      | error reason => exact h.report _

theorem handleKey (h : Apart f) (key : Char) : Keeps f (handleKey key) := by
  refine .bind_get fun k => ?_
  cases k.console.command? key with
  | none => exact rfl
  | some command => exact h.obey command k

theorem serveOperator (h : Apart f) : Keeps f serveOperator := by
  refine .bind (.of_onPlatform h.pollKey) fun key => ?_
  cases key with
  | none => exact .of_pure ()
  | some key => exact h.handleKey key

theorem paintAll (h : Apart f) (spans : List Span) : Keeps f (paintAll spans) := by
  induction spans with
  | nil => exact .of_pure ()
  | cons span rest ih =>
      exact .bind (.bind (.of_onPlatform fun k => h.paint k _ _ _ _) fun _ => .of_check _)
        fun _ => ih

theorem paintStats (h : Apart f) : Keeps f paintStats :=
  .bind_get fun k => ((Keeps.of_check _).bind fun _ => h.paintAll _) k

theorem attend (h : Apart f) : Keeps f attend := by
  refine h.serveOperator.bind fun _ => .bind_get fun k => ?_
  split
  · exact h.paintStats k
  · exact rfl

end Apart

end Timeshare.Kernel
