import Timeshare.Proofs.Kernel.Replay

/-!
# Courses of deeds

A history tells what was seen of a kernel; a course also tells what the kernel was like.
Whatever can be asked of a booted kernel from outside is a deed, the parts of a trap on
their own included.  Each moment of a course, the newest first, keeps the kernel before
and behind a deed.  Ordinary deeds lead where histories lead.
-/

namespace Timeshare.Kernel

open Machine (Simulated)

variable {P : Type} {ε α β : Type}

/-- What can be done to a booted kernel. -/
inductive Deed (P : Type) where
  | trap (frame : Frame)
  | bind (key : Char) (program : Program)
  | spawn (entry : UInt64) (name : String)
  /-- The machine is `machine` now: keys were typed, programs wrote their memory. -/
  | machine (machine : P)
  /-- A process is destroyed from outside. -/
  | exit (pid : Option Pid)
  /-- A scheduling pass without a trap. -/
  | schedule
  /-- A call is dispatched, and its result is given back instead of saved. -/
  | call (number : UInt64) (arguments : Arguments)
  | systemCall
  | tick
  | press (key : Char)
  | paint

namespace Deed

/-- What happens by traps and between them. -/
def ordinary : Deed P → Bool
  | trap _ | bind _ _ | spawn _ _ | machine _ => true
  | _ => false

/-- What happens by whole traps, passes and destructions. -/
def regular : Deed P → Bool
  | exit _ | schedule => true
  | deed => deed.ordinary

/-- The registers with which a trap comes. -/
def frame? : Deed P → Option Frame
  | trap frame => some frame
  | _ => none

theorem frame?_eq_some {deed : Deed P} {frame : Frame} :
    deed.frame? = some frame ↔ deed = .trap frame := by
  cases deed <;> simp [frame?]

variable [Platform P]

/-- Do it. -/
def carryOut : Deed P → Step P Unit
  | .trap frame => discard (Kernel.trap frame)
  | .bind key program => discard (bindKey key program)
  | .spawn entry name => discard (attempt (Kernel.spawn entry name))
  | .machine m => onPlatform fun _ => ((), m)
  | .exit pid => discard (attempt (Kernel.exit pid))
  | .schedule => discard Kernel.schedule
  | .call number arguments => discard (dispatch number arguments)
  | .systemCall => Kernel.systemCall
  | .tick => timerTick
  | .press key => handleKey key
  | .paint => paintStats

end Deed

/-- A deed and the kernel around it. -/
structure Moment (P : Type) where
  before : Kernel P
  deed : Deed P
  after : Kernel P

theorem exists_of_discard {k k' : Kernel P} {step : EStateM ε (Kernel P) α}
    (h : discard step k = .ok () k') : ∃ a, step k = .ok a k' := by
  change EStateM.map (fun _ => ()) step k = _ at h
  unfold EStateM.map at h
  cases hstep : step k with
  | ok a k₁ =>
      rw [hstep] at h
      injection h with _ heq
      exact ⟨a, by rw [heq]⟩
  | error e k₁ =>
      rw [hstep] at h
      contradiction

variable [Platform P] {k k' : Kernel P} {moments past later : List (Moment P)} {m : Moment P}
  {deed : Deed P}

/-- The moments since a kernel was booted, the newest first, and the kernel behind them. -/
inductive Course : List (Moment P) → Kernel P → Prop
  | boot {log : List (Happening P)} {k k' : Kernel P} {idleEntry : UInt64}
      {programs : List Program} {first : Pid} (hfresh : Fresh log k)
      (hboot : boot idleEntry programs k = .ok first k') : Course [] k'
  | step {past : List (Moment P)} {k k' : Kernel P} {deed : Deed P} (hcourse : Course past k)
      (hdone : deed.carryOut k = .ok () k') : Course (⟨k, deed, k'⟩ :: past) k'

/-! ## Parts of a course -/

theorem Course.tail (hcourse : Course (m :: past) k) :
    Course past m.before ∧ m.deed.carryOut m.before = .ok () m.after ∧ k = m.after := by
  cases hcourse with
  | step hcourse hdone => exact ⟨hcourse, hdone, rfl⟩

/-- What holds behind a moment and is kept by every later one holds in the end. -/
theorem Course.since {Q : List (Moment P) → Kernel P → Prop}
    (hcourse : Course (later ++ m :: past) k)
    (hfirst : Course past m.before → m.deed.carryOut m.before = .ok () m.after → Q [] m.after)
    (hnext : ∀ u later, Course (later ++ m :: past) u.before →
      u.deed.carryOut u.before = .ok () u.after → Q later u.before → Q (u :: later) u.after) :
    Q later k := by
  induction later generalizing k with
  | nil =>
      obtain ⟨hpast, hdone, rfl⟩ := hcourse.tail
      exact hfirst hpast hdone
  | cons u later ih =>
      obtain ⟨hpast, hdone, rfl⟩ := hcourse.tail
      exact hnext u later hpast hdone (ih hpast)

/-- A course goes through each of its moments. -/
theorem Course.upTo (hcourse : Course (later ++ m :: past) k) : Course (m :: past) m.after :=
  hcourse.since (Q := fun _ _ => Course (m :: past) m.after) (fun hpast hdone => hpast.step hdone)
    fun _ _ _ _ h => h

/-! ## Ordinary deeds -/

theorem Deed.occurs (hordinary : deed.ordinary) (hdone : deed.carryOut k = .ok () k') :
    ∃ happening, Occurs happening k k' := by
  unfold carryOut at hdone
  cases deed with
  | trap frame =>
      obtain ⟨resumed, htrap⟩ := exists_of_discard hdone
      exact ⟨_, .trap htrap⟩
  | bind key program =>
      obtain ⟨bound, hbind⟩ := exists_of_discard hdone
      exact ⟨_, .bind hbind⟩
  | spawn entry name =>
      obtain ⟨result, hspawn⟩ := exists_of_discard hdone
      exact ⟨_, .spawn hspawn⟩
  | machine m =>
      injection hdone with _ heq
      subst heq
      exact ⟨_, .machine m⟩
  | exit | schedule | call | systemCall | tick | press | paint => contradiction

/-- An ordinary deed is a trap, an attempt to create a process, or a change that neither the
tables nor the clock see. -/
theorem Deed.effect (hordinary : deed.ordinary) (hdone : deed.carryOut k = .ok () k') :
    (∃ frame resumed, deed = .trap frame ∧ Kernel.trap frame k = .ok resumed k') ∨
    (∃ entry name result, deed = .spawn entry name ∧ Spawned entry name k (.ok result) k') ∨
    (∀ frame, deed ≠ .trap frame) ∧ ∃ console platform, k' = { k with console, platform } := by
  cases deed with
  | trap frame =>
      obtain ⟨resumed, htrap⟩ := exists_of_discard hdone
      exact .inl ⟨frame, resumed, rfl, htrap⟩
  | spawn entry name =>
      obtain ⟨result, hspawn⟩ := exists_of_discard hdone
      exact .inr (.inl ⟨entry, name, result, rfl, (leads_attempt_spawn entry name k).of_ok hspawn⟩)
  | bind key program =>
      obtain ⟨bound, hbind⟩ := exists_of_discard hdone
      obtain ⟨console, rfl, _⟩ := exists_console hbind
      exact .inr (.inr ⟨fun _ h => by contradiction, console, k.platform, rfl⟩)
  | machine machine =>
      injection hdone with _ heq
      subst heq
      exact .inr (.inr ⟨fun _ h => by contradiction, k.console, machine, rfl⟩)
  | exit | schedule | call | systemCall | tick | press | paint => contradiction

theorem Deed.coherent (hordinary : deed.ordinary) (hdone : deed.carryOut k = .ok () k')
    (hk : k.Coherent) (hsettled : k.tasks.Settled) : k'.Coherent ∧ k'.tasks.Settled :=
  (Deed.occurs hordinary hdone).choose_spec.coherent hk hsettled

/-- A course of ordinary deeds is a history. -/
theorem Course.history (hcourse : Course moments k) (hordinary : ∀ m ∈ moments, m.deed.ordinary) :
    ∃ log, History log k := by
  induction hcourse with
  | boot hfresh hboot => exact ⟨_, .boot hfresh hboot⟩
  | step _ hdone ih =>
      obtain ⟨log, hhistory⟩ := ih fun m hm => hordinary m (List.mem_cons_of_mem _ hm)
      obtain ⟨_, hoccurs⟩ := Deed.occurs (hordinary _ List.mem_cons_self) hdone
      exact ⟨_, hhistory.step hoccurs⟩

theorem Course.coherent (hcourse : Course moments k)
    (hordinary : ∀ m ∈ moments, m.deed.ordinary) : k.Coherent ∧ k.tasks.Settled :=
  (hcourse.history hordinary).choose_spec.coherent

/-- The same for ordinary deeds, which keep the tables coherent. -/
theorem Course.since_ordinary {Q : List (Moment P) → Kernel P → Prop}
    (hcourse : Course (later ++ m :: past) k)
    (hordinary : ∀ u ∈ later ++ m :: past, u.deed.ordinary)
    (hfirst : m.deed.ordinary → m.before.Coherent → m.before.tasks.Settled →
      m.deed.carryOut m.before = .ok () m.after → Q [] m.after)
    (hnext : ∀ u later, u.deed.ordinary → u.before.Coherent → u.before.tasks.Settled →
      u.deed.carryOut u.before = .ok () u.after → Q later u.before → Q (u :: later) u.after) :
    Q later k := by
  refine hcourse.since
    (Q := fun later k => (∀ u ∈ later ++ m :: past, u.deed.ordinary) → Q later k) ?_ ?_ hordinary
  · intro hpast hdone hordinary
    obtain ⟨hk, hsettled⟩ := hpast.coherent fun u hu => hordinary u (List.mem_cons_of_mem _ hu)
    exact hfirst (hordinary m List.mem_cons_self) hk hsettled hdone
  · intro u later hbefore hdone ih hordinary
    have hpast (v : Moment P) (hv : v ∈ later ++ m :: past) : v.deed.ordinary :=
      hordinary v (List.mem_cons_of_mem _ hv)
    obtain ⟨hk, hsettled⟩ := hbefore.coherent hpast
    exact hnext u later (hordinary u List.mem_cons_self) hk hsettled hdone (ih hpast)

/-! ## Computed courses -/

/-- Do one thing after another, as long as nothing faults. -/
def follow : List (Deed P) → List (Moment P) × Kernel P → Option (List (Moment P) × Kernel P)
  | [], r => some r
  | deed :: rest, r =>
      match deed.carryOut r.2 with
      | .ok _ k => follow rest (⟨r.2, deed, k⟩ :: r.1, k)
      | .error _ _ => none

theorem course_of_follow {deeds : List (Deed P)} {r : List (Moment P) × Kernel P}
    (hcourse : Course moments k) (hfollow : follow deeds (moments, k) = some r) :
    Course r.1 r.2 := by
  induction deeds generalizing moments k with
  | nil =>
      injection hfollow with heq
      exact heq ▸ hcourse
  | cons deed rest ih =>
      unfold follow at hfollow
      split at hfollow
      · rename_i hdone
        exact ih (hcourse.step hdone) hfollow
      · contradiction

theorem course_of_trial {size : Nat} {r : Recorded Simulated} (htrial : trialOf size = some r) :
    Course [] r.2 := by
  unfold trialOf at htrial
  split at htrial
  · contradiction
  rename_i k hnew
  split at htrial
  · contradiction
  rename_i first k' hboot
  injection htrial with heq
  exact heq ▸ .boot (.new hnew) hboot

/-- The moments of deeds on a trial machine with `size` bytes of memory. -/
theorem exists_course_on (size : Nat) (deeds : List (Deed Simulated))
    (Q : List (Moment Simulated) → Kernel Simulated → Bool)
    (hfollow : ((trialOf size).bind fun r => follow deeds ([], r.2)).any (fun r => Q r.1 r.2) =
      true) :
    ∃ moments k, Course moments k ∧ Q moments k = true := by
  obtain ⟨⟨moments, k⟩, hr, hcheck⟩ := (Option.any_eq_true ..).1 hfollow
  obtain ⟨booted, htrial, hdeeds⟩ := Option.bind_eq_some_iff.1 hr
  exact ⟨moments, k, course_of_follow (course_of_trial htrial) hdeeds, hcheck⟩

/-- The moments of deeds on the trial machine. -/
theorem exists_course (deeds : List (Deed Simulated))
    (Q : List (Moment Simulated) → Kernel Simulated → Bool)
    (hfollow : ((trial.bind fun r => follow deeds ([], r.2)).any fun r => Q r.1 r.2) = true) :
    ∃ moments k, Course moments k ∧ Q moments k = true :=
  exists_course_on 4096 deeds Q hfollow

/-- The moments of ordinary deeds on the trial machine, around one with `count` moments behind
it. -/
theorem exists_course_around (count : Nat) (deeds : List (Deed Simulated))
    (Q : List (Moment Simulated) → Moment Simulated → List (Moment Simulated) →
      Kernel Simulated → Bool)
    (hfollow : ((trial.bind fun r => follow deeds ([], r.2)).any fun r =>
      decide (∀ u ∈ r.1, u.deed.ordinary) &&
        r.1[count]?.any fun m => Q (r.1.take count) m (r.1.drop (count + 1)) r.2) = true) :
    ∃ later m past k, Course (later ++ m :: past) k ∧
      (∀ u ∈ later ++ m :: past, u.deed.ordinary) ∧ Q later m past k = true := by
  obtain ⟨moments, k, hcourse, hcheck⟩ := exists_course deeds
    (fun moments k => decide (∀ u ∈ moments, u.deed.ordinary) &&
      moments[count]?.any fun m => Q (moments.take count) m (moments.drop (count + 1)) k) hfollow
  obtain ⟨hordinary, hmoment⟩ := (Bool.and_eq_true ..).mp hcheck
  obtain ⟨m, hget, hQ⟩ := (Option.any_eq_true ..).1 hmoment
  obtain ⟨hlt, rfl⟩ := List.getElem?_eq_some_iff.1 hget
  have hsplit : moments.take count ++ moments[count] :: moments.drop (count + 1) = moments := by
    rw [← List.drop_eq_getElem_cons hlt, List.take_append_drop]
  refine ⟨_, _, _, k, ?_, ?_, hQ⟩
  · rwa [hsplit]
  · rw [hsplit]
    exact of_decide_eq_true hordinary

end Timeshare.Kernel
