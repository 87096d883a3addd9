import Timeshare.Machine.Simulated
import Timeshare.Proofs.Kernel.History

/-!
# Replaying traps

A list of frames is taken as traps one after the other, and what happens is
recorded.  A replay that goes through is a history, so a particular run can be
computed instead of derived.
-/

namespace Timeshare.Kernel

open Machine (Simulated)

variable {P : Type} [Platform P] {log : List (Happening P)} {k : Kernel P}

/-- A kernel with the record of what has happened to it. -/
abbrev Recorded (P : Type) : Type := List (Happening P) × Kernel P

/-- Take a trap, if it goes through. -/
def takeTrap (frame : Frame) (r : Recorded P) : Option (Recorded P) :=
  match trap frame r.2 with
  | .ok _ k => some (.trap r.2.current frame (answer frame r.2) k.current :: r.1, k)
  | .error _ _ => none

/-- Take traps in order. -/
def replay : List Frame → Recorded P → Option (Recorded P)
  | [], r => some r
  | frame :: rest, r => (takeTrap frame r).bind (replay rest)

theorem history_of_replay {frames : List Frame} {r : Recorded P} (hhistory : History log k)
    (hreplay : replay frames (log, k) = some r) : History r.1 r.2 := by
  induction frames generalizing log k with
  | nil =>
      injection hreplay with heq
      exact heq ▸ hhistory
  | cons frame rest ih =>
      obtain ⟨⟨log', k'⟩, htake, hrest⟩ := Option.bind_eq_some_iff.1 hreplay
      unfold takeTrap at htake
      cases htrap : trap frame k with
      | ok resumed next =>
          rw [htrap] at htake
          injection htake with heq
          injection heq with hlog hk
          subst hlog hk
          exact ih (hhistory.step (.trap htrap)) hrest
      | error fault next =>
          rw [htrap] at htake
          contradiction

/-- The frame of a timer interrupt. -/
def timerFrame : Frame := { vector := timerVector, rflags := Frame.interruptFlag }

/-- The frame of a system call. -/
def callFrame (call : Call) (first second : UInt64) : Frame :=
  { vector := callVector, rax := call.number, rbx := first, rcx := second
    rflags := Frame.interruptFlag }

/-- A simulated machine with `size` bytes of memory, booted with three programs. -/
def trialOf (size : Nat) : Option (Recorded Simulated) :=
  match Kernel.new (Simulated.ofMemorySize size) { showStats := false } with
  | .error _ => none
  | .ok k =>
      match boot 0x1000 [⟨"first", 0x1000⟩, ⟨"second", 0x1000⟩, ⟨"third", 0x1000⟩] k with
      | .error _ _ => none
      | .ok _ k => some ([.machine (Simulated.ofMemorySize size)], k)

/-- The same with a page of memory. -/
def trial : Option (Recorded Simulated) := trialOf 4096

theorem history_of_trial {size : Nat} {r : Recorded Simulated} (htrial : trialOf size = some r) :
    History r.1 r.2 := by
  unfold trialOf at htrial
  split at htrial
  · contradiction
  rename_i k hnew
  split at htrial
  · contradiction
  rename_i first k' hboot
  injection htrial with heq
  exact heq ▸ .boot (.new hnew) hboot

/-- Going on from the trial machine by what keeps to histories. -/
theorem exists_of_any {next : Recorded Simulated → Option (Recorded Simulated)}
    (hnext : ∀ r r', History r.1 r.2 → next r = some r' → History r'.1 r'.2)
    (Q : Recorded Simulated → Bool) (hany : ((trial.bind next).any Q) = true) :
    ∃ r : Recorded Simulated, History r.1 r.2 ∧ Q r = true := by
  cases hr : trial.bind next with
  | none =>
      rw [hr] at hany
      contradiction
  | some r =>
      rw [hr] at hany
      obtain ⟨booted, htrial, hbooted⟩ := Option.bind_eq_some_iff.1 hr
      exact ⟨r, hnext booted r (history_of_trial htrial) hbooted, hany⟩

/-- The kernel after a replay on the trial machine. -/
theorem exists_history (frames : List Frame) (Q : Recorded Simulated → Bool)
    (hreplay : ((trial.bind (replay frames)).any Q) = true) :
    ∃ r : Recorded Simulated, History r.1 r.2 ∧ Q r = true :=
  exists_of_any (fun _ _ hhistory hframes => history_of_replay hhistory hframes) Q hreplay

/-! ## Calls on other machines -/

/-- Go on with another machine. -/
def equip (machine : Simulated) (r : Recorded Simulated) : Recorded Simulated :=
  (.machine machine :: r.1, { r.2 with platform := machine })

theorem history_equip {r : Recorded Simulated} (hhistory : History r.1 r.2) (machine : Simulated) :
    History (equip machine r).1 (equip machine r).2 :=
  hhistory.step (.machine machine)

/-- Bind a key to a program and type it. -/
def summon (key : Char) (program : Program) (r : Recorded Simulated) :
    Option (Recorded Simulated) :=
  match bindKey key program r.2 with
  | .ok _ k => some (equip (k.platform.typeKey key) (.bind key program :: r.1, k))
  | .error _ _ => none

theorem history_of_summon {key : Char} {program : Program} {r r' : Recorded Simulated}
    (hhistory : History r.1 r.2) (hsummon : summon key program r = some r') :
    History r'.1 r'.2 := by
  unfold summon at hsummon
  split at hsummon
  · rename_i hbind
    injection hsummon with heq
    subst heq
    exact history_equip (r := (_, _)) (hhistory.step (.bind hbind)) _
  · contradiction

/-- A machine with `size` bytes of memory and a guarded region. -/
def guardedMachine (size : Nat) (region : Machine.Region) : Simulated :=
  { Simulated.ofMemorySize size with memory := (Machine.Memory.zero size).guardRegion region }

/-- Whether a call is answered, and the answer and the kernels around it pass a check. -/
def answers (call : Call) (arguments : Arguments)
    (Q : Kernel Simulated → Int64 → Kernel Simulated → Bool) (k : Kernel Simulated) : Bool :=
  match dispatch call.number arguments k with
  | .ok value k' => Q k value k'
  | .error _ _ => false

theorem exists_of_answers {call : Call} {arguments : Arguments}
    {Q : Kernel Simulated → Int64 → Kernel Simulated → Bool} {k : Kernel Simulated}
    (hanswers : answers call arguments Q k = true) :
    ∃ value k', dispatch call.number arguments k = .ok value k' ∧ Q k value k' = true := by
  unfold answers at hanswers
  cases hdispatch : dispatch call.number arguments k with
  | ok value k' =>
      rw [hdispatch] at hanswers
      exact ⟨value, k', rfl, hanswers⟩
  | error fault k' =>
      rw [hdispatch] at hanswers
      contradiction

/-- A call after a replay, on a machine with `size` bytes of memory; a region of them is
guarded when the call is made. -/
theorem exists_dispatch (size : Nat) (frames : List Frame) (region : Machine.Region) (call : Call)
    (arguments : Arguments) (Q : Kernel Simulated → Int64 → Kernel Simulated → Bool)
    (hreplay : ((trial.bind fun r => replay frames (equip (.ofMemorySize size) r)).any fun r =>
      answers call arguments Q (equip (guardedMachine size region) r).2) = true) :
    ∃ log k value k', History log k ∧ dispatch call.number arguments k = .ok value k' ∧
      Q k value k' = true := by
  obtain ⟨r, hhistory, hanswers⟩ := exists_of_any
    (fun r _ hhistory hframes => history_of_replay (history_equip hhistory _) hframes)
    (fun r => answers call arguments Q (equip (guardedMachine size region) r).2) hreplay
  obtain ⟨value, k', hdispatch, hcheck⟩ := exists_of_answers hanswers
  exact ⟨_, _, value, k', history_equip hhistory _, hdispatch, hcheck⟩

end Timeshare.Kernel
