import Timeshare.Proofs.Kernel.Trapped

/-!
# What booting does

Booting creates the idle process as the first one and the startup programs
behind it, and carries out a first scheduling pass.
-/

namespace Timeshare.Kernel

open Platform (Reaches)

variable {P : Type} [Platform P] {k k' : Kernel P}

/-- The startup programs are created one by one; a refused one is left out. -/
inductive Started : List Program → Kernel P → Kernel P → Prop
  | nil {k : Kernel P} : Started [] k k
  | cons {program : Program} {rest : List Program} {k k₁ k' : Kernel P} {p : P}
      {result : Except Refusal Pid}
      (hspawned : Spawned program.entry program.name k (.ok result) k₁)
      (hreach : Reaches k₁.platform p) (hrest : Started rest { k₁ with platform := p } k') :
      Started (program :: rest) k k'

/-- A boot that ends well, with the process that runs first. -/
inductive Booted (idleEntry : UInt64) (programs : List Program) (k : Kernel P) :
    Pid → Kernel P → Prop
  | booted {k₁ k₂ k' : Kernel P} {p : P} {transition : Transition}
      (hidle : Spawned idleEntry "idle task" k (.ok (.ok .idle)) k₁)
      (hstarted : Started programs k₁ k₂) (hreach : Reaches k₂.platform p)
      (hpassed : Passed { k₂ with platform := p } (.ok transition) k') :
      Booted idleEntry programs k transition.next k'

theorem leads_startAll (programs : List Program) (k : Kernel P) :
    Leads (startAll programs k) fun result k' => result = .ok () → Started programs k k' := by
  induction programs generalizing k with
  | nil => exact fun _ => .nil
  | cons program rest ih =>
      unfold startAll
      refine (leads_attempt_spawn program.entry program.name k).bind ?_ fun _ _ _ h => by
        contradiction
      rintro (reason | pid) k₁ hspawned
      · exact (ih _).mono fun _ _ h hok => .cons hspawned (.single (.log _ _)) (h hok)
      · exact (ih _).mono fun _ _ h hok => .cons hspawned .refl (h hok)

theorem leads_boot (idleEntry : UInt64) (programs : List Program) (k : Kernel P) :
    Leads (boot idleEntry programs k) fun result k' =>
      ∀ first, result = .ok first → Booted idleEntry programs k first k' := by
  unfold boot
  refine (leads_attempt_spawn idleEntry "idle task" k).bind ?_ fun _ _ _ _ h => by contradiction
  rintro (reason | idle) k₁ hspawned
  · exact fun _ h => by contradiction
  by_cases hidle : idle.isIdle = true
  · dsimp only
    rw [if_pos hidle]
    replace hidle : idle = .idle := by simpa [Pid.isIdle] using hidle
    refine (leads_startAll programs k₁).bind ?_ fun _ _ _ _ h => by contradiction
    intro _ k₂ hstarted
    rw [onPlatform_bind, report_bind]
    refine (leads_schedule _).bind ?_ fun _ _ _ _ h => by contradiction
    intro transition k' hpassed first hfirst
    injection hfirst with hnext
    subst hidle hnext
    exact .booted hspawned (hstarted rfl)
      (.tail (.single (.enableLine _ _)) (.log _ _)) hpassed
  · dsimp only
    rw [if_neg hidle]
    exact fun _ h => by contradiction

end Timeshare.Kernel
