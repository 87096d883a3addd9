import Timeshare.Proofs.Kernel.Ready

/-!
# Orderly histories

In an orderly history every trap comes with interrupts enabled and is of the timer
or, unless idle is interrupted, of a call that exists; keys are bound to programs
that can be started, and memory stays below 2⁶³ bytes.  Such a history leaves a
kernel that is ready for the next trap, and its clock counts the timer's traps.
-/

namespace Timeshare.Kernel

open Machine (Simulated)

variable {k k' : Kernel Simulated} {frame : Frame} {log : List (Happening Simulated)}

/-- What may happen to a kernel that is to go on. -/
def Happening.Orderly : Happening Simulated → Prop
  | .trap caller frame _ _ => Kernel.Orderly frame caller
  | .bind _ program => program.entry ≠ 0
  | .spawn _ _ => True
  | .machine m => m.memory.bytes.size < 2 ^ 63

instance : (happening : Happening Simulated) → Decidable happening.Orderly
  | .trap caller frame _ _ => inferInstanceAs (Decidable (Kernel.Orderly frame caller))
  | .bind _ program => inferInstanceAs (Decidable (program.entry ≠ 0))
  | .spawn _ _ => isTrue trivial
  | .machine m => inferInstanceAs (Decidable (m.memory.bytes.size < 2 ^ 63))

/-- The ticks of what happened. -/
def Happening.ticks : Happening Simulated → Nat
  | .trap _ frame _ _ => Kernel.ticks frame
  | _ => 0

/-- The timer's traps in a history. -/
def elapsed (log : List (Happening Simulated)) : Nat := (log.map Happening.ticks).sum

/-! ## Booting -/

/-- A kernel on which nothing was started. -/
structure Blank (k : Kernel Simulated) : Prop where
  clock : k.clock = .zero
  tasks : k.tasks = .empty
  mutexes : k.mutexes = .empty
  mailboxes : k.mailboxes = .empty
  ticksPerSecond : k.config.ticksPerSecond ≠ 0
  entry : ∀ key program, k.console.command? key = some (.spawn program) → program.entry ≠ 0
  memory : k.platform.memory.bytes.size < 2 ^ 63

/-- No reserved key starts a program. -/
theorem reserved?_ne_spawn (key : Char) (program : Program) :
    Console.reserved? key ≠ some (.spawn program) := by
  unfold Console.reserved?
  split <;> simp

theorem Fresh.blank (hfresh : Fresh log k) (horderly : ∀ happening ∈ log, happening.Orderly) :
    k.Blank := by
  induction hfresh with
  | new hnew =>
      obtain ⟨hticks, rfl⟩ := new_eq_ok hnew
      refine ⟨rfl, rfl, rfl, rfl, hticks, fun key program hcommand => ?_,
        horderly _ List.mem_cons_self⟩
      unfold Console.command? at hcommand
      split at hcommand
      · rename_i hreserved
        exact absurd (hreserved.trans hcommand) (reserved?_ne_spawn key program)
      · contradiction
  | bind hfresh hbind ih =>
      have hblank := ih fun happening hmem => horderly happening (List.mem_cons_of_mem _ hmem)
      obtain ⟨console, rfl, hcommands⟩ := exists_console hbind
      refine ⟨hblank.clock, hblank.tasks, hblank.mutexes, hblank.mailboxes, hblank.ticksPerSecond,
        fun key program hcommand => ?_, hblank.memory⟩
      rcases hcommands key program hcommand with rfl | hbefore
      · exact horderly _ List.mem_cons_self
      · exact hblank.entry key program hbefore
  | machine hfresh machine ih =>
      have hblank := ih fun happening hmem => horderly happening (List.mem_cons_of_mem _ hmem)
      exact ⟨hblank.clock, hblank.tasks, hblank.mutexes, hblank.mailboxes, hblank.ticksPerSecond,
        hblank.entry, horderly _ List.mem_cons_self⟩

/-- With idle a kernel becomes ready. -/
theorem Spawned.ready_of_blank {entry : UInt64} {name : String}
    (hspawned : Spawned entry name k (.ok (.ok .idle)) k') (hblank : k.Blank) : k'.Ready := by
  have hkept := hspawned.kept
  have hcoherent : k.Coherent := by
    rw [Kernel.Coherent, CoherentOn, hblank.tasks, hblank.mutexes, hblank.mailboxes]
    exact coherent_empty
  have hafter := hspawned.coherent hcoherent
  have hevolves := hspawned.evolvesAt hcoherent
  have hrestless : .idle ∉ k.waiters := by
    rw [Kernel.waiters, waitersOf, hblank.mutexes, hblank.mailboxes, MutexTable.waiters_empty,
      MailboxTable.waiters_empty]
    exact List.not_mem_nil
  have hfit : ∀ pid p, k'.tasks.table.get? pid = some p → p.Fit k'.clock.now := by
    intro pid p' hget
    rcases hevolves.process pid p' hget with ⟨p, hbefore, _⟩ | ⟨_, p, hborn, hp⟩
    · rw [hblank.tasks, Tasks.empty, ProcessTable.get?_empty] at hbefore
      contradiction
    · -- idle is the only process, and it was just created
      exact hp.fit (hborn.fit _)
  have hrate : k'.config.ticksPerSecond ≠ 0 := by
    rw [hkept.config]
    exact hblank.ticksPerSecond
  have hentry (key : Char) (program : Program)
      (hcommand : k'.console.command? key = some (.spawn program)) : program.entry ≠ 0 :=
    hblank.entry key program ((hkept.command? key).symm.trans hcommand)
  have hmemory := hkept.memory hblank.memory
  cases hspawned with
  | created hcreate =>
      obtain ⟨_, _, _, _, _, _, hrewrite⟩ := Tasks.rewrite_create hcoherent.tasks.table hcreate
      refine ⟨hafter, ?_, hrestless, hfit, hrate, hentry, hmemory⟩
      rw [hrewrite.get?, if_pos rfl]
      rfl

theorem Started.ready {programs : List Program} (hstarted : Started programs k k')
    (hk : k.Ready) : k'.Ready := by
  induction hstarted with
  | nil => exact hk
  | cons hspawned hreach _ ih =>
      have hready := hspawned.ready hk
      exact ih (hready.step ⟨rfl, rfl, rfl, hreach⟩ hready.coherent (.refl _) hready.restless)

theorem Booted.ready {idleEntry : UInt64} {programs : List Program} {first : Pid}
    (hbooted : Booted idleEntry programs k first k') (hblank : k.Blank) : k'.Ready := by
  cases hbooted with
  | booted hidle hstarted hreach hpassed =>
      have hready := hstarted.ready (hidle.ready_of_blank hblank)
      exact hpassed.ready
        (hready.step ⟨rfl, rfl, rfl, hreach⟩ hready.coherent (.refl _) hready.restless)

/-! ## Histories -/

theorem Occurs.ready {happening : Happening Simulated} (hoccurs : Occurs happening k k')
    (horderly : happening.Orderly) (hk : k.Ready) (hsettled : k.tasks.Settled) : k'.Ready := by
  cases hoccurs with
  | trap htrap => exact ((leads_trap _ k).of_ok htrap).ready hk hsettled horderly
  | bind hbind =>
      obtain ⟨console, rfl, hcommands⟩ := exists_console hbind
      refine ⟨hk.coherent, hk.idle, hk.restless, hk.fit, hk.ticksPerSecond,
        fun key program hcommand => ?_, hk.memory⟩
      rcases hcommands key program hcommand with rfl | hbefore
      · exact horderly
      · exact hk.entry key program hbefore
  | spawn hspawn => exact ((leads_attempt_spawn _ _ k).of_ok hspawn).ready hk
  | machine =>
      exact ⟨hk.coherent, hk.idle, hk.restless, hk.fit, hk.ticksPerSecond, hk.entry, horderly⟩

/-- An orderly history leaves a kernel that is ready for a trap. -/
theorem History.ready (hhistory : History log k)
    (horderly : ∀ happening ∈ log, happening.Orderly) : k.Ready := by
  induction hhistory with
  | boot hfresh hboot =>
      exact (((leads_boot _ _ _).of_ok hboot) _ rfl).ready (hfresh.blank horderly)
  | step hhistory hoccurs ih =>
      have hbefore := ih fun happening hmem => horderly happening (List.mem_cons_of_mem _ hmem)
      exact hoccurs.ready (horderly _ List.mem_cons_self) hbefore hhistory.coherent.2

/-! ## The clock -/

theorem Fresh.elapsed (hfresh : Fresh log k) : Kernel.elapsed log = 0 := by
  induction hfresh with
  | new => rfl
  | bind _ _ ih => exact (Nat.zero_add _).trans ih
  | machine _ _ ih => exact (Nat.zero_add _).trans ih

theorem Occurs.clock {happening : Happening Simulated} (hoccurs : Occurs happening k k') :
    k'.clock.now.toNat = happening.ticks + k.clock.now.toNat := by
  cases hoccurs with
  | trap htrap =>
      rw [((leads_trap _ k).of_ok htrap).clock]
      exact Nat.add_comm _ _
  | bind hbind =>
      obtain ⟨console, rfl, _⟩ := exists_console hbind
      exact (Nat.zero_add _).symm
  | spawn hspawn =>
      rw [((leads_attempt_spawn _ _ k).of_ok hspawn).kept.clock]
      exact (Nat.zero_add _).symm
  | machine => exact (Nat.zero_add _).symm

/-- The clock counts the timer's traps. -/
theorem History.clock (hhistory : History log k) : k.clock.now.toNat = elapsed log := by
  induction hhistory with
  | boot hfresh hboot =>
      have hbooted := ((leads_boot _ _ _).of_ok hboot) _ rfl
      rw [hbooted.clock, hfresh.clock, hfresh.elapsed]
      rfl
  | step _ hoccurs ih => rw [hoccurs.clock, ih, elapsed, elapsed, List.map_cons, List.sum_cons]

end Timeshare.Kernel
