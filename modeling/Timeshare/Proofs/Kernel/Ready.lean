import Timeshare.Proofs.Kernel.Evolution
import Timeshare.Proofs.Kernel.Kept
import Timeshare.Proofs.Machine.Simulated

/-!
# Kernels that are ready for a trap

A trap relies on more than coherent tables: idle lives and waits for nothing,
every process can be resumed, no time runs ahead of the clock, the settings and
the machine are as they should be.  Every phase of an orderly trap keeps all of
this.
-/

namespace Timeshare

/-- The process can be resumed, and its times lie within the time since boot. -/
structure Process.Fit (p : Process) (now : UInt64) : Prop where
  interruptible : p.context.interruptible = true
  activeTime : p.activeTime.toNat ≤ now.toNat
  cpuTime : p.cpuTime.toNat ≤ now.toNat

theorem Process.Evolves.fit {p p' : Process} {now : UInt64} (h : p.Evolves p') (hp : p.Fit now) :
    p'.Fit now :=
  ⟨h.interruptible.trans hp.interruptible, h.activeTime_le.trans hp.activeTime,
    by rw [h.cpuTime]; exact hp.cpuTime⟩

/-- A process starts with interrupts enabled. -/
theorem Frame.interruptible_start {entry stackTop : UInt64} {context : Frame}
    (hstart : Frame.start entry stackTop = .ok context) : context.interruptible = true := by
  unfold start at hstart
  obtain ⟨rsp, _, hcontext⟩ := bind_eq_ok_iff.1 hstart
  injection hcontext with heq
  subst heq
  show ((reservedFlag ||| interruptFlag) &&& (reservedFlag ||| interruptFlag) &&& interruptFlag ==
    interruptFlag) = true
  decide

theorem Tasks.Born.fit {pid : Pid} {p : Process} (hborn : Born pid p) (now : UInt64) :
    p.Fit now := by
  obtain ⟨slot, entry, start, name, context, hcontext, rfl⟩ := hborn
  exact ⟨Frame.interruptible_start hcontext, Nat.zero_le _, Nat.zero_le _⟩

namespace Kernel

open Machine (Simulated)
open Platform (Reaches)

variable {k k' : Kernel Simulated} {frame : Frame}

/-- The frame is one that `caller` can be interrupted with: interrupts are enabled
in it, and it is of the timer or, unless idle is interrupted, of a call that
exists. -/
def Orderly (frame : Frame) (caller : Option Pid) : Prop :=
  frame.interruptible = true ∧
    (frame.vector = timerVector ∨
      frame.vector = callVector ∧ frame.callNumber ≤ 12 ∧ caller ≠ some .idle)

instance (frame : Frame) (caller : Option Pid) : Decidable (Orderly frame caller) :=
  inferInstanceAs (Decidable (_ ∧ _))

/-- What a kernel on the simulated machine needs to serve every orderly trap. -/
structure Ready (k : Kernel Simulated) : Prop where
  coherent : k.Coherent
  idle : (k.tasks.table.get? .idle).isSome
  /-- Idle waits for nothing. -/
  restless : .idle ∉ k.waiters
  fit : ∀ pid p, k.tasks.table.get? pid = some p → p.Fit k.clock.now
  ticksPerSecond : k.config.ticksPerSecond ≠ 0
  entry : ∀ key program, k.console.command? key = some (.spawn program) → program.entry ≠ 0
  memory : k.platform.memory.bytes.size < 2 ^ 63

theorem Kept.command? (hkept : k.Kept k') (key : Char) :
    k'.console.command? key = k.console.command? key := by
  unfold Console.command?
  rw [hkept.bindings]

theorem Kept.memory (hkept : k.Kept k') (hmemory : k.platform.memory.bytes.size < 2 ^ 63) :
    k'.platform.memory.bytes.size < 2 ^ 63 := by
  rwa [Simulated.size_of_reaches hkept.platform]

/-- A kernel stays ready when processes evolve and idle does not start to wait. -/
theorem Ready.step (hk : k.Ready) (hkept : k.Kept k') (hcoherent : k'.Coherent)
    (hevolves : k.tasks.Evolves k'.tasks) (hrestless : .idle ∉ k'.waiters) : k'.Ready where
  coherent := hcoherent
  idle := hevolves.idle hk.idle
  restless := hrestless
  fit pid p' hget := by
    rw [hkept.clock]
    rcases hevolves.process pid p' hget with ⟨p, hbefore, hp⟩ | ⟨_, p, hborn, hp⟩
    · exact hp.fit (hk.fit pid p hbefore)
    · exact hp.fit (hborn.fit _)
  ticksPerSecond := by
    rw [hkept.config]
    exact hk.ticksPerSecond
  entry key program hcommand := hk.entry key program ((hkept.command? key).symm.trans hcommand)
  memory := hkept.memory hk.memory

/-- A kernel stays ready when one process is changed and can still be resumed. -/
theorem Ready.touch {pid : Pid} {slot : Slot} {f : Process → Process} (hk : k.Ready)
    (hfind : k.tasks.table.find? pid = some slot)
    (hcoherent : Coherence (· ≠ .idle) (k.tasks.modify slot f) k.mutexes k.mailboxes)
    (hlive : (f (k.tasks.table.block slot)).isLive)
    (hpid : (f (k.tasks.table.block slot)).pid = (k.tasks.table.block slot).pid)
    (hfit : (f (k.tasks.table.block slot)).Fit k.clock.now) :
    Ready { k with tasks := k.tasks.modify slot f } := by
  have hrewrite := Tasks.rewrite_modify hk.coherent.tasks.table hfind hlive hpid
  refine ⟨hcoherent, hrewrite.idle (.inl rfl) hk.idle, hk.restless, fun q p hget => ?_,
    hk.ticksPerSecond, hk.entry, hk.memory⟩
  rw [hrewrite.get?] at hget
  split at hget
  · injection hget with heq
    exact heq ▸ hfit
  · exact hk.fit q p hget

/-! ## The phases of a trap -/

theorem Saved.ready (hsaved : Saved frame k (.ok ()) k') (hk : k.Ready)
    (hframe : frame.interruptible = true) : k'.Ready := by
  have hcoherent := hsaved.coherent hk.coherent
  cases hsaved with
  | nobody => exact hk
  | saved _ hfind =>
      have hfit := hk.fit _ _ (ProcessTable.get?_of_find? hfind)
      exact hk.touch hfind hcoherent (ProcessTable.find?_eq_some hfind).1 rfl
        ⟨hframe, hfit.activeTime, hfit.cpuTime⟩

/-- Later, a process is still fit. -/
theorem Ready.later {clock : Clock} (hk : k.Ready) (htick : k.clock.tick = .ok clock) :
    Ready { k with clock } := by
  refine ⟨hk.coherent, hk.idle, hk.restless, fun pid p hget => ?_, hk.ticksPerSecond, hk.entry,
    hk.memory⟩
  have hfit := hk.fit pid p hget
  have hnow := toNat_tick htick
  have hactive := hfit.activeTime
  have hcpu := hfit.cpuTime
  exact ⟨hfit.interruptible, by dsimp only; omega, by dsimp only; omega⟩

theorem Ticked.ready (hticked : Ticked k (.ok ()) k') (hk : k.Ready) : k'.Ready := by
  have hcoherent := hticked.coherent hk.coherent
  cases hticked with
  | nobody htick _ hreach =>
      refine (hk.later htick).step ⟨rfl, rfl, rfl, hreach⟩ hcoherent (.refl _) hk.restless
  | charged htick _ hfind hactive hcpu hreach =>
      have hfit := hk.fit _ _ (ProcessTable.get?_of_find? hfind)
      have hnow := toNat_tick htick
      -- time advances before the process is charged, so its times stay behind the clock
      have hcharged := (hk.later htick).touch hfind hcoherent
        (ProcessTable.find?_eq_some hfind).1 rfl ⟨hfit.interruptible, ?_, ?_⟩
      · exact hcharged.step ⟨rfl, rfl, rfl, hreach⟩ hcoherent (.refl _) hk.restless
      · have hsum := Word.toNat_add hactive
        have hle := hfit.activeTime
        have hone : (1 : UInt64).toNat = 1 := rfl
        dsimp only
        omega
      · have hsum := Word.toNat_add hcpu
        have hle := hfit.cpuTime
        have hone : (1 : UInt64).toNat = 1 := rfl
        dsimp only
        omega

theorem Called.ready (hcalled : Called k (.ok ()) k') (hk : k.Ready) (hsettled : k.tasks.Settled)
    (hcaller : k.current ≠ some .idle) : k'.Ready :=
  hk.step hcalled.kept (hcalled.coherent hk.coherent hsettled.engaged)
    (hcalled.evolvesAt hk.coherent hsettled.engaged).toEvolves (hcalled.waiters hk.coherent hcaller hk.restless)

theorem Entered.ready (hentered : Entered frame k (.ok ()) k') (hk : k.Ready)
    (hsettled : k.tasks.Settled) (hframe : Orderly frame k.current) : k'.Ready := by
  cases hentered with
  | timer _ hticked => exact hticked.ready hk
  | call hvector hcalled =>
      -- the frame is that of a call, so idle did not make it
      rcases hframe.2 with htimer | ⟨_, _, hcaller⟩
      · rw [hvector] at htimer
        contradiction
      · exact hcalled.ready hk hsettled hcaller

theorem Operated.ready (hoperated : Operated k (.ok ()) k') (hk : k.Ready) : k'.Ready := by
  apply hk.step hoperated.kept (hoperated.coherent hk.coherent) (hoperated.evolvesAt hk.coherent).toEvolves
  cases hoperated <;> exact hk.restless

theorem Painted.ready (hpainted : Painted k (.ok ()) k') (hk : k.Ready) : k'.Ready := by
  have hcoherent := hpainted.coherent hk.coherent
  have hkept := hpainted.kept
  cases hpainted with
  | painted => exact hk.step hkept hcoherent (.refl _) hk.restless

theorem Passed.ready {transition : Transition} (hpassed : Passed k (.ok transition) k')
    (hk : k.Ready) : k'.Ready := by
  apply hk.step hpassed.kept (hpassed.coherent hk.coherent) (hpassed.evolvesAt hk.coherent).toEvolves
  cases hpassed with
  | passed => exact hk.restless

theorem Spawned.ready {entry : UInt64} {name : String} {result : Except Refusal Pid}
    (hspawned : Spawned entry name k (.ok result) k') (hk : k.Ready) : k'.Ready := by
  apply hk.step hspawned.kept (hspawned.coherent hk.coherent) (hspawned.evolvesAt hk.coherent).toEvolves
  cases hspawned <;> exact hk.restless

/-- An orderly trap of a ready kernel leaves a ready kernel. -/
theorem Trapped.ready {resumed : Frame} (htrapped : Trapped frame k (.ok resumed) k')
    (hk : k.Ready) (hsettled : k.tasks.Settled) (hframe : Orderly frame k.current) : k'.Ready := by
  cases htrapped with
  | left hsave hentered hoperated hpainted hpassed =>
      have hsaved := (leads_saveContext frame k).of_ok hsave
      have hready := hsaved.ready hk hframe.1
      have hserved := hentered.ready hready (hsaved.settled hsettled)
        (hsaved.current.symm ▸ hframe)
      exact hpassed.ready (hpainted.ready (hoperated.ready hserved))

end Kernel

end Timeshare
