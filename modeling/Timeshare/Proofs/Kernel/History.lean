import Timeshare.Proofs.Kernel.Phases

/-!
# Histories of a kernel

A kernel is set up, booted, and from then on traps are taken; between traps keys
are bound, processes are created from outside, and the machine changes: keys are
typed, programs write their memory, guards are set.  A history records all of
this, the newest first, and leads to the kernel that it leaves behind.
-/

namespace Timeshare.Kernel

variable {P : Type} {k k' : Kernel P}

/-- Binding a key replaces its program and no other one. -/
theorem lookup_rebind (key other : Char) (program : Program) (bindings : List (Char × Program)) :
    (Console.rebind key program bindings).lookup other =
      if other = key then some program else bindings.lookup other := by
  have hcons (name : Char) (bound : Program) (rest : List (Char × Program)) :
      ((name, bound) :: rest).lookup other =
        if other = name then some bound else rest.lookup other := by
    by_cases hname : other = name
    · simp [hname]
    · rw [List.lookup_cons, beq_false_of_ne hname, if_neg hname]
  induction bindings with
  | nil => rw [Console.rebind, hcons]
  | cons first rest ih =>
      obtain ⟨name, bound⟩ := first
      rw [Console.rebind]
      split
      · rename_i hname
        rw [hcons, hcons, hname]
        split <;> rfl
      · rename_i hname
        rw [hcons, hcons, ih]
        by_cases hother : other = name
        · rw [if_pos hother, if_neg (hother ▸ hname), if_pos hother]
        · rw [if_neg hother, if_neg hother]

/-- Binding a key changes the console only, and keys start this program or what they
started before. -/
theorem exists_console {key : Char} {program : Program} {bound : Bool}
    (hbind : bindKey key program k = .ok bound k') :
    ∃ console, k' = { k with console } ∧ ∀ other started,
      console.command? other = some (.spawn started) →
        started = program ∨ k.console.command? other = some (.spawn started) := by
  unfold bindKey at hbind
  rw [get_bind] at hbind
  cases hconsole : k.console.bind? key program with
  | none =>
      rw [hconsole] at hbind
      injection hbind with _ heq
      exact ⟨k.console, heq.symm, fun _ _ h => .inr h⟩
  | some console =>
      rw [hconsole] at hbind
      injection hbind with _ heq
      refine ⟨console, heq.symm, fun other started hcommand => ?_⟩
      unfold Console.bind? at hconsole
      split at hconsole
      · contradiction
      injection hconsole with hconsole
      subst hconsole
      unfold Console.command? at hcommand ⊢
      split at hcommand
      · exact .inr hcommand
      · dsimp only at hcommand
        rw [lookup_rebind] at hcommand
        split at hcommand
        · injection hcommand with hcommand
          injection hcommand with heq
          exact .inl heq.symm
        · exact .inr hcommand

variable [Platform P]

/-- A kernel is set up without processes, mutexes and messages. -/
theorem new_eq_ok {machine : P} {config : Config} (hnew : Kernel.new machine config = .ok k) :
    config.ticksPerSecond ≠ 0 ∧ k =
      { platform := Platform.log .initializing machine, config, clock := .zero, tasks := .empty
        mutexes := .empty, mailboxes := .empty, console := .ofShowStats config.showStats } := by
  rw [Kernel.new] at hnew
  split at hnew
  · contradiction
  · rename_i hticks
    injection hnew with heq
    exact ⟨hticks, heq.symm⟩

/-- What a system call answers, if the trap with this frame is one. -/
def answer (frame : Frame) (k : Kernel P) : Option Int64 :=
  if frame.vector = callVector then
    match (saveContext frame >>= fun _ => dispatch frame.callNumber frame.arguments) k with
    | .ok value _ => some value
    | .error _ _ => none
  else none

/-- What happens to a kernel. -/
inductive Happening (P : Type) where
  /-- A trap: who had the processor, the registers, the answer to a system call, and
  who has the processor now. -/
  | trap (caller : Option Pid) (frame : Frame) (answer : Option Int64) (next : Option Pid)
  /-- A key is bound to a program. -/
  | bind (key : Char) (program : Program)
  /-- A process is created from outside. -/
  | spawn (entry : UInt64) (name : String)
  /-- The machine is `machine` now. -/
  | machine (machine : P)

/-- A kernel that was set up and not booted. -/
inductive Fresh : List (Happening P) → Kernel P → Prop
  | new {machine : P} {config : Config} {k : Kernel P} (hnew : new machine config = .ok k) :
      Fresh [.machine machine] k
  | bind {log : List (Happening P)} {k k' : Kernel P} {key : Char} {program : Program}
      {bound : Bool} (hfresh : Fresh log k) (hbind : bindKey key program k = .ok bound k') :
      Fresh (.bind key program :: log) k'
  | machine {log : List (Happening P)} {k : Kernel P} (hfresh : Fresh log k) (machine : P) :
      Fresh (.machine machine :: log) { k with platform := machine }

/-- One thing happens to a booted kernel. -/
inductive Occurs : Happening P → Kernel P → Kernel P → Prop
  | trap {k k' : Kernel P} {frame resumed : Frame} (htrap : trap frame k = .ok resumed k') :
      Occurs (.trap k.current frame (answer frame k) k'.current) k k'
  | bind {k k' : Kernel P} {key : Char} {program : Program} {bound : Bool}
      (hbind : bindKey key program k = .ok bound k') : Occurs (.bind key program) k k'
  | spawn {k k' : Kernel P} {entry : UInt64} {name : String} {result : Except Refusal Pid}
      (hspawn : attempt (spawn entry name) k = .ok result k') : Occurs (.spawn entry name) k k'
  | machine {k : Kernel P} (machine : P) :
      Occurs (.machine machine) k { k with platform := machine }

/-- A kernel and what has happened to it, the newest first. -/
inductive History : List (Happening P) → Kernel P → Prop
  | boot {log : List (Happening P)} {k k' : Kernel P} {idleEntry : UInt64}
      {programs : List Program} {first : Pid} (hfresh : Fresh log k)
      (hboot : boot idleEntry programs k = .ok first k') : History log k'
  | step {log : List (Happening P)} {k k' : Kernel P} {happening : Happening P}
      (hhistory : History log k) (hoccurs : Occurs happening k k') : History (happening :: log) k'

/-! ## What every history keeps -/

/-- Before boot there are no processes, no mutexes and no messages. -/
theorem Fresh.tables {log : List (Happening P)} (hfresh : Fresh log k) :
    k.tasks = .empty ∧ k.mutexes = .empty ∧ k.mailboxes = .empty := by
  induction hfresh with
  | new hnew =>
      obtain ⟨_, rfl⟩ := new_eq_ok hnew
      exact ⟨rfl, rfl, rfl⟩
  | bind _ hbind ih =>
      obtain ⟨console, rfl, _⟩ := exists_console hbind
      exact ih
  | machine _ _ ih => exact ih

/-- Before boot no time goes by. -/
theorem Fresh.clock {log : List (Happening P)} (hfresh : Fresh log k) : k.clock = .zero := by
  induction hfresh with
  | new hnew =>
      obtain ⟨_, rfl⟩ := new_eq_ok hnew
      rfl
  | bind _ hbind ih =>
      obtain ⟨console, rfl, _⟩ := exists_console hbind
      exact ih
  | machine _ _ ih => exact ih

theorem Fresh.coherent {log : List (Happening P)} (hfresh : Fresh log k) : k.Coherent := by
  obtain ⟨htasks, hmutexes, hmailboxes⟩ := hfresh.tables
  rw [Kernel.Coherent, CoherentOn, htasks, hmutexes, hmailboxes]
  exact coherent_empty

/-- Nobody gets or loses the processor by a creation. -/
theorem Spawned.current {entry : UInt64} {name : String} {result : Except Refusal Pid}
    (hspawned : Spawned entry name k (.ok result) k') (hk : k.Coherent) :
    k'.current = k.current := by
  cases hspawned with
  | created hcreate =>
      obtain ⟨_, _, _, _, _, _, hrewrite⟩ := Tasks.rewrite_create hk.tasks.table hcreate
      exact hrewrite.current
  | refused => rfl

theorem Spawned.settled {entry : UInt64} {name : String} {result : Except Refusal Pid}
    (hspawned : Spawned entry name k (.ok result) k') (hk : k.Coherent)
    (hsettled : k.tasks.Settled) : k'.tasks.Settled := by
  have hengaged := hspawned.engaged hk hsettled.engaged
  obtain ⟨active, hcurrent, _⟩ := hsettled
  have hcurrent' : k'.tasks.current = some active := (hspawned.current hk).trans hcurrent
  exact ⟨active, hcurrent', hengaged active hcurrent'⟩

/-- Everything that happens keeps the tables coherent and a process active. -/
theorem Occurs.coherent {happening : Happening P} (hoccurs : Occurs happening k k')
    (hk : k.Coherent) (hsettled : k.tasks.Settled) : k'.Coherent ∧ k'.tasks.Settled := by
  cases hoccurs with
  | trap htrap => exact ((leads_trap _ k).of_ok htrap).coherent hk hsettled.engaged
  | bind hbind =>
      obtain ⟨console, rfl, _⟩ := exists_console hbind
      exact ⟨hk, hsettled⟩
  | spawn hspawn =>
      have hspawned := (leads_attempt_spawn _ _ k).of_ok hspawn
      exact ⟨hspawned.coherent hk, hspawned.settled hk hsettled⟩
  | machine => exact ⟨hk, hsettled⟩

/-- Between traps the tables are coherent and the recorded process is active. -/
theorem History.coherent {log : List (Happening P)} (hhistory : History log k) :
    k.Coherent ∧ k.tasks.Settled := by
  induction hhistory with
  | boot hfresh hboot => exact (((leads_boot _ _ _).of_ok hboot) _ rfl).coherent hfresh.coherent
  | step _ hoccurs ih => exact hoccurs.coherent ih.1 ih.2

end Timeshare.Kernel
