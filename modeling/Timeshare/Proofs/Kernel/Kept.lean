import Timeshare.Proofs.Kernel.History

/-!
# What traps leave alone

Only the timer moves the clock, only binding a key changes the bindings, and the
configuration never changes.  A call makes nobody but its caller wait.
-/

namespace Timeshare.Kernel

open Platform (Reaches)

variable {P : Type} [Platform P] {S : Pid → Prop} {k k' k'' : Kernel P} {frame : Frame}

/-- The kernel's settings are as before and its machine was only operated on. -/
structure Kept (k k' : Kernel P) : Prop where
  clock : k'.clock = k.clock
  config : k'.config = k.config
  bindings : k'.console.bindings = k.console.bindings
  platform : Reaches k.platform k'.platform

theorem Kept.trans (h : k.Kept k') (h' : k'.Kept k'') : k.Kept k'' :=
  ⟨h'.clock.trans h.clock, h'.config.trans h.config, h'.bindings.trans h.bindings,
    h.platform.trans h'.platform⟩

theorem Saved.kept (hsaved : Saved frame k (.ok ()) k') : k.Kept k' := by
  cases hsaved <;> exact ⟨rfl, rfl, rfl, .refl⟩

/-- The timer moves the clock by one tick. -/
theorem Ticked.kept (hticked : Ticked k (.ok ()) k') :
    k.clock.tick = .ok k'.clock ∧ Kept { k with clock := k'.clock } k' := by
  cases hticked with
  | nobody htick _ hreach => exact ⟨htick, rfl, rfl, rfl, hreach⟩
  | charged htick _ _ _ _ hreach => exact ⟨htick, rfl, rfl, rfl, hreach⟩

theorem Served.kept {call : Call} {arguments : Arguments} {result : Except Stop Int64}
    (hserved : Served k call arguments result k')
    (hresult : ∀ fault, result ≠ .error (.fault fault)) : k.Kept k' := by
  cases hserved with
  | fault => exact absurd rfl (hresult _)
  | lost => exact absurd rfl (hresult _)
  | refused hreach => exact ⟨rfl, rfl, rfl, hreach⟩
  | answered _ hreach => exact ⟨rfl, rfl, rfl, hreach⟩
  | exec _ hreach => exact ⟨rfl, rfl, rfl, hreach⟩
  | exit _ hreach => exact ⟨rfl, rfl, rfl, hreach⟩
  | sleep _ _ _ hreach => exact ⟨rfl, rfl, rfl, hreach⟩
  | yield _ _ _ hreach => exact ⟨rfl, rfl, rfl, hreach⟩
  | mutexAlloc _ hreach => exact ⟨rfl, rfl, rfl, hreach⟩
  | mutexFree _ hreach => exact ⟨rfl, rfl, rfl, hreach⟩
  | mutexLock _ _ hreach => exact ⟨rfl, rfl, rfl, hreach⟩
  | mutexUnlock _ _ hreach => exact ⟨rfl, rfl, rfl, hreach⟩
  | send _ _ _ hreach => exact ⟨rfl, rfl, rfl, hreach⟩
  | deliver _ _ _ hreach => exact ⟨rfl, rfl, rfl, hreach⟩
  | receive _ _ _ hreach => exact ⟨rfl, rfl, rfl, hreach⟩

theorem Dispatched.kept {number : UInt64} {arguments : Arguments} {value : Int64}
    (hdispatched : Dispatched k number arguments (.ok value) k') : k.Kept k' := by
  cases hdispatched with
  | value _ hserved => exact hserved.kept fun _ h => by contradiction
  | refused _ hserved hreach =>
      exact (hserved.kept fun _ h => by injection h; contradiction).trans ⟨rfl, rfl, rfl, hreach⟩

theorem Called.kept (hcalled : Called k (.ok ()) k') : k.Kept k' := by
  cases hcalled with
  | gone _ _ hdispatch => exact ((leads_dispatch _ _ k).of_ok hdispatch).kept
  | answered _ _ hdispatch =>
      exact ((leads_dispatch _ _ k).of_ok hdispatch).kept.trans ⟨rfl, rfl, rfl, .refl⟩

theorem Spawned.kept {entry : UInt64} {name : String} {result : Except Refusal Pid}
    (hspawned : Spawned entry name k (.ok result) k') : k.Kept k' := by
  cases hspawned with
  | created _ hreach => exact ⟨rfl, rfl, rfl, hreach⟩
  | refused hreach => exact ⟨rfl, rfl, rfl, hreach⟩

theorem Operated.kept (hoperated : Operated k (.ok ()) k') : k.Kept k' := by
  cases hoperated with
  | quiet hreach => exact ⟨rfl, rfl, rfl, hreach⟩
  | killed _ hreach => exact ⟨rfl, rfl, rfl, hreach⟩
  | spawned _ _ hreach => exact ⟨rfl, rfl, rfl, hreach⟩

theorem Painted.kept (hpainted : Painted k (.ok ()) k') : k.Kept k' := by
  cases hpainted with
  | painted hreach => exact ⟨rfl, rfl, rfl, hreach⟩

theorem Passed.kept {transition : Transition} (hpassed : Passed k (.ok transition) k') :
    k.Kept k' := by
  cases hpassed with
  | passed _ hreach => exact ⟨rfl, rfl, rfl, hreach⟩

/-! ## Tables that a phase does not touch -/

theorem Ticked.mutexes (hticked : Ticked k (.ok ()) k') : k'.mutexes = k.mutexes := by
  cases hticked <;> rfl

theorem Operated.mutexes (hoperated : Operated k (.ok ()) k') : k'.mutexes = k.mutexes := by
  cases hoperated <;> rfl

theorem Painted.tables (hpainted : Painted k (.ok ()) k') :
    k'.mutexes = k.mutexes ∧ k'.tasks = k.tasks := by
  cases hpainted
  exact ⟨rfl, rfl⟩

theorem Passed.mutexes {transition : Transition} (hpassed : Passed k (.ok transition) k') :
    k'.mutexes = k.mutexes := by
  cases hpassed
  rfl

/-! ## The clock -/

theorem toNat_tick {clock clock' : Clock} (htick : clock.tick = .ok clock') :
    clock'.now.toNat = clock.now.toNat + 1 := by
  unfold Clock.tick at htick
  obtain ⟨now, hadd, htick⟩ := bind_eq_ok_iff.1 htick
  injection htick with heq
  subst heq
  exact Word.toNat_add hadd

theorem Started.clock {programs : List Program} (hstarted : Started programs k k') :
    k'.clock = k.clock := by
  induction hstarted with
  | nil => rfl
  | cons hspawned _ _ ih => exact ih.trans hspawned.kept.clock

theorem Booted.clock {idleEntry : UInt64} {programs : List Program} {first : Pid}
    (hbooted : Booted idleEntry programs k first k') : k'.clock = k.clock := by
  cases hbooted with
  | booted hidle hstarted _ hpassed =>
      exact hpassed.kept.clock.trans (hstarted.clock.trans hidle.kept.clock)

/-- The ticks of one trap. -/
def ticks (frame : Frame) : Nat := if frame.vector = timerVector then 1 else 0

theorem Entered.clock (hentered : Entered frame k (.ok ()) k') :
    k'.clock.now.toNat = k.clock.now.toNat + ticks frame := by
  cases hentered with
  | timer hvector hticked =>
      rw [ticks, if_pos hvector]
      exact toNat_tick hticked.kept.1
  | call hvector hcalled =>
      rw [ticks, if_neg (by rw [hvector]; decide), hcalled.kept.clock, Nat.add_zero]

theorem Entered.config (hentered : Entered frame k (.ok ()) k') : k'.config = k.config := by
  cases hentered with
  | timer _ hticked => exact hticked.kept.2.config
  | call _ hcalled => exact hcalled.kept.config

theorem Trapped.config {resumed : Frame} (htrapped : Trapped frame k (.ok resumed) k') :
    k'.config = k.config := by
  cases htrapped with
  | left hsave hentered hoperated hpainted hpassed =>
      rw [hpassed.kept.config, hpainted.kept.config, hoperated.kept.config, hentered.config,
        ((leads_saveContext frame k).of_ok hsave).kept.config]

theorem Trapped.clock {resumed : Frame} (htrapped : Trapped frame k (.ok resumed) k') :
    k'.clock.now.toNat = k.clock.now.toNat + ticks frame := by
  cases htrapped with
  | left hsave hentered hoperated hpainted hpassed =>
      have hsaved := (leads_saveContext frame k).of_ok hsave
      rw [hpassed.kept.clock, hpainted.kept.clock, hoperated.kept.clock, hentered.clock,
        hsaved.kept.clock]

/-! ## Who starts to wait -/

/-- Everybody who waits for a mutex or a message. -/
abbrev waiters (k : Kernel P) : List Pid := waitersOf k.mutexes k.mailboxes

theorem waitingAt_sublist {P : Type} (k : Kernel P) (index : MailboxId) :
    (k.mailboxes.waitingAt index).Sublist k.waiters :=
  (sublist_flatMap_finRange _ index).trans (List.sublist_append_right _ _)

theorem Served.waiters {call : Call} {arguments : Arguments} {result : Except Stop Int64}
    {pid : Pid} (hserved : Served k call arguments result k') (hk : k.CoherentOn S)
    (hresult : ∀ fault, result ≠ .error (.fault fault)) (hcaller : k.current ≠ some pid)
    (habsent : pid ∉ k.waiters) : pid ∉ k'.waiters := by
  have hmutexes : pid ∉ k.mutexes.waiters := fun hmem => habsent (List.mem_append_left _ hmem)
  have hmailboxes : pid ∉ k.mailboxes.waiters := fun hmem => habsent (List.mem_append_right _ hmem)
  have hother {caller : Pid} (hcurrent : k.current = some caller) : pid ≠ caller :=
    fun heq => hcaller (heq ▸ hcurrent)
  unfold Kernel.waiters waitersOf
  rw [List.mem_append, not_or]
  cases hserved with
  | fault => exact absurd rfl (hresult _)
  | lost => exact absurd rfl (hresult _)
  | refused => exact ⟨hmutexes, hmailboxes⟩
  | answered => exact ⟨hmutexes, hmailboxes⟩
  | exec => exact ⟨hmutexes, hmailboxes⟩
  | exit => exact ⟨hmutexes, hmailboxes⟩
  | sleep => exact ⟨hmutexes, hmailboxes⟩
  | yield => exact ⟨hmutexes, hmailboxes⟩
  | mutexAlloc halloc =>
      exact ⟨fun hmem => hmutexes (MutexTable.waiters_alloc hk.mutexes halloc hmem), hmailboxes⟩
  | mutexFree hrelease =>
      exact ⟨fun hmem => hmutexes (MutexTable.waiters_release hk.mutexes hrelease hmem), hmailboxes⟩
  | mutexLock hcurrent hlock =>
      refine ⟨fun hmem => ?_, hmailboxes⟩
      have hmem := List.mem_cons.1 (MutexTable.waiters_lock hk.mutexes hlock hmem)
      exact hmutexes (hmem.resolve_left (hother hcurrent))
  | mutexUnlock _ hunlock =>
      exact ⟨fun hmem => hmutexes (MutexTable.waiters_unlock hk.mutexes hunlock hmem), hmailboxes⟩
  | send _ hsend =>
      exact ⟨hmutexes, fun hmem => hmailboxes (MailboxTable.waiters_send hsend hmem)⟩
  | deliver _ hsend =>
      exact ⟨hmutexes, fun hmem => hmailboxes (MailboxTable.waiters_send hsend hmem)⟩
  | receive hcurrent hreceive =>
      refine ⟨hmutexes, fun hmem => ?_⟩
      have hmem := List.mem_cons.1 (MailboxTable.waiters_receive hreceive hmem)
      exact hmailboxes (hmem.resolve_left (hother hcurrent))

theorem Dispatched.waiters {number : UInt64} {arguments : Arguments} {value : Int64} {pid : Pid}
    (hdispatched : Dispatched k number arguments (.ok value) k') (hk : k.CoherentOn S)
    (hcaller : k.current ≠ some pid) (habsent : pid ∉ k.waiters) : pid ∉ k'.waiters := by
  cases hdispatched with
  | value _ hserved => exact hserved.waiters hk (fun _ h => by contradiction) hcaller habsent
  | refused _ hserved =>
      exact hserved.waiters hk (fun _ h => by injection h; contradiction) hcaller habsent

theorem Called.waiters {pid : Pid} (hcalled : Called k (.ok ()) k') (hk : k.CoherentOn S)
    (hcaller : k.current ≠ some pid) (habsent : pid ∉ k.waiters) : pid ∉ k'.waiters := by
  cases hcalled with
  | gone _ _ hdispatch =>
      exact ((leads_dispatch _ _ k).of_ok hdispatch).waiters hk hcaller habsent
  | answered _ _ hdispatch =>
      have hdispatched := (leads_dispatch _ _ k).of_ok hdispatch
      exact hdispatched.waiters hk hcaller habsent

end Timeshare.Kernel
