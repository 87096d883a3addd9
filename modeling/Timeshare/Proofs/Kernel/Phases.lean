import Timeshare.Proofs.Kernel.Coherent

/-!
# Every phase keeps the tables coherent

A system call is served for an active process, so its handler finds the tables
as `Coherence` needs them; the other phases need nothing.  A scheduling pass
leaves an active process behind, whatever it found.
-/

namespace Timeshare

variable {P : Type}

/-- An active process stays so when a control block changes elsewhere than in its
state. -/
theorem Tasks.Engaged.touch {t : Tasks} {pid : Pid} {slot : Slot} {f : Process → Process}
    (hengaged : t.Engaged) (hfind : t.table.find? pid = some slot)
    (hstate : (f (t.table.block slot)).state = (t.table.block slot).state)
    (hpid : (f (t.table.block slot)).pid = (t.table.block slot).pid) :
    (t.modify slot f).Engaged := by
  have hlive : (f (t.table.block slot)).isLive := by
    rw [Process.isLive, hstate]
    exact (ProcessTable.find?_eq_some hfind).1
  exact fun active hcurrent =>
    (stateOf_modify hfind hlive hpid hstate).trans (hengaged active hcurrent)

/-- The recorded process is not the one that is created. -/
theorem Tasks.Engaged.create {t t' : Tasks} {pid : Pid} {entry now : UInt64} {name : String}
    (hengaged : t.Engaged) (hsound : t.table.Sound)
    (hcreate : (t.create entry name now).outcome = .ok (pid, t')) : t'.Engaged := by
  obtain ⟨hnext, _, _, _, _, _, hrewrite⟩ := rewrite_create hsound hcreate
  intro active hcurrent
  have hactive := hengaged active (hrewrite.current.symm.trans hcurrent)
  rw [hrewrite.stateOf]
  split
  · rename_i hself
    rw [hself, hnext, stateOf, hsound.get?_nextPid] at hactive
    contradiction
  · exact hactive

/-- A destroyed process is not recorded any more. -/
theorem Tasks.Engaged.destroy {t t' : Tasks} {target : Option Pid} (hengaged : t.Engaged)
    (hsound : t.table.Sound) (hdestroy : (t.destroy target).outcome = .ok t') : t'.Engaged := by
  obtain ⟨pid, _, _, _, hrewrite⟩ := rewrite_destroy hsound hdestroy
  intro active hcurrent
  rw [hrewrite.current] at hcurrent
  split at hcurrent
  · contradiction
  · rename_i hother
    rw [hrewrite.stateOf, if_neg fun hself : active = pid => hother (hself ▸ hcurrent)]
    exact hengaged active hcurrent

theorem Tasks.Settled.engaged {t : Tasks} (hsettled : t.Settled) : t.Engaged := by
  intro pid hcurrent
  obtain ⟨active, hrecorded, hactive⟩ := hsettled
  rw [hcurrent] at hrecorded
  injection hrecorded with heq
  exact heq ▸ hactive

namespace Kernel

variable {S : Pid → Prop} {k k' : Kernel P} {frame : Frame}

/-- The tables of a kernel are coherent for the processes that satisfy `S`. -/
abbrev CoherentOn (S : Pid → Prop) (k : Kernel P) : Prop :=
  Coherence S k.tasks k.mutexes k.mailboxes

/-- The tables of a kernel are coherent, for all processes but idle. -/
abbrev Coherent (k : Kernel P) : Prop := k.CoherentOn (· ≠ .idle)

theorem Settled.active {t : Tasks} {pid : Pid} (hsettled : t.Settled)
    (hcurrent : t.current = some pid) : t.stateOf pid = some .active :=
  hsettled.engaged pid hcurrent

theorem Saved.coherent (hsaved : Saved frame k (.ok ()) k') (hk : k.CoherentOn S) :
    k'.CoherentOn S := by
  cases hsaved with
  | nobody => exact hk
  | saved _ hfind => exact hk.touch hfind rfl rfl rfl

theorem Saved.engaged (hsaved : Saved frame k (.ok ()) k') (hengaged : k.tasks.Engaged) :
    k'.tasks.Engaged := by
  cases hsaved with
  | nobody => exact hengaged
  | saved _ hfind => exact hengaged.touch hfind rfl rfl

theorem Saved.settled (hsaved : Saved frame k (.ok ()) k') (hsettled : k.tasks.Settled) :
    k'.tasks.Settled := by
  have hengaged := hsaved.engaged hsettled.engaged
  obtain ⟨active, hcurrent, _⟩ := hsettled
  have hcurrent' : k'.tasks.current = some active := by cases hsaved <;> exact hcurrent
  exact ⟨active, hcurrent', hengaged active hcurrent'⟩

variable [Platform P]

/-- A call of the active process keeps the tables coherent. -/
theorem Served.coherent {call : Call} {arguments : Arguments} {result : Except Stop Int64}
    (hserved : Served k call arguments result k') (hk : k.CoherentOn S) (hengaged : k.tasks.Engaged)
    (hresult : ∀ fault, result ≠ .error (.fault fault)) : k'.CoherentOn S := by
  cases hserved with
  | refused => exact hk
  | fault => exact absurd rfl (hresult _)
  | answered => exact hk
  | exec hcreate => exact hk.create hcreate
  | exit hdestroy => exact hk.destroy_current hdestroy
  | sleep hcurrent hfind hsleep =>
      subst hsleep
      exact hk.sleep hcurrent (hengaged _ hcurrent) hfind rfl rfl rfl
  | yield hcurrent hfind henqueue =>
      have hlive := (ProcessTable.find?_eq_some hfind).1
      exact hk.yield hcurrent (hengaged _ hcurrent) hfind hlive rfl rfl henqueue
  | mutexAlloc halloc => exact hk.mutexAlloc halloc
  | mutexFree hrelease => exact hk.mutexFree hrelease
  | mutexLock hcurrent hlock =>
      exact hk.mutexLock hcurrent (hengaged _ hcurrent) hlock
  | mutexUnlock _ hunlock => exact hk.mutexUnlock hunlock
  | send _ hsend => exact hk.send hsend
  | deliver _ hsend hfind => exact (hk.send hsend).touch hfind rfl rfl rfl
  | lost => exact absurd rfl (hresult _)
  | receive hcurrent hreceive =>
      exact hk.receive hcurrent (hengaged _ hcurrent) hreceive

theorem Ticked.coherent (hticked : Ticked k (.ok ()) k') (hk : k.CoherentOn S) :
    k'.CoherentOn S := by
  cases hticked with
  | nobody => exact hk
  | charged _ _ hfind => exact hk.touch hfind rfl rfl rfl

theorem Ticked.engaged (hticked : Ticked k (.ok ()) k') (hengaged : k.tasks.Engaged) :
    k'.tasks.Engaged := by
  cases hticked with
  | nobody => exact hengaged
  | charged _ _ hfind => exact hengaged.touch hfind rfl rfl

theorem Dispatched.coherent {number : UInt64} {arguments : Arguments} {value : Int64}
    (hdispatched : Dispatched k number arguments (.ok value) k') (hk : k.CoherentOn S)
    (hengaged : k.tasks.Engaged) : k'.CoherentOn S := by
  cases hdispatched with
  | value _ hserved => exact hserved.coherent hk hengaged fun _ h => by contradiction
  | refused _ hserved => exact hserved.coherent hk hengaged fun _ h => by injection h; contradiction

theorem Called.coherent (hcalled : Called k (.ok ()) k') (hk : k.CoherentOn S)
    (hengaged : k.tasks.Engaged) : k'.CoherentOn S := by
  cases hcalled with
  | gone _ _ hdispatch => exact ((leads_dispatch _ _ k).of_ok hdispatch).coherent hk hengaged
  | answered _ _ hdispatch hfind =>
      have hafter := ((leads_dispatch _ _ k).of_ok hdispatch).coherent hk hengaged
      exact hafter.touch hfind rfl rfl rfl

theorem Entered.coherent (hentered : Entered frame k (.ok ()) k') (hk : k.CoherentOn S)
    (hengaged : k.tasks.Engaged) : k'.CoherentOn S := by
  cases hentered with
  | timer _ hticked => exact hticked.coherent hk
  | call _ hcalled => exact hcalled.coherent hk hengaged

theorem Operated.coherent (hoperated : Operated k (.ok ()) k') (hk : k.CoherentOn S) :
    k'.CoherentOn S := by
  cases hoperated with
  | quiet => exact hk
  | killed hdestroy => exact hk.destroy_current hdestroy
  | spawned _ hcreate => exact hk.create hcreate

theorem Painted.coherent (hpainted : Painted k (.ok ()) k') (hk : k.CoherentOn S) :
    k'.CoherentOn S := by
  cases hpainted with
  | painted => exact hk

theorem Passed.coherent {transition : Transition} (hpassed : Passed k (.ok transition) k')
    (hk : k.CoherentOn S) : k'.CoherentOn S := by
  cases hpassed with
  | passed hpass => exact hk.moves (Tasks.moves_reschedule hk.tasks.table hpass).1

/-- Behind a pass the process it chose is active. -/
theorem Passed.settled {transition : Transition} (hpassed : Passed k (.ok transition) k')
    (hk : k.CoherentOn S) :
    k'.current = some transition.next ∧ k'.tasks.stateOf transition.next = some .active := by
  cases hpassed with
  | passed hpass => exact (Tasks.moves_reschedule hk.tasks.table hpass).2

/-- A trap keeps tables coherent if a recorded process is active, and behind it there is
one that is. -/
theorem Trapped.coherent {resumed : Frame} (htrapped : Trapped frame k (.ok resumed) k')
    (hk : k.CoherentOn S) (hengaged : k.tasks.Engaged) :
    k'.CoherentOn S ∧ k'.tasks.Settled := by
  cases htrapped with
  | left hsave hentered hoperated hpainted hpassed =>
      have hsaved := (leads_saveContext frame k).of_ok hsave
      -- each phase needs what the phases before it left
      have hserved := hentered.coherent (hsaved.coherent hk) (hsaved.engaged hengaged)
      have hready := hpainted.coherent (hoperated.coherent hserved)
      exact ⟨hpassed.coherent hready, _, hpassed.settled hready⟩

/-! ## Booting -/

theorem coherent_empty : Coherence (· ≠ .idle) .empty .empty .empty := by
  have hnone (pid : Pid) : Tasks.empty.table.get? pid = none := ProcessTable.get?_empty pid
  refine ⟨Tasks.sound_empty, MutexTable.empty_sound, fun h => h rfl,
    fun _ h => by contradiction, ?_, ?_⟩
  · intro pid _
    rw [waitersOf, MutexTable.waiters_empty, MailboxTable.waiters_empty, Tasks.stateOf, hnone]
    rfl
  · intro pid _
    rw [MailboxTable.waiters_empty, Tasks.destinationOf, hnone]
    simp

theorem Spawned.coherent {entry : UInt64} {name : String} {result : Except Refusal Pid}
    (hspawned : Spawned entry name k (.ok result) k') (hk : k.CoherentOn S) : k'.CoherentOn S := by
  cases hspawned with
  | created hcreate => exact hk.create hcreate
  | refused => exact hk

theorem Spawned.engaged {entry : UInt64} {name : String} {result : Except Refusal Pid}
    (hspawned : Spawned entry name k (.ok result) k') (hk : k.CoherentOn S)
    (hengaged : k.tasks.Engaged) : k'.tasks.Engaged := by
  cases hspawned with
  | created hcreate => exact hengaged.create hk.tasks.table hcreate
  | refused => exact hengaged

theorem Started.coherent {programs : List Program} (hstarted : Started programs k k')
    (hk : k.CoherentOn S) : k'.CoherentOn S := by
  induction hstarted with
  | nil => exact hk
  | cons hspawned _ _ ih => exact ih (hspawned.coherent hk)

theorem Booted.coherent {idleEntry : UInt64} {programs : List Program} {first : Pid}
    (hbooted : Booted idleEntry programs k first k') (hk : k.CoherentOn S) :
    k'.CoherentOn S ∧ k'.tasks.Settled := by
  cases hbooted with
  | booted hidle hstarted _ hpassed =>
      have hready := hstarted.coherent (hidle.coherent hk)
      exact ⟨hpassed.coherent hready, _, hpassed.settled hready⟩

end Kernel

end Timeshare
