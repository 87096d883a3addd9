import Timeshare.Proofs.Kernel.Kept
import Timeshare.Proofs.Tasks.Evolves

/-!
# How processes change during a trap

Calls, keys and scheduling passes let processes evolve; saving registers and
charging a tick rewrite a process that is there.  So no phase of a trap brings an
old pid back.
-/

namespace Timeshare.Kernel

variable {P : Type} {S : Pid → Prop} {k k' : Kernel P} {frame : Frame}

theorem Saved.continues (hsaved : Saved frame k (.ok ()) k') (hk : k.CoherentOn S) :
    k.tasks.Continues k'.tasks := by
  cases hsaved with
  | nobody => exact .refl _
  | saved _ hfind =>
      exact Tasks.continues_modify hk.tasks.table hfind (ProcessTable.find?_eq_some hfind).1 rfl

theorem Saved.current (hsaved : Saved frame k (.ok ()) k') : k'.current = k.current := by
  cases hsaved <;> rfl

theorem Saved.mutexes (hsaved : Saved frame k (.ok ()) k') : k'.mutexes = k.mutexes := by
  cases hsaved <;> rfl

/-- The saved registers of the recorded process are those of the frame. -/
theorem Saved.context {pid : Pid} {p : Process} (hsaved : Saved frame k (.ok ()) k')
    (hk : k.CoherentOn S) (hcurrent : k'.current = some pid)
    (hget : k'.tasks.table.get? pid = some p) : p.context = frame := by
  cases hsaved with
  | nobody hnobody =>
      rw [hnobody] at hcurrent
      contradiction
  | saved hrecorded hfind =>
      obtain rfl : pid = _ := Option.some.inj (hcurrent.symm.trans hrecorded)
      have hlive := (ProcessTable.find?_eq_some hfind).1
      have hrewrite := Tasks.rewrite_modify (f := fun p => { p with context := frame })
        hk.tasks.table hfind hlive rfl
      have hsame := hrewrite.get? pid
      rw [if_pos rfl] at hsame
      exact congrArg Process.context (Option.some.inj (hget.symm.trans hsame))

/-- Sending lets the receiver evolve. -/
theorem evolvesAt_send {id now : UInt64} {message stamped : Message} {handoff : Option Handoff}
    {sender : Pid} {mailboxes : MailboxTable} {tasks : Tasks} (hk : k.CoherentOn S)
    (hsend : (k.mailboxes.send id message sender now k.tasks).outcome =
      .ok ((stamped, handoff), mailboxes, tasks)) : k.tasks.EvolvesAt now tasks := by
  obtain ⟨_, _, _, _, hcases⟩ := MailboxTable.send_cases hsend
  rcases hcases with ⟨_, rfl, _⟩ | ⟨_, slot, _, _, _, _, _, hfind, _, henqueue⟩
  · exact .refl _ _
  · have hlive := (ProcessTable.find?_eq_some hfind).1
    exact Tasks.evolvesAt_modify_enqueue hk.tasks.table hfind henqueue hlive
      ⟨rfl, rfl, rfl, rfl, .inl rfl, .inl rfl⟩

variable [Platform P]

theorem Ticked.continues (hticked : Ticked k (.ok ()) k') (hk : k.CoherentOn S) :
    k.tasks.Continues k'.tasks := by
  cases hticked with
  | nobody => exact .refl _
  | charged _ _ hfind =>
      exact Tasks.continues_modify hk.tasks.table hfind (ProcessTable.find?_eq_some hfind).1 rfl

/-- A call lets processes evolve. -/
theorem Served.evolvesAt {call : Call} {arguments : Arguments} {result : Except Stop Int64}
    (hserved : Served k call arguments result k') (hk : k.CoherentOn S)
    (hresult : ∀ fault, result ≠ .error (.fault fault)) :
    k.tasks.EvolvesAt k.clock.now k'.tasks := by
  have htable := hk.tasks.table
  cases hserved with
  | refused => exact .refl _ _
  | fault => exact absurd rfl (hresult _)
  | answered => exact .refl _ _
  | exec hcreate => exact Tasks.evolvesAt_create htable hcreate
  | exit hdestroy => exact Tasks.evolvesAt_destroy htable hdestroy
  | sleep _ hfind hsleep =>
      subst hsleep
      exact (Tasks.evolvesAt_modify htable hfind rfl
        ⟨rfl, rfl, rfl, rfl, .inr rfl, .inl rfl⟩).clearCurrent
  | yield _ hfind henqueue =>
      have hlive := (ProcessTable.find?_eq_some hfind).1
      exact (Tasks.evolvesAt_modify_enqueue htable hfind henqueue hlive
        ⟨rfl, rfl, rfl, rfl, .inr rfl, .inl rfl⟩).clearCurrent
  | mutexAlloc => exact .refl _ _
  | mutexFree => exact .refl _ _
  | mutexLock _ hlock =>
      obtain ⟨_, _, _, _, _, _, _, hcases⟩ := MutexTable.replace_lock hk.mutexes hlock
      rcases hcases with ⟨_, _, rfl⟩ | ⟨_, hpark⟩
      · exact .refl _ _
      · exact Tasks.evolvesAt_park htable hpark
  | mutexUnlock _ hunlock =>
      obtain ⟨_, _, _, _, hcases⟩ := MutexTable.replace_unlock hk.mutexes hunlock
      rcases hcases with ⟨_, _, rfl⟩ | ⟨_, _, _, ⟨_, _, rfl⟩ | ⟨_, _, _, hfind, henqueue⟩⟩
      · exact .refl _ _
      · exact .refl _ _
      · exact Tasks.evolvesAt_enqueue htable hfind henqueue
  | send _ hsend => exact evolvesAt_send hk hsend
  | deliver _ hsend hfind =>
      -- the receiver is queued first and answered then
      have hafter := hk.send hsend
      exact (evolvesAt_send hk hsend).trans (Tasks.evolvesAt_modify hafter.tasks.table hfind
        (ProcessTable.find?_eq_some hfind).1 ⟨rfl, rfl, rfl, rfl, .inl rfl, .inr ⟨_, rfl⟩⟩)
  | lost => exact absurd rfl (hresult _)
  | receive _ hreceive =>
      obtain ⟨_, _, _, hcases⟩ := MailboxTable.receive_cases hreceive
      rcases hcases with ⟨_, rfl, _⟩ | ⟨_, _, _, _, slot, hfind, hpark⟩
      · exact .refl _ _
      · exact Tasks.evolvesAt_modify_park htable hfind hpark (ProcessTable.find?_eq_some hfind).1
          ⟨rfl, rfl, rfl, rfl, .inl rfl, .inl rfl⟩

theorem Dispatched.evolvesAt {number : UInt64} {arguments : Arguments} {value : Int64}
    (hdispatched : Dispatched k number arguments (.ok value) k') (hk : k.CoherentOn S) :
    k.tasks.EvolvesAt k.clock.now k'.tasks := by
  cases hdispatched with
  | value _ hserved => exact hserved.evolvesAt hk fun _ h => by contradiction
  | refused _ hserved => exact hserved.evolvesAt hk fun _ h => by injection h; contradiction

theorem Called.evolvesAt (hcalled : Called k (.ok ()) k') (hk : k.CoherentOn S)
    (hengaged : k.tasks.Engaged) : k.tasks.EvolvesAt k.clock.now k'.tasks := by
  cases hcalled with
  | gone _ _ hdispatch => exact ((leads_dispatch _ _ k).of_ok hdispatch).evolvesAt hk
  | answered _ _ hdispatch hfind =>
      have hdispatched := (leads_dispatch _ _ k).of_ok hdispatch
      have hafter := hdispatched.coherent hk hengaged
      exact (hdispatched.evolvesAt hk).trans (Tasks.evolvesAt_modify hafter.tasks.table hfind
        (ProcessTable.find?_eq_some hfind).1 ⟨rfl, rfl, rfl, rfl, .inl rfl, .inr ⟨_, rfl⟩⟩)

theorem Operated.evolvesAt (hoperated : Operated k (.ok ()) k') (hk : k.CoherentOn S) :
    k.tasks.EvolvesAt k.clock.now k'.tasks := by
  cases hoperated with
  | quiet => exact .refl _ _
  | killed hdestroy => exact Tasks.evolvesAt_destroy hk.tasks.table hdestroy
  | spawned _ hcreate => exact Tasks.evolvesAt_create hk.tasks.table hcreate

theorem Passed.evolvesAt {transition : Transition} (hpassed : Passed k (.ok transition) k')
    (hk : k.CoherentOn S) : k.tasks.EvolvesAt k.clock.now k'.tasks := by
  cases hpassed with
  | passed hpass => exact (Tasks.moves_reschedule hk.tasks.table hpass).1.evolvesAt

theorem Spawned.evolvesAt {entry : UInt64} {name : String} {result : Except Refusal Pid}
    (hspawned : Spawned entry name k (.ok result) k') (hk : k.CoherentOn S) :
    k.tasks.EvolvesAt k.clock.now k'.tasks := by
  cases hspawned with
  | created hcreate => exact Tasks.evolvesAt_create hk.tasks.table hcreate
  | refused => exact .refl _ _

theorem Started.evolvesAt {programs : List Program} (hstarted : Started programs k k')
    (hk : k.CoherentOn S) : k.tasks.EvolvesAt k.clock.now k'.tasks := by
  induction hstarted with
  | nil => exact .refl _ _
  | cons hspawned _ _ ih =>
      have hrest := ih (hspawned.coherent hk)
      rw [hspawned.kept.clock] at hrest
      exact (hspawned.evolvesAt hk).trans hrest

theorem Booted.evolvesAt {idleEntry : UInt64} {programs : List Program} {first : Pid}
    (hbooted : Booted idleEntry programs k first k') (hk : k.CoherentOn S) :
    k.tasks.EvolvesAt k.clock.now k'.tasks := by
  cases hbooted with
  | booted hidle hstarted _ hpassed =>
      have hk₁ := hidle.coherent hk
      have hstarts := hstarted.evolvesAt hk₁
      have hpass := hpassed.evolvesAt (hstarted.coherent hk₁)
      rw [hstarted.clock] at hpass
      rw [hidle.kept.clock] at hstarts hpass
      exact (hidle.evolvesAt hk).trans (hstarts.trans hpass)

theorem Spawned.mutexes {entry : UInt64} {name : String} {result : Except Refusal Pid}
    (hspawned : Spawned entry name k (.ok result) k') : k'.mutexes = k.mutexes := by
  cases hspawned <;> rfl

theorem Entered.continues (hentered : Entered frame k (.ok ()) k') (hk : k.CoherentOn S)
    (hengaged : k.tasks.Engaged) : k.tasks.Continues k'.tasks := by
  cases hentered with
  | timer _ hticked => exact hticked.continues hk
  | call _ hcalled => exact (hcalled.evolvesAt hk hengaged).continues

/-- A trap does not bring old pids back. -/
theorem Trapped.continues {resumed : Frame} (htrapped : Trapped frame k (.ok resumed) k')
    (hk : k.CoherentOn S) (hengaged : k.tasks.Engaged) : k.tasks.Continues k'.tasks := by
  cases htrapped with
  | left hsave hentered hoperated hpainted hpassed =>
      have hsaved := (leads_saveContext frame k).of_ok hsave
      have hk₁ := hsaved.coherent hk
      have hengaged₁ := hsaved.engaged hengaged
      have hk₂ := hentered.coherent hk₁ hengaged₁
      have hk₃ := hoperated.coherent hk₂
      -- the operator and the pass let processes evolve, and painting touches none
      have hpainted' := (hoperated.evolvesAt hk₂).continues.trans
        (hpainted.tables.2 ▸ (hpassed.evolvesAt (hpainted.coherent hk₃)).continues)
      exact ((hsaved.continues hk).trans (hentered.continues hk₁ hengaged₁)).trans hpainted'

end Timeshare.Kernel
