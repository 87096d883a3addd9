import Timeshare.Proofs.Kernel.Undone
import Timeshare.Proofs.Tasks.Names

/-!
# Names last

Whatever happens to a kernel, in the middle of a trap or between traps, nobody is renamed.  So
who was called something goes by that name until it is destroyed, and its pid is not given out
again.  All this needs is that the tables are sound, which they stay whatever happens.
-/

namespace Timeshare.Kernel

variable {P : Type} {k k₁ k' : Kernel P} {frame : Frame}

/-! ## What phases and calls do to names -/

theorem Saved.keepsNames (hsaved : Saved frame k (.ok ()) k') (htable : k.tasks.table.Sound) :
    k.tasks.KeepsNames k'.tasks := by
  cases hsaved with
  | nobody => exact .refl htable
  | saved _ hfind =>
      exact Tasks.keepsNames_modify htable hfind (ProcessTable.find?_eq_some hfind).1 rfl rfl

theorem Answered.keepsNames {pid : Pid} {value : Int64} (hanswered : Answered pid value k k')
    (htable : k.tasks.table.Sound) : k.tasks.KeepsNames k'.tasks := by
  cases hanswered with
  | gone => exact .refl htable
  | saved hfind =>
      exact Tasks.keepsNames_modify htable hfind (ProcessTable.find?_eq_some hfind).1 rfl rfl

theorem keepsNames_send {id now : UInt64} {message stamped : Message} {handoff : Option Handoff}
    {sender : Pid} {mailboxes : MailboxTable} {tasks : Tasks} (htable : k.tasks.table.Sound)
    (hsend : (k.mailboxes.send id message sender now k.tasks).outcome =
      .ok ((stamped, handoff), mailboxes, tasks)) : k.tasks.KeepsNames tasks := by
  obtain ⟨_, _, _, _, hcases⟩ := MailboxTable.send_cases hsend
  rcases hcases with ⟨_, rfl, _⟩ | ⟨_, _, _, _, _, _, _, hfind, _, henqueue⟩
  · exact .refl htable
  · exact Tasks.keepsNames_modify_enqueue htable hfind henqueue
      (ProcessTable.find?_eq_some hfind).1 rfl rfl

variable [Platform P]

theorem Ticked.keepsNames (hticked : Ticked k (.ok ()) k') (htable : k.tasks.table.Sound) :
    k.tasks.KeepsNames k'.tasks := by
  cases hticked with
  | nobody => exact .refl htable
  | charged _ _ hfind =>
      exact Tasks.keepsNames_modify htable hfind (ProcessTable.find?_eq_some hfind).1 rfl rfl

theorem Served.keepsNames {call : Call} {arguments : Arguments} {result : Except Stop Int64}
    (hserved : Served k call arguments result k') (htable : k.tasks.table.Sound)
    (hmutexes : k.mutexes.Sound) (hresult : ∀ fault, result ≠ .error (.fault fault)) :
    k.tasks.KeepsNames k'.tasks := by
  cases hserved with
  | refused => exact .refl htable
  | fault => exact absurd rfl (hresult _)
  | answered => exact .refl htable
  | exec hcreate => exact Tasks.keepsNames_create htable hcreate
  | exit hdestroy => exact Tasks.keepsNames_destroy htable hdestroy
  | sleep _ hfind hsleep =>
      subst hsleep
      exact (Tasks.keepsNames_modify htable hfind rfl rfl rfl).clearCurrent
  | yield _ hfind henqueue =>
      exact (Tasks.keepsNames_modify_enqueue htable hfind henqueue
        (ProcessTable.find?_eq_some hfind).1 rfl rfl).clearCurrent
  | mutexAlloc => exact .refl htable
  | mutexFree => exact .refl htable
  | mutexLock _ hlock =>
      obtain ⟨_, _, _, _, _, _, _, hcases⟩ := MutexTable.replace_lock hmutexes hlock
      rcases hcases with ⟨_, _, rfl⟩ | ⟨_, hpark⟩
      · exact .refl htable
      · exact Tasks.keepsNames_park htable hpark
  | mutexUnlock _ hunlock =>
      obtain ⟨_, _, _, _, hcases⟩ := MutexTable.replace_unlock hmutexes hunlock
      rcases hcases with ⟨_, _, rfl⟩ | ⟨_, _, _, ⟨_, _, rfl⟩ | ⟨_, _, _, hfind, henqueue⟩⟩
      · exact .refl htable
      · exact .refl htable
      · exact Tasks.keepsNames_enqueue htable hfind henqueue
  | send _ hsend => exact keepsNames_send htable hsend
  | deliver _ hsend hfind =>
      have hsent := keepsNames_send htable hsend
      exact hsent.trans (Tasks.keepsNames_modify hsent.table hfind
        (ProcessTable.find?_eq_some hfind).1 rfl rfl)
  | lost => exact absurd rfl (hresult _)
  | receive _ hreceive =>
      obtain ⟨_, _, _, hcases⟩ := MailboxTable.receive_cases hreceive
      rcases hcases with ⟨_, rfl, _⟩ | ⟨_, _, _, _, _, hfind, hpark⟩
      · exact .refl htable
      · exact Tasks.keepsNames_modify_park htable hfind hpark (ProcessTable.find?_eq_some hfind).1
          rfl rfl

theorem Dispatched.keepsNames {number : UInt64} {arguments : Arguments} {value : Int64}
    (hdispatched : Dispatched k number arguments (.ok value) k') (htable : k.tasks.table.Sound)
    (hmutexes : k.mutexes.Sound) : k.tasks.KeepsNames k'.tasks := by
  cases hdispatched with
  | value _ hserved => exact hserved.keepsNames htable hmutexes fun _ h => by contradiction
  | refused _ hserved =>
      exact hserved.keepsNames htable hmutexes fun _ h => by injection h; contradiction

theorem Called.keepsNames (hcalled : Called k (.ok ()) k') (htable : k.tasks.table.Sound)
    (hmutexes : k.mutexes.Sound) : k.tasks.KeepsNames k'.tasks := by
  cases hcalled with
  | gone _ _ hdispatch => exact ((leads_dispatch _ _ k).of_ok hdispatch).keepsNames htable hmutexes
  | answered _ _ hdispatch hfind =>
      have hanswered := ((leads_dispatch _ _ k).of_ok hdispatch).keepsNames htable hmutexes
      exact hanswered.trans (Tasks.keepsNames_modify hanswered.table hfind
        (ProcessTable.find?_eq_some hfind).1 rfl rfl)

theorem Operated.keepsNames (hoperated : Operated k (.ok ()) k') (htable : k.tasks.table.Sound) :
    k.tasks.KeepsNames k'.tasks := by
  cases hoperated with
  | quiet => exact .refl htable
  | killed hdestroy => exact Tasks.keepsNames_destroy htable hdestroy
  | spawned _ hcreate => exact Tasks.keepsNames_create htable hcreate

theorem Painted.keepsNames (hpainted : Painted k (.ok ()) k') (htable : k.tasks.table.Sound) :
    k.tasks.KeepsNames k'.tasks := by
  rw [hpainted.tables.2]
  exact .refl htable

theorem Passed.keepsNames {transition : Transition} (hpassed : Passed k (.ok transition) k')
    (htable : k.tasks.table.Sound) : k.tasks.KeepsNames k'.tasks := by
  cases hpassed with
  | passed hpass => exact Tasks.keepsNames_reschedule htable hpass

theorem Spawned.keepsNames {entry : UInt64} {name : String} {result : Except Refusal Pid}
    (hspawned : Spawned entry name k (.ok result) k') (htable : k.tasks.table.Sound) :
    k.tasks.KeepsNames k'.tasks := by
  cases hspawned with
  | created hcreate => exact Tasks.keepsNames_create htable hcreate
  | refused => exact .refl htable

theorem Started.keepsNames {programs : List Program} (hstarted : Started programs k k')
    (htable : k.tasks.table.Sound) : k.tasks.KeepsNames k'.tasks := by
  induction hstarted with
  | nil => exact .refl htable
  | cons hspawned _ _ ih =>
      have hfirst := hspawned.keepsNames htable
      exact hfirst.trans (ih hfirst.table)

theorem Booted.keepsNames {idleEntry : UInt64} {programs : List Program} {first : Pid}
    (hbooted : Booted idleEntry programs k first k') (htable : k.tasks.table.Sound) :
    k.tasks.KeepsNames k'.tasks := by
  cases hbooted with
  | booted hidle hstarted _ hpassed =>
      have hcreated := hidle.keepsNames htable
      have hstarts := hcreated.trans (hstarted.keepsNames hcreated.table)
      exact hstarts.trans (hpassed.keepsNames hstarts.table)

theorem keepsNames_exit {pid : Option Pid} {result : Except Refusal Unit}
    (hexit : attempt (exit pid) k = .ok result k') (htable : k.tasks.table.Sound) :
    k.tasks.KeepsNames k'.tasks := by
  have hend := (leads_attempt (leads_exit pid k)).of_ok hexit
  cases result with
  | ok =>
      obtain ⟨p, _, tasks, hdestroy, rfl⟩ := hend
      exact Tasks.keepsNames_destroy htable hdestroy
  | error =>
      obtain ⟨p, _, _, rfl⟩ := hend
      exact .refl htable

theorem keepsNames_trap {resumed : Frame} (htrap : trap frame k = .ok resumed k')
    (htable : k.tasks.table.Sound) (hmutexes : k.mutexes.Sound) :
    k.tasks.KeepsNames k'.tasks := by
  obtain ⟨k₂, k₄, transition, henter, hattend, hschedule, _⟩ := stages_of_trap htrap
  obtain ⟨k₁, hsave, hentered⟩ := enter_eq_ok henter
  obtain ⟨k₃, hoperated, hpainted⟩ := attend_eq_ok hattend
  have hsaved := ((leads_saveContext frame k).of_ok hsave).keepsNames htable
  -- a call needs sound mutexes, and saving registers leaves them alone
  have hmutexes₁ : k₁.mutexes.Sound := by
    rwa [show k₁.mutexes = k.mutexes from (apart_mutexes.saveContext frame k).of_ok hsave]
  have hserved : k.tasks.KeepsNames k₂.tasks := hsaved.trans <| by
    cases hentered with
    | timer _ hticked => exact hticked.keepsNames hsaved.table
    | call _ hcalled => exact hcalled.keepsNames hsaved.table hmutexes₁
  have hattended := hserved.trans (hoperated.keepsNames hserved.table)
  have hpainted := hattended.trans (hpainted.keepsNames hattended.table)
  exact hpainted.trans (((leads_schedule k₄).of_ok hschedule).keepsNames hpainted.table)

/-- Whatever is done to a kernel, nobody is renamed. -/
theorem Deed.keepsNames {deed : Deed P} (hdone : deed.carryOut k = .ok () k')
    (htable : k.tasks.table.Sound) (hmutexes : k.mutexes.Sound) :
    k.tasks.KeepsNames k'.tasks := by
  unfold carryOut at hdone
  cases deed with
  | trap frame =>
      obtain ⟨resumed, htrap⟩ := exists_of_discard hdone
      exact keepsNames_trap htrap htable hmutexes
  | bind key program =>
      obtain ⟨bound, hbind⟩ := exists_of_discard hdone
      obtain ⟨console, rfl, _⟩ := exists_console hbind
      exact .refl htable
  | spawn entry name =>
      obtain ⟨result, hspawn⟩ := exists_of_discard hdone
      exact ((leads_attempt_spawn entry name k).of_ok hspawn).keepsNames htable
  | machine m =>
      injection hdone with _ heq
      subst heq
      exact .refl htable
  | exit pid =>
      obtain ⟨result, hexit⟩ := exists_of_discard hdone
      exact keepsNames_exit hexit htable
  | schedule =>
      obtain ⟨transition, hschedule⟩ := exists_of_discard hdone
      exact ((leads_schedule k).of_ok hschedule).keepsNames htable
  | call number arguments =>
      obtain ⟨value, hdispatch⟩ := exists_of_discard hdone
      exact ((leads_dispatch _ _ k).of_ok hdispatch).keepsNames htable hmutexes
  | systemCall => exact ((leads_systemCall k).of_ok hdone).keepsNames htable hmutexes
  | tick => exact ((leads_timerTick k).of_ok hdone).keepsNames htable
  | press key =>
      exact ((leads_handleKey key .refl).of_ok hdone (.inl rfl)).keepsNames htable
  | paint => exact ((leads_paintStats k).of_ok hdone).keepsNames htable

/-! ## Later kernels -/

/-- What happens to a kernel: it is booted, or a deed is carried out, or a part of a trap that
is none. -/
inductive Happens : Kernel P → Kernel P → Prop
  | booted {k k' : Kernel P} {idleEntry : UInt64} {programs : List Program} {first : Pid}
      (hboot : boot idleEntry programs k = .ok first k') : Happens k k'
  | done {k k' : Kernel P} {deed : Deed P} (hdone : deed.carryOut k = .ok () k') : Happens k k'
  | saved {k k' : Kernel P} {frame : Frame} (hsave : saveContext frame k = .ok () k') :
      Happens k k'
  | answered {k k' : Kernel P} {pid : Pid} {value : Int64}
      (hanswered : Answered pid value k k') : Happens k k'

/-- One kernel comes from another by what happens. -/
abbrev Later : Kernel P → Kernel P → Prop := Relation.ReflTransGen Happens

/-- A course goes from a fresh kernel to later ones. -/
theorem Course.later {moments : List (Moment P)} (hcourse : Course moments k) :
    ∃ log k₀, Fresh log k₀ ∧ Later k₀ k := by
  induction hcourse with
  | boot hfresh hboot => exact ⟨_, _, hfresh, .single (.booted hboot)⟩
  | step _ hdone ih =>
      obtain ⟨log, k₀, hfresh, hlater⟩ := ih
      exact ⟨log, k₀, hfresh, hlater.tail (.done hdone)⟩

/-- Every name in the tables was made from text, and the tables are sound. -/
structure Lasting (k : Kernel P) : Prop where
  names : Tasks.empty.KeepsNames k.tasks
  mutexes : k.mutexes.Sound

theorem Fresh.lasting {log : List (Happening P)} (hfresh : Fresh log k) : k.Lasting := by
  have hcoherent := hfresh.coherent
  refine ⟨?_, hcoherent.mutexes⟩
  rw [← hfresh.tables.1]
  exact .refl hcoherent.tasks.table

theorem Happens.lasting (hhappens : Happens k k') (hk : k.Lasting) :
    k.tasks.KeepsNames k'.tasks ∧ k'.Lasting := by
  have hnames : k.tasks.KeepsNames k'.tasks := by
    cases hhappens with
    | booted hboot => exact ((leads_boot _ _ _).of_ok hboot _ rfl).keepsNames hk.names.table
    | done hdone => exact Deed.keepsNames hdone hk.names.table hk.mutexes
    | saved hsave => exact ((leads_saveContext _ _).of_ok hsave).keepsNames hk.names.table
    | answered hanswered => exact hanswered.keepsNames hk.names.table
  refine ⟨hnames, hk.names.trans hnames, ?_⟩
  cases hhappens with
  | booted hboot =>
      rw [show k'.mutexes = k.mutexes from
        inner_mutexes.booted ((leads_boot _ _ _).of_ok hboot _ rfl)]
      exact hk.mutexes
  | done hdone => exact Deed.sound_mutexes hdone hk.mutexes
  | saved hsave =>
      rw [show k'.mutexes = k.mutexes from (apart_mutexes.saveContext _ _).of_ok hsave]
      exact hk.mutexes
  | answered hanswered => exact hanswered.tables.1 ▸ hk.mutexes

/-- At any later time, whoever lives goes by the name it had. -/
theorem Lasting.later (hk : k.Lasting) (hlater : Later k k') :
    k.tasks.KeepsNames k'.tasks ∧ k'.Lasting := by
  induction hlater with
  | refl => exact ⟨.refl hk.names.table, hk⟩
  | tail _ hhappens ih =>
      obtain ⟨hnames, hlasting⟩ := hhappens.lasting ih.2
      exact ⟨ih.1.trans hnames, hlasting⟩

end Timeshare.Kernel
