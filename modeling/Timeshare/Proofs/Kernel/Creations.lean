import Timeshare.Proofs.Kernel.Calls

/-!
# How many processes are created

Processes are created at boot, by calls, by keys that are bound to a program and from outside.
A tally of a history counts them: every request for a process counts, unless it is turned
down.  Pids are given out one after the other from zero, so the next pid is the number of
processes that were created.
-/

namespace Timeshare

namespace Tasks

variable {t after : Tasks} {pid : Pid} {slot : Slot} {now slice : UInt64}

/-! ## The next pid -/

theorem nextPid_create {entry : UInt64} {name : String}
    (hcreate : (t.create entry name now).outcome = .ok (pid, after)) :
    after.table.nextPid.toNat = t.table.nextPid.toNat + 1 := by
  obtain ⟨slot, free, nextPid, context, _, hnext, _, _, _, htable, _⟩ := create_eq_ok hcreate
  rw [htable]
  exact Word.toNat_next32 hnext

theorem nextPid_destroy {target : Option Pid} (hdestroy : (t.destroy target).outcome = .ok after) :
    after.table.nextPid = t.table.nextPid := by
  obtain ⟨_, slot, free, _, _, _, _, htable, _⟩ := destroy_eq_ok hdestroy
  rw [htable]
  rfl

theorem nextPid_modify (t : Tasks) (slot : Slot) (f : Process → Process) :
    (t.modify slot f).table.nextPid = t.table.nextPid := rfl

theorem nextPid_enqueue (henqueue : t.enqueue slot = .ok after) :
    after.table.nextPid = t.table.nextPid := by
  rw [(enqueue_eq_ok henqueue).2.1]
  rfl

theorem nextPid_park (hpark : t.park pid = .ok after) :
    after.table.nextPid = t.table.nextPid := by
  obtain ⟨slot, _, htable, _⟩ := park_eq_ok hpark
  rw [htable]
  rfl

theorem nextPid_wake (slots : List Slot)
    (hwake : (slots.foldlM (wakeAt now) t).outcome = .ok after) :
    after.table.nextPid = t.table.nextPid := by
  induction slots generalizing t with
  | nil =>
      injection hwake with heq
      rw [heq]
  | cons slot rest ih =>
      rw [List.foldlM_cons] at hwake
      obtain ⟨woken, hfirst, hrest⟩ := Run.outcome_bind_eq_ok_iff.1 hwake
      rw [ih hrest]
      rcases wakeAt_eq_ok hfirst with ⟨rfl, _⟩ | ⟨_, _, htable, _⟩
      · rfl
      · rw [htable]
        rfl

theorem nextPid_pick (hpick : t.pick = .ok (pid, after)) :
    after.table.nextPid = t.table.nextPid := by
  unfold pick at hpick
  split at hpick
  · injection hpick with hpick
    rw [(Prod.mk.inj hpick).2]
  · dsimp only at hpick
    split at hpick
    · contradiction
    · injection hpick with hpick
      rw [← (Prod.mk.inj hpick).2]
      rfl

/-- No pid is given out by a pass. -/
theorem nextPid_reschedule {transition : Transition}
    (hpass : (t.reschedule now slice).outcome = .ok (transition, after)) :
    after.table.nextPid = t.table.nextPid := by
  obtain ⟨roused, hrouse, hpick⟩ := reschedule_eq_ok hpass
  obtain ⟨expired, hexpire, hwake⟩ := Run.outcome_bind_eq_ok_iff.1 hrouse
  rw [nextPid_pick hpick, nextPid_wake _ hwake, ← (moves_dropStale now t).2.1]
  rcases expire_eq_ok hexpire with ⟨rfl, _⟩ | ⟨_, _, _, _, _, _, htable, _⟩
  · rfl
  · rw [htable]
    rfl

end Tasks

theorem MutexTable.nextPid_lock {table after : MutexTable} {id : UInt64} {caller : Pid}
    {previous : Nat} {t t' : Tasks} (hsound : table.Sound)
    (hlock : (table.lock id caller t).outcome = .ok (previous, after, t')) :
    t'.table.nextPid = t.table.nextPid := by
  obtain ⟨_, _, _, _, _, _, _, hcases⟩ := replace_lock hsound hlock
  rcases hcases with ⟨_, _, rfl⟩ | ⟨_, hpark⟩
  · rfl
  · exact Tasks.nextPid_park hpark

theorem MutexTable.nextPid_unlock {table after : MutexTable} {id : UInt64} {caller : Pid}
    {lockCount : Nat} {t t' : Tasks} (hsound : table.Sound)
    (hunlock : (table.unlock id caller t).outcome = .ok (lockCount, after, t')) :
    t'.table.nextPid = t.table.nextPid := by
  obtain ⟨_, _, _, _, hcases⟩ := replace_unlock hsound hunlock
  rcases hcases with ⟨_, _, rfl⟩ | ⟨_, _, _, ⟨_, _, rfl⟩ | ⟨_, _, _, _, henqueue⟩⟩
  · rfl
  · rfl
  · exact Tasks.nextPid_enqueue henqueue

theorem MailboxTable.nextPid_send {table after : MailboxTable} {id now : UInt64}
    {message stamped : Message} {sender : Pid} {handoff : Option Handoff} {t t' : Tasks}
    (hsend : (table.send id message sender now t).outcome = .ok ((stamped, handoff), after, t')) :
    t'.table.nextPid = t.table.nextPid := by
  obtain ⟨_, _, _, _, hcases⟩ := send_cases hsend
  rcases hcases with ⟨_, rfl, _⟩ | ⟨_, _, _, _, _, _, _, _, _, henqueue⟩
  · rfl
  · exact (Tasks.nextPid_enqueue henqueue).trans (Tasks.nextPid_modify ..)

theorem MailboxTable.nextPid_receive {table after : MailboxTable} {id destination now : UInt64}
    {receiver : Pid} {received : Received} {t t' : Tasks}
    (hreceive : (table.receive id receiver destination now t).outcome =
      .ok (received, after, t')) :
    t'.table.nextPid = t.table.nextPid := by
  obtain ⟨_, _, _, hcases⟩ := receive_cases hreceive
  rcases hcases with ⟨_, rfl, _⟩ | ⟨_, _, _, _, _, _, hpark⟩
  · rfl
  · exact (Tasks.nextPid_park hpark).trans (Tasks.nextPid_modify ..)

namespace Kernel

variable {P : Type} {S : Pid → Prop} {ε α : Type} {k k₁ k' : Kernel P} {frame resumed : Frame}
  {entry : UInt64} {name : String}

/-- The pids that were given out, counted. -/
def issued (k : Kernel P) : Nat := k.tasks.table.nextPid.toNat

/-! ## Requests for a process -/

/-- A request counts once, unless it is turned down.  One that breaks off counts, too. -/
def granted (request : Handler P α) (k : Kernel P) : Nat :=
  match request k with
  | .error (.refused _) _ => 0
  | _ => 1

/-- What is counted behind a step, if the step ends well. -/
def behind (step : EStateM ε (Kernel P) α) (count : Kernel P → Nat) (k : Kernel P) : Nat :=
  match step k with
  | .ok _ k' => count k'
  | .error _ _ => 0

theorem behind_of_ok {step : EStateM ε (Kernel P) α} {a : α} (hstep : step k = .ok a k')
    (count : Kernel P → Nat) : behind step count k = count k' := by
  rw [behind, hstep]

variable [Platform P]

/-- The processes that the call of a trap creates, once the registers are saved. -/
def callCreations (frame : Frame) (k : Kernel P) : Nat :=
  if frame.vector = callVector ∧ Call.ofNumber? frame.callNumber = some .exec then
    granted (serve .exec frame.arguments) k
  else 0

/-- The processes that carrying out a command creates. -/
def commandCreations (k : Kernel P) : Command → Nat
  | .spawn program => granted (spawn program.entry program.name) k
  | _ => 0

/-- The processes that the next key creates. -/
def keyCreations (k : Kernel P) : Nat :=
  ((Platform.pollKey k.platform).1.bind k.console.command?).elim 0 k.commandCreations

/-- The processes that a trap creates: its call may create one, and the key that is acted on
behind it. -/
def creations (frame : Frame) (k : Kernel P) : Nat :=
  behind (saveContext frame) (callCreations frame) k + behind (enter frame) keyCreations k

/-- The processes that are created for the startup programs. -/
def startCreations : List Program → Kernel P → Nat
  | [], _ => 0
  | program :: rest, k =>
      granted (spawn program.entry program.name) k +
        behind (startAll [program]) (startCreations rest) k

/-- The processes that booting creates. -/
def bootCreations (idleEntry : UInt64) (programs : List Program) (k : Kernel P) : Nat :=
  granted (spawn idleEntry "idle task") k +
    behind (spawn idleEntry "idle task") (startCreations programs) k

/-- The processes that are created when something happens to a kernel. -/
def Happening.creations (k : Kernel P) : Happening P → Nat
  | .trap _ frame _ _ => Kernel.creations frame k
  | .spawn entry name => granted (Kernel.spawn entry name) k
  | .bind _ _ | .machine _ => 0

/-- A history and how many processes were created in it. -/
inductive Tallied : List (Happening P) → Kernel P → Nat → Prop
  | boot {log : List (Happening P)} {k k' : Kernel P} {idleEntry : UInt64}
      {programs : List Program} {first : Pid} (hfresh : Fresh log k)
      (hboot : boot idleEntry programs k = .ok first k') :
      Tallied log k' (bootCreations idleEntry programs k)
  | step {log : List (Happening P)} {k k' : Kernel P} {happening : Happening P} {created : Nat}
      (htallied : Tallied log k created) (hoccurs : Occurs happening k k') :
      Tallied (happening :: log) k' (created + happening.creations k)

/-- A tallied history is a history. -/
theorem Tallied.history {log : List (Happening P)} {created : Nat}
    (htallied : Tallied log k created) : History log k := by
  induction htallied with
  | boot hfresh hboot => exact .boot hfresh hboot
  | step _ hoccurs ih => exact ih.step hoccurs

/-- Every history can be tallied. -/
theorem History.exists_tally {log : List (Happening P)} (hhistory : History log k) :
    ∃ created, Tallied log k created := by
  induction hhistory with
  | boot hfresh hboot => exact ⟨_, .boot hfresh hboot⟩
  | step _ hoccurs ih =>
      obtain ⟨created, htallied⟩ := ih
      exact ⟨_, htallied.step hoccurs⟩

/-! ## Creating -/

/-- Whether a process can be created does not depend on the machine. -/
theorem granted_spawn (entry : UInt64) (name : String) (k : Kernel P) :
    granted (spawn entry name) k =
      match (k.tasks.create entry name k.clock.now).outcome with
      | .error (.refused _) => 0
      | _ => 1 := by
  have hend := leads_spawn entry name k
  unfold granted
  cases hspawn : spawn entry name k with
  | ok pid k' =>
      obtain ⟨_, _, tasks, hcreate, _⟩ := hend.of_ok hspawn
      rw [hcreate]
  | error stop k' =>
      obtain ⟨_, _, hcreate, _⟩ := hend.of_error hspawn
      rw [hcreate]
      cases stop <;> rfl

omit [Platform P] in
/-- A request that was served ends as it would end alone. -/
theorem eq_ok_of_attempt {request : Handler P α} {a : α}
    (hrequest : attempt request k = .ok (.ok a) k') : request k = .ok a k' := by
  unfold attempt at hrequest
  split at hrequest
  · rename_i hok
    injection hrequest with hresult hk
    injection hresult with ha
    rw [hok, ha, hk]
  · injection hrequest with hresult
    contradiction
  · contradiction

/-- A request for a process takes a pid if it is granted. -/
theorem issued_spawn {result : Except Refusal Pid}
    (hspawn : attempt (spawn entry name) k = .ok result k') :
    k'.issued = k.issued + granted (spawn entry name) k := by
  have hend := (leads_attempt (leads_spawn entry name k)).of_ok hspawn
  rw [granted_spawn]
  cases result with
  | ok pid =>
      obtain ⟨_, _, tasks, hcreate, rfl⟩ := hend
      rw [hcreate]
      exact Tasks.nextPid_create hcreate
  | error reason =>
      obtain ⟨_, _, hcreate, rfl⟩ := hend
      rw [hcreate]
      rfl

/-! ## The stages of a trap -/

omit [Platform P] in
theorem Saved.issued (hsaved : Saved frame k (.ok ()) k') : k'.issued = k.issued := by
  cases hsaved <;> rfl

omit [Platform P] in
theorem Answered.issued {caller : Pid} {value : Int64} (hanswered : Answered caller value k k') :
    k'.issued = k.issued := by
  cases hanswered <;> rfl

theorem Ticked.issued (hticked : Ticked k (.ok ()) k') : k'.issued = k.issued := by
  cases hticked <;> rfl

theorem Painted.issued (hpainted : Painted k (.ok ()) k') : k'.issued = k.issued := by
  cases hpainted
  rfl

theorem Passed.issued {transition : Transition} (hpassed : Passed k (.ok transition) k') :
    k'.issued = k.issued := by
  cases hpassed with
  | passed hpass => exact congrArg UInt32.toNat (Tasks.nextPid_reschedule hpass)

/-- Of the calls that are served one takes a pid. -/
theorem Served.issued_of_ok {call : Call} {arguments : Arguments} {value : Int64}
    (hserved : Served k call arguments (.ok value) k') (hk : k.CoherentOn S) :
    k'.issued = k.issued + if call = .exec then 1 else 0 := by
  cases hserved with
  | answered hcall => rcases hcall with rfl | rfl | rfl <;> rfl
  | exec hcreate => exact Tasks.nextPid_create hcreate
  | exit hdestroy => exact congrArg UInt32.toNat (Tasks.nextPid_destroy hdestroy)
  | sleep _ _ hsleep =>
      subst hsleep
      rfl
  | yield _ _ henqueue =>
      exact congrArg UInt32.toNat
        ((Tasks.nextPid_enqueue henqueue).trans (Tasks.nextPid_modify ..))
  | mutexAlloc => rfl
  | mutexFree => rfl
  | mutexLock _ hlock => exact congrArg UInt32.toNat (MutexTable.nextPid_lock hk.mutexes hlock)
  | mutexUnlock _ hunlock =>
      exact congrArg UInt32.toNat (MutexTable.nextPid_unlock hk.mutexes hunlock)
  | send _ hsend => exact congrArg UInt32.toNat (MailboxTable.nextPid_send hsend)
  | deliver _ hsend =>
      exact congrArg UInt32.toNat
        ((Tasks.nextPid_modify ..).trans (MailboxTable.nextPid_send hsend))
  | receive _ hreceive => exact congrArg UInt32.toNat (MailboxTable.nextPid_receive hreceive)

/-- A call that is turned down takes no pid. -/
theorem Served.issued_of_refused {call : Call} {arguments : Arguments} {reason : Refusal}
    (hserved : Served k call arguments (.error (.refused reason)) k') :
    k'.issued = k.issued := by
  cases hserved with
  | refused => rfl
  | send _ hsend => exact congrArg UInt32.toNat (MailboxTable.nextPid_send hsend)
  | receive _ hreceive => exact congrArg UInt32.toNat (MailboxTable.nextPid_receive hreceive)

theorem issued_dispatch {number : UInt64} {arguments : Arguments} {value : Int64}
    (hdispatch : dispatch number arguments k = .ok value k') (hk : k.CoherentOn S) :
    k'.issued = k.issued +
      if Call.ofNumber? number = some .exec then granted (serve .exec arguments) k else 0 := by
  cases hcall : Call.ofNumber? number with
  | none =>
      unfold dispatch at hdispatch
      rw [hcall] at hdispatch
      contradiction
  | some call =>
      obtain rfl := Call.number_of_ofNumber? hcall
      rcases dispatch_eq_ok hdispatch with hserve | ⟨reason, k₁, hserve, _, rfl⟩
      · rw [((leads_serve call arguments k).of_ok hserve).issued_of_ok hk]
        by_cases hexec : call = .exec
        · subst hexec
          rw [if_pos rfl, if_pos rfl, granted, hserve]
        · rw [if_neg hexec, if_neg fun heq => hexec (Option.some.inj heq)]
      · have hrefused := ((leads_serve call arguments k).of_error hserve).issued_of_refused
        refine Eq.trans hrefused ?_
        by_cases hexec : call = .exec
        · subst hexec
          rw [if_pos rfl, granted, hserve]
          rfl
        · rw [if_neg fun heq => hexec (Option.some.inj heq)]
          rfl

theorem issued_enter (henter : enter frame k = .ok () k') (hk : k.Coherent) :
    k'.issued = k.issued + behind (saveContext frame) (callCreations frame) k := by
  obtain ⟨saved, hsave, hentered⟩ := enter_eq_ok henter
  have hsaved := (leads_saveContext frame k).of_ok hsave
  rw [behind_of_ok hsave, ← hsaved.issued, callCreations]
  cases hentered with
  | timer hvector hticked =>
      rw [hticked.issued, if_neg fun hcall => absurd (hvector.symm.trans hcall.1) (by decide)]
      rfl
  | call hvector hcalled =>
      obtain ⟨_, _, answered, _, _, _, hdispatch, hanswered⟩ :=
        answered_of_called hcalled hsave hk hvector
      rw [hanswered.issued, issued_dispatch hdispatch (hsaved.coherent hk)]
      simp only [hvector, true_and]

theorem issued_obey {command : Command} (hobey : obey command k = .ok () k') :
    k'.issued = k.issued + k.commandCreations command := by
  cases command with
  | exitActive =>
      obtain ⟨_, _, hget, hobey⟩ := bind_eq_ok_iff.1 hobey
      injection hget with hread hk
      subst hread hk
      obtain ⟨result, k₁, hexit, hreport⟩ := bind_eq_ok_iff.1 hobey
      have hend := (leads_attempt (leads_exit k.current k)).of_ok hexit
      cases result with
      | ok _ =>
          obtain ⟨_, _, tasks, hdestroy, rfl⟩ := hend
          injection hreport with _ heq
          subst heq
          exact congrArg UInt32.toNat (Tasks.nextPid_destroy hdestroy)
      | error reason =>
          obtain ⟨_, _, _, rfl⟩ := hend
          injection hreport with _ heq
          subst heq
          rfl
  | toggleStats =>
      injection hobey with _ heq
      subst heq
      rfl
  | halt =>
      injection hobey with _ heq
      subst heq
      rfl
  | spawn program =>
      obtain ⟨result, k₁, hspawn, hreport⟩ := bind_eq_ok_iff.1 hobey
      rw [commandCreations, ← issued_spawn hspawn]
      cases result <;>
      · injection hreport with _ heq
        subst heq
        rfl

/-- The operator's key may create a process. -/
theorem issued_attend (hattend : attend k = .ok () k') :
    k'.issued = k.issued + keyCreations k := by
  obtain ⟨_, operated, hserve, hpaint⟩ := bind_eq_ok_iff.1 hattend
  have hpainted : k'.issued = operated.issued := by
    rw [get_bind] at hpaint
    split at hpaint
    · exact ((leads_paintStats operated).of_ok hpaint).issued
    · injection hpaint with _ heq
      rw [heq]
  rw [hpainted]
  unfold serveOperator at hserve
  rw [onPlatform_bind] at hserve
  unfold keyCreations
  cases hkey : (Platform.pollKey k.platform).1 with
  | none =>
      rw [hkey] at hserve
      injection hserve with _ heq
      subst heq
      rfl
  | some key =>
      rw [hkey] at hserve
      dsimp only at hserve
      unfold handleKey at hserve
      rw [get_bind] at hserve
      dsimp only at hserve
      rw [Option.bind_some]
      cases hcommand : k.console.command? key with
      | none =>
          rw [hcommand] at hserve
          injection hserve with _ heq
          subst heq
          rfl
      | some command =>
          rw [hcommand] at hserve
          rw [issued_obey hserve]
          cases command with
          | spawn program =>
              rw [Option.elim_some, commandCreations, commandCreations, granted_spawn,
                granted_spawn]
              rfl
          | exitActive | toggleStats | halt => rfl

/-- A trap takes as many pids as it creates processes. -/
theorem issued_trap (htrap : trap frame k = .ok resumed k') (hk : k.Coherent) :
    k'.issued = k.issued + creations frame k := by
  obtain ⟨entered, attended, transition, henter, hattend, hschedule, _⟩ := stages_of_trap htrap
  rw [((leads_schedule attended).of_ok hschedule).issued, issued_attend hattend,
    issued_enter henter hk, creations, behind_of_ok henter, Nat.add_assoc]

/-! ## Histories -/

theorem issued_startAll {programs : List Program} (hstart : startAll programs k = .ok () k') :
    k'.issued = k.issued + startCreations programs k := by
  induction programs generalizing k with
  | nil =>
      injection hstart with _ heq
      rw [heq]
      rfl
  | cons program rest ih =>
      unfold startAll at hstart
      obtain ⟨result, k₁, hspawn, hrest⟩ := bind_eq_ok_iff.1 hstart
      -- a refused program is reported before the others are started
      obtain ⟨k₂, hfirst, hissued, hrest⟩ : ∃ k₂, startAll [program] k = .ok () k₂ ∧
          k₂.issued = k₁.issued ∧ startAll rest k₂ = .ok () k' := by
        cases result with
        | ok pid => exact ⟨k₁, bind_eq_ok_iff.2 ⟨_, k₁, hspawn, rfl⟩, rfl, hrest⟩
        | error reason => exact ⟨_, bind_eq_ok_iff.2 ⟨_, k₁, hspawn, rfl⟩, rfl, hrest⟩
      rw [ih hrest, hissued, issued_spawn hspawn, startCreations, behind_of_ok hfirst,
        Nat.add_assoc]

theorem issued_boot {idleEntry : UInt64} {programs : List Program} {first : Pid}
    (hboot : boot idleEntry programs k = .ok first k') :
    k'.issued = k.issued + bootCreations idleEntry programs k := by
  unfold boot at hboot
  obtain ⟨result, k₁, hidle, hrest⟩ := bind_eq_ok_iff.1 hboot
  cases result with
  | error reason => contradiction
  | ok idle =>
      have hspawn := eq_ok_of_attempt hidle
      dsimp only at hrest
      split at hrest
      · obtain ⟨_, k₂, hstart, hrest⟩ := bind_eq_ok_iff.1 hrest
        rw [onPlatform_bind, report_bind] at hrest
        obtain ⟨transition, k₃, hschedule, hnext⟩ := bind_eq_ok_iff.1 hrest
        injection hnext with _ heq
        subst heq
        have hpassed := ((leads_schedule _).of_ok hschedule).issued
        refine hpassed.trans ?_
        show k₂.issued = _
        rw [issued_startAll hstart, issued_spawn hidle, bootCreations, behind_of_ok hspawn,
          Nat.add_assoc]
      · contradiction

/-- Before boot no pid is given out. -/
theorem Fresh.issued {log : List (Happening P)} (hfresh : Fresh log k) : k.issued = 0 := by
  rw [Kernel.issued, hfresh.tables.1]
  rfl

/-- What happens takes as many pids as it creates processes. -/
theorem Occurs.issued {happening : Happening P} (hoccurs : Occurs happening k k')
    (hk : k.Coherent) : k'.issued = k.issued + happening.creations k := by
  cases hoccurs with
  | trap htrap => exact issued_trap htrap hk
  | bind hbind =>
      obtain ⟨console, rfl, _⟩ := exists_console hbind
      rfl
  | spawn hspawn => exact issued_spawn hspawn
  | machine => rfl

/-- As many pids are given out as processes were created. -/
theorem Tallied.issued {log : List (Happening P)} {created : Nat}
    (htallied : Tallied log k created) : k.issued = created := by
  induction htallied with
  | boot hfresh hboot => rw [issued_boot hboot, hfresh.issued, Nat.zero_add]
  | step htallied hoccurs ih => rw [hoccurs.issued htallied.history.coherent.1, ih]

end Kernel

end Timeshare
