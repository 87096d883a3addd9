import Timeshare.Proofs.Kernel.Course
import Timeshare.Proofs.Kernel.Evolution
import Timeshare.Proofs.Kernel.Waits

/-!
# References to processes that are gone

Destroying a process takes it out of the process table and out of the scheduler.  It
touches neither mutexes nor mailboxes, so what these recorded of the process stays: the
ownership of a mutex that was not unlocked, and a place on a wait queue if the process is
destroyed from outside while it waits.  Nothing else in the kernel refers to a process
that is gone.
-/

namespace Timeshare

/-! ## Steps that meet a missing process -/

section

variable {t t' : Tasks} {slot : Slot} {id now : UInt64} {caller sender pid : Pid}

theorem Scheduler.enqueue_eq_error {sched : Scheduler} {fault : Fault}
    (henqueue : sched.enqueue pid = .error fault) :
    fault = .breach (.queuedTwice pid) ∨ fault = .breach (.runQueueFull pid) := by
  unfold enqueue at henqueue
  split at henqueue
  · injection henqueue with heq
    exact .inl heq.symm
  · split at henqueue
    · injection henqueue with heq
      exact .inr heq.symm
    · contradiction

/-- Queueing a process finds the process at its place. -/
theorem Tasks.enqueue_ne_missing : t.enqueue slot ≠ .error (.breach (.missingProcess pid)) := by
  intro henqueue
  unfold enqueue at henqueue
  cases hsched : t.sched.enqueue (t.table.block slot).pid with
  | ok sched =>
      rw [hsched] at henqueue
      contradiction
  | error fault =>
      rw [hsched] at henqueue
      injection henqueue with hmissing
      rcases Scheduler.enqueue_eq_error hsched with hfault | hfault <;>
        (rw [hmissing] at hfault; injection hfault; contradiction)

/-- A checked step that stops a run does so with its own fault. -/
theorem Run.lift_eq_error {α : Type} {r : Except Fault α} {fault : Fault}
    (hstop : (liftM r : Run Stop α).outcome = .error (.fault fault)) : r = .error fault := by
  cases r with
  | ok a => contradiction
  | error other =>
      injection hstop with hstop
      injection hstop with heq
      rw [heq]

theorem ProcessTable.find?_of_missing {table : ProcessTable} {other : Pid}
    (hexpect : table.expect other = .error (.breach (.missingProcess pid))) :
    pid = other ∧ table.get? pid = none := by
  unfold expect at hexpect
  split at hexpect
  · rename_i hfind
    injection hexpect with hfault
    injection hfault with hbreach
    injection hbreach with hself
    subst hself
    exact ⟨rfl, by rw [get?, hfind]; rfl⟩
  · contradiction

/-- Unlocking misses only a process that waits for the mutex. -/
theorem MutexTable.missing_of_unlock {table : MutexTable}
    (hunlock : (table.unlock id caller t).outcome =
      .error (.fault (.breach (.missingProcess pid)))) :
    pid ∈ table.waiters ∧ t.table.get? pid = none := by
  unfold unlock at hunlock
  split at hunlock
  · simp at hunlock
  rename_i index mutex hfind
  have hentry := (find?_eq_some_iff.1 hfind).2
  split at hunlock
  · contradiction
  split at hunlock
  · simp [Run.outcome_bind, Except.bind] at hunlock
  dsimp only at hunlock
  split at hunlock
  · contradiction
  split at hunlock
  · simp at hunlock
  rename_i next waiting hpop
  rcases Run.error_of_bind hunlock with hexpect | ⟨slot, _, hqueue⟩
  · obtain ⟨rfl, hgone⟩ := ProcessTable.find?_of_missing (Run.lift_eq_error hexpect)
    refine ⟨mem_waiters_iff.2 ⟨index, ?_⟩, hgone⟩
    rw [waitingAt_of_entry hentry, Ring.toList_pop hpop]
    exact List.mem_cons_self
  · rcases Run.error_of_bind hqueue with henqueue | ⟨_, _, hrest⟩
    · exact absurd (Run.lift_eq_error henqueue) Tasks.enqueue_ne_missing
    · contradiction

/-- Sending misses only a process that waits for a message. -/
theorem MailboxTable.missing_of_send {table : MailboxTable} {message : Message}
    (hsend : (table.send id message sender now t).outcome =
      .error (.fault (.breach (.missingProcess pid)))) :
    pid ∈ table.waiters ∧ t.table.get? pid = none := by
  unfold send at hsend
  split at hsend
  · simp at hsend
  rename_i index mailbox hfind
  obtain ⟨_, rfl⟩ := find?_eq_some hfind
  dsimp only at hsend
  split at hsend
  · simp [Run.outcome_bind, Except.bind] at hsend
  split at hsend
  · contradiction
  rename_i receiver waiting hpop
  rcases Run.error_of_bind hsend with hexpect | ⟨slot, _, hqueue⟩
  · obtain ⟨rfl, hgone⟩ := ProcessTable.find?_of_missing (Run.lift_eq_error hexpect)
    refine ⟨mem_waiters_iff.2 ⟨index, ?_⟩, hgone⟩
    rw [waitingAt, Ring.toList_pop hpop]
    exact List.mem_cons_self
  split at hqueue
  · simp at hqueue
  rcases Run.error_of_bind hqueue with henqueue | ⟨_, _, hrest⟩
  · exact absurd (Run.lift_eq_error henqueue) Tasks.enqueue_ne_missing
  · split at hrest
    · simp at hrest
    · contradiction

/-! ## New owners -/

/-- Whoever owns a mutex behind a lock owned it before or is the caller. -/
theorem MutexTable.Sound.ownerOf_lock {table after : MutexTable} {previous : Nat} {other : UInt64}
    (hsound : table.Sound) (hafter : after.Sound)
    (hlock : (table.lock id caller t).outcome = .ok (previous, after, t'))
    (howner : after.ownerOf other = some pid) : table.ownerOf other = some pid ∨ pid = caller := by
  obtain ⟨_, htickets, hothers⟩ := ticketsAt_lock hsound hlock
  rw [hafter.ownerOf] at howner
  rw [hsound.ownerOf]
  by_cases hself : other = id
  · subst hself
    rw [htickets] at howner
    cases hbefore : table.ticketsAt other with
    | nil =>
        rw [hbefore] at howner
        exact .inr (Option.some.inj howner).symm
    | cons first rest =>
        rw [hbefore] at howner
        exact .inl howner
  · rw [← hothers other hself]
    exact .inl howner

/-- Whoever owns a mutex behind an unlock owned it before or is there to be queued. -/
theorem MutexTable.Sound.ownerOf_unlock {table after : MutexTable} {lockCount : Nat}
    {other : UInt64} (hsound : table.Sound) (hafter : after.Sound)
    (hunlock : (table.unlock id caller t).outcome = .ok (lockCount, after, t'))
    (howner : after.ownerOf other = some pid) :
    table.ownerOf other = some pid ∨ (t.table.get? pid).isSome := by
  obtain ⟨index, mutex, hfind, _, hcases⟩ := replace_unlock hsound hunlock
  obtain ⟨hindex, hentry⟩ := find?_eq_some_iff.1 hfind
  rcases hcases with ⟨_, rfl, _⟩ | ⟨mutex', hreplace, htickets, hnext⟩
  · exact .inl howner
  rw [hafter.ownerOf, hreplace.ticketsAt] at howner
  split at howner
  · -- the new tickets are those of the processes that waited
    have hrest : mutex'.tickets = mutex.waiting.toList := by
      have hhead := (hsound.mutex index mutex hentry).owner
      rw [htickets, List.head?_cons] at hhead
      rw [Mutex.tickets, hhead] at htickets
      injection htickets with _ hrest
      exact hrest.symm
    rw [Option.elim_some, hrest] at howner
    rcases hnext with ⟨hnobody, _⟩ | ⟨next, slot, hwaiting, hplace, _⟩
    · rw [hnobody] at howner
      contradiction
    · rw [hwaiting] at howner
      obtain rfl : next = pid := Option.some.inj howner
      rw [ProcessTable.get?_of_find? hplace]
      exact .inr rfl
  · rw [hsound.ownerOf]
    exact .inl howner

end

namespace Kernel

open Machine (Simulated)

variable {P : Type} {S : Pid → Prop} {k k' : Kernel P} {pid : Pid} {id : UInt64} {deed : Deed P}
  {moments : List (Moment P)}

/-- A process is there. -/
abbrev Lives (k : Kernel P) (pid : Pid) : Prop := (k.tasks.table.get? pid).isSome

/-- Saving registers lets everybody live who lived before, and nobody else. -/
theorem Saved.lives {frame : Frame} (hsaved : Saved frame k (.ok ()) k') (hk : k.CoherentOn S)
    (hlives : k'.Lives pid) : k.Lives pid := by
  cases hsaved with
  | nobody => exact hlives
  | saved _ hfind =>
      have hrewrite := Tasks.rewrite_modify (f := fun p => { p with context := frame })
        hk.tasks.table hfind (ProcessTable.find?_eq_some hfind).1 rfl
      rw [Lives, hrewrite.get?] at hlives
      split at hlives
      · rename_i hself
        rw [hself, Lives, ProcessTable.get?_of_find? hfind]
        rfl
      · exact hlives

variable [Platform P]

/-! ## What a deed leaves in the name of a process -/

/-- Nobody becomes an owner by a call who was not there before it. -/
theorem Served.ownerOf {call : Call} {arguments : Arguments} {result : Except Stop Int64}
    (hserved : Served k call arguments result k') (hk : k.CoherentOn S) (hengaged : k.tasks.Engaged)
    (hresult : ∀ fault, result ≠ .error (.fault fault))
    (howner : k'.mutexes.ownerOf id = some pid) :
    k.mutexes.ownerOf id = some pid ∨ k.Lives pid := by
  have hafter := (hserved.coherent hk hengaged hresult).mutexes
  have hsame (htickets : k'.mutexes.ticketsAt id = k.mutexes.ticketsAt id) :
      k.mutexes.ownerOf id = some pid := by
    rw [hk.mutexes.ownerOf, ← htickets, ← hafter.ownerOf, howner]
  cases hserved with
  | fault => exact absurd rfl (hresult _)
  | lost => exact absurd rfl (hresult _)
  | mutexAlloc halloc => exact .inl (hsame (MutexTable.ticketsAt_alloc hk.mutexes halloc id))
  | mutexFree hrelease => exact .inl (hsame (MutexTable.ticketsAt_release hk.mutexes hrelease id))
  | mutexLock hcurrent hlock =>
      rcases hk.mutexes.ownerOf_lock hafter hlock howner with hbefore | rfl
      · exact .inl hbefore
      · exact .inr (Tasks.isSome_of_stateOf (hengaged _ hcurrent))
  | mutexUnlock _ hunlock => exact hk.mutexes.ownerOf_unlock hafter hunlock howner
  | refused | answered | exec | exit | sleep | yield | send | deliver | receive =>
      exact .inl howner

theorem Called.ownerOf (hcalled : Called k (.ok ()) k') (hk : k.CoherentOn S)
    (hengaged : k.tasks.Engaged) (howner : k'.mutexes.ownerOf id = some pid) :
    k.mutexes.ownerOf id = some pid ∨ k.Lives pid := by
  have hcall {number : UInt64} {arguments : Arguments} {value : Int64} {k₁ : Kernel P}
      (hdispatched : Dispatched k number arguments (.ok value) k₁)
      (howner : k₁.mutexes.ownerOf id = some pid) :
      k.mutexes.ownerOf id = some pid ∨ k.Lives pid := by
    cases hdispatched with
    | value _ hserved => exact hserved.ownerOf hk hengaged (fun _ h => by contradiction) howner
    | refused _ hserved =>
        exact hserved.ownerOf hk hengaged (fun _ h => by injection h; contradiction) howner
  cases hcalled with
  | gone _ _ hdispatch => exact hcall ((leads_dispatch _ _ k).of_ok hdispatch) howner
  | answered _ _ hdispatch => exact hcall ((leads_dispatch _ _ k).of_ok hdispatch) howner

theorem Trapped.ownerOf {frame resumed : Frame} (htrapped : Trapped frame k (.ok resumed) k')
    (hk : k.CoherentOn S) (hengaged : k.tasks.Engaged)
    (howner : k'.mutexes.ownerOf id = some pid) :
    k.mutexes.ownerOf id = some pid ∨ k.Lives pid := by
  cases htrapped with
  | left hsave hentered hoperated hpainted hpassed =>
      have hsaved := (leads_saveContext frame k).of_ok hsave
      rw [hpassed.mutexes, hpainted.tables.1, hoperated.mutexes] at howner
      cases hentered with
      | timer _ hticked => exact .inl (by rwa [hticked.mutexes, hsaved.mutexes] at howner)
      | call _ hcalled =>
          rcases hcalled.ownerOf (hsaved.coherent hk) (hsaved.engaged hengaged) howner with
            hbefore | hlives
          · exact .inl (hsaved.mutexes ▸ hbefore)
          · exact .inr (hsaved.lives hk hlives)

/-- Nobody becomes an owner who was not there before. -/
theorem Deed.ownerOf (hregular : deed.regular) (hdone : deed.carryOut k = .ok () k')
    (hk : k.CoherentOn S) (hengaged : k.tasks.Engaged)
    (howner : k'.mutexes.ownerOf id = some pid) :
    k.mutexes.ownerOf id = some pid ∨ k.Lives pid := by
  have hkept {step : Step P Unit} (hkeeps : Keeps Kernel.mutexes step)
      (hstep : step k = .ok () k') : k.mutexes.ownerOf id = some pid :=
    (hkeeps k).of_ok hstep ▸ howner
  cases deed with
  | trap frame =>
      obtain ⟨resumed, htrap⟩ := exists_of_discard hdone
      exact ((leads_trap frame k).of_ok htrap).ownerOf hk hengaged howner
  | bind key program =>
      obtain ⟨bound, hbind⟩ := exists_of_discard hdone
      obtain ⟨console, rfl, _⟩ := exists_console hbind
      exact .inl howner
  | spawn entry name => exact .inl (hkept (apart_mutexes.spawn entry name).attempt.discard hdone)
  | machine machine =>
      injection hdone with _ hafter
      subst hafter
      exact .inl howner
  | exit target => exact .inl (hkept (apart_mutexes.exit target).attempt.discard hdone)
  | schedule => exact .inl (hkept apart_mutexes.schedule.discard hdone)
  | call | systemCall | tick | press | paint => contradiction

/-! ## What every deed keeps -/

/-- The tables agree on who waits among those that satisfy `S`, the recorded process is
active, and idle is there. -/
structure Steady (S : Pid → Prop) (k : Kernel P) : Prop where
  coherent : k.CoherentOn S
  engaged : k.tasks.Engaged
  idle : k.Lives .idle

/-- A process may be destroyed from outside unless it waits. -/
theorem Deed.steady (hregular : deed.regular) (hdone : deed.carryOut k = .ok () k')
    (h : Steady S k)
    (hrest : ∀ pid, deed = .exit (some pid) → S pid → k.tasks.stateOf pid ≠ some .waiting) :
    Steady S k' := by
  have hk := h.coherent
  cases deed with
  | trap frame =>
      obtain ⟨resumed, htrap⟩ := exists_of_discard hdone
      have htrapped := (leads_trap frame k).of_ok htrap
      obtain ⟨hk', hsettled⟩ := htrapped.coherent hk h.engaged
      exact ⟨hk', hsettled.engaged, (htrapped.continues hk h.engaged).idle h.idle⟩
  | bind key program =>
      obtain ⟨bound, hbind⟩ := exists_of_discard hdone
      obtain ⟨console, rfl, _⟩ := exists_console hbind
      exact ⟨hk, h.engaged, h.idle⟩
  | spawn entry name =>
      obtain ⟨result, hspawn⟩ := exists_of_discard hdone
      have hspawned := (leads_attempt_spawn entry name k).of_ok hspawn
      exact ⟨hspawned.coherent hk, hspawned.engaged hk h.engaged,
        (hspawned.evolvesAt hk).idle h.idle⟩
  | machine machine =>
      injection hdone with _ hafter
      subst hafter
      exact ⟨hk, h.engaged, h.idle⟩
  | exit target =>
      obtain ⟨result, hexit⟩ := exists_of_discard hdone
      have hended := (leads_attempt (leads_exit target k)).of_ok hexit
      cases result with
      | error reason =>
          obtain ⟨p, _, _, rfl⟩ := hended
          exact ⟨hk, h.engaged, h.idle⟩
      | ok =>
          obtain ⟨p, _, tasks, hdestroy, rfl⟩ := hended
          have hevolves : k.tasks.EvolvesAt k.clock.now tasks :=
            Tasks.evolvesAt_destroy hk.tasks.table hdestroy
          refine ⟨hk.destroy hdestroy ?_, h.engaged.destroy hk.tasks.table hdestroy,
            hevolves.idle h.idle⟩
          exact fun pid htarget => hrest pid (by rw [htarget])
  | schedule =>
      obtain ⟨transition, hschedule⟩ := exists_of_discard hdone
      have hpassed := (leads_schedule k).of_ok hschedule
      have hsettled : k'.tasks.Settled := ⟨_, hpassed.settled hk⟩
      exact ⟨hpassed.coherent hk, hsettled.engaged, (hpassed.evolvesAt hk).idle h.idle⟩
  | call | systemCall | tick | press | paint => contradiction

theorem Started.idle {programs : List Program} (hstarted : Started programs k k')
    (hk : k.CoherentOn S) (hidle : k.Lives .idle) : k'.Lives .idle := by
  induction hstarted with
  | nil => exact hidle
  | cons hspawned _ _ ih => exact ih (hspawned.coherent hk) ((hspawned.evolvesAt hk).idle hidle)

theorem Booted.steady {idleEntry : UInt64} {programs : List Program} {first : Pid}
    (hbooted : Booted idleEntry programs k first k') (hk : k.CoherentOn S) : Steady S k' := by
  obtain ⟨hk', hsettled⟩ := hbooted.coherent hk
  refine ⟨hk', hsettled.engaged, ?_⟩
  cases hbooted with
  | booted hidle hstarted _ hpassed =>
      have hk₁ := hidle.coherent hk
      refine (hpassed.evolvesAt (hstarted.coherent hk₁)).idle (hstarted.idle hk₁ ?_)
      cases hidle with
      | created hcreate =>
          obtain ⟨_, _, _, _, _, _, hrewrite⟩ := Tasks.rewrite_create hk.tasks.table hcreate
          rw [Lives, hrewrite.get?, if_pos rfl]
          rfl

/-- A process was destroyed from outside while it waited. -/
def Abandoned (moments : List (Moment P)) (pid : Pid) : Prop :=
  ∃ m ∈ moments, m.deed = .exit (some pid) ∧ m.before.tasks.stateOf pid = some .waiting

/-- A process was destroyed, and a mutex was left in its name. -/
def Bequeathed (moments : List (Moment P)) (id : UInt64) (pid : Pid) : Prop :=
  ∃ m ∈ moments, m.before.Lives pid ∧ ¬ m.after.Lives pid ∧ m.after.mutexes.ownerOf id = some pid

/-- Only those that were destroyed while they waited, and idle, may be out of step. -/
theorem Course.steady (hcourse : Course moments k) (hregular : ∀ m ∈ moments, m.deed.regular) :
    Steady (fun pid => pid ≠ .idle ∧ ¬ Abandoned moments pid) k := by
  induction hcourse with
  | boot hfresh hboot =>
      exact (((leads_boot _ _ _).of_ok hboot) _ rfl).steady
        (hfresh.coherent.weaken fun _ hpid => hpid.1)
  | step hcourse hdone ih =>
      have h := ih fun m hm => hregular m (List.mem_cons_of_mem _ hm)
      refine Deed.steady (hregular _ List.mem_cons_self) hdone
        ⟨h.coherent.weaken ?_, h.engaged, h.idle⟩ ?_
      · exact fun pid ⟨hidle, hkept⟩ =>
          ⟨hidle, fun ⟨m, hm, hleft⟩ => hkept ⟨m, List.mem_cons_of_mem _ hm, hleft⟩⟩
      · exact fun pid hdeed hpid hwaiting =>
          hpid.2 ⟨_, List.mem_cons_self, hdeed, hwaiting⟩

/-- A mutex whose owner is gone was left in its name. -/
theorem Course.bequeathed (hcourse : Course moments k) (hregular : ∀ m ∈ moments, m.deed.regular)
    (howner : k.mutexes.ownerOf id = some pid) : k.Lives pid ∨ Bequeathed moments id pid := by
  induction hcourse with
  | boot hfresh hboot =>
      have hsame := inner_mutexes.booted (((leads_boot _ _ _).of_ok hboot) _ rfl)
      rw [hsame, hfresh.tables.2.1] at howner
      rw [MutexTable.empty_sound.ownerOf, MutexTable.ticketsAt_empty] at howner
      contradiction
  | step hcourse hdone ih =>
      rename_i past k k' deed
      have hpast (m : Moment P) (hm : m ∈ past) : m.deed.regular :=
        hregular m (List.mem_cons_of_mem _ hm)
      have hsteady := hcourse.steady hpast
      -- an owner is an old one or was there before the deed
      have hbefore : k.Lives pid ∨ Bequeathed past id pid := by
        rcases Deed.ownerOf (hregular _ List.mem_cons_self) hdone hsteady.coherent
          hsteady.engaged howner with hold | hlives
        · exact ih hpast hold
        · exact .inl hlives
      rcases hbefore with hlives | ⟨m, hm, hleft⟩
      · by_cases hafter : k'.Lives pid
        · exact .inl hafter
        · exact .inr ⟨_, List.mem_cons_self, hlives, hafter, howner⟩
      · exact .inr ⟨m, List.mem_cons_of_mem _ hm, hleft⟩

/-! ## Every reference -/

/-- Whom the kernel refers to: processes that live, and those of whose end it was not
told. -/
structure Accounted (moments : List (Moment P)) (k : Kernel P) : Prop where
  current : ∀ pid, k.current = some pid → k.Lives pid
  queued : ∀ pid ∈ k.tasks.queue, k.Lives pid
  waiter : ∀ pid ∈ k.waiters, k.Lives pid ∨ Abandoned moments pid
  owner : ∀ id pid, k.mutexes.ownerOf id = some pid → k.Lives pid ∨ Bequeathed moments id pid
  /-- Unlocking a mutex misses nobody else. -/
  unlock : ∀ id caller pid, (k.mutexes.unlock id caller k.tasks).outcome =
    .error (.fault (.breach (.missingProcess pid))) → Abandoned moments pid
  /-- Sending a message misses nobody else. -/
  send : ∀ id message sender now pid, (k.mailboxes.send id message sender now k.tasks).outcome =
    .error (.fault (.breach (.missingProcess pid))) → Abandoned moments pid

/-- The scheduler refers to processes that live; a wait queue holds a process that is gone
only if it was destroyed from outside while it waited, and a mutex belongs to one only if
it did when the process was destroyed. -/
theorem accounted_for (hcourse : Course moments k) (hregular : ∀ m ∈ moments, m.deed.regular) :
    Accounted moments k := by
  have h := hcourse.steady hregular
  have hwaiter (pid : Pid) (hmem : pid ∈ k.waiters) : k.Lives pid ∨ Abandoned moments pid := by
    by_cases hidle : pid = .idle
    · exact .inl (hidle ▸ h.idle)
    by_cases hleft : Abandoned moments pid
    · exact .inr hleft
    · exact .inl (Tasks.isSome_of_stateOf (h.coherent.count_eq_one ⟨hidle, hleft⟩ hmem).1)
  have hmissing (pid : Pid) (hmem : pid ∈ k.waiters) (hgone : k.tasks.table.get? pid = none) :
      Abandoned moments pid := by
    refine (hwaiter pid hmem).resolve_left fun hlives => ?_
    rw [Lives, hgone] at hlives
    contradiction
  constructor
  · exact fun pid hcurrent => Tasks.isSome_of_stateOf (h.engaged pid hcurrent)
  · exact fun pid hmem => Tasks.isSome_of_stateOf (h.coherent.tasks.queued pid hmem)
  · exact hwaiter
  · exact fun id pid howner => hcourse.bequeathed hregular howner
  · intro id caller pid hunlock
    obtain ⟨hmem, hgone⟩ := MutexTable.missing_of_unlock hunlock
    exact hmissing pid (List.mem_append_left _ hmem) hgone
  · intro id message sender now pid hsend
    obtain ⟨hmem, hgone⟩ := MailboxTable.missing_of_send hsend
    exact hmissing pid (List.mem_append_right _ hmem) hgone

/-- The second process waits for the mutex of the first, the third one was destroyed while it
was ready. -/
theorem accounted_for_behind_owner :
    ∃ (moments : List (Moment Simulated)) (k : Kernel Simulated),
      Course moments k ∧ (∀ m ∈ moments, m.deed.regular) ∧ k.current = some ⟨1⟩ ∧
      k.mutexes.ownerOf 0 = some ⟨1⟩ ∧ k.waiters = [⟨2⟩] ∧ ¬ k.Lives ⟨3⟩ ∧
      Accounted moments k := by
  obtain ⟨moments, k, hcourse, hcheck⟩ := exists_course
    [.trap (callFrame .yield 0 0), .trap (callFrame .mutexAlloc 0 0),
      .trap (callFrame .mutexLock 0 0), .trap (callFrame .yield 0 0),
      .trap (callFrame .mutexLock 0 0), .trap (callFrame .yield 0 0), .exit (some ⟨3⟩),
      .trap (callFrame .yield 0 0), .trap (callFrame .getPid 0 0)]
    (fun moments k => decide ((∀ m ∈ moments, m.deed.regular) ∧ k.current = some ⟨1⟩ ∧
      k.mutexes.ownerOf 0 = some ⟨1⟩ ∧ k.waiters = [⟨2⟩] ∧ ¬ k.Lives ⟨3⟩)) (by decide +kernel)
  obtain ⟨hregular, hcurrent, howner, hwaiters, hgone⟩ := of_decide_eq_true hcheck
  exact ⟨moments, k, hcourse, hregular, hcurrent, howner, hwaiters, hgone,
    accounted_for hcourse hregular⟩

/-- The second process waits for the mutex of the first and is destroyed from outside, then
the first one exits: both are still recorded with the mutex. -/
theorem gone_and_still_recorded :
    ∃ (moments : List (Moment Simulated)) (k : Kernel Simulated),
      Course moments k ∧ (∀ m ∈ moments, m.deed.regular) ∧
      k.mutexes.ownerOf 0 = some ⟨1⟩ ∧ ¬ k.Lives ⟨1⟩ ∧ k.waiters = [⟨2⟩] ∧ ¬ k.Lives ⟨2⟩ := by
  obtain ⟨moments, k, hcourse, hcheck⟩ := exists_course
    [.trap (callFrame .yield 0 0), .trap (callFrame .mutexAlloc 0 0),
      .trap (callFrame .mutexLock 0 0), .trap (callFrame .yield 0 0),
      .trap (callFrame .mutexLock 0 0), .exit (some ⟨2⟩), .trap (callFrame .yield 0 0),
      .trap (callFrame .yield 0 0), .trap (callFrame .exit 0 0)]
    (fun moments k => decide ((∀ m ∈ moments, m.deed.regular) ∧
      k.mutexes.ownerOf 0 = some ⟨1⟩ ∧ ¬ k.Lives ⟨1⟩ ∧ k.waiters = [⟨2⟩] ∧ ¬ k.Lives ⟨2⟩))
    (by decide +kernel)
  exact ⟨moments, k, hcourse, of_decide_eq_true hcheck⟩

end Kernel

end Timeshare
