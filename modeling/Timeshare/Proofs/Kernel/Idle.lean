import Timeshare.Proofs.Kernel.Dangling
import Timeshare.Proofs.Kernel.Others
import Timeshare.Proofs.Kernel.Turns
import Timeshare.Proofs.Tasks.Idle

/-!
# Idle runs only when nobody else can

Booting queues idle like everybody else, and the first pass takes it off the queue again.
From then on nothing queues it: it makes no calls, so it waits for nobody who could hand it
something, and a pass that takes the processor from it does not queue it.  Idle gets the
processor when the queue is empty, and then everybody else is blocked.
-/

namespace Timeshare.Kernel

open Machine (Simulated)

variable {P : Type} {S : Pid → Prop} {k k' : Kernel P} {frame : Frame} {deed : Deed P}
  {moments : List (Moment P)} {m : Moment P}

/-- Idle stands aside, and it waits for nothing. -/
structure Idles (k : Kernel P) : Prop where
  aside : k.tasks.Aside
  restless : .idle ∉ k.waiters

/-- Idle takes nothing but timer interrupts. -/
def OnlyTimed (moments : List (Moment P)) : Prop :=
  ∀ m ∈ moments, m.before.current = some .idle → ∀ frame ∈ m.deed.frame?,
    frame.vector = timerVector

instance (moments : List (Moment P)) : Decidable (OnlyTimed moments) :=
  inferInstanceAs (Decidable (∀ m ∈ moments, _))

/-! ## What a trap leaves to idle -/

theorem Saved.aside (hsaved : Saved frame k (.ok ()) k') (haside : k.tasks.Aside) :
    k'.tasks.Aside := by
  cases hsaved with
  | nobody => exact haside
  | saved _ hfind => exact haside.touch hfind rfl rfl

/-- Sending queues a receiver that waited, and idle does not wait. -/
theorem Idles.aside_send {id now : UInt64} {message stamped : Message} {handoff : Option Handoff}
    {sender : Pid} {mailboxes : MailboxTable} {tasks : Tasks} (hidles : k.Idles)
    (hk : k.CoherentOn S) (hsend : (k.mailboxes.send id message sender now k.tasks).outcome =
      .ok ((stamped, handoff), mailboxes, tasks)) : tasks.Aside := by
  obtain ⟨index, _, _, _, hcases⟩ := MailboxTable.send_cases hsend
  rcases hcases with ⟨_, rfl, _⟩ | ⟨receiver, slot, _, _, _, hwaiting, _, hfind, _, henqueue⟩
  · exact hidles.aside
  have hrewrite := (Tasks.rewrite_modify_enqueue hk.tasks.table hfind
    (ProcessTable.find?_eq_some hfind).1 rfl henqueue).2
  have hother : receiver ≠ .idle := by
    rintro rfl
    exact hidles.restless ((k.waitingAt_sublist index).subset (hwaiting ▸ List.mem_cons_self))
  exact hrewrite.aside hidles.aside hother (hidles.aside.not_mem_append hother)

variable [Platform P]

theorem Ticked.aside (hticked : Ticked k (.ok ()) k') (haside : k.tasks.Aside) :
    k'.tasks.Aside := by
  cases hticked with
  | nobody => exact haside
  | charged _ _ hfind => exact haside.touch hfind rfl rfl

/-- A call of another process leaves idle aside. -/
theorem Served.aside {call : Call} {arguments : Arguments} {result : Except Stop Int64}
    (hserved : Served k call arguments result k') (hk : k.CoherentOn S) (hidles : k.Idles)
    (hresult : ∀ fault, result ≠ .error (.fault fault)) (hcaller : k.current ≠ some .idle) :
    k'.tasks.Aside := by
  have htable := hk.tasks.table
  have haside := hidles.aside
  have hother {caller : Pid} (hcurrent : k.current = some caller) : caller ≠ .idle :=
    fun hidle => hcaller (hidle ▸ hcurrent)
  cases hserved with
  | fault => exact absurd rfl (hresult _)
  | lost => exact absurd rfl (hresult _)
  | refused | answered | mutexAlloc | mutexFree => exact haside
  | exec hcreate => exact haside.create htable hcreate
  | exit hdestroy => exact haside.destroy htable hdestroy
  | sleep hcurrent hfind hsleep =>
      subst hsleep
      have hrewrite := Tasks.rewrite_modify (f := fun p => { p with
        state := .sleeping, activeTime := 0, wakeTime := k.sleepEnd arguments.first })
        htable hfind rfl rfl
      exact (hrewrite.aside haside (hother hcurrent) haside.queue).clearCurrent
  | yield hcurrent hfind henqueue =>
      have hrewrite := (Tasks.rewrite_modify_enqueue htable hfind
        (ProcessTable.find?_eq_some hfind).1 rfl henqueue).2
      have hqueue := haside.not_mem_append (hother hcurrent)
      exact (hrewrite.aside haside (hother hcurrent) hqueue).clearCurrent
  | mutexLock hcurrent hlock =>
      obtain ⟨_, _, _, _, _, _, _, hcases⟩ := MutexTable.replace_lock hk.mutexes hlock
      rcases hcases with ⟨_, _, rfl⟩ | ⟨_, hpark⟩
      · exact haside
      · obtain ⟨_, _, hrewrite⟩ := Tasks.rewrite_park htable hpark
        exact hrewrite.aside haside (hother hcurrent) haside.not_mem_filter
  | mutexUnlock _ hunlock =>
      obtain ⟨index, mutex, hfind, _, hcases⟩ := MutexTable.replace_unlock hk.mutexes hunlock
      rcases hcases with ⟨_, _, rfl⟩ | ⟨_, _, _, ⟨_, _, rfl⟩ | ⟨next, slot, hwaiting, hplace, henqueue⟩⟩
      · exact haside
      · exact haside
      have hrewrite := (Tasks.rewrite_enqueue htable hplace henqueue).2
      have hnext : next ≠ .idle := by
        rintro rfl
        refine hidles.restless (List.mem_append_left _ (MutexTable.mem_waiters_iff.2 ⟨index, ?_⟩))
        rw [MutexTable.waitingAt_of_entry (MutexTable.find?_eq_some_iff.1 hfind).2, hwaiting]
        exact List.mem_cons_self
      exact hrewrite.aside haside hnext (haside.not_mem_append hnext)
  | send _ hsend => exact hidles.aside_send hk hsend
  | deliver _ hsend hfind => exact (hidles.aside_send hk hsend).touch hfind rfl rfl
  | receive hcurrent hreceive =>
      obtain ⟨_, _, _, hcases⟩ := MailboxTable.receive_cases hreceive
      rcases hcases with ⟨_, rfl, _⟩ | ⟨_, _, _, _, slot, hfind, hpark⟩
      · exact haside
      · have hrewrite := Tasks.rewrite_modify_park htable hfind
          (ProcessTable.find?_eq_some hfind).1 rfl hpark
        exact hrewrite.aside haside (hother hcurrent) haside.not_mem_filter

theorem Called.aside (hcalled : Called k (.ok ()) k') (hk : k.CoherentOn S) (hidles : k.Idles)
    (hcaller : k.current ≠ some .idle) : k'.tasks.Aside := by
  have hdispatched {number : UInt64} {arguments : Arguments} {value : Int64} {k₁ : Kernel P}
      (hdispatched : Dispatched k number arguments (.ok value) k₁) : k₁.tasks.Aside := by
    cases hdispatched with
    | value _ hserved => exact hserved.aside hk hidles (fun _ h => by contradiction) hcaller
    | refused _ hserved =>
        exact hserved.aside hk hidles (fun _ h => by injection h; contradiction) hcaller
  cases hcalled with
  | gone _ _ hdispatch => exact hdispatched ((leads_dispatch _ _ k).of_ok hdispatch)
  | answered _ _ hdispatch hfind =>
      exact (hdispatched ((leads_dispatch _ _ k).of_ok hdispatch)).touch hfind rfl rfl

theorem Operated.aside (hoperated : Operated k (.ok ()) k') (hk : k.CoherentOn S)
    (haside : k.tasks.Aside) : k'.tasks.Aside := by
  cases hoperated with
  | quiet => exact haside
  | killed hdestroy => exact haside.destroy hk.tasks.table hdestroy
  | spawned _ hcreate => exact haside.create hk.tasks.table hcreate

theorem Spawned.aside {entry : UInt64} {name : String} {result : Except Refusal Pid}
    (hspawned : Spawned entry name k (.ok result) k') (hk : k.CoherentOn S)
    (haside : k.tasks.Aside) : k'.tasks.Aside := by
  cases hspawned with
  | created hcreate => exact haside.create hk.tasks.table hcreate
  | refused => exact haside

theorem Passed.aside {transition : Transition} (hpassed : Passed k (.ok transition) k')
    (hk : k.CoherentOn S) (haside : k.tasks.Aside) : k'.tasks.Aside := by
  cases hpassed with
  | passed hpass => exact (Tasks.moves_reschedule hk.tasks.table hpass).1.aside haside

/-- A pass that picks idle, or leaves it the processor after its time slice, leaves it alone. -/
theorem Passed.alone {transition : Transition} (hpassed : Passed k (.ok transition) k')
    (hk : k.CoherentOn S) (haside : k.tasks.Aside) (hidle : k'.current = some .idle)
    (hpicked : k.tasks.stateOf .idle ≠ some .active ∨
      ∃ p, k.tasks.table.get? .idle = some p ∧ k.config.timeSlice ≤ p.activeTime) :
    k'.tasks.Alone k'.clock.now := by
  rw [hpassed.kept.clock]
  cases hpassed with
  | passed hpass => exact Tasks.alone_of_reschedule hk.tasks haside hpass hidle hpicked

/-! ## The stages of a trap -/

/-- Serving a trap of another process, or a timer interrupt of idle, leaves idle aside. -/
theorem Idles.enter (hidles : k.Idles) (henter : enter frame k = .ok () k') (hk : k.CoherentOn S)
    (htimed : k.current = some .idle → frame.vector = timerVector) : k'.Idles := by
  obtain ⟨saved, hsave, hentered⟩ := enter_eq_ok henter
  have hsaved := (leads_saveContext frame k).of_ok hsave
  have hk₁ := hsaved.coherent hk
  have hwaiters : saved.waiters = k.waiters := (apart_waiters.saveContext frame k).of_ok hsave
  have hidles₁ : saved.Idles := ⟨hsaved.aside hidles.aside, hwaiters ▸ hidles.restless⟩
  cases hentered with
  | timer hvector hticked =>
      refine ⟨hticked.aside hidles₁.aside, ?_⟩
      have hsame : k'.waiters = saved.waiters := by cases hticked <;> rfl
      exact hsame ▸ hidles₁.restless
  | call hvector hcalled =>
      have hcaller : saved.current ≠ some .idle := by
        intro hcurrent
        have htimer := htimed (hsaved.current ▸ hcurrent)
        rw [hvector] at htimer
        contradiction
      exact ⟨hcalled.aside hk₁ hidles₁ hcaller, hcalled.waiters hk₁ hcaller hidles₁.restless⟩

theorem Idles.attend (hidles : k.Idles) (hattend : attend k = .ok () k') (hk : k.CoherentOn S) :
    k'.Idles := by
  obtain ⟨operated, hoperated, hpainted⟩ := attend_eq_ok hattend
  have hwaiters : k'.waiters = k.waiters := (apart_waiters.attend k).of_ok hattend
  refine ⟨?_, hwaiters ▸ hidles.restless⟩
  rw [hpainted.tables.2]
  exact hoperated.aside hk hidles.aside

theorem Idles.schedule {transition : Transition} (hidles : k.Idles)
    (hschedule : schedule k = .ok transition k') (hk : k.CoherentOn S) : k'.Idles := by
  have hwaiters : k'.waiters = k.waiters := (apart_waiters.schedule k).of_ok hschedule
  exact ⟨((leads_schedule k).of_ok hschedule).aside hk hidles.aside,
    hwaiters ▸ hidles.restless⟩

/-- What ends with a scheduling pass. -/
def Deed.passes : Deed P → Bool
  | .trap _ | .schedule => true
  | _ => false

/-- The kernel that the pass of a moment finds. -/
def Moment.beforePass? (m : Moment P) : Option (Kernel P) :=
  match m.deed with
  | .trap frame =>
      match (do enter frame; attend : Step P Unit) m.before with
      | .error _ _ => none
      | .ok _ before => some before
  | .schedule => some m.before
  | _ => none

/-- A moment ends with a scheduling pass, which finds the kernel in the state `before`. -/
structure Moment.PassesFrom (m : Moment P) (before : Kernel P) : Prop where
  reached : m.beforePass? = some before
  passed : ∃ transition, schedule before = .ok transition m.after

/-- What a pass finds is as coherent as the kernel before the moment, and idle is aside. -/
theorem exists_passesFrom (hpasses : m.deed.passes)
    (hdone : m.deed.carryOut m.before = .ok () m.after) (hsteady : Steady S m.before)
    (hidles : m.before.Idles) (htimed : OnlyTimed [m]) :
    ∃ before, m.PassesFrom before ∧ before.CoherentOn S ∧ before.Idles := by
  have hk := hsteady.coherent
  cases hdeed : m.deed with
  | trap frame =>
      rw [hdeed] at hdone
      obtain ⟨resumed, htrap⟩ := exists_of_discard hdone
      obtain ⟨served, before, transition, henter, hattend, hschedule, _⟩ := stages_of_trap htrap
      have hreached : (do enter frame; attend : Step P Unit) m.before = .ok () before :=
        bind_eq_ok_iff.2 ⟨(), served, henter, hattend⟩
      have hserved := coherent_enter henter hk hsteady.engaged
      have htimer (hcurrent : m.before.current = some .idle) : frame.vector = timerVector :=
        htimed m List.mem_cons_self hcurrent frame (Deed.frame?_eq_some.2 hdeed)
      refine ⟨before, ⟨?_, transition, hschedule⟩, coherent_attend hattend hserved,
        (hidles.enter henter hk htimer).attend hattend hserved⟩
      rw [Moment.beforePass?, hdeed]
      dsimp only
      rw [hreached]
  | schedule =>
      rw [hdeed] at hdone
      exact ⟨m.before, ⟨by rw [Moment.beforePass?, hdeed], exists_of_discard hdone⟩, hk, hidles⟩
  | bind | spawn | machine | exit | call | systemCall | tick | press | paint =>
      rw [hdeed] at hpasses
      contradiction

/-! ## Courses -/

/-- Every moment leaves idle aside. -/
theorem Moment.idles (hregular : m.deed.regular) (hdone : m.deed.carryOut m.before = .ok () m.after)
    (hsteady : Steady S m.before) (hidles : m.before.Idles) (htimed : OnlyTimed [m]) :
    m.after.Idles := by
  have hk := hsteady.coherent
  have hpass (hpasses : m.deed.passes) : m.after.Idles := by
    obtain ⟨before, ⟨_, transition, hschedule⟩, hcoherent, hbefore⟩ :=
      exists_passesFrom hpasses hdone hsteady hidles htimed
    exact hbefore.schedule hschedule hcoherent
  have hkept {step : Step P Unit} (hkeeps : Keeps waiters step)
      (hstep : step m.before = .ok () m.after) : .idle ∉ m.after.waiters := by
    rw [(hkeeps m.before).of_ok hstep]
    exact hidles.restless
  cases hdeed : m.deed with
  | trap | schedule => exact hpass (by rw [hdeed]; rfl)
  | bind key program =>
      rw [hdeed] at hdone
      obtain ⟨bound, hbind⟩ := exists_of_discard hdone
      obtain ⟨console, hafter, _⟩ := exists_console hbind
      rw [hafter]
      exact ⟨hidles.aside, hidles.restless⟩
  | spawn entry name =>
      rw [hdeed] at hdone
      refine ⟨?_, hkept (apart_waiters.spawn entry name).attempt.discard hdone⟩
      obtain ⟨result, hspawn⟩ := exists_of_discard hdone
      exact ((leads_attempt_spawn entry name m.before).of_ok hspawn).aside hk hidles.aside
  | machine machine =>
      rw [hdeed] at hdone
      injection hdone with _ hafter
      rw [← hafter]
      exact ⟨hidles.aside, hidles.restless⟩
  | exit target =>
      rw [hdeed] at hdone
      refine ⟨?_, hkept (apart_waiters.exit target).attempt.discard hdone⟩
      obtain ⟨result, hexit⟩ := exists_of_discard hdone
      have hended := (leads_attempt (leads_exit target m.before)).of_ok hexit
      cases result with
      | error reason =>
          obtain ⟨p, _, _, hafter⟩ := hended
          rw [hafter]
          exact hidles.aside
      | ok =>
          obtain ⟨p, _, tasks, hdestroy, hafter⟩ := hended
          rw [hafter]
          exact hidles.aside.destroy hk.tasks.table hdestroy
  | call | systemCall | tick | press | paint =>
      rw [hdeed] at hregular
      contradiction

/-- The startup programs are queued behind idle. -/
theorem Started.linesUp {programs : List Program} (hstarted : Started programs k k')
    (hk : k.CoherentOn S) : k.tasks.LinesUp k'.tasks := by
  induction hstarted with
  | nil => exact .refl _
  | cons hspawned _ _ ih => exact (hspawned.linesUp hk).trans (ih (hspawned.coherent hk))

theorem Booted.idles {log : List (Happening P)} {idleEntry : UInt64} {programs : List Program}
    {first : Pid} (hbooted : Booted idleEntry programs k first k') (hfresh : Fresh log k) :
    k'.Idles := by
  have hk := hfresh.coherent
  obtain ⟨htasks, hmutexes, hmailboxes⟩ := hfresh.tables
  constructor
  · cases hbooted with
    | booted hidle hstarted _ hpassed =>
        have hk₁ := hidle.coherent hk
        have hk₂ := hstarted.coherent hk₁
        have hlined := hstarted.linesUp hk₁
        cases hidle with
        | created hcreate =>
            obtain ⟨_, _, _, _, _, _, hrewrite⟩ := Tasks.rewrite_create hk.tasks.table hcreate
            have hqueue : _ <+: _ := hlined.queue
            have hcurrent := hrewrite.current
            rw [hrewrite.queue, htasks] at hqueue
            rw [htasks] at hcurrent
            cases hpassed with
            | passed hpass =>
                refine Tasks.aside_of_first_pass hk₂.tasks hpass ?_ hqueue
                exact hlined.current.elim id fun h => h.1.trans hcurrent
  · unfold waiters waitersOf
    rw [inner_mutexes.booted hbooted, inner_mailboxes.booted hbooted, hmutexes, hmailboxes,
      MutexTable.waiters_empty, MailboxTable.waiters_empty]
    exact List.not_mem_nil

theorem Course.idles (hcourse : Course moments k) (hregular : ∀ m ∈ moments, m.deed.regular)
    (htimed : OnlyTimed moments) : k.Idles := by
  induction hcourse with
  | boot hfresh hboot => exact (((leads_boot _ _ _).of_ok hboot) _ rfl).idles hfresh
  | step hcourse hdone ih =>
      have hpast (m : Moment P) (hm : m ∈ _) : m.deed.regular :=
        hregular m (List.mem_cons_of_mem _ hm)
      have hbefore := ih hpast fun m hm => htimed m (List.mem_cons_of_mem _ hm)
      refine Moment.idles (m := ⟨_, _, _⟩) (hregular _ List.mem_cons_self) hdone
        (hcourse.steady hpast) hbefore fun m hm => htimed m ?_
      exact List.mem_singleton.1 hm ▸ List.mem_cons_self

/-- Idle is never queued once the kernel is booted, and it is ready or active.  A pass that
picks it, or keeps it though its time slice is used up, leaves nobody queued, and everybody
else sleeps into the future or waits. -/
theorem idle_runs_alone (hcourse : Course moments k) (hregular : ∀ m ∈ moments, m.deed.regular)
    (htimed : OnlyTimed moments) :
    k.tasks.Aside ∧ ∀ m ∈ moments, m.deed.passes →
      ∃ before, m.PassesFrom before ∧ before.tasks.Aside ∧
        (m.after.current = some .idle →
          (before.tasks.stateOf .idle ≠ some .active ∨
            ∃ p, before.tasks.table.get? .idle = some p ∧
              before.config.timeSlice ≤ p.activeTime) →
          m.after.tasks.Alone m.after.clock.now) := by
  refine ⟨(hcourse.idles hregular htimed).aside, fun m hm hpasses => ?_⟩
  obtain ⟨later, past, rfl⟩ := List.append_of_mem hm
  obtain ⟨hpast, hdone, _⟩ := hcourse.upTo.tail
  have hmem (u : Moment P) (hu : u ∈ past) : u ∈ later ++ m :: past :=
    List.mem_append_right _ (List.mem_cons_of_mem _ hu)
  have hregularPast (u : Moment P) (hu : u ∈ past) : u.deed.regular := hregular u (hmem u hu)
  have hidles := hpast.idles hregularPast fun u hu => htimed u (hmem u hu)
  obtain ⟨before, hfrom, hcoherent, hbefore⟩ :=
    exists_passesFrom hpasses hdone (hpast.steady hregularPast) hidles fun u hu =>
      htimed u (List.mem_singleton.1 hu ▸ hm)
  refine ⟨before, hfrom, hbefore.aside, fun hidle hpicked => ?_⟩
  obtain ⟨transition, hschedule⟩ := hfrom.passed
  exact ((leads_schedule before).of_ok hschedule).alone hcoherent hbefore.aside hidle hpicked

/-- The first process sleeps with a mutex, the second one waits for it and the third one goes
to sleep too, so the pass picks idle. -/
theorem idle_runs_alone_behind_sleepers :
    ∃ (moments : List (Moment Simulated)) (m : Moment Simulated) (before : Kernel Simulated),
      Course moments m.after ∧ (∀ u ∈ moments, u.deed.regular) ∧ OnlyTimed moments ∧
      m ∈ moments ∧ m.PassesFrom before ∧ before.tasks.stateOf .idle = some .running ∧
      m.after.current = some .idle ∧ m.after.waiters = [⟨2⟩] ∧
      m.after.tasks.Alone m.after.clock.now := by
  obtain ⟨moments, k, hcourse, hcheck⟩ := exists_course
    (List.replicate 5 (.trap timerFrame) ++ [.trap (callFrame .mutexAlloc 0 0),
      .trap (callFrame .mutexLock 0 0), .trap (callFrame .sleep 9 0),
      .trap (callFrame .mutexLock 0 0), .trap (callFrame .sleep 9 0)])
    (fun moments k => decide ((∀ m ∈ moments, m.deed.regular) ∧ OnlyTimed moments ∧
        k.current = some .idle ∧ k.waiters = [⟨2⟩]) &&
      moments.head?.any fun (m : Moment Simulated) => decide m.deed.passes &&
        m.beforePass?.any fun (before : Kernel Simulated) =>
          decide (before.tasks.stateOf .idle = some .running)) (by decide +kernel)
  obtain ⟨hends, hlast⟩ := (Bool.and_eq_true ..).mp hcheck
  obtain ⟨hregular, htimed, hcurrent, hwaiters⟩ := of_decide_eq_true hends
  obtain ⟨m, hhead, hpass⟩ := (Option.any_eq_true ..).1 hlast
  obtain ⟨past, rfl⟩ := List.head?_eq_some_iff.1 hhead
  obtain ⟨hpasses, hfound⟩ := (Bool.and_eq_true ..).mp hpass
  obtain ⟨other, hother, hstate⟩ := (Option.any_eq_true ..).1 hfound
  obtain ⟨_, _, rfl⟩ := hcourse.tail
  obtain ⟨before, hfrom, _, halone⟩ :=
    (idle_runs_alone hcourse hregular htimed).2 m List.mem_cons_self (of_decide_eq_true hpasses)
  obtain rfl : other = before := Option.some.inj (hother.symm.trans hfrom.reached)
  have hready := of_decide_eq_true hstate
  refine ⟨m :: past, m, other, hcourse, hregular, htimed, List.mem_cons_self, hfrom, hready,
    hcurrent, hwaiters, halone hcurrent (.inl ?_)⟩
  rw [hready]
  decide

end Timeshare.Kernel
