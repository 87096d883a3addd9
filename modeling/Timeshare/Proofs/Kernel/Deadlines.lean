import Timeshare.Proofs.Kernel.Turns
import Timeshare.Proofs.Kernel.Woken

/-!
# Sleepers wake at their deadlines

A process that asks to sleep for some seconds has a deadline, which is cut off at the end of
time.  Before the deadline no trap touches it, whatever the other processes and the operator
do.  The pass of the first trap at which the deadline has come queues it, behind whoever was
queued by then and whoever the pass preempts, together with the others that are due.
-/

namespace Timeshare

namespace Tasks

variable {now : UInt64} {t t' : Tasks} {pid : Pid} {p : Process}

/-- A sleeper whose time has come is due. -/
theorem mem_due (hget : t.table.get? pid = some p) (hstate : p.state = .sleeping)
    (hwake : p.wakeTime ≤ now) : pid ∈ t.due now := by
  obtain ⟨slot, _, rfl, _, rfl⟩ := ProcessTable.get?_eq_some hget
  refine List.mem_map.2 ⟨slot, List.mem_filter.2 ⟨List.mem_finRange slot, ?_⟩, rfl⟩
  exact decide_eq_true ⟨hstate, hwake⟩

/-- The choice leaves the queue, or it makes its head active. -/
theorem queue_of_pick {next : Pid} (hsound : t.Sound) (hqueue : t.queue ≠ [])
    (hpick : t.pick = .ok (next, t')) :
    t'.queue = t.queue ∧ t'.current = t.current ∨
      t.queue = next :: t'.queue ∧ t'.current = some next := by
  rcases pick_eq_ok hsound.table hpick with ⟨rfl, _⟩ | ⟨_, p, rest, _, hhead, hrewrite⟩
  · exact .inl ⟨rfl, rfl⟩
  · rcases hhead with hhead | ⟨hempty, _⟩
    · exact .inr ⟨by rw [hhead, hrewrite.queue], hrewrite.current⟩
    · exact absurd hempty hqueue

end Tasks

namespace Kernel

open Machine (Simulated)

variable {P : Type} {k k' : Kernel P} {m : Moment P} {past later : List (Moment P)}
  {pid : Pid} {arguments : Arguments} {p : Process} {frame : Frame}

/-- The tick at which a sleep of `seconds` ends: the sum is the exact one, and only the end of
time cuts it off. -/
def deadline (k : Kernel P) (seconds : UInt64) : Nat :=
  min (k.clock.now.toNat + seconds.toNat * k.config.ticksPerSecond.toNat) (2 ^ 64 - 1)

theorem toNat_sleepEnd (k : Kernel P) (seconds : UInt64) :
    (k.sleepEnd seconds).toNat = k.deadline seconds := by
  rw [sleepEnd, deadline, Word.toNat_addSaturating, Word.toNat_mulSaturating, Word.range]
  omega

/-- The process sleeps until a deadline: it is not queued, waits for nothing and has not got
the processor. -/
structure SleepsUntil (k : Kernel P) (pid : Pid) (deadline : Nat) : Prop where
  sleeping : ∃ p, k.tasks.table.get? pid = some p ∧ p.state = .sleeping ∧
    p.wakeTime.toNat = deadline
  not_queued : pid ∉ k.tasks.queue
  not_waiting : pid ∉ k.mutexes.waiters ∧ pid ∉ k.mailboxes.waiters
  not_current : k.current ≠ some pid

/-- Whoever sleeps is on no wait queue. -/
theorem Coherent.not_mem_waiters_of_sleeping (hk : k.Coherent) (hidle : pid ≠ .idle)
    (hget : k.tasks.table.get? pid = some p) (hstate : p.state = .sleeping) :
    pid ∉ waitersOf k.mutexes k.mailboxes := by
  intro hmem
  have hwaiting := (hk.count_eq_one hidle hmem).1
  rw [Tasks.stateOf_of_get? hget, hstate] at hwaiting
  contradiction

/-- Before its deadline a sleeper is nowhere. -/
theorem Asleep.sleepsUntil {wake : UInt64} (h : k.Asleep pid wake) (hk : k.Coherent)
    (hidle : pid ≠ .idle) (hearly : k.clock.now < wake) : k.SleepsUntil pid wake.toNat := by
  rcases h with ⟨p, hget, hstate, hwake⟩ | hdue
  · have hwaits := Coherent.not_mem_waiters_of_sleeping hk hidle hget hstate
    refine ⟨⟨p, hget, hstate, by rw [hwake]⟩, ?_, ?_, hk.current_ne hidle hget (.inl hstate)⟩
    · apply hk.tasks.not_mem_queue
      rw [Tasks.stateOf_of_get? hget, hstate]
      simp
    · exact not_or.1 fun hmem => hwaits (List.mem_append.2 hmem)
  · exact absurd hdue (UInt64.not_le.2 hearly)

variable [Platform P]

/-- The pass of a trap wakes a process: `before` is the kernel as the pass finds it and `roused`
are the processes when it chooses. -/
structure WakesInTurn (frame : Frame) (k before : Kernel P) (roused : Tasks) (k' : Kernel P)
    (pid : Pid) : Prop where
  chooses : Chooses frame k before roused k'
  /-- Whoever was queued when the trap came still is. -/
  queued : k.tasks.queue <+: before.tasks.queue
  /-- Behind the queue come the preempted process and then all sleepers that are due, in table
  order. -/
  order : roused.queue = before.tasks.queue ++
    before.tasks.preempted before.config.timeSlice ++ before.tasks.due before.clock.now
  due : pid ∈ before.tasks.due before.clock.now
  once : roused.queue.count pid = 1
  /-- The pass may take the head off the queue. -/
  taken : k'.tasks.queue = roused.queue ∧ k'.current = roused.current ∨
    ∃ next, roused.queue = next :: k'.tasks.queue ∧ k'.current = some next
  ready : pid ∈ k'.tasks.queue ∧ k'.tasks.stateOf pid = some .running ∨
    k'.current = some pid ∧ k'.tasks.stateOf pid = some .active

/-! ## One trap -/

/-- A sleeper is left alone by what goes before the pass. -/
theorem sleeping_at_pass {k₁ k₂ : Kernel P} (henter : enter frame k = .ok () k₁)
    (hattend : attend k₁ = .ok () k₂) (hk : k.Coherent) (hsettled : k.tasks.Settled)
    (hidle : pid ≠ .idle) (hget : k.tasks.table.get? pid = some p) (hstate : p.state = .sleeping) :
    k₂.tasks.table.get? pid = some p := by
  obtain ⟨saved, hsave, hentered⟩ := enter_eq_ok henter
  obtain ⟨operated, hoperated, hpainted⟩ := attend_eq_ok hattend
  have hsaved := (leads_saveContext frame k).of_ok hsave
  have hother := hk.current_ne hidle hget (.inl hstate)
  have hk₀ := hsaved.coherent hk
  have hk₁ := coherent_enter henter hk hsettled.engaged
  have hget₀ := (hsaved.others hother).trans hget
  rw [hpainted.tables.2]
  rcases hentered.others hk₀ (hsaved.current ▸ hother) hget₀ with hget₁ | ⟨hmem, _⟩
  · exact hoperated.others hk₁ (Coherent.current_ne hk₁ hidle hget₁ (.inl hstate)) hget₁
  · exact absurd hmem (Coherent.not_mem_waiters_of_sleeping hk₀ hidle hget₀ hstate)

/-- A pass wakes whoever is due when it begins. -/
theorem wakesInTurn_of_due {k₁ before : Kernel P} {transition : Transition}
    (henter : enter frame k = .ok () k₁) (hattend : attend k₁ = .ok () before)
    (hschedule : schedule before = .ok transition k') (hk : k.Coherent)
    (hsettled : k.tasks.Settled) (hget : before.tasks.table.get? pid = some p)
    (hstate : p.state = .sleeping) (hwake : p.wakeTime ≤ before.clock.now) :
    ∃ roused, WakesInTurn frame k before roused k' pid := by
  have hk₂ := coherent_attend hattend (coherent_enter henter hk hsettled.engaged)
  have hdue := Tasks.mem_due hget hstate hwake
  cases (leads_schedule before).of_ok hschedule with
  | passed hpass =>
      obtain ⟨roused, hrouse, hpick⟩ := Tasks.reschedule_eq_ok hpass
      have horder := Tasks.queue_rouse hrouse
      have hsound := Tasks.Moves.keeps_sound (Tasks.moves_rouse hk₂.tasks.table hrouse).1 hk₂.tasks
      have hmem : pid ∈ roused.queue := by
        rw [horder]
        exact List.mem_append_right _ hdue
      have htaken := Tasks.queue_of_pick hsound (List.ne_nil_of_mem hmem) hpick
      obtain ⟨hmoves, hactive⟩ := Tasks.moves_reschedule hk₂.tasks.table hpass
      have hafter := Tasks.Moves.keeps_sound hmoves hk₂.tasks
      refine ⟨roused, ⟨bind_eq_ok_iff.2 ⟨(), k₁, henter, hattend⟩, hrouse, _, hschedule⟩,
        queue_prefix_of_stages henter hattend hk hsettled, horder, hdue,
        List.count_eq_one_of_mem hsound.queue_nodup hmem, ?_, ?_⟩
      · exact htaken.imp id fun h => ⟨_, h⟩
      · rcases htaken with ⟨hqueue, _⟩ | ⟨hqueue, hcurrent⟩
        · rw [← hqueue] at hmem
          exact .inl ⟨hmem, hafter.queued pid hmem⟩
        · rw [hqueue] at hmem
          rcases List.mem_cons.1 hmem with rfl | hrest
          · exact .inr ⟨hcurrent, hactive.2⟩
          · exact .inl ⟨hrest, hafter.queued pid hrest⟩

/-- A sleep that ends with its own trap. -/
theorem Moment.Calls.wakesInTurn (hcalls : m.Calls pid .sleep arguments)
    (hdone : m.deed.carryOut m.before = .ok () m.after) (hk : m.before.Coherent)
    (hsettled : m.before.tasks.Settled) (hidle : pid ≠ .idle)
    (hdue : m.before.sleepEnd arguments.first ≤ m.after.clock.now) :
    ∃ frame before roused, m.deed = .trap frame ∧
      WakesInTurn frame m.before before roused m.after pid := by
  obtain ⟨frame, saved, value, answered, served, hstaged⟩ := hcalls.staged hdone hk
  obtain ⟨p, hget, hstate, hslept⟩ := hstaged.slept hk
  obtain ⟨before, transition, hattend, hschedule⟩ := hstaged.finished
  have hk₁ := coherent_enter hstaged.enter hk hsettled.engaged
  obtain ⟨operated, hoperated, hpainted⟩ := attend_eq_ok hattend
  have hget₂ : before.tasks.table.get? pid = some p := by
    rw [hpainted.tables.2]
    exact hoperated.others hk₁ (Coherent.current_ne hk₁ hidle hget (.inl hstate)) hget
  rw [← hslept, ((leads_schedule before).of_ok hschedule).kept.clock] at hdue
  obtain ⟨roused, hwakes⟩ :=
    wakesInTurn_of_due hstaged.enter hattend hschedule hk hsettled hget₂ hstate hdue
  exact ⟨frame, before, roused, hstaged.deed, hwakes⟩

/-- The moment at which the time of a sleeper comes is a trap that wakes it. -/
theorem wakesInTurn_of_clock (hordinary : m.deed.ordinary)
    (hdone : m.deed.carryOut m.before = .ok () m.after) (hk : m.before.Coherent)
    (hsettled : m.before.tasks.Settled) (hidle : pid ≠ .idle)
    (hget : m.before.tasks.table.get? pid = some p) (hstate : p.state = .sleeping)
    (hearly : m.before.clock.now < p.wakeTime) (hdue : p.wakeTime ≤ m.after.clock.now) :
    ∃ frame before roused, m.deed = .trap frame ∧
      WakesInTurn frame m.before before roused m.after pid := by
  obtain ⟨frame, hframe⟩ : ∃ frame, m.deed = .trap frame := by
    apply Deed.exists_frame_of_ticks
    have hclock := Deed.clock hordinary hdone
    have hticks := UInt64.lt_iff_toNat_lt.1 (UInt64.lt_of_lt_of_le hearly hdue)
    omega
  rw [hframe] at hdone
  obtain ⟨resumed, htrap⟩ := exists_of_discard hdone
  obtain ⟨k₁, before, transition, henter, hattend, hschedule, _⟩ := stages_of_trap htrap
  have hget₂ := sleeping_at_pass henter hattend hk hsettled hidle hget hstate
  rw [((leads_schedule before).of_ok hschedule).kept.clock] at hdue
  obtain ⟨roused, hwakes⟩ :=
    wakesInTurn_of_due henter hattend hschedule hk hsettled hget₂ hstate hdue
  exact ⟨frame, before, roused, hframe, hwakes⟩

/-! ## Courses -/

theorem Course.asleep (hcourse : Course (later ++ m :: past) k)
    (hordinary : ∀ u ∈ later ++ m :: past, u.deed.ordinary)
    (hcalls : m.Calls pid .sleep arguments) (hidle : pid ≠ .idle) :
    k.Asleep pid (m.before.sleepEnd arguments.first) := by
  refine hcourse.since_ordinary (Q := fun _ k => k.Asleep pid _) hordinary ?_ ?_
  · exact fun _ hk hsettled hdone => asleep_of_calls hcalls hdone hk hsettled hidle
  · exact fun u _ hu hk hsettled hdone h => h.step hu hdone hk hsettled hidle

/-- The last moment leaves the kernel at the end. -/
theorem Course.exists_last (hcourse : Course (later ++ m :: past) k) :
    ∃ u ∈ later ++ [m], k = u.after := by
  cases later with
  | nil => exact ⟨m, List.mem_singleton_self m, hcourse.tail.2.2⟩
  | cons u later => exact ⟨u, List.mem_cons_self, hcourse.tail.2.2⟩

/-- Whoever asks to sleep does so as long as the clock is below the deadline, and the pass of the
first moment at which the clock has reached it, which may be that of the call, wakes it. -/
theorem sleeps_until_deadline (hcourse : Course (later ++ m :: past) k)
    (hordinary : ∀ u ∈ later ++ m :: past, u.deed.ordinary)
    (hcalls : m.Calls pid .sleep arguments) (hidle : pid ≠ .idle) :
    (k.clock.now.toNat < m.before.deadline arguments.first →
      k.SleepsUntil pid (m.before.deadline arguments.first)) ∧
    ∀ u rest, later ++ [m] = u :: rest →
      (∀ v ∈ rest, v.after.clock.now.toNat < m.before.deadline arguments.first) →
      m.before.deadline arguments.first ≤ k.clock.now.toNat →
      ∃ frame before roused, u.deed = .trap frame ∧
        WakesInTurn frame u.before before roused k pid := by
  rw [← toNat_sleepEnd]
  simp only [← UInt64.lt_iff_toNat_lt, ← UInt64.le_iff_toNat_le]
  refine ⟨fun hearly => ?_, fun u rest hsplit hbefore hdue => ?_⟩
  · exact (hcourse.asleep hordinary hcalls hidle).sleepsUntil (hcourse.coherent hordinary).1 hidle
      hearly
  cases later with
  | nil =>
      obtain ⟨rfl, rfl⟩ := List.cons.inj hsplit
      obtain ⟨hpast, hdone, rfl⟩ := hcourse.tail
      obtain ⟨hk, hsettled⟩ := hpast.coherent fun u hu => hordinary u (List.mem_cons_of_mem _ hu)
      exact hcalls.wakesInTurn hdone hk hsettled hidle hdue
  | cons last later =>
      obtain ⟨rfl, rfl⟩ := List.cons.inj hsplit
      obtain ⟨hpast, hdone, rfl⟩ := hcourse.tail
      have hordinary' (v : Moment P) (hv : v ∈ later ++ m :: past) : v.deed.ordinary :=
        hordinary v (List.mem_cons_of_mem _ hv)
      obtain ⟨hk, hsettled⟩ := hpast.coherent hordinary'
      -- the clock was below the deadline before this moment, so it finds a sleeper
      obtain ⟨v, hv, hlast⟩ := hpast.exists_last
      have hearly := hbefore v hv
      rw [← hlast] at hearly
      rcases hpast.asleep hordinary' hcalls hidle with ⟨p, hget, hstate, hwake⟩ | hover
      · rw [← hwake] at hearly hdue
        exact wakesInTurn_of_clock (hordinary last List.mem_cons_self) hdone hk hsettled hidle hget
          hstate hearly hdue
      · exact absurd hover (UInt64.not_le.2 hearly)

/-- Two processes sleep for a second, and the pass that wakes them preempts the third. -/
theorem sleeps_until_deadline_beside_sleeper :
    ∃ (later past : List (Moment Simulated)) (u m : Moment Simulated) (frame : Frame)
      (before : Kernel Simulated) (roused : Tasks),
      Course (u :: later ++ m :: past) u.after ∧ (∀ v ∈ u :: later ++ m :: past, v.deed.ordinary) ∧
      m.Calls ⟨1⟩ .sleep ⟨1, 0, 0⟩ ∧ u.before.SleepsUntil ⟨1⟩ 100 ∧ u.deed = .trap frame ∧
      WakesInTurn frame u.before before roused u.after ⟨1⟩ ∧ roused.queue = [⟨3⟩, ⟨1⟩, ⟨2⟩] := by
  obtain ⟨later, m, past, k, hcourse, hordinary, hcheck⟩ := exists_course_around 102
    ([.trap (callFrame .yield 0 0), .trap (callFrame .sleep 1 0), .trap (callFrame .sleep 1 0)] ++
      List.replicate 5 (.trap timerFrame) ++ [.trap (callFrame .yield 0 0)] ++
      List.replicate 95 (.trap timerFrame))
    (fun later m _ k => decide (m.Calls ⟨1⟩ .sleep ⟨1, 0, 0⟩ ∧ m.before.deadline 1 = 100 ∧
        (∀ v ∈ later.tail ++ [m], v.after.clock.now.toNat < 100) ∧ 100 ≤ k.clock.now.toNat) &&
      later.head?.any fun (u : Moment Simulated) => decide (u.before.clock.now.toNat < 100) &&
        u.deed.frame?.any fun frame => (atChoice frame u.before).any fun (roused : Tasks) =>
          decide (roused.queue = [⟨3⟩, ⟨1⟩, ⟨2⟩])) (by decide +kernel)
  obtain ⟨hends, hlater⟩ := (Bool.and_eq_true ..).mp hcheck
  obtain ⟨hcalls, hdeadline, hbefore, hdue⟩ := of_decide_eq_true hends
  obtain ⟨u, hhead, hlast⟩ := (Option.any_eq_true ..).1 hlater
  obtain ⟨hearly, hpass⟩ := (Bool.and_eq_true ..).mp hlast
  obtain ⟨frame, hframe, hfound⟩ := (Option.any_eq_true ..).1 hpass
  obtain ⟨later, rfl⟩ := List.head?_eq_some_iff.1 hhead
  obtain ⟨hpast, _, rfl⟩ := hcourse.tail
  have hsleeps := (sleeps_until_deadline hpast
    (fun v hv => hordinary v (List.mem_cons_of_mem _ hv)) hcalls (by decide)).1
  rw [hdeadline] at hsleeps
  obtain ⟨other, before, roused, hdeed, hwakes⟩ :=
    (sleeps_until_deadline hcourse hordinary hcalls (by decide)).2 u (later ++ [m]) rfl
      (fun v hv => hdeadline ▸ hbefore v hv) (hdeadline ▸ hdue)
  obtain rfl : other = frame := Option.some.inj ((Deed.frame?_eq_some.2 hdeed).symm.trans hframe)
  rw [hwakes.chooses.atChoice] at hfound
  exact ⟨later, past, u, m, other, before, roused, hcourse, hordinary, hcalls,
    hsleeps (of_decide_eq_true hearly), hdeed, hwakes, of_decide_eq_true hfound⟩

end Kernel

end Timeshare
