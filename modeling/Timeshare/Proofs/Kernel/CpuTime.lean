import Timeshare.Proofs.Kernel.Calls
import Timeshare.Proofs.Kernel.Others
import Timeshare.Proofs.Kernel.Turns
import Timeshare.Proofs.Tasks.Accounts

/-!
# Processor time is conserved

Between traps somebody has the processor, so every tick is charged to somebody.  What was
charged stays in the account of a process until it is destroyed, and then it has left with
the process.  So the clock can be read off the accounts of all processes there ever were.
-/

namespace Timeshare.Kernel

open Machine (Simulated)

variable {P : Type} {k k' : Kernel P} {frame : Frame} {pid : Pid} {now : UInt64}

/-! ## The stages of a trap -/

theorem Saved.totalTime (hsaved : Saved frame k (.ok ()) k') (hk : k.Coherent)
    (hsettled : k.tasks.Settled) : totalTime k'.tasks.processes = totalTime k.tasks.processes := by
  obtain ⟨active, hcurrent, _⟩ := hsettled
  obtain ⟨p, hget, hrewrite⟩ := hsaved.rewrite hk hcurrent
  have htotal := hrewrite.totalTime hk.tasks.table hget
  exact Nat.add_right_cancel htotal

theorem Saved.timely (hsaved : Saved frame k (.ok ()) k') (hk : k.Coherent)
    (hsettled : k.tasks.Settled) (h : k.tasks.Timely now) : k'.tasks.Timely now := by
  obtain ⟨active, hcurrent, _⟩ := hsettled
  obtain ⟨p, hget, hrewrite⟩ := hsaved.rewrite hk hcurrent
  have hp := h active p hget
  exact hrewrite.timely h ⟨hp.activeTime, hp.cpuTime⟩

variable [Platform P]

/-- A tick is charged to one process. -/
theorem Ticked.totalTime (hticked : Ticked k (.ok ()) k') (hk : k.Coherent)
    (hsettled : k.tasks.Settled) :
    k.tasks.departed k'.tasks = [] ∧
      totalTime k'.tasks.processes = totalTime k.tasks.processes + 1 := by
  obtain ⟨active, hcurrent, _⟩ := hsettled
  obtain ⟨p, activeTime, cpuTime, hget, _, hcpu, hrewrite⟩ := hticked.rewrite hk hcurrent
  have htotal := hrewrite.totalTime hk.tasks.table hget
  exact ⟨hrewrite.departed hk.tasks.table, by dsimp only at htotal; omega⟩

/-- Whoever is charged lived as long. -/
theorem Ticked.timely (hticked : Ticked k (.ok ()) k') (hk : k.Coherent)
    (hsettled : k.tasks.Settled) (h : k.tasks.Timely k.clock.now) :
    k'.tasks.Timely k'.clock.now := by
  obtain ⟨active, hcurrent, _⟩ := hsettled
  obtain ⟨p, activeTime, cpuTime, hget, hactive, hcpu, hrewrite⟩ := hticked.rewrite hk hcurrent
  have hnow := toNat_tick hticked.kept.1
  have hlater : k.tasks.Timely k'.clock.now := fun q p' hq => by
    have hp := h q p' hq
    exact ⟨hp.activeTime, hp.cpuTime.trans (by omega)⟩
  obtain ⟨hless, hlife⟩ := h active p hget
  exact hrewrite.timely hlater ⟨by dsimp only; omega, by dsimp only; omega⟩

/-- Behind the handler the accounts show the ticks of the trap, also those of a caller that
exited. -/
theorem Entered.totalTime (hentered : Entered frame k (.ok ()) k') (hk : k.Coherent)
    (hsettled : k.tasks.Settled) :
    totalTime k'.tasks.processes + totalTime (k.tasks.departed k'.tasks) =
      totalTime k.tasks.processes + ticks frame := by
  have hk' := hentered.coherent hk hsettled.engaged
  cases hentered with
  | timer hvector hticked =>
      obtain ⟨hnobody, htotal⟩ := hticked.totalTime hk hsettled
      rw [hnobody, htotal, ticks, if_pos hvector]
      rfl
  | call hvector hcalled =>
      rw [ticks, if_neg (by rw [hvector]; decide)]
      have hevolves := hcalled.evolvesAt hk hsettled.engaged
      exact (hevolves.keepsTimes hk.tasks.table).totalTime hk.tasks.table hk'.tasks.table

theorem Entered.timely (hentered : Entered frame k (.ok ()) k') (hk : k.Coherent)
    (hsettled : k.tasks.Settled) (h : k.tasks.Timely k.clock.now) :
    k'.tasks.Timely k'.clock.now := by
  cases hentered with
  | timer _ hticked => exact hticked.timely hk hsettled h
  | call _ hcalled =>
      rw [hcalled.kept.clock]
      exact (hcalled.evolvesAt hk hsettled.engaged).timely h

/-! ## Moments -/

variable {m : Moment P} {moments : List (Moment P)}

/-- The processes that are destroyed at a moment, as they were then.  The handler of a trap
destroys a caller that exits, and behind it the operator may destroy whoever has the
processor; a tick is charged by a handler that destroys nobody. -/
def Moment.departed (m : Moment P) : List Process :=
  match m.deed with
  | .trap frame =>
      match saveContext frame m.before, enter frame m.before with
      | .ok _ saved, .ok _ served =>
          saved.tasks.departed served.tasks ++ served.tasks.departed m.after.tasks
      | _, _ => []
  | _ => m.before.tasks.departed m.after.tasks

/-- The handler of a trap charges one tick to the process, touches no other, and nothing is
charged behind it. -/
def Moment.ChargesOnly (m : Moment P) (pid : Pid) : Prop :=
  ∃ frame served p p', m.deed = .trap frame ∧ enter frame m.before = .ok () served ∧
    m.before.tasks.table.get? pid = some p ∧ served.tasks.table.get? pid = some p' ∧
    p'.cpuTime.toNat = p.cpuTime.toNat + 1 ∧
    (∀ other, other ≠ pid →
      served.tasks.table.get? other = m.before.tasks.table.get? other) ∧
    served.tasks.KeepsTimes m.after.tasks

/-- A trap goes through the saving of registers, its handler and what is behind it. -/
theorem exists_stages (hdone : (Deed.trap frame).carryOut m.before = .ok () m.after) :
    ∃ saved served, saveContext frame m.before = .ok () saved ∧
      enter frame m.before = .ok () served ∧ Entered frame saved (.ok ()) served ∧
      Finished served m.after := by
  obtain ⟨resumed, htrap⟩ := exists_of_discard hdone
  obtain ⟨served, k₂, transition, henter, hattend, hschedule, _⟩ := stages_of_trap htrap
  obtain ⟨saved, hsave, hentered⟩ := enter_eq_ok henter
  exact ⟨saved, served, hsave, henter, hentered, k₂, transition, hattend, hschedule⟩

/-- At every moment the accounts grow by its ticks, those of the processes that are destroyed
included. -/
theorem totalTime_of_ordinary (hordinary : m.deed.ordinary)
    (hdone : m.deed.carryOut m.before = .ok () m.after) (hk : m.before.Coherent)
    (hsettled : m.before.tasks.Settled) :
    totalTime m.after.tasks.processes + totalTime m.departed =
      totalTime m.before.tasks.processes + m.deed.ticks := by
  have hafter := (Deed.coherent hordinary hdone hk hsettled).1.tasks.table
  by_cases htrap : ∃ frame, m.deed = .trap frame
  · obtain ⟨frame, hdeed⟩ := htrap
    rw [hdeed] at hdone
    obtain ⟨saved, served, hsave, henter, hentered, hfinished⟩ := exists_stages hdone
    have hsaved := (leads_saveContext frame m.before).of_ok hsave
    have hserved := (coherent_enter henter hk hsettled.engaged)
    have htotal := hentered.totalTime (hsaved.coherent hk) (hsaved.settled hsettled)
    rw [hsaved.totalTime hk hsettled] at htotal
    have hrest := ((hfinished.evolvesAt hserved).keepsTimes hserved.tasks.table).totalTime
      hserved.tasks.table hafter
    rw [Moment.departed, hdeed]
    dsimp only
    rw [hsave, henter, Deed.ticks]
    dsimp only
    rw [totalTime_append]
    omega
  · -- between traps nobody is charged
    have hdeparted : m.departed = m.before.tasks.departed m.after.tasks := by
      unfold Moment.departed
      split
      · rename_i frame hdeed
        exact absurd ⟨frame, hdeed⟩ htrap
      · rfl
    have hticks : m.deed.ticks = 0 := Deed.ticks_of_other (not_exists.1 htrap)
    rw [hdeparted, hticks]
    have hevolves := Deed.evolvesAt hordinary hdone hk (not_exists.1 htrap)
    exact (hevolves.keepsTimes hk.tasks.table).totalTime hk.tasks.table hafter

theorem timely_of_ordinary (hordinary : m.deed.ordinary)
    (hdone : m.deed.carryOut m.before = .ok () m.after) (hk : m.before.Coherent)
    (hsettled : m.before.tasks.Settled) (h : m.before.tasks.Timely m.before.clock.now) :
    m.after.tasks.Timely m.after.clock.now := by
  by_cases htrap : ∃ frame, m.deed = .trap frame
  · obtain ⟨frame, hdeed⟩ := htrap
    rw [hdeed] at hdone
    obtain ⟨saved, served, hsave, henter, hentered, hfinished⟩ := exists_stages hdone
    have hsaved := (leads_saveContext frame m.before).of_ok hsave
    have hserved := coherent_enter henter hk hsettled.engaged
    have hbefore := hsaved.timely hk hsettled h
    rw [← hsaved.kept.clock] at hbefore
    rw [hfinished.clock]
    exact (hfinished.evolvesAt hserved).timely
      (hentered.timely (hsaved.coherent hk) (hsaved.settled hsettled) hbefore)
  · have hticks : m.deed.ticks = 0 := Deed.ticks_of_other (not_exists.1 htrap)
    have hclock := Deed.clock hordinary hdone
    rw [hticks, Nat.add_zero] at hclock
    rw [UInt64.toNat_inj.1 hclock]
    exact (Deed.evolvesAt hordinary hdone hk (not_exists.1 htrap)).timely h

/-- The timer charges whoever has the processor. -/
theorem chargesOnly_of_timer (hdeed : m.deed = .trap frame) (hvector : frame.vector = timerVector)
    (hdone : m.deed.carryOut m.before = .ok () m.after) (hk : m.before.Coherent)
    (hsettled : m.before.tasks.Settled) :
    ∃ pid, m.before.current = some pid ∧ m.ChargesOnly pid := by
  have hdone' := hdone
  rw [hdeed] at hdone'
  obtain ⟨saved, served, hsave, henter, hentered, hfinished⟩ := exists_stages hdone'
  have hsaved := (leads_saveContext frame m.before).of_ok hsave
  have hserved := coherent_enter henter hk hsettled.engaged
  obtain ⟨active, hcurrent, _⟩ := hsettled
  obtain ⟨p, hget, hrewrite⟩ := hsaved.rewrite hk hcurrent
  have hget₀ := (hrewrite.get? active).trans (if_pos rfl)
  cases hentered with
  | call hcall =>
      rw [hvector] at hcall
      contradiction
  | timer _ hticked =>
      obtain ⟨p₀, _, cpuTime, hsame, _, hcpu, hcharged⟩ :=
        hticked.rewrite (hsaved.coherent hk) (hsaved.current.trans hcurrent)
      obtain rfl := Option.some.inj (hget₀.symm.trans hsame)
      refine ⟨active, hcurrent, frame, served, p, _, hdeed, henter, hget,
        (hcharged.get? active).trans (if_pos rfl), hcpu, fun other hother => ?_, ?_⟩
      · rw [hcharged.get?_of_ne hother, hrewrite.get?_of_ne hother]
      · exact (hfinished.evolvesAt hserved).keepsTimes hserved.tasks.table

/-! ## Courses -/

/-- The clock shows the ticks in all accounts, and every account is within the life of its
process. -/
theorem Course.accounts (hcourse : Course moments k) (hordinary : ∀ m ∈ moments, m.deed.ordinary) :
    k.clock.now.toNat =
        totalTime k.tasks.processes + (moments.map fun m => totalTime m.departed).sum ∧
      k.tasks.Timely k.clock.now := by
  induction hcourse with
  | boot hfresh hboot =>
      have hbooted := (leads_boot _ _ _).of_ok hboot _ rfl
      have hevolves := hbooted.evolvesAt hfresh.coherent
      have hafter := (hbooted.coherent hfresh.coherent).1.tasks.table
      have hempty := hfresh.tables.1
      rw [hbooted.clock, hfresh.clock]
      rw [hfresh.clock, hempty] at hevolves
      have htotal := (hevolves.keepsTimes ProcessTable.empty_sound).totalTime
        ProcessTable.empty_sound hafter
      rw [Tasks.processes_empty] at htotal
      refine ⟨(Nat.eq_zero_of_add_eq_zero_right htotal).symm, hevolves.timely fun pid p hget => ?_⟩
      rw [Tasks.empty, ProcessTable.get?_empty] at hget
      contradiction
  | step hcourse hdone ih =>
      have hdeed := hordinary _ List.mem_cons_self
      have hpast := fun m hm => hordinary m (List.mem_cons_of_mem _ hm)
      obtain ⟨hk, hsettled⟩ := hcourse.coherent hpast
      obtain ⟨htotal, htimely⟩ := ih hpast
      have hstep := totalTime_of_ordinary hdeed hdone hk hsettled
      have hclock := Deed.clock hdeed hdone
      refine ⟨?_, timely_of_ordinary hdeed hdone hk hsettled htimely⟩
      rw [List.map_cons, List.sum_cons]
      dsimp only at hstep hclock
      omega

/-- The clock shows what the live processes have had of the processor and what each destroyed
process had when it was destroyed; every tick of the timer was charged to one process; and no
process has used up more of its time slice than it had of the processor, or had that longer than
it has lived. -/
theorem cpu_time_conserved (hcourse : Course moments k)
    (hordinary : ∀ m ∈ moments, m.deed.ordinary) :
    k.clock.now.toNat =
        totalTime k.tasks.processes + (moments.map fun m => totalTime m.departed).sum ∧
      (∀ m ∈ moments, ∀ frame, m.deed = .trap frame → frame.vector = timerVector →
        ∃ pid, m.before.current = some pid ∧ m.ChargesOnly pid) ∧
      ∀ pid p, k.tasks.table.get? pid = some p →
        p.startTime ≤ k.clock.now ∧ p.activeTime ≤ p.cpuTime ∧
          p.cpuTime ≤ k.clock.now - p.startTime := by
  obtain ⟨htotal, htimely⟩ := hcourse.accounts hordinary
  refine ⟨htotal, fun m hm frame hdeed hvector => ?_, fun pid p hget => ?_⟩
  · obtain ⟨later, past, rfl⟩ := List.append_of_mem hm
    refine hcourse.since_ordinary (Q := fun _ _ => _) hordinary ?_ fun _ _ _ _ _ _ h => h
    exact fun _ hk hsettled hdone => chargesOnly_of_timer hdeed hvector hdone hk hsettled
  · obtain ⟨hactive, hcpu⟩ := htimely pid p hget
    have hstart : p.startTime ≤ k.clock.now := by
      rw [UInt64.le_iff_toNat_le]
      omega
    refine ⟨hstart, UInt64.le_iff_toNat_le.2 hactive, ?_⟩
    rw [UInt64.le_iff_toNat_le, UInt64.toNat_sub_of_le _ _ hstart]
    omega

/-- A process exits after two ticks, and the others have the three that follow. -/
theorem cpu_time_conserved_over_exit :
    ∃ (moments : List (Moment Simulated)) (k : Kernel Simulated),
      Course moments k ∧ (∀ m ∈ moments, m.deed.ordinary) ∧ k.clock.now = 5 ∧
      totalTime k.tasks.processes = 3 ∧
      k.clock.now.toNat =
        totalTime k.tasks.processes + (moments.map fun m => totalTime m.departed).sum := by
  obtain ⟨moments, k, hcourse, hcheck⟩ := exists_course
    [.trap (callFrame .yield 0 0), .trap timerFrame, .trap timerFrame,
      .trap (callFrame .exit 0 0), .trap timerFrame, .spawn 0x1000 "fourth", .trap timerFrame,
      .trap timerFrame]
    (fun moments k => decide ((∀ m ∈ moments, m.deed.ordinary) ∧ k.clock.now = 5 ∧
      totalTime k.tasks.processes = 3)) (by decide +kernel)
  obtain ⟨hordinary, hclock, htotal⟩ := of_decide_eq_true hcheck
  exact ⟨moments, k, hcourse, hordinary, hclock, htotal, (cpu_time_conserved hcourse hordinary).1⟩

end Timeshare.Kernel
