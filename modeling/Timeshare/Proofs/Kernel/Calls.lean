import Timeshare.Proofs.Kernel.Course
import Timeshare.Proofs.Kernel.Evolution
import Timeshare.Proofs.Kernel.Keeps

/-!
# Calls in a course

When a process makes a call, its registers are saved, the call in them is dispatched, and
the answer is put into the registers if the caller is still there; then the operator is
served and a pass carried out.  At all other moments of an ordinary course the mutexes and
mailboxes stay as they are.
-/

namespace Timeshare.Kernel

variable {P : Type} {k k₁ k' : Kernel P} {m : Moment P} {pid : Pid} {call : Call}
  {arguments : Arguments} {frame : Frame} {deed : Deed P}

/-- A number belongs to one call. -/
theorem Call.number_of_ofNumber? {number : UInt64} (hcall : Call.ofNumber? number = some call) :
    number = call.number := by
  have hnumbers : ∀ i : Fin all.length, (all.get i).number.toNat = i.val := by decide
  obtain ⟨hlt, rfl⟩ := List.getElem?_eq_some_iff.1 hcall
  exact UInt64.toNat_inj.1 (hnumbers ⟨number.toNat, hlt⟩).symm

/-- A process makes a call. -/
def Moment.Calls (m : Moment P) (pid : Pid) (call : Call) (arguments : Arguments) : Prop :=
  ∃ frame, m.deed = .trap frame ∧ frame.vector = callVector ∧ m.before.current = some pid ∧
    frame.callNumber = call.number ∧ frame.arguments = arguments

instance (m : Moment P) (pid : Pid) (call : Call) (arguments : Arguments) :
    Decidable (m.Calls pid call arguments) :=
  match hdeed : m.deed with
  | .trap frame =>
      decidable_of_iff (frame.vector = callVector ∧ m.before.current = some pid ∧
          frame.callNumber = call.number ∧ frame.arguments = arguments) <| by
        constructor
        · exact fun h => ⟨frame, hdeed, h⟩
        · rintro ⟨other, hother, h⟩
          rw [hdeed] at hother
          exact Deed.trap.inj hother ▸ h
  | .bind .. | .spawn .. | .machine .. | .exit .. | .schedule | .call .. | .systemCall | .tick
  | .press .. | .paint => isFalse fun ⟨_, hother, _⟩ => by
      rw [hdeed] at hother
      contradiction

/-- A moment has one caller and one call. -/
theorem Moment.Calls.unique {caller : Pid} {other : Call} {others : Arguments}
    (hcalls : m.Calls pid call arguments) (hother : m.Calls caller other others) :
    pid = caller ∧ call = other ∧ arguments = others := by
  obtain ⟨frame, hdeed, _, hcurrent, hnumber, rfl⟩ := hcalls
  obtain ⟨frame', hdeed', _, hcurrent', hnumber', rfl⟩ := hother
  obtain rfl : frame = frame' := Deed.trap.inj (hdeed.symm.trans hdeed')
  refine ⟨Option.some.inj (hcurrent.symm.trans hcurrent'), ?_, rfl⟩
  rw [hnumber] at hnumber'
  have hfound := Call.ofNumber?_number call
  rw [hnumber', Call.ofNumber?_number] at hfound
  exact (Option.some.inj hfound).symm

/-- A live caller has the answer in its registers. -/
theorem Answered.get? {value : Int64} {p : Process} (hanswered : Answered pid value k k')
    (hsound : k.tasks.table.Sound) (hget : k.tasks.table.get? pid = some p) :
    k'.tasks.table.get? pid = some { p with context := p.context.withResult value } := by
  obtain ⟨slot, hfind, rfl, _⟩ := ProcessTable.get?_eq_some hget
  cases hanswered with
  | gone hgone =>
      rw [hgone] at hfind
      contradiction
  | saved hfound =>
      obtain rfl := Option.some.inj (hfound.symm.trans hfind)
      have hrewrite := Tasks.rewrite_modify
        (f := fun p => { p with context := p.context.withResult value }) hsound hfind
        (ProcessTable.find?_eq_some hfind).1 rfl
      exact (hrewrite.get? pid).trans (if_pos rfl)

variable [Platform P]

/-- What is left of a trap behind its handler. -/
def Finished (k k' : Kernel P) : Prop :=
  ∃ k₁ transition, attend k = .ok () k₁ ∧ schedule k₁ = .ok transition k'

/-- Behind its handler a trap lets processes evolve. -/
theorem Finished.evolvesAt (hfinished : Finished k k') (hk : k.Coherent) :
    k.tasks.EvolvesAt k.clock.now k'.tasks := by
  obtain ⟨k₂, transition, hattend, hschedule⟩ := hfinished
  obtain ⟨operated, hoperated, hpainted⟩ := attend_eq_ok hattend
  have hpassed := ((leads_schedule k₂).of_ok hschedule).evolvesAt (coherent_attend hattend hk)
  rw [hpainted.tables.2, hpainted.kept.clock, hoperated.kept.clock] at hpassed
  exact (hoperated.evolvesAt hk).trans hpassed

theorem Finished.clock (hfinished : Finished k k') : k'.clock = k.clock := by
  obtain ⟨k₂, transition, hattend, hschedule⟩ := hfinished
  obtain ⟨operated, hoperated, hpainted⟩ := attend_eq_ok hattend
  exact ((leads_schedule k₂).of_ok hschedule).kept.clock.trans
    (hpainted.kept.clock.trans hoperated.kept.clock)

/-- The call that a trap makes is the one in its frame. -/
theorem enter_call (henter : enter frame k = .ok () k₁) (hvector : frame.vector = callVector)
    (hk : k.Coherent) :
    ∃ pid saved value answered, saveContext frame k = .ok () saved ∧ k.current = some pid ∧
      saved.current = some pid ∧ answer frame k = some value ∧
      dispatch frame.callNumber frame.arguments saved = .ok value answered ∧
      Answered pid value answered k₁ := by
  obtain ⟨saved, hsave, hentered⟩ := enter_eq_ok henter
  cases hentered with
  | timer htimer =>
      rw [htimer] at hvector
      contradiction
  | call _ hcalled =>
      obtain ⟨pid, value, answered, hdispatched⟩ := answered_of_called hcalled hsave hk hvector
      exact ⟨pid, saved, value, answered, hsave, hdispatched⟩

/-- The stages of a moment at which a call is made. -/
structure Staged (m : Moment P) (pid : Pid) (call : Call) (arguments : Arguments) (value : Int64)
    (frame : Frame) (saved answered served : Kernel P) : Prop where
  deed : m.deed = .trap frame
  answer : answer frame m.before = some value
  save : saveContext frame m.before = .ok () saved
  current : saved.current = some pid
  dispatch : dispatch call.number arguments saved = .ok value answered
  answered : Answered pid value answered served
  enter : enter frame m.before = .ok () served
  finished : Finished served m.after

theorem Moment.Calls.staged (hcalls : m.Calls pid call arguments)
    (hdone : m.deed.carryOut m.before = .ok () m.after) (hk : m.before.Coherent) :
    ∃ frame saved value answered served,
      Staged m pid call arguments value frame saved answered served := by
  obtain ⟨frame, hdeed, hvector, hcurrent, hnumber, rfl⟩ := hcalls
  rw [hdeed] at hdone
  obtain ⟨resumed, htrap⟩ := exists_of_discard hdone
  obtain ⟨served, k₂, transition, henter, hattend, hschedule, _⟩ := stages_of_trap htrap
  obtain ⟨other, saved, value, answered, hsave, hother, hsaved, hanswer, hdispatch, hanswered⟩ :=
    enter_call henter hvector hk
  obtain rfl : other = pid := Option.some.inj (hother.symm.trans hcurrent)
  rw [hnumber] at hdispatch
  exact ⟨frame, saved, value, answered, served, hdeed, hanswer, hsave, hsaved, hdispatch, hanswered,
    henter, k₂, transition, hattend, hschedule⟩

/-- A trap with the vector of calls makes the call in its frame. -/
theorem Moment.exists_calls (hdeed : m.deed = .trap frame)
    (hdone : m.deed.carryOut m.before = .ok () m.after) (hk : m.before.Coherent)
    (hvector : frame.vector = callVector) :
    ∃ pid call, Call.ofNumber? frame.callNumber = some call ∧ m.Calls pid call frame.arguments := by
  rw [hdeed] at hdone
  obtain ⟨resumed, htrap⟩ := exists_of_discard hdone
  obtain ⟨served, _, _, henter, _⟩ := stages_of_trap htrap
  obtain ⟨pid, saved, value, answered, _, hcurrent, _, _, hdispatch, _⟩ :=
    enter_call henter hvector hk
  cases hcall : Call.ofNumber? frame.callNumber with
  | none =>
      unfold dispatch at hdispatch
      rw [hcall] at hdispatch
      contradiction
  | some call =>
      exact ⟨pid, call, rfl, frame, hdeed, hvector, hcurrent, Call.number_of_ofNumber? hcall, rfl⟩

/-! ## What only calls change -/

/-- The part has nothing to do with the machine either. -/
structure Inner {γ : Type} (f : Kernel P → γ) : Prop extends Apart f where
  platform : ∀ k p, f { k with platform := p } = f k

theorem inner_mutexes : Inner (Kernel.mutexes (P := P)) := ⟨apart_mutexes, fun _ _ => rfl⟩

theorem inner_mailboxes : Inner (Kernel.mailboxes (P := P)) := by
  refine ⟨⟨?_, ?_, ?_, ?_, ?_, ?_, ?_, ?_, ?_⟩, ?_⟩ <;> intros <;> rfl

theorem Apart.finished {γ : Type} {f : Kernel P → γ} (h : Apart f) (hfinished : Finished k k') :
    f k' = f k := by
  obtain ⟨k₁, transition, hattend, hschedule⟩ := hfinished
  exact ((h.schedule k₁).of_ok hschedule).trans ((h.attend k).of_ok hattend)

theorem Inner.spawned {γ : Type} {f : Kernel P → γ} {entry : UInt64} {name : String}
    {result : Except Refusal Pid} (h : Inner f)
    (hspawned : Spawned entry name k (.ok result) k') : f k' = f k := by
  cases hspawned with
  | created => exact (h.tasks _ _).trans (h.platform k _)
  | refused => exact h.platform k _

/-- Booting leaves alone what only calls change. -/
theorem Inner.booted {γ : Type} {f : Kernel P → γ} {idleEntry : UInt64} {programs : List Program}
    {first : Pid} (h : Inner f) (hbooted : Booted idleEntry programs k first k') :
    f k' = f k := by
  have hstart {programs : List Program} {k k' : Kernel P} (hstarted : Started programs k k') :
      f k' = f k := by
    induction hstarted with
    | nil => rfl
    | cons hspawned _ _ ih => exact ih.trans ((h.platform _ _).trans (h.spawned hspawned))
  cases hbooted with
  | booted hidle hstarted _ hpassed =>
      have hbefore := (hstart hstarted).trans (h.spawned hidle)
      cases hpassed with
      | passed => exact (h.tasks _ _).trans ((h.platform _ _).trans hbefore)

/-- In an ordinary course a call is made, or the tables behind calls stay as they are. -/
theorem calls_or_kept {γ : Type} {f : Kernel P → γ} (h : Inner f)
    (hordinary : m.deed.ordinary) (hdone : m.deed.carryOut m.before = .ok () m.after)
    (hk : m.before.Coherent) :
    (∃ pid call arguments, m.Calls pid call arguments) ∨ f m.after = f m.before := by
  rcases Deed.effect hordinary hdone with
    ⟨frame, _, hdeed, htrap⟩ | ⟨_, _, _, _, hspawned⟩ | ⟨_, console, platform, hafter⟩
  · by_cases hvector : frame.vector = callVector
    · obtain ⟨pid, call, _, hcalls⟩ := Moment.exists_calls hdeed hdone hk hvector
      exact .inl ⟨pid, call, frame.arguments, hcalls⟩
    · -- serving the timer is as harmless as the operator and the pass
      obtain ⟨served, k₂, transition, henter, hattend, hschedule, _⟩ := stages_of_trap htrap
      have htimer : Keeps f (enter frame) := by
        refine (h.saveContext frame).bind fun _ => ?_
        rw [if_neg hvector]
        split
        · exact h.timerTick
        · exact .of_throw _
      have hserved : f served = f m.before := (htimer m.before).of_ok henter
      exact .inr ((h.finished ⟨k₂, transition, hattend, hschedule⟩).trans hserved)
  · exact .inr (h.spawned hspawned)
  · rw [hafter]
    exact .inr ((h.console { m.before with platform } console).trans (h.platform m.before platform))

end Timeshare.Kernel
