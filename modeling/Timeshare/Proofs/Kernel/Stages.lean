import Timeshare.Proofs.Kernel.Evolution

/-!
# The stages of a trap

A trap is served, what the operator typed is acted on, and a scheduling pass is carried
out.  Between these stages the kernel has a state of its own, which statements about the
middle of a trap refer to.
-/

namespace Timeshare.Kernel

variable {P : Type} {S : Pid → Prop} {ε α β : Type} {k k₁ k₂ k' : Kernel P} {frame resumed : Frame}

/-- A sequence that ends well went through the end of its first part. -/
theorem bind_eq_ok_iff {step : EStateM ε (Kernel P) α} {next : α → EStateM ε (Kernel P) β}
    {b : β} : (step >>= next) k = .ok b k' ↔ ∃ a k₁, step k = .ok a k₁ ∧ next a k₁ = .ok b k' := by
  change EStateM.bind step next k = _ ↔ _
  unfold EStateM.bind
  cases step k with
  | ok a k₁ =>
      constructor
      · exact fun h => ⟨a, k₁, rfl, h⟩
      · rintro ⟨_, _, h, hnext⟩
        injection h with ha hk
        subst ha hk
        exact hnext
  | error e k₁ =>
      constructor
      · exact fun h => by contradiction
      · rintro ⟨_, _, h, _⟩
        contradiction

/-- A sequence that faults does so in its first part or behind it. -/
theorem bind_eq_error_iff {step : EStateM ε (Kernel P) α}
    {next : α → EStateM ε (Kernel P) β} {e : ε} :
    (step >>= next) k = .error e k' ↔
      step k = .error e k' ∨ ∃ a k₁, step k = .ok a k₁ ∧ next a k₁ = .error e k' := by
  change EStateM.bind step next k = _ ↔ _
  unfold EStateM.bind
  cases step k with
  | ok a k₁ =>
      constructor
      · exact fun h => .inr ⟨a, k₁, rfl, h⟩
      · rintro (h | ⟨_, _, h, hnext⟩)
        · contradiction
        · injection h with ha hk
          subst ha hk
          exact hnext
  | error stop k₁ =>
      constructor
      · intro h
        injection h with hstop hk
        exact .inl (by rw [hstop, hk])
      · rintro (h | ⟨_, _, h, _⟩)
        · injection h with hstop hk
          rw [hstop, hk]
        · contradiction

/-- The answer of a call is in the registers of the caller, if that is still there. -/
inductive Answered (caller : Pid) (value : Int64) (k : Kernel P) : Kernel P → Prop
  | gone (hgone : k.tasks.table.find? caller = none) : Answered caller value k k
  | saved {slot : Slot} (hfind : k.tasks.table.find? caller = some slot) :
      Answered caller value k
        { k with
          tasks := k.tasks.modify slot fun p => { p with context := p.context.withResult value } }

theorem Answered.tables {pid : Pid} {value : Int64} (hanswered : Answered pid value k k') :
    k'.mutexes = k.mutexes ∧ k'.mailboxes = k.mailboxes ∧ k'.platform = k.platform ∧
      k'.clock = k.clock := by
  cases hanswered <;> exact ⟨rfl, rfl, rfl, rfl⟩

/-- Saving registers rewrites those of the recorded process. -/
theorem Saved.rewrite {pid : Pid} (hsaved : Saved frame k (.ok ()) k') (hk : k.CoherentOn S)
    (hcurrent : k.current = some pid) :
    ∃ p, k.tasks.table.get? pid = some p ∧ Tasks.Rewrite k.tasks k'.tasks pid
      (some { p with context := frame }) k.tasks.queue k.tasks.current := by
  cases hsaved with
  | nobody hnobody =>
      rw [hcurrent] at hnobody
      contradiction
  | saved hrecorded hfind =>
      obtain rfl := Option.some.inj (hcurrent.symm.trans hrecorded)
      exact ⟨_, ProcessTable.get?_of_find? hfind,
        Tasks.rewrite_modify (f := fun p => { p with context := frame }) hk.tasks.table hfind
          (ProcessTable.find?_eq_some hfind).1 rfl⟩

variable [Platform P]

/-- A tick is charged to the recorded process. -/
theorem Ticked.rewrite {pid : Pid} (hticked : Ticked k (.ok ()) k') (hk : k.CoherentOn S)
    (hcurrent : k.current = some pid) :
    ∃ p activeTime cpuTime, k.tasks.table.get? pid = some p ∧
      activeTime.toNat = p.activeTime.toNat + 1 ∧ cpuTime.toNat = p.cpuTime.toNat + 1 ∧
      Tasks.Rewrite k.tasks k'.tasks pid (some { p with activeTime, cpuTime }) k.tasks.queue
        k.tasks.current := by
  cases hticked with
  | nobody _ hnobody =>
      rw [hcurrent] at hnobody
      contradiction
  | charged _ hrecorded hfind hactive hcpu =>
      obtain rfl := Option.some.inj (hcurrent.symm.trans hrecorded)
      exact ⟨_, _, _, ProcessTable.get?_of_find? hfind, Word.toNat_add hactive, Word.toNat_add hcpu,
        Tasks.rewrite_modify (f := fun b => { b with activeTime := _, cpuTime := _ })
          hk.tasks.table hfind (ProcessTable.find?_eq_some hfind).1 rfl⟩

/-- The registers are saved and the trap is served; this is how the handler leaves the
kernel. -/
def enter (frame : Frame) : Step P Unit := do
  saveContext frame
  if frame.vector = timerVector then timerTick
  else if frame.vector = callVector then systemCall
  else breach (.unknownVector frame.vector)

/-- The operator is served and the panel painted. -/
def attend : Step P Unit := do
  serveOperator
  if (← get).console.showStats then paintStats

/-- Saving registers first, a trap is of the timer or of a call. -/
theorem enter_eq_ok (henter : enter frame k = .ok () k') :
    ∃ k₁, saveContext frame k = .ok () k₁ ∧ Entered frame k₁ (.ok ()) k' := by
  obtain ⟨_, k₁, hsave, hserve⟩ := bind_eq_ok_iff.1 henter
  refine ⟨k₁, hsave, ?_⟩
  split at hserve
  · rename_i htimer
    exact .timer htimer ((leads_timerTick k₁).of_ok hserve)
  split at hserve
  · rename_i hcall
    exact .call hcall ((leads_systemCall k₁).of_ok hserve)
  · contradiction

/-- The call of a trap is dispatched as it stands in the frame, and its answer is the one that
is recorded. -/
theorem answered_of_called (hcalled : Called k₁ (.ok ()) k₂)
    (hsave : saveContext frame k = .ok () k₁) (hk : k.Coherent)
    (hvector : frame.vector = callVector) :
    ∃ caller value answered, k.current = some caller ∧ k₁.current = some caller ∧
      answer frame k = some value ∧
      dispatch frame.callNumber frame.arguments k₁ = .ok value answered ∧
      Answered caller value answered k₂ := by
  have hsaved := (leads_saveContext frame k).of_ok hsave
  have hanswer {value : Int64} {answered : Kernel P}
      (hdispatch : dispatch frame.callNumber frame.arguments k₁ = .ok value answered) :
      answer frame k = some value := by
    have hrun : (saveContext frame >>= fun _ => dispatch frame.callNumber frame.arguments) k =
        .ok value answered := bind_eq_ok_iff.2 ⟨(), k₁, hsave, hdispatch⟩
    rw [answer, if_pos hvector, hrun]
  cases hcalled with
  | gone hcurrent hget hdispatch hgone =>
      rw [hsaved.context hk hcurrent hget] at hdispatch
      exact ⟨_, _, _, hsaved.current ▸ hcurrent, hcurrent, hanswer hdispatch, hdispatch,
        .gone hgone⟩
  | answered hcurrent hget hdispatch hfind =>
      rw [hsaved.context hk hcurrent hget] at hdispatch
      exact ⟨_, _, _, hsaved.current ▸ hcurrent, hcurrent, hanswer hdispatch, hdispatch,
        .saved hfind⟩

theorem coherent_enter (henter : enter frame k = .ok () k') (hk : k.CoherentOn S)
    (hengaged : k.tasks.Engaged) : k'.CoherentOn S := by
  obtain ⟨k₁, hsave, hentered⟩ := enter_eq_ok henter
  have hsaved := (leads_saveContext frame k).of_ok hsave
  exact hentered.coherent (hsaved.coherent hk) (hsaved.engaged hengaged)

theorem attend_eq_ok (hattend : attend k = .ok () k') :
    ∃ k₁, Operated k (.ok ()) k₁ ∧ Painted k₁ (.ok ()) k' := by
  obtain ⟨_, k₁, hserve, hpaint⟩ := bind_eq_ok_iff.1 hattend
  refine ⟨k₁, (leads_serveOperator k).of_ok hserve, ?_⟩
  rw [get_bind] at hpaint
  split at hpaint
  · exact (leads_paintStats k₁).of_ok hpaint
  · injection hpaint with _ heq
    exact heq ▸ .painted .refl

theorem coherent_attend (hattend : attend k = .ok () k') (hk : k.CoherentOn S) :
    k'.CoherentOn S := by
  obtain ⟨k₁, hoperated, hpainted⟩ := attend_eq_ok hattend
  exact hpainted.coherent (hoperated.coherent hk)

/-- The pass is carried out and the registers of the process it chose are restored. -/
def leave : Step P Frame := do
  discard schedule
  check (activeContext (← get))

/-- A trap is its stages, one after the other. -/
theorem trap_eq (frame : Frame) :
    (trap frame : Step P Frame) = (do enter frame; attend; leave) := by
  -- whichever way the trap is served, it goes on alike
  have hrest : (do
      serveOperator
      if (← get).console.showStats then paintStats
      discard schedule
      check (activeContext (← get)) : Step P Frame) = (do attend; leave) := by
    unfold attend leave
    rw [bind_assoc]
    congr 1
    funext _
    rw [bind_assoc]
    congr 1
    funext k
    split <;> rfl
  unfold trap enter
  rw [bind_assoc]
  congr 1
  funext _
  split
  · rw [hrest]
  split
  · rw [hrest]
  · rfl

/-- A trap that ends well went through its stages. -/
theorem stages_of_trap (htrap : trap frame k = .ok resumed k') :
    ∃ k₁ k₂ transition, enter frame k = .ok () k₁ ∧ attend k₁ = .ok () k₂ ∧
      schedule k₂ = .ok transition k' ∧ activeContext k' = .ok resumed := by
  rw [trap_eq] at htrap
  obtain ⟨_, k₁, henter, htrap⟩ := bind_eq_ok_iff.1 htrap
  obtain ⟨_, k₂, hattend, hleave⟩ := bind_eq_ok_iff.1 htrap
  unfold leave at hleave
  rw [discard_bind] at hleave
  obtain ⟨transition, k₃, hschedule, hcheck⟩ := bind_eq_ok_iff.1 hleave
  rw [get_bind] at hcheck
  unfold check at hcheck
  split at hcheck
  · rename_i hactive
    injection hcheck with hframe hk
    subst hframe hk
    exact ⟨k₁, k₂, transition, henter, hattend, hschedule, hactive⟩
  · contradiction

end Timeshare.Kernel
