import Timeshare.Kernel.Trap
import Timeshare.Proofs.Kernel.Served

/-!
# What a trap does

A trap is a sequence of phases: the registers are saved, the timer or a system
call is served, a key is acted on, and a scheduling pass is carried out.  Each
phase has a relation that lists its ends, those that fault included, and a trap
that ends well went through an end of each.
-/

namespace Timeshare.Kernel

open Platform (Reaches)

variable {P : Type} {k k' : Kernel P}

/-! ## Saving registers -/

/-- The ends of saving registers. -/
inductive Saved (frame : Frame) (k : Kernel P) : Except Fault Unit → Kernel P → Prop
  | nobody (hcurrent : k.current = none) : Saved frame k (.ok ()) k
  | saved {pid : Pid} {slot : Slot} (hcurrent : k.current = some pid)
      (hfind : k.tasks.table.find? pid = some slot) :
      Saved frame k (.ok ())
        { k with tasks := k.tasks.modify slot fun p => { p with context := frame } }
  | stranger {pid : Pid} {fault : Fault} {k' : Kernel P} (hcurrent : k.current = some pid)
      (hfind : k.tasks.table.find? pid = none) : Saved frame k (.error fault) k'

theorem expect_eq_error {table : ProcessTable} {pid : Pid} {fault : Fault}
    (hexpect : table.expect pid = .error fault) : table.find? pid = none := by
  unfold ProcessTable.expect at hexpect
  split at hexpect
  · assumption
  · contradiction

theorem leads_saveContext (frame : Frame) (k : Kernel P) :
    Leads (saveContext frame k) (Saved frame k) := by
  unfold saveContext
  rw [get_bind]
  cases hcurrent : k.current with
  | none => exact .nobody hcurrent
  | some pid =>
      dsimp only
      rw [check_bind]
      split
      · rename_i fault hexpect
        exact .stranger hcurrent (expect_eq_error hexpect)
      · rename_i slot hexpect
        exact .saved hcurrent (ProcessTable.expect_eq_ok_iff.1 hexpect)

/-! ## Drawing up the panel -/

/-- The line of a live process. -/
def Panel.processSpan (k : Kernel P) (slot : Slot) (place : Nat) : Span :=
  let p := k.tasks.table.block slot
  ⟨place + 1, 0, styleOf p.state, processLine slot p (p.cpuTime / k.config.ticksPerSecond)⟩

/-- The line of an allocated mutex. -/
def Panel.mutexSpan (entry : MutexId × Mutex) (place : Nat) : Span :=
  ⟨place + 1, mutexColumn, .plain, mutexLine entry.1 entry.2⟩

/-- With ticks in a second there is a panel. -/
theorem Panel.spans_eq (hrate : k.config.ticksPerSecond ≠ 0) :
    spans k = .ok (heads (k.clock.now / k.config.ticksPerSecond)
      ++ (k.tasks.table.live.zipIdx.map fun item => processSpan k item.1 item.2)
      ++ (k.mutexes.allocated.zipIdx.map fun item => mutexSpan item.1 item.2)
      ++ dividers (max k.tasks.table.size k.mutexes.allocated.length + 1)) := by
  have hdiv (a : UInt64) : Word.div a k.config.ticksPerSecond
      = .ok (a / k.config.ticksPerSecond) := if_neg hrate
  have hlines : processes k.tasks.table k.config.ticksPerSecond
      = .ok (k.tasks.table.live.zipIdx.map fun item => processSpan k item.1 item.2) := by
    refine mapM_eq_ok fun item _ => ?_
    dsimp only
    rw [hdiv]
    rfl
  rw [spans, Clock.seconds, hdiv, hlines]
  rfl

/-! ## The timer -/

variable [Platform P]

/-- The ends of serving the timer. -/
inductive Ticked (k : Kernel P) : Except Fault Unit → Kernel P → Prop
  | nobody {clock : Clock} {p : P} (htick : k.clock.tick = .ok clock) (hcurrent : k.current = none)
      (hreach : Reaches k.platform p) : Ticked k (.ok ()) { k with platform := p, clock }
  | charged {clock : Clock} {pid : Pid} {slot : Slot} {activeTime cpuTime : UInt64} {p : P}
      (htick : k.clock.tick = .ok clock) (hcurrent : k.current = some pid)
      (hfind : k.tasks.table.find? pid = some slot)
      (hactive : Word.add (k.tasks.table.block slot).activeTime 1 = .ok activeTime)
      (hcpu : Word.add (k.tasks.table.block slot).cpuTime 1 = .ok cpuTime)
      (hreach : Reaches k.platform p) :
      Ticked k (.ok ())
        { k with
          platform := p, clock
          tasks := k.tasks.modify slot fun b => { b with activeTime, cpuTime } }
  | stranger {pid : Pid} {fault : Fault} {k' : Kernel P} (hcurrent : k.current = some pid)
      (hfind : k.tasks.table.find? pid = none) : Ticked k (.error fault) k'
  | overflow {word : UInt64} {fault : Fault} {k' : Kernel P}
      (hword : word = k.clock.now ∨ ∃ pid slot, k.current = some pid ∧
        k.tasks.table.find? pid = some slot ∧
        (word = (k.tasks.table.block slot).activeTime ∨ word = (k.tasks.table.block slot).cpuTime))
      (hfull : Word.range ≤ word.toNat + 1) : Ticked k (.error fault) k'

theorem range_le_of_add {word : UInt64} {fault : Fault} (hadd : Word.add word 1 = .error fault) :
    Word.range ≤ word.toNat + 1 := by
  unfold Word.add at hadd
  split at hadd
  · contradiction
  · rename_i hfull
    exact Nat.le_of_not_lt hfull

theorem range_le_of_tick {clock : Clock} {fault : Fault} (htick : clock.tick = .error fault) :
    Word.range ≤ clock.now.toNat + 1 := by
  unfold Clock.tick at htick
  cases hadd : Word.add clock.now 1 with
  | error other => exact range_le_of_add hadd
  | ok now =>
      rw [hadd] at htick
      contradiction

/-- The ends of charging the active process. -/
theorem leads_charge {clock : Clock} (pid : Pid) (htick : k.clock.tick = .ok clock)
    (hcurrent : k.current = some pid) :
    Leads ((charge pid >>= fun _ => onPlatform fun p => ((), Platform.acknowledge timerLine p))
      { k with clock }) (Ticked k) := by
  unfold charge
  simp only [bind_assoc]
  rw [get_bind, check_bind]
  split
  · rename_i fault hexpect
    exact .stranger hcurrent (expect_eq_error hexpect)
  rename_i slot hexpect
  replace hexpect := ProcessTable.expect_eq_ok_iff.1 hexpect
  rw [check_bind]
  split
  · rename_i fault hadd
    exact .overflow (.inr ⟨pid, slot, hcurrent, hexpect, .inl rfl⟩) (range_le_of_add hadd)
  rename_i activeTime hactive
  rw [check_bind]
  split
  · rename_i fault hadd
    exact .overflow (.inr ⟨pid, slot, hcurrent, hexpect, .inr rfl⟩) (range_le_of_add hadd)
  rename_i cpuTime hcpu
  exact .charged htick hcurrent hexpect hactive hcpu (.single (.acknowledge _ _))

theorem leads_timerTick (k : Kernel P) : Leads (timerTick k) (Ticked k) := by
  unfold timerTick
  rw [get_bind, check_bind]
  split
  · rename_i fault htick
    exact .overflow (.inl rfl) (range_le_of_tick htick)
  rename_i clock htick
  rw [modify_bind, get_bind]
  cases hcurrent : k.current with
  | none =>
      have hnobody : ({ k with clock } : Kernel P).current = none := hcurrent
      rw [hnobody]
      exact .nobody htick hcurrent (.single (.acknowledge _ _))
  | some pid =>
      have hsomebody : ({ k with clock } : Kernel P).current = some pid := hcurrent
      rw [hsomebody]
      exact leads_charge pid htick hcurrent

/-! ## System calls -/

/-- The ends of a dispatch: a call that exists answers, with a refusal as a
negative value. -/
inductive Dispatched (k : Kernel P) (number : UInt64) (arguments : Arguments) :
    Except Fault Int64 → Kernel P → Prop
  | unknown {fault : Fault} (hcall : Call.ofNumber? number = none) :
      Dispatched k number arguments (.error fault) k
  | fault {call : Call} {fault : Fault} {k' : Kernel P} (hcall : Call.ofNumber? number = some call)
      (hserved : Served k call arguments (.error (.fault fault)) k') :
      Dispatched k number arguments (.error fault) k'
  | value {call : Call} {value : Int64} {k' : Kernel P} (hcall : Call.ofNumber? number = some call)
      (hserved : Served k call arguments (.ok value) k') :
      Dispatched k number arguments (.ok value) k'
  | refused {call : Call} {reason : Refusal} {k' : Kernel P} {p : P}
      (hcall : Call.ofNumber? number = some call)
      (hserved : Served k call arguments (.error (.refused reason)) k')
      (hreach : Reaches k'.platform p) :
      Dispatched k number arguments (.ok reason.sentinel) { k' with platform := p }

theorem leads_dispatch (number : UInt64) (arguments : Arguments) (k : Kernel P) :
    Leads (dispatch number arguments k) (Dispatched k number arguments) := by
  unfold dispatch
  cases hcall : Call.ofNumber? number with
  | none => exact .unknown hcall
  | some call =>
      refine (leads_attempt (leads_serve call arguments k)).bind ?_ ?_
      · rintro (reason | value) k' hserved
        · exact .refused hcall hserved (.single (.log _ _))
        · exact .value hcall hserved
      · intro fault k' hserved
        exact .fault hcall hserved

/-- A call that is answered was served, or it was refused and its failure reported. -/
theorem dispatch_eq_ok {call : Call} {arguments : Arguments} {value : Int64}
    (hdispatch : dispatch call.number arguments k = .ok value k') :
    serve call arguments k = .ok value k' ∨
      ∃ reason k₁, serve call arguments k = .error (.refused reason) k₁ ∧ value = -1 ∧
        k' = { k₁ with platform := Platform.log (.callFailed call reason) k₁.platform } := by
  unfold dispatch at hdispatch
  rw [Call.ofNumber?_number] at hdispatch
  change EStateM.bind (attempt (serve call arguments)) _ k = _ at hdispatch
  unfold EStateM.bind attempt at hdispatch
  cases hserve : serve call arguments k with
  | ok a k₁ =>
      rw [hserve] at hdispatch
      injection hdispatch with hvalue hk
      exact .inl (by rw [hvalue, hk])
  | error stop k₁ =>
      rw [hserve] at hdispatch
      cases stop with
      | fault fault => contradiction
      | refused reason =>
          injection hdispatch with hvalue hk
          exact .inr ⟨reason, k₁, rfl, hvalue.symm, hk.symm⟩

/-- A call that faults does not exist, or serving it faults. -/
theorem dispatch_eq_error {number : UInt64} {arguments : Arguments} {fault : Fault}
    (hdispatch : dispatch number arguments k = .error fault k') :
    Call.ofNumber? number = none ∨ ∃ call, Call.ofNumber? number = some call ∧
      serve call arguments k = .error (.fault fault) k' := by
  unfold dispatch at hdispatch
  cases hcall : Call.ofNumber? number with
  | none => exact .inl rfl
  | some call =>
      rw [hcall] at hdispatch
      change EStateM.bind (attempt (serve call arguments)) _ k = _ at hdispatch
      unfold EStateM.bind attempt at hdispatch
      refine .inr ⟨call, rfl, ?_⟩
      cases hserve : serve call arguments k with
      | ok a k₁ =>
          rw [hserve] at hdispatch
          contradiction
      | error stop k₁ =>
          rw [hserve] at hdispatch
          cases stop with
          | refused reason => contradiction
          | fault other =>
              injection hdispatch with hfault hk
              rw [hfault, hk]

/-- The ends of a system call of the active process. -/
inductive Called (k : Kernel P) : Except Fault Unit → Kernel P → Prop
  | nobody {fault : Fault} {k' : Kernel P} (hcurrent : k.current = none) :
      Called k (.error fault) k'
  | stranger {pid : Pid} {fault : Fault} {k' : Kernel P} (hcurrent : k.current = some pid)
      (hfind : k.tasks.table.find? pid = none) : Called k (.error fault) k'
  | fault {pid : Pid} {p : Process} {fault : Fault} {k' : Kernel P}
      (hcurrent : k.current = some pid) (hget : k.tasks.table.get? pid = some p)
      (hdispatch : dispatch p.context.callNumber p.context.arguments k = .error fault k') :
      Called k (.error fault) k'
  | gone {pid : Pid} {p : Process} {value : Int64} {k' : Kernel P}
      (hcurrent : k.current = some pid) (hget : k.tasks.table.get? pid = some p)
      (hdispatch : dispatch p.context.callNumber p.context.arguments k = .ok value k')
      (hgone : k'.tasks.table.find? pid = none) : Called k (.ok ()) k'
  | answered {pid : Pid} {p : Process} {value : Int64} {slot : Slot} {k' : Kernel P}
      (hcurrent : k.current = some pid) (hget : k.tasks.table.get? pid = some p)
      (hdispatch : dispatch p.context.callNumber p.context.arguments k = .ok value k')
      (hfind : k'.tasks.table.find? pid = some slot) :
      Called k (.ok ())
        { k' with
          tasks := k'.tasks.modify slot fun p => { p with context := p.context.withResult value } }

theorem leads_systemCall (k : Kernel P) : Leads (systemCall k) (Called k) := by
  unfold systemCall
  rw [get_bind]
  cases hcurrent : k.current with
  | none => exact .nobody hcurrent
  | some pid =>
      dsimp only
      rw [check_bind]
      split
      · rename_i fault hexpect
        exact .stranger hcurrent (expect_eq_error hexpect)
      rename_i slot hexpect
      have hget := ProcessTable.get?_of_find? (ProcessTable.expect_eq_ok_iff.1 hexpect)
      refine (Leads.self _ k).bind ?_ ?_
      · intro value k' hdispatch
        rw [get_bind]
        cases hfind : k'.tasks.table.find? pid with
        | none => exact .gone hcurrent hget hdispatch hfind
        | some slot => exact .answered hcurrent hget hdispatch hfind
      · intro fault k' hdispatch
        exact .fault hcurrent hget hdispatch

/-! ## The operator -/

/-- The ends of creating a process whose refusal is a result. -/
inductive Spawned (entry : UInt64) (name : String) (k : Kernel P) :
    Except Fault (Except Refusal Pid) → Kernel P → Prop
  | created {pid : Pid} {tasks : Tasks} {p : P}
      (hcreate : (k.tasks.create entry name k.clock.now).outcome = .ok (pid, tasks))
      (hreach : Reaches k.platform p) :
      Spawned entry name k (.ok (.ok pid)) { k with platform := p, tasks }
  | refused {reason : Refusal} {p : P} (hreach : Reaches k.platform p) :
      Spawned entry name k (.ok (.error reason)) { k with platform := p }
  | fault {fault : Fault} {p : P}
      (hcreate : (k.tasks.create entry name k.clock.now).outcome = .error (.fault fault)) :
      Spawned entry name k (.error fault) { k with platform := p }

theorem leads_attempt_spawn (entry : UInt64) (name : String) (k : Kernel P) :
    Leads (attempt (spawn entry name) k) (Spawned entry name k) := by
  apply (leads_attempt (leads_spawn entry name k)).mono
  rintro (fault | reason | pid) k' ⟨p, hreach, hend⟩
  · obtain ⟨hcreate, rfl⟩ := hend
    exact .fault hcreate
  · obtain ⟨_, rfl⟩ := hend
    exact .refused hreach
  · obtain ⟨tasks, hcreate, rfl⟩ := hend
    exact .created hcreate hreach

/-- The ends of acting on a key. -/
inductive Operated (k : Kernel P) : Except Fault Unit → Kernel P → Prop
  /-- No process is touched; the panel may be shown or hidden. -/
  | quiet {p : P} {showStats : Bool} (hreach : Reaches k.platform p) :
      Operated k (.ok ())
        { k with platform := p, console := { k.console with showStats } }
  | killed {tasks : Tasks} {p : P} (hdestroy : (k.tasks.destroy k.current).outcome = .ok tasks)
      (hreach : Reaches k.platform p) : Operated k (.ok ()) { k with platform := p, tasks }
  | spawned {key : Char} {program : Program} {pid : Pid} {tasks : Tasks} {p : P}
      (hkey : k.console.command? key = some (.spawn program))
      (hcreate : (k.tasks.create program.entry program.name k.clock.now).outcome =
        .ok (pid, tasks))
      (hreach : Reaches k.platform p) : Operated k (.ok ()) { k with platform := p, tasks }
  | killFault {fault : Fault} {k' : Kernel P}
      (hdestroy : (k.tasks.destroy k.current).outcome = .error (.fault fault)) :
      Operated k (.error fault) k'
  | spawnFault {key : Char} {program : Program} {fault : Fault} {p : P}
      (hpoll : (Platform.pollKey k.platform).1 = some key)
      (hkey : k.console.command? key = some (.spawn program))
      (hcreate : (k.tasks.create program.entry program.name k.clock.now).outcome =
        .error (.fault fault)) :
      Operated k (.error fault) { k with platform := p }

/-- A key that was typed may ask for a process that cannot be created any more. -/
theorem leads_obey {key : Char} {command : Command} {p : P} (hreach : Reaches k.platform p)
    (hkey : k.console.command? key = some command) :
    Leads (obey command { k with platform := p }) fun result k' =>
      result = .ok () ∨ (Platform.pollKey k.platform).1 = some key → Operated k result k' := by
  cases command with
  | exitActive =>
      refine (leads_attempt (leads_exit k.current _)).bind ?_ ?_
      · rintro (reason | _) k' ⟨q, hreach', hend⟩
        · obtain ⟨_, rfl⟩ := hend
          exact fun _ => .quiet ((hreach.trans hreach').tail (.log _ _))
        · obtain ⟨tasks, hdestroy, rfl⟩ := hend
          exact fun _ => .killed hdestroy (hreach.trans hreach')
      · rintro fault k' ⟨q, hreach', hend⟩
        exact fun _ => .killFault hend.1
  | toggleStats => exact fun _ => .quiet (hreach.tail (.clearScreen _))
  | halt => exact fun _ => .quiet ((hreach.tail (.log _ _)).tail (.halt _))
  | spawn program =>
      unfold obey
      refine (leads_attempt_spawn program.entry program.name _).bind ?_ ?_
      · rintro result k' hspawned
        cases hspawned with
        | created hcreate hreach' =>
            exact fun _ => .spawned hkey hcreate ((hreach.trans hreach').tail (.log _ _))
        | refused hreach' => exact fun _ => .quiet ((hreach.trans hreach').tail (.log _ _))
      · rintro fault k' hspawned
        cases hspawned with
        | fault hcreate =>
            rintro (hdone | hpoll)
            · contradiction
            · exact .spawnFault hpoll hkey hcreate

theorem leads_handleKey {p : P} (key : Char) (hreach : Reaches k.platform p) :
    Leads (handleKey key { k with platform := p }) fun result k' =>
      result = .ok () ∨ (Platform.pollKey k.platform).1 = some key → Operated k result k' := by
  unfold handleKey
  rw [get_bind]
  cases hcommand : k.console.command? key with
  | none => exact fun _ => .quiet hreach
  | some command => exact leads_obey hreach hcommand

theorem leads_serveOperator (k : Kernel P) : Leads (serveOperator k) (Operated k) := by
  unfold serveOperator
  rw [onPlatform_bind]
  have hreach : Reaches k.platform (Platform.pollKey k.platform).2 := .single (.pollKey _)
  cases hkey : (Platform.pollKey k.platform).1 with
  | none => exact .quiet hreach
  | some key => exact (leads_handleKey key hreach).mono fun _ _ h => h (.inr hkey)

/-! ## The panel -/

/-- The ends of painting the panel. -/
inductive Painted (k : Kernel P) : Except Fault Unit → Kernel P → Prop
  | painted {p : P} (hreach : Reaches k.platform p) : Painted k (.ok ()) { k with platform := p }
  | noTicks {fault : Fault} {k' : Kernel P} (hzero : k.config.ticksPerSecond = 0) :
      Painted k (.error fault) k'
  | display {row column : Nat} {style : Style} {text : String} {p : P} {fault : Fault}
      {k' : Kernel P} (hpaint : (Platform.paint row column style text p).1 = .error fault) :
      Painted k (.error fault) k'

theorem leads_paintAll (spans : List Span) {p : P} (hreach : Reaches k.platform p) :
    Leads (paintAll spans { k with platform := p }) (Painted k) := by
  induction spans generalizing p with
  | nil => exact .painted hreach
  | cons span rest ih =>
      unfold paintAll paintSpan
      rw [bind_assoc, onPlatform_bind, check_bind]
      split
      · rename_i fault hpaint
        exact .display hpaint
      · exact ih (hreach.tail (.paint _ _ _ _ p))

theorem leads_paintStats (k : Kernel P) : Leads (paintStats k) (Painted k) := by
  unfold paintStats
  rw [get_bind, check_bind]
  split
  · rename_i fault hspans
    refine .noTicks (Classical.not_not.1 fun hticks => ?_)
    rw [Panel.spans_eq hticks] at hspans
    contradiction
  · exact leads_paintAll _ .refl

/-! ## The pass -/

/-- The ends of a scheduling pass. -/
inductive Passed (k : Kernel P) : Except Fault Transition → Kernel P → Prop
  | passed {transition : Transition} {tasks : Tasks} {p : P}
      (hpass : (k.tasks.reschedule k.clock.now k.config.timeSlice).outcome =
        .ok (transition, tasks))
      (hreach : Reaches k.platform p) :
      Passed k (.ok transition) { k with platform := p, tasks }
  | fault {fault : Fault} {k' : Kernel P}
      (hpass : (k.tasks.reschedule k.clock.now k.config.timeSlice).outcome = .error fault) :
      Passed k (.error fault) k'

theorem leads_schedule (k : Kernel P) : Leads (schedule k) (Passed k) := by
  unfold schedule
  rw [get_bind]
  refine (leads_perform _ k).bind ?_ ?_
  · rintro ⟨transition, tasks⟩ k' ⟨hpass, p, hreach, rfl⟩
    exact .passed hpass.symm hreach
  · rintro fault k' ⟨hpass, _⟩
    exact .fault hpass.symm

/-! ## Traps -/

/-- The ends of serving what a trap was for. -/
inductive Entered (frame : Frame) (k : Kernel P) : Except Fault Unit → Kernel P → Prop
  | timer {result : Except Fault Unit} {k' : Kernel P} (hvector : frame.vector = timerVector)
      (hticked : Ticked k result k') : Entered frame k result k'
  | call {result : Except Fault Unit} {k' : Kernel P} (hvector : frame.vector = callVector)
      (hcalled : Called k result k') : Entered frame k result k'
  | unknown {fault : Fault} (htimer : frame.vector ≠ timerVector)
      (hcall : frame.vector ≠ callVector) : Entered frame k (.error fault) k

/-- The ends of a trap, each behind the phases before it. -/
inductive Trapped (frame : Frame) (k : Kernel P) : Except Fault Frame → Kernel P → Prop
  | saveFault {fault : Fault} {k' : Kernel P} (hsaved : Saved frame k (.error fault) k') :
      Trapped frame k (.error fault) k'
  | enterFault {k₁ : Kernel P} {fault : Fault} {k' : Kernel P} (hsaved : saveContext frame k = .ok () k₁)
      (hentered : Entered frame k₁ (.error fault) k') : Trapped frame k (.error fault) k'
  | operateFault {k₁ k₂ : Kernel P} {fault : Fault} {k' : Kernel P}
      (hsaved : saveContext frame k = .ok () k₁) (hentered : Entered frame k₁ (.ok ()) k₂)
      (hoperated : Operated k₂ (.error fault) k') : Trapped frame k (.error fault) k'
  | paintFault {k₁ k₂ k₃ : Kernel P} {fault : Fault} {k' : Kernel P}
      (hsaved : saveContext frame k = .ok () k₁) (hentered : Entered frame k₁ (.ok ()) k₂)
      (hoperated : Operated k₂ (.ok ()) k₃) (hpainted : Painted k₃ (.error fault) k') :
      Trapped frame k (.error fault) k'
  | passFault {k₁ k₂ k₃ k₄ : Kernel P} {fault : Fault} {k' : Kernel P}
      (hsaved : saveContext frame k = .ok () k₁) (hentered : Entered frame k₁ (.ok ()) k₂)
      (hoperated : Operated k₂ (.ok ()) k₃) (hpainted : Painted k₃ (.ok ()) k₄)
      (hpassed : Passed k₄ (.error fault) k') : Trapped frame k (.error fault) k'
  | left {k₁ k₂ k₃ k₄ : Kernel P} {transition : Transition} {result : Except Fault Frame}
      {k' : Kernel P} (hsaved : saveContext frame k = .ok () k₁)
      (hentered : Entered frame k₁ (.ok ()) k₂) (hoperated : Operated k₂ (.ok ()) k₃)
      (hpainted : Painted k₃ (.ok ()) k₄) (hpassed : Passed k₄ (.ok transition) k')
      (hresult : activeContext k' = result) : Trapped frame k result k'

variable {frame : Frame} {k₁ k₂ k₃ k₄ : Kernel P}

theorem leads_pass (hsaved : saveContext frame k = .ok () k₁) (hentered : Entered frame k₁ (.ok ()) k₂)
    (hoperated : Operated k₂ (.ok ()) k₃) (hpainted : Painted k₃ (.ok ()) k₄) :
    Leads ((do
      discard schedule
      check (activeContext (← get)) : Step P Frame) k₄) (Trapped frame k) := by
  rw [discard_bind]
  refine (leads_schedule k₄).bind ?_ ?_
  · intro transition k' hpassed
    rw [get_bind]
    exact leads_check (.left hsaved hentered hoperated hpainted hpassed rfl)
  · intro fault k' hpassed
    exact .passFault hsaved hentered hoperated hpainted hpassed

theorem leads_rest (hsaved : saveContext frame k = .ok () k₁)
    (hentered : Entered frame k₁ (.ok ()) k₂) :
    Leads ((do
      serveOperator
      if (← get).console.showStats then paintStats
      discard schedule
      check (activeContext (← get)) : Step P Frame) k₂) (Trapped frame k) := by
  refine (leads_serveOperator k₂).bind ?_ fun _ _ => .operateFault hsaved hentered
  intro _ k₃ hoperated
  rw [get_bind]
  cases k₃.console.showStats with
  | false => exact leads_pass hsaved hentered hoperated (.painted .refl)
  | true =>
      refine (leads_paintStats k₃).bind ?_ fun _ _ => .paintFault hsaved hentered hoperated
      intro _ k₄ hpainted
      exact leads_pass hsaved hentered hoperated hpainted

/-- Every trap ends in one of the ways listed. -/
theorem leads_trap (frame : Frame) (k : Kernel P) : Leads (trap frame k) (Trapped frame k) := by
  unfold trap
  refine (Leads.self (saveContext frame) k).bind ?_ fun _ _ h =>
    .saveFault ((leads_saveContext frame k).of_error h)
  intro _ k₁ hsaved
  by_cases htimer : frame.vector = timerVector
  · rw [if_pos htimer]
    refine (leads_timerTick k₁).bind ?_ fun _ _ h => .enterFault hsaved (.timer htimer h)
    intro _ k₂ hticked
    exact leads_rest hsaved (.timer htimer hticked)
  rw [if_neg htimer]
  by_cases hcall : frame.vector = callVector
  · rw [if_pos hcall]
    refine (leads_systemCall k₁).bind ?_ fun _ _ h => .enterFault hsaved (.call hcall h)
    intro _ k₂ hcalled
    exact leads_rest hsaved (.call hcall hcalled)
  · rw [if_neg hcall]
    exact .enterFault hsaved (.unknown htimer hcall)

end Timeshare.Kernel
