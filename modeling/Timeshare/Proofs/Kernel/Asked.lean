import Timeshare.Proofs.Kernel.Silent
import Timeshare.Proofs.Kernel.Waits

/-!
# What was asked of the mailboxes

In a course at which idle is silent, whoever waits at a mailbox asked it last, and as long as
it lives its message goes to the address it gave then.  Waiting begins with a call that asks,
and until it ends the one who waits makes no other call.
-/

namespace Timeshare.Kernel

variable {P : Type} {S S' : Pid → Prop} {k k' : Kernel P} {m : Moment P}
  {moments past : List (Moment P)} {pid : Pid} {index : MailboxId} {call : Call}
  {arguments : Arguments} {number : UInt64}

/-! ## What was asked -/

/-- The last call that a process made. -/
def lastCall? (moments : List (Moment P)) (pid : Pid) : Option (UInt64 × Arguments) :=
  moments.findSome? fun m => if m.before.current = some pid then m.dispatched? else none

/-- The address at which a process asked a mailbox for a message, if that was its last call. -/
def asked? (moments : List (Moment P)) (index : MailboxId) (pid : Pid) : Option UInt64 :=
  (lastCall? moments pid).bind fun (number, arguments) =>
    if number = Call.receive.number ∧ index.val = arguments.first.toNat then some arguments.second
    else none

theorem asked?_cons_of_ne (hother : m.before.current ≠ some pid) :
    asked? (m :: moments) index pid = asked? moments index pid := by
  rw [asked?, lastCall?, List.findSome?_cons, if_neg hother]
  rfl

theorem asked?_cons_self (hcurrent : m.before.current = some pid)
    (hmade : m.dispatched? = some (Call.receive.number, arguments))
    (hindex : index.val = arguments.first.toNat) :
    asked? (m :: moments) index pid = some arguments.second := by
  rw [asked?, lastCall?, List.findSome?_cons, if_pos hcurrent, hmade]
  exact if_pos ⟨rfl, hindex⟩

/-- Whoever waits at a mailbox asked it last.  If it still lives, its message goes to the
address it gave then. -/
def Expecting (moments : List (Moment P)) (k : Kernel P) : Prop :=
  ∀ index, ∀ pid ∈ k.mailboxes.waitingAt index, ∃ pointer,
    asked? moments index pid = some pointer ∧
      (k.Lives pid → k.tasks.destinationOf pid = some pointer)

/-- What a phase keeps that leaves those who wait alone. -/
theorem Expecting.calm (h : Expecting moments k) (hin : InStep S k)
    (hfewer : ∀ pid, S' pid → S pid) (hcalm : Calm S' k k') : Expecting moments k' := by
  intro index pid hmem
  rw [hcalm.mailboxes] at hmem
  obtain ⟨pointer, hasked, hkept⟩ := h index pid hmem
  refine ⟨pointer, hasked, fun hlives => ?_⟩
  have hwaiter : pid ∈ k.waiters := (k.waitingAt_sublist index).subset hmem
  have hpid := hcalm.inStep.satisfies hlives fun hidle => hin.restless (hidle ▸ hwaiter)
  have hwaiting := (hin.coherent.count_eq_one (hfewer pid hpid) hwaiter).1
  exact (hcalm.waiter pid hpid hwaiting).2.trans (hkept (Tasks.isSome_of_stateOf hwaiting))

/-- Who makes a call does not wait, so it has not asked in vain. -/
theorem Expecting.cons (h : Expecting moments k) (hin : InStep S k)
    (hcurrent : k.current = m.before.current) : Expecting (m :: moments) k := by
  intro index pid hmem
  have hother : m.before.current ≠ some pid := fun hself =>
    hin.not_mem_waiters (hcurrent.trans hself) ((k.waitingAt_sublist index).subset hmem)
  rw [asked?_cons_of_ne hother]
  exact h index pid hmem

/-! ## Who waits is known -/

variable [Platform P]

/-- Only receiving makes anybody wait at a mailbox, and the address is kept. -/
theorem Served.asks {result : Except Stop Int64} (hserved : Served k call arguments result k')
    (htable : k.tasks.table.Sound) (hresult : ∀ fault, result ≠ .error (.fault fault))
    (hmem : pid ∈ k'.mailboxes.waitingAt index) (habsent : pid ∉ k.mailboxes.waitingAt index) :
    call = .receive ∧ index.val = arguments.first.toNat ∧ k.current = some pid ∧
      k'.tasks.destinationOf pid = some arguments.second := by
  cases hserved with
  | fault => exact absurd rfl (hresult _)
  | lost => exact absurd rfl (hresult _)
  | refused | answered | exec | exit | sleep | yield | mutexAlloc | mutexFree | mutexLock
  | mutexUnlock => exact absurd hmem habsent
  | send _ hsend | deliver _ hsend =>
      have hmove := (MailMove.send hsend).of_mem_waitingAt hmem habsent
      exact absurd hmove.1 (by decide)
  | receive hcurrent hreceive =>
      obtain ⟨place, hplace, hothers, hcases⟩ := MailboxTable.receive_cases hreceive
      have hindex : index = place := by
        by_contra hne
        rw [MailboxTable.waitingAt, hothers index hne] at hmem
        exact habsent hmem
      subst hindex
      rcases hcases with ⟨hsame, _⟩ | ⟨_, _, _, hjoined, slot, hfind, hpark⟩
      · exact absurd (hsame ▸ hmem) habsent
      · rw [hjoined] at hmem
        obtain rfl := List.mem_singleton.1 ((List.mem_append.1 hmem).resolve_left habsent)
        have hrewrite := Tasks.rewrite_modify_park htable hfind
          (ProcessTable.find?_eq_some hfind).1 rfl hpark
        refine ⟨rfl, hplace, hcurrent, ?_⟩
        show Tasks.destinationOf _ _ = _
        rw [hrewrite.destinationOf, if_pos rfl]
        rfl

theorem Dispatched.asks {value : Int64} (hdispatched : Dispatched k number arguments (.ok value) k')
    (htable : k.tasks.table.Sound) (hmem : pid ∈ k'.mailboxes.waitingAt index)
    (habsent : pid ∉ k.mailboxes.waitingAt index) :
    number = Call.receive.number ∧ index.val = arguments.first.toNat ∧ k.current = some pid ∧
      k'.tasks.destinationOf pid = some arguments.second := by
  cases hdispatched with
  | value hcall hserved =>
      obtain ⟨rfl, hasks⟩ := hserved.asks htable (fun _ h => by contradiction) hmem habsent
      exact ⟨Call.number_of_ofNumber? hcall, hasks⟩
  | refused hcall hserved =>
      obtain ⟨rfl, hasks⟩ :=
        hserved.asks htable (fun _ h => by injection h; contradiction) hmem habsent
      exact ⟨Call.number_of_ofNumber? hcall, hasks⟩

/-- A call leaves those who wait alone, but for one that it wakes. -/
theorem Dispatched.waiter {value : Int64}
    (hdispatched : Dispatched k number arguments (.ok value) k') (h : InStep S k)
    (h' : InStep S k') (hpid : S pid) (hwaiter : pid ∈ k.waiters) (hstays : pid ∈ k'.waiters) :
    k'.tasks.table.get? pid = k.tasks.table.get? pid := by
  obtain ⟨p, hget, _⟩ := Option.map_eq_some_iff.1 (h.coherent.count_eq_one hpid hwaiter).1
  have hother : k.current ≠ some pid := fun hcurrent => h.not_mem_waiters hcurrent hwaiter
  rcases hdispatched.others h.coherent hother hget with hsame | hroused
  · rw [hsame, hget]
  · have hwaiting := (h'.coherent.count_eq_one hpid hstays).1
    rw [hroused.state] at hwaiting
    contradiction

/-- A call that is made keeps what is known of those who wait, and tells what is asked. -/
theorem Expecting.dispatched {saved answered : Kernel P} {value : Int64}
    (h : Expecting past saved) (hin : InStep S saved) (hin' : InStep S answered)
    (hmade : m.dispatched? = some (number, arguments)) (hcurrent : saved.current = m.before.current)
    (hdispatched : Dispatched saved number arguments (.ok value) answered) :
    Expecting (m :: past) answered := by
  intro index pid hmem
  have hstays : pid ∈ answered.waiters := (answered.waitingAt_sublist index).subset hmem
  by_cases hbefore : pid ∈ saved.mailboxes.waitingAt index
  · obtain ⟨pointer, hasked, hkept⟩ := h.cons hin hcurrent index pid hbefore
    refine ⟨pointer, hasked, fun hlives => ?_⟩
    have hpid := hin'.satisfies hlives fun hidle => hin'.restless (hidle ▸ hstays)
    have hsame := hdispatched.waiter hin hin' hpid
      ((saved.waitingAt_sublist index).subset hbefore) hstays
    rw [Lives, hsame] at hlives
    rw [Tasks.destinationOf, hsame]
    exact hkept hlives
  · obtain ⟨rfl, hindex, hasker, hdestination⟩ :=
      hdispatched.asks hin.coherent.tasks.table hmem hbefore
    exact ⟨arguments.second, asked?_cons_self (hcurrent ▸ hasker) hmade hindex,
      fun _ => hdestination⟩

theorem Expecting.step (h : Expecting past m.before) (hin : InStep S m.before)
    (hdone : m.deed.carryOut m.before = .ok () m.after) (hsilent : Silent [m]) :
    Expecting (m :: past) m.after := by
  rcases hin.calmBut_or_dispatches hdone hsilent with
    ⟨S', hfewer, hcalm⟩ | ⟨number, arguments, saved, answered, hdispatches⟩
  · exact (h.cons hin rfl).calm hin hfewer hcalm
  · obtain ⟨value, hdispatch⟩ := hdispatches.dispatch
    have hsaved := h.calm hin (fun _ hpid => hpid) hdispatches.before
    have hanswered := hsaved.dispatched hdispatches.before.inStep hdispatches.inStep
      hdispatches.made hdispatches.current ((leads_dispatch _ _ _).of_ok hdispatch)
    exact hanswered.calm hdispatches.inStep (fun _ hpid => hpid) hdispatches.after

/-- In whatever course idle is silent, those who wait are known. -/
theorem Course.expecting (hcourse : Course moments k) (hsilent : Silent moments) :
    Expecting moments k := by
  induction hcourse with
  | boot hfresh hboot =>
      -- nobody waits at first
      intro index pid hmem
      have hmailboxes := inner_mailboxes.booted ((leads_boot _ _ _).of_ok hboot _ rfl)
      have hwaiter := MailboxTable.mem_waiters_iff.2 ⟨index, hmem⟩
      rw [hmailboxes, hfresh.tables.2.2, MailboxTable.waiters_empty] at hwaiter
      exact absurd hwaiter List.not_mem_nil
  | step hcourse hdone ih =>
      obtain ⟨hlast, hpast⟩ := hsilent.past
      obtain ⟨S, hin⟩ := hcourse.inStep hpast
      exact Expecting.step (m := ⟨_, _, _⟩) (ih hpast) hin hdone hlast

/-- The kernels that a call is served in: those that a course leads to, and those at which a
trap has saved the registers. -/
inductive Serving (moments : List (Moment P)) : Kernel P → Prop
  | outside {k : Kernel P} (hcourse : Course moments k) : Serving moments k
  | trap {k saved : Kernel P} {frame : Frame} (hcourse : Course moments k)
      (hsave : saveContext frame k = .ok () saved) : Serving moments saved

theorem Serving.inStep (hserving : Serving moments k) (hsilent : Silent moments) :
    Expecting moments k ∧ ∃ S, InStep S k := by
  cases hserving with
  | outside hcourse => exact ⟨hcourse.expecting hsilent, hcourse.inStep hsilent⟩
  | trap hcourse hsave =>
      obtain ⟨S, hin⟩ := hcourse.inStep hsilent
      have hcalm := hin.saved ((leads_saveContext _ _).of_ok hsave)
      exact ⟨(hcourse.expecting hsilent).calm hin (fun _ hpid => hpid) hcalm, S, hcalm.inStep⟩

end Timeshare.Kernel
