import Timeshare.Proofs.Kernel.Replay
import Timeshare.Proofs.Kernel.Stages
import Timeshare.Proofs.Tickets

/-!
# Mutual exclusion

A contended lock answers its caller at once and only the scheduler keeps the
caller from running on, so a process holds a mutex when it has locked it *and* has
the processor again.  The tickets of a mutex carry the argument: who locked last
has a ticket, and who has been active since has the first one.
-/

namespace Timeshare.Kernel

open Machine (Simulated)

variable {P : Type} {k k' : Kernel P} {caller pid : Pid} {id : UInt64} {call : Call}
  {arguments : Arguments} {log : List (Happening P)}

/-- What a call that has returned did to a mutex: it locked it, unlocked it, or did
neither. -/
def carriedOut (call : Call) (arguments : Arguments) (value : Int64) (id : UInt64) : Option Call :=
  if (call = .mutexLock ∨ call = .mutexUnlock) ∧ arguments.first = id ∧ 0 ≤ value then some call
  else none

/-- The lock or unlock of a mutex that a process carried out in what happened. -/
def Happening.mutexCall? (pid : Pid) (id : UInt64) : Happening P → Option Call
  | .trap (some caller) frame (some value) _ =>
      if caller = pid then
        (Call.ofNumber? frame.callNumber).bind fun call =>
          carriedOut call frame.arguments value id
      else none
  | _ => none

/-- Whether a process has the processor after what happened. -/
def Happening.activates (pid : Pid) : Happening P → Prop
  | .trap _ _ _ next => next = some pid
  | _ => False

/-- The latest lock or unlock of a mutex that a process carried out. -/
def latestCall (pid : Pid) (id : UInt64) (log : List (Happening P)) : Option Call :=
  log.findSome? (Happening.mutexCall? pid id)

/-- The process is past a lock of the mutex, which means that it has had the
processor since, and it has not unlocked the mutex. -/
def Inside (pid : Pid) (id : UInt64) : List (Happening P) → Prop
  | [] => False
  | happening :: log =>
      happening.mutexCall? pid id ≠ some .mutexUnlock ∧
        (Inside pid id log ∨
          latestCall pid id (happening :: log) = some .mutexLock ∧ happening.activates pid)

instance (pid : Pid) (happening : Happening P) : Decidable (happening.activates pid) := by
  unfold Happening.activates
  split <;> infer_instance

/-- Whether a process is past a lock can be read off the record. -/
instance decidableInside (pid : Pid) (id : UInt64) :
    (log : List (Happening P)) → Decidable (Inside pid id log)
  | [] => isFalse fun h => h
  | happening :: log =>
      have := decidableInside pid id log
      inferInstanceAs (Decidable (happening.mutexCall? pid id ≠ some .mutexUnlock ∧
        (Inside pid id log ∨
          latestCall pid id (happening :: log) = some .mutexLock ∧ happening.activates pid)))

/-! ## One call -/

/-- How a call moves the tickets of one mutex. -/
inductive TicketMove (caller : Pid) : Option Call → List Pid → List Pid → Prop
  | keep {tickets : List Pid} : TicketMove caller none tickets tickets
  | lock {tickets : List Pid} : TicketMove caller (some .mutexLock) tickets (tickets ++ [caller])
  | unlock {tickets : List Pid} :
      TicketMove caller (some .mutexUnlock) (caller :: tickets) tickets
  /-- Unlocking a mutex that is not locked succeeds. -/
  | unlockFree : TicketMove caller (some .mutexUnlock) [] []

section

variable {done : Option Call} {before after : List Pid}

theorem TicketMove.mem_of_lock (h : TicketMove caller (some .mutexLock) before after) :
    caller ∈ after := by
  cases h with
  | lock => simp

/-- A ticket stays where it was unless its holder hands it in. -/
theorem TicketMove.mem_of_mem (h : TicketMove caller done before after) (hmem : pid ∈ before)
    (hkept : pid = caller → done ≠ some .mutexUnlock) : pid ∈ after := by
  cases h with
  | keep => exact hmem
  | lock => exact List.mem_append_left _ hmem
  | unlock => exact (List.mem_cons.1 hmem).resolve_left fun heq => hkept heq rfl
  | unlockFree => exact absurd hmem List.not_mem_nil

/-- The first ticket stays the first unless its holder hands it in. -/
theorem TicketMove.head?_of_head? (h : TicketMove caller done before after)
    (hhead : before.head? = some pid) (hkept : pid = caller → done ≠ some .mutexUnlock) :
    after.head? = some pid := by
  cases h with
  | keep => exact hhead
  | lock => rw [List.head?_append, hhead]; rfl
  | unlock => exact absurd rfl (hkept (Option.some.inj hhead).symm)
  | unlockFree => contradiction

end

theorem zero_le_ofNat {n : Nat} (hn : n ≤ queueCapacity + 1) : (0 : Int64) ≤ Int64.ofNat n := by
  rw [Int64.le_iff_toInt_le, Int64.toInt_ofNat_of_lt (by simp only [queueCapacity] at hn; omega)]
  simp

theorem carriedOut_of_ne {value : Int64} (hid : id ≠ arguments.first) :
    carriedOut call arguments value id = none := by
  rw [carriedOut, if_neg fun h => hid h.2.1.symm]

/-- Other calls move no ticket. -/
theorem TicketMove.of_other {value : Int64} {tickets : List Pid}
    (hcall : call ≠ .mutexLock ∧ call ≠ .mutexUnlock) :
    TicketMove caller (carriedOut call arguments value id) tickets tickets := by
  rw [carriedOut, if_neg]
  · exact .keep
  · rintro ⟨hlock | hunlock, _⟩
    · exact hcall.1 hlock
    · exact hcall.2 hunlock

theorem carriedOut_of_negative {value : Int64} (hvalue : ¬ 0 ≤ value) :
    carriedOut call arguments value id = none := by
  rw [carriedOut, if_neg fun h => hvalue h.2.2]

/-- An active process with a ticket is not waiting, so its ticket is the first. -/
theorem head?_ticketsAt (hk : k.Coherent) (hidle : pid ≠ .idle)
    (hactive : k.tasks.stateOf pid = some .active) (hmem : pid ∈ k.mutexes.ticketsAt id) :
    (k.mutexes.ticketsAt id).head? = some pid := by
  unfold MutexTable.ticketsAt at hmem ⊢
  cases hget : k.mutexes.get? id with
  | none =>
      rw [hget] at hmem
      exact absurd hmem List.not_mem_nil
  | some mutex =>
      rw [hget] at hmem
      obtain ⟨index, _, hentry⟩ := MutexTable.get?_eq_some_iff.1 hget
      have hzero := hk.count_eq_zero hidle (by rw [hactive]; simp)
      have habsent : pid ∉ mutex.waiting.toList := by
        intro hwaiting
        refine List.count_eq_zero.1 hzero (List.mem_append_left _ ?_)
        exact MutexTable.mem_waiters_iff.2
          ⟨index, by rwa [MutexTable.waitingAt_of_entry hentry]⟩
      have howner : mutex.owner = some pid := by
        rcases List.mem_append.1 hmem with howner | hwaiting
        · simpa using howner
        · exact absurd hwaiting habsent
      exact (hk.mutexes.mutex index mutex hentry).owner.symm.trans howner

theorem latestCall_cons (happening : Happening P) (log : List (Happening P)) :
    latestCall pid id (happening :: log) =
      (happening.mutexCall? pid id).or (latestCall pid id log) := by
  rw [latestCall, latestCall, List.findSome?_cons]
  cases happening.mutexCall? pid id <;> rfl

/-- What the recorded calls say about the tickets. -/
structure Exclusive (log : List (Happening P)) (k : Kernel P) : Prop where
  /-- Only pids that were given out have made calls. -/
  issued : ∀ pid id, latestCall pid id log ≠ none →
    pid.number.toNat < k.tasks.table.nextPid.toNat
  /-- Who lives and locked last has a ticket. -/
  holder : ∀ pid id, latestCall pid id log = some .mutexLock →
    (k.tasks.table.get? pid).isSome → pid ∈ k.mutexes.ticketsAt id
  /-- Who is past the lock has the first ticket. -/
  inside : ∀ pid id, pid ≠ .idle → Inside pid id log →
    (k.mutexes.ticketsAt id).head? = some pid

/-- What one happening does to tickets and processes keeps the record true. -/
theorem Exclusive.step {happening : Happening P} (h : Exclusive log k)
    (hmoves : ∀ id, TicketMove caller (happening.mutexCall? caller id)
      (k.mutexes.ticketsAt id) (k'.mutexes.ticketsAt id))
    (hcaller : ∀ pid id, happening.mutexCall? pid id ≠ none →
      pid = caller ∧ caller.number.toNat < k.tasks.table.nextPid.toNat)
    (hcontinues : k.tasks.Continues k'.tasks) (hk' : k'.Coherent)
    (hactive : ∀ pid, happening.activates pid → k'.tasks.stateOf pid = some .active) :
    Exclusive (happening :: log) k' := by
  -- whoever made a call was live then, so its pid has been given out
  have hissued (pid : Pid) (id : UInt64) (hlatest : latestCall pid id (happening :: log) ≠ none) :
      pid.number.toNat < k.tasks.table.nextPid.toNat := by
    rw [latestCall_cons] at hlatest
    cases hcall : happening.mutexCall? pid id with
    | some call =>
        obtain ⟨rfl, hlt⟩ := hcaller pid id (by rw [hcall]; simp)
        exact hlt
    | none =>
        rw [hcall, Option.none_or] at hlatest
        exact h.issued pid id hlatest
  -- a ticket drawn now is there; one drawn before is, unless its holder handed it in
  have hholder (pid : Pid) (id : UInt64)
      (hlatest : latestCall pid id (happening :: log) = some .mutexLock)
      (hlive : (k'.tasks.table.get? pid).isSome) : pid ∈ k'.mutexes.ticketsAt id := by
    have hbefore := hcontinues.live pid (hissued pid id (by rw [hlatest]; simp)) hlive
    have hmove := hmoves id
    rw [latestCall_cons] at hlatest
    cases hcall : happening.mutexCall? pid id with
    | some call =>
        obtain ⟨rfl, _⟩ := hcaller pid id (by rw [hcall]; simp)
        rw [hcall, Option.some_or] at hlatest
        rw [hcall, hlatest] at hmove
        exact hmove.mem_of_lock
    | none =>
        rw [hcall, Option.none_or] at hlatest
        apply hmove.mem_of_mem (h.holder pid id hlatest hbefore)
        rintro rfl
        rw [hcall]
        simp
  refine ⟨fun pid id hlatest => ?_, hholder, fun pid id hidle hinside => ?_⟩
  · exact Nat.lt_of_lt_of_le (hissued pid id hlatest) hcontinues.nextPid
  obtain ⟨hkept, hinside | ⟨hlatest, hnext⟩⟩ := hinside
  · refine (hmoves id).head?_of_head? (h.inside pid id hidle hinside) ?_
    rintro rfl
    exact hkept
  · -- the process has the processor back, so its ticket has become the first
    have hstate := hactive pid hnext
    obtain ⟨p, hget, _⟩ := Option.map_eq_some_iff.1 hstate
    exact head?_ticketsAt hk' hidle hstate (hholder pid id hlatest (by rw [hget]; rfl))

/-- What happens outside of traps says nothing about mutexes. -/
theorem Exclusive.quiet {happening : Happening P} (h : Exclusive log k)
    (hcalls : ∀ pid id, happening.mutexCall? pid id = none)
    (hactive : ∀ pid, ¬ happening.activates pid) (hmutexes : k'.mutexes = k.mutexes)
    (hcontinues : k.tasks.Continues k'.tasks) (hk' : k'.Coherent) :
    Exclusive (happening :: log) k' := by
  have hmoves (id : UInt64) : TicketMove .idle (happening.mutexCall? .idle id)
      (k.mutexes.ticketsAt id) (k'.mutexes.ticketsAt id) := by
    rw [hcalls, hmutexes]
    exact .keep
  refine h.step hmoves ?_ hcontinues hk' ?_
  · intro pid id hsome
    exact absurd (hcalls pid id) hsome
  · intro pid hactivates
    exact absurd hactivates (hactive pid)

theorem not_zero_le_sentinel (reason : Refusal) : ¬ (0 : Int64) ≤ reason.sentinel := by
  show ¬ (0 : Int64) ≤ -1
  decide

variable [Platform P]

/-- A call moves the tickets of a mutex as its answer says. -/
theorem Served.ticketMove {value : Int64} (hserved : Served k call arguments (.ok value) k')
    (hk : k.Coherent) (hcaller : k.current = some caller) (id : UInt64) :
    TicketMove caller (carriedOut call arguments value id) (k.mutexes.ticketsAt id)
      (k'.mutexes.ticketsAt id) := by
  cases hserved with
  | mutexLock hcurrent hlock =>
      obtain rfl : _ = caller := Option.some.inj (hcurrent.symm.trans hcaller)
      obtain ⟨hbound, htickets, hothers⟩ := MutexTable.ticketsAt_lock hk.mutexes hlock
      by_cases hid : id = arguments.first
      · rw [carriedOut, if_pos ⟨.inl rfl, hid.symm, zero_le_ofNat hbound⟩, hid, htickets]
        exact .lock
      · rw [carriedOut_of_ne hid, hothers id hid]
        exact .keep
  | mutexUnlock hcurrent hunlock =>
      obtain rfl : _ = caller := Option.some.inj (hcurrent.symm.trans hcaller)
      obtain ⟨hbound, htickets, hothers⟩ := MutexTable.ticketsAt_unlock hk.mutexes hunlock
      by_cases hid : id = arguments.first
      · rw [carriedOut, if_pos ⟨.inr rfl, hid.symm, zero_le_ofNat hbound⟩, hid]
        rcases htickets with htickets | ⟨hbefore, hafter⟩
        · rw [htickets]
          exact .unlock
        · rw [hbefore, hafter]
          exact .unlockFree
      · rw [carriedOut_of_ne hid, hothers id hid]
        exact .keep
  | mutexAlloc halloc =>
      rw [MutexTable.ticketsAt_alloc hk.mutexes halloc]
      exact .of_other (by simp)
  | mutexFree hrelease =>
      rw [MutexTable.ticketsAt_release hk.mutexes hrelease]
      exact .of_other (by simp)
  | answered hcall =>
      exact .of_other (by rcases hcall with rfl | rfl | rfl <;> simp)
  | exec => exact .of_other (by simp)
  | exit => exact .of_other (by simp)
  | sleep => exact .of_other (by simp)
  | yield => exact .of_other (by simp)
  | send => exact .of_other (by simp)
  | deliver => exact .of_other (by simp)
  | receive => exact .of_other (by simp)

/-- A refused call moves no ticket. -/
theorem Served.ticketsAt_of_refused {reason : Refusal}
    (hserved : Served k call arguments (.error (.refused reason)) k') (id : UInt64) :
    k'.mutexes.ticketsAt id = k.mutexes.ticketsAt id := by
  cases hserved with
  | refused => rfl
  | send => rfl
  | receive => rfl

theorem Dispatched.ticketMove {number : UInt64} {value : Int64}
    (hdispatched : Dispatched k number arguments (.ok value) k') (hk : k.Coherent)
    (hcaller : k.current = some caller) (id : UInt64) :
    TicketMove caller
      ((Call.ofNumber? number).bind fun call => carriedOut call arguments value id)
      (k.mutexes.ticketsAt id) (k'.mutexes.ticketsAt id) := by
  cases hdispatched with
  | value hcall hserved =>
      rw [hcall]
      exact hserved.ticketMove hk hcaller id
  | refused hcall hserved =>
      have hsame := hserved.ticketsAt_of_refused id
      rw [hcall, Option.bind_some, carriedOut_of_negative (not_zero_le_sentinel _)]
      show TicketMove _ _ _ (MutexTable.ticketsAt _ id)
      rw [hsame]
      exact .keep

/-! ## One trap -/

variable {frame : Frame} {k₁ k₂ : Kernel P}

theorem Entered.ticketMove (hentered : Entered frame k₁ (.ok ()) k₂)
    (hsave : saveContext frame k = .ok () k₁) (hk : k.Coherent) (hcaller : k.current = some caller)
    (next : Option Pid) (id : UInt64) :
    TicketMove caller
      ((Happening.trap (some caller) frame (answer frame k) next : Happening P).mutexCall? caller id)
      (k₁.mutexes.ticketsAt id) (k₂.mutexes.ticketsAt id) := by
  cases hentered with
  | timer hvector hticked =>
      have hanswer : answer frame k = none := by
        rw [answer, hvector]
        rfl
      rw [hanswer, hticked.mutexes]
      exact .keep
  | call hvector hcalled =>
      obtain ⟨other, value, k', hcurrent, hcurrent₁, hanswer, hdispatch, hanswered⟩ :=
        answered_of_called hcalled hsave hk hvector
      obtain rfl : other = caller := Option.some.inj (hcurrent.symm.trans hcaller)
      rw [hanswer, hanswered.tables.1]
      show TicketMove _ (if other = other then _ else _) _ _
      rw [if_pos rfl]
      have hk₁ := ((leads_saveContext frame k).of_ok hsave).coherent hk
      exact ((leads_dispatch _ _ k₁).of_ok hdispatch).ticketMove hk₁ hcurrent₁ id

/-- A trap moves the tickets of a mutex as the recorded answer says. -/
theorem ticketMove_trap {resumed : Frame} (htrap : trap frame k = .ok resumed k')
    (hk : k.Coherent) (hcaller : k.current = some caller) (next : Option Pid) (id : UInt64) :
    TicketMove caller
      ((Happening.trap k.current frame (answer frame k) next : Happening P).mutexCall? caller id)
      (k.mutexes.ticketsAt id) (k'.mutexes.ticketsAt id) := by
  cases (leads_trap frame k).of_ok htrap with
  | left hsave hentered hoperated hpainted hpassed =>
      have hsaved := (leads_saveContext frame k).of_ok hsave
      rw [hpassed.mutexes, hpainted.tables.1, hoperated.mutexes, ← hsaved.mutexes, hcaller]
      exact hentered.ticketMove hsave hk hcaller next id

/-! ## Histories -/

/-- Everything that happens keeps the record of mutexes true. -/
theorem Occurs.exclusive {happening : Happening P} (hoccurs : Occurs happening k k')
    (h : Exclusive log k) (hk : k.Coherent) (hsettled : k.tasks.Settled) :
    Exclusive (happening :: log) k' := by
  have hafter := hoccurs.coherent hk hsettled
  cases hoccurs with
  | trap htrap =>
      obtain ⟨caller, hcurrent, hstate⟩ := id hsettled
      obtain ⟨p, hget, _⟩ := Option.map_eq_some_iff.1 hstate
      have htrapped := (leads_trap _ k).of_ok htrap
      refine h.step (ticketMove_trap htrap hk hcurrent _) ?_
        (htrapped.continues hk hsettled.engaged) hafter.1 fun pid hnext =>
          Settled.active hafter.2 hnext
      intro pid mutex hcall
      -- only the process that was interrupted can have made the call
      refine ⟨?_, hk.tasks.table.lt_nextPid hget⟩
      by_contra hother
      apply hcall
      have hrecorded : k.current = some caller := hcurrent
      rw [hrecorded]
      unfold Happening.mutexCall?
      split
      · rename_i heq
        injection heq with hcaller
        injection hcaller with hcaller
        exact if_neg fun hself => hother (hself.symm.trans hcaller.symm)
      · rfl
  | bind hbind =>
      obtain ⟨console, rfl, _⟩ := exists_console hbind
      exact h.quiet (fun _ _ => rfl) (fun _ => id) rfl (.refl _) hafter.1
  | spawn hspawn =>
      have hspawned := (leads_attempt_spawn _ _ k).of_ok hspawn
      exact h.quiet (fun _ _ => rfl) (fun _ => id) hspawned.mutexes (hspawned.evolvesAt hk).continues
        hafter.1
  | machine => exact h.quiet (fun _ _ => rfl) (fun _ => id) rfl (.refl _) hafter.1

/-- Before boot nobody has made a call. -/
theorem Fresh.latestCall (hfresh : Fresh log k) (pid : Pid) (id : UInt64) :
    latestCall pid id log = none ∧ ¬ Inside pid id log := by
  induction hfresh with
  | new => exact ⟨rfl, fun h => by simp [Inside, Happening.activates] at h⟩
  | bind _ _ ih =>
      refine ⟨(latestCall_cons _ _).trans ih.1, fun h => ?_⟩
      exact h.2.elim ih.2 fun h => h.2
  | machine _ _ ih =>
      refine ⟨(latestCall_cons _ _).trans ih.1, fun h => ?_⟩
      exact h.2.elim ih.2 fun h => h.2

theorem History.exclusive (hhistory : History log k) : Exclusive log k := by
  induction hhistory with
  | boot hfresh =>
      refine ⟨fun pid id hcall => ?_, fun pid id hcall => ?_, fun pid id _ hinside => ?_⟩
      · exact absurd (hfresh.latestCall pid id).1 hcall
      · rw [(hfresh.latestCall pid id).1] at hcall
        contradiction
      · exact absurd hinside (hfresh.latestCall pid id).2
  | step hhistory hoccurs ih =>
      exact hoccurs.exclusive ih hhistory.coherent.1 hhistory.coherent.2

/-- An active process whose latest call on a mutex was a lock owns the mutex, so no
two processes are past a lock of one mutex at once. -/
theorem mutual_exclusion (hhistory : History log k) (id : UInt64) :
    (∀ pid, pid ≠ .idle → k.tasks.stateOf pid = some .active →
      latestCall pid id log = some .mutexLock →
      ∃ mutex, k.mutexes.get? id = some mutex ∧ mutex.owner = some pid) ∧
    ∀ p q, p ≠ .idle → q ≠ .idle → p ≠ q → ¬ (Inside p id log ∧ Inside q id log) := by
  have hexclusive := hhistory.exclusive
  have hcoherent := hhistory.coherent.1
  constructor
  · intro pid hidle hactive hlatest
    obtain ⟨p, hlive, _⟩ := Option.map_eq_some_iff.1 hactive
    have hmem := hexclusive.holder pid id hlatest (by rw [hlive]; rfl)
    have hhead := head?_ticketsAt hcoherent hidle hactive hmem
    cases hget : k.mutexes.get? id with
    | none =>
        rw [MutexTable.ticketsAt, hget] at hhead
        contradiction
    | some mutex => exact ⟨mutex, rfl, (hcoherent.mutexes.owner hget).trans hhead⟩
  · rintro p q hp hq hne ⟨hinsideP, hinsideQ⟩
    have hhead := hexclusive.inside p id hp hinsideP
    rw [hexclusive.inside q id hq hinsideQ] at hhead
    exact hne (Option.some.inj hhead).symm

/-- The first process handed the mutex over and waits for it again: the second
one has it, and a third waits. -/
theorem mutual_exclusion_after_hand_over :
    ∃ r : Recorded Simulated, History r.1 r.2 ∧
      (latestCall ⟨1⟩ 0 r.1 = some .mutexLock ∧ latestCall ⟨2⟩ 0 r.1 = some .mutexLock ∧
        r.2.tasks.stateOf ⟨2⟩ = some .active ∧ r.2.mutexes.ticketsAt 0 = [⟨2⟩, ⟨3⟩, ⟨1⟩] ∧
        Inside ⟨2⟩ 0 r.1) ∧
      (∃ mutex, r.2.mutexes.get? 0 = some mutex ∧ mutex.owner = some ⟨2⟩) ∧
      ¬ (Inside ⟨1⟩ 0 r.1 ∧ Inside ⟨2⟩ 0 r.1) := by
  obtain ⟨r, hhistory, hcheck⟩ := exists_history [callFrame .yield 0 0,
    callFrame .mutexAlloc 0 0, callFrame .mutexLock 0 0, callFrame .yield 0 0,
    callFrame .mutexLock 0 0, callFrame .mutexLock 0 0, callFrame .yield 0 0,
    callFrame .mutexUnlock 0 0, callFrame .mutexLock 0 0, callFrame .yield 0 0]
    (fun r => decide (latestCall ⟨1⟩ 0 r.1 = some .mutexLock ∧
      latestCall ⟨2⟩ 0 r.1 = some .mutexLock ∧ r.2.tasks.stateOf ⟨2⟩ = some .active ∧
      r.2.mutexes.ticketsAt 0 = [⟨2⟩, ⟨3⟩, ⟨1⟩] ∧ Inside ⟨2⟩ 0 r.1)) (by decide +kernel)
  replace hcheck := of_decide_eq_true hcheck
  obtain ⟨howner, hexclusive⟩ := mutual_exclusion hhistory 0
  exact ⟨r, hhistory, hcheck, howner ⟨2⟩ (by decide) hcheck.2.2.1 hcheck.2.1,
    hexclusive ⟨1⟩ ⟨2⟩ (by decide) (by decide) (by decide)⟩

end Timeshare.Kernel
