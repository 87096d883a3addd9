import Timeshare.Proofs.Kernel.Calls
import Timeshare.Proofs.Kernel.Transfer

/-!
# Refused calls change nothing

Every handler looks for what may be refused before it changes anything.  The exceptions
are buffers that can be read and must not be written; where there are none, a call that
answers -1 has only reported its failure, in every kernel that deeds of any kind lead to.
A call that is served answers -1 for a time only, since locks are not counted that far;
reading the time changes nothing either.
-/

namespace Timeshare

/-- Small numbers are not negative. -/
theorem Word.ofNat_ne_neg_one {n : Nat} (hn : n < 2 ^ 63) : Int64.ofNat n ≠ -1 := by
  intro heq
  have hvalue := congrArg Int64.toInt heq
  rw [Int64.toInt_ofNat_of_lt hn, show (-1 : Int64).toInt = -1 from rfl] at hvalue
  omega

theorem Pid.result_nonneg (pid : Pid) : 0 ≤ pid.number.toUInt64.toInt64 := by
  have hsmall : pid.number.toNat < 2 ^ 63 := Nat.lt_trans pid.number.toNat_lt (by decide)
  rw [← UInt64.ofNat_toNat (x := pid.number.toUInt64), UInt64.toInt64_ofNat',
    UInt32.toNat_toUInt64, Int64.le_iff_toInt_le, Int64.toInt_ofNat_of_lt hsmall]
  exact Int.natCast_nonneg _

theorem Pid.result_ne_neg_one (pid : Pid) : pid.number.toUInt64.toInt64 ≠ -1 := by
  intro heq
  have hnonneg := pid.result_nonneg
  rw [heq] at hnonneg
  exact absurd hnonneg (by decide)

namespace Kernel

open Machine (Memory Simulated)

/-! ## Mutexes stay sound -/

section Sound

variable {P : Type} [Platform P] {k k' : Kernel P}

theorem Served.sound_mutexes {call : Call} {arguments : Arguments} {result : Except Stop Int64}
    (hserved : Served k call arguments result k') (hk : k.mutexes.Sound)
    (hresult : ∀ fault, result ≠ .error (.fault fault)) : k'.mutexes.Sound := by
  cases hserved with
  | fault => exact absurd rfl (hresult _)
  | lost => exact absurd rfl (hresult _)
  | mutexAlloc halloc => exact (MutexTable.replace_alloc hk halloc).2.sound
  | mutexFree hrelease =>
      obtain ⟨_, _, _, _, hreplace⟩ := MutexTable.replace_release hk hrelease
      exact hreplace.sound
  | mutexLock _ hlock =>
      obtain ⟨_, _, _, _, _, hreplace, _⟩ := MutexTable.replace_lock hk hlock
      exact hreplace.sound
  | mutexUnlock _ hunlock =>
      obtain ⟨_, _, _, _, hcases⟩ := MutexTable.replace_unlock hk hunlock
      rcases hcases with ⟨_, rfl, _⟩ | ⟨_, hreplace, _⟩
      · exact hk
      · exact hreplace.sound
  | refused | answered | exec | exit | sleep | yield | send | deliver | receive => exact hk

theorem Dispatched.sound_mutexes {number : UInt64} {arguments : Arguments} {value : Int64}
    (hdispatched : Dispatched k number arguments (.ok value) k') (hk : k.mutexes.Sound) :
    k'.mutexes.Sound := by
  cases hdispatched with
  | value _ hserved => exact hserved.sound_mutexes hk fun _ h => by contradiction
  | refused _ hserved =>
      exact hserved.sound_mutexes hk fun _ h => by injection h; contradiction

theorem Called.sound_mutexes (hcalled : Called k (.ok ()) k') (hk : k.mutexes.Sound) :
    k'.mutexes.Sound := by
  cases hcalled with
  | gone _ _ hdispatch => exact ((leads_dispatch _ _ k).of_ok hdispatch).sound_mutexes hk
  | answered _ _ hdispatch => exact ((leads_dispatch _ _ k).of_ok hdispatch).sound_mutexes hk

theorem sound_mutexes_of_trap {frame resumed : Frame} (htrap : trap frame k = .ok resumed k')
    (hk : k.mutexes.Sound) : k'.mutexes.Sound := by
  obtain ⟨k₁, k₂, transition, henter, hattend, hschedule, _⟩ := stages_of_trap htrap
  obtain ⟨k₀, hsave, hentered⟩ := enter_eq_ok henter
  have hsaved : k₀.mutexes = k.mutexes := (apart_mutexes.saveContext frame k).of_ok hsave
  have hlater : k'.mutexes = k₁.mutexes :=
    ((apart_mutexes.schedule k₂).of_ok hschedule).trans ((apart_mutexes.attend k₁).of_ok hattend)
  rw [← hsaved] at hk
  rw [hlater]
  cases hentered with
  | timer _ hticked => cases hticked <;> exact hk
  | call _ hcalled => exact hcalled.sound_mutexes hk

/-- Whatever is done to a kernel, its mutexes stay sound. -/
theorem Deed.sound_mutexes {deed : Deed P} (hdone : deed.carryOut k = .ok () k')
    (hk : k.mutexes.Sound) : k'.mutexes.Sound := by
  -- all but traps and calls leave the mutexes alone
  have hkept {step : Step P Unit} (hkeeps : Keeps Kernel.mutexes step)
      (hstep : step k = .ok () k') : k'.mutexes.Sound := by
    have heq : k'.mutexes = k.mutexes := (hkeeps k).of_ok hstep
    rwa [heq]
  unfold carryOut at hdone
  cases deed with
  | trap frame =>
      obtain ⟨resumed, htrap⟩ := exists_of_discard hdone
      exact sound_mutexes_of_trap htrap hk
  | call number arguments =>
      obtain ⟨value, hdispatch⟩ := exists_of_discard hdone
      exact ((leads_dispatch _ _ k).of_ok hdispatch).sound_mutexes hk
  | systemCall => exact ((leads_systemCall k).of_ok hdone).sound_mutexes hk
  | bind key program =>
      obtain ⟨bound, hbind⟩ := exists_of_discard hdone
      obtain ⟨console, rfl, _⟩ := exists_console hbind
      exact hk
  | spawn entry name => exact hkept (apart_mutexes.spawn entry name).attempt.discard hdone
  | machine m => exact hkept (.of_onPlatform fun _ => rfl) hdone
  | exit pid => exact hkept (apart_mutexes.exit pid).attempt.discard hdone
  | schedule => exact hkept apart_mutexes.schedule.discard hdone
  | tick => exact hkept apart_mutexes.timerTick hdone
  | press key => exact hkept (apart_mutexes.handleKey key) hdone
  | paint => exact hkept apart_mutexes.paintStats hdone

theorem Course.sound_mutexes {moments : List (Moment P)} (hcourse : Course moments k) :
    k.mutexes.Sound := by
  induction hcourse with
  | boot hfresh hboot => exact (History.boot hfresh hboot).coherent.1.mutexes
  | step _ hdone ih => exact Deed.sound_mutexes hdone ih

end Sound

/-! ## The handlers -/

variable {k k' : Kernel Simulated} {α : Type}

/-- Every buffer that can be read can be written as well. -/
def Writable (k : Kernel Simulated) : Prop :=
  ∀ address size, ¬ k.platform.memory.ReadOnly address size

theorem writable_of_guarded (hguarded : k.platform.memory.guarded = []) : k.Writable := by
  intro address size hreadOnly
  have hforbids := hreadOnly.2
  rw [Memory.forbids, hguarded] at hforbids
  contradiction

/-- A call that is refused has only reported, and so has one that is served and answers
like one that is refused. -/
def Undone (k : Kernel Simulated) (result : Except Stop Int64) (k' : Kernel Simulated) : Prop :=
  match result with
  | .ok value => value = -1 → OnlyReported k k'
  | .error (.refused _) => OnlyReported k k'
  | .error (.fault _) => True

/-- A handler that carries out an operation on tables and answers it. -/
theorem leads_perform_undone {r : Run Stop α} {next : α → Handler Simulated Int64}
    (hnext : ∀ a, r.outcome = .ok a → ∀ k₁, ∃ value k', next a k₁ = .ok value k' ∧ value ≠ -1) :
    Leads ((perform r >>= next) k) (Undone k) := by
  refine (onlyReported_perform r k).bind ?_ ?_
  · rintro a k₁ ⟨houtcome, _⟩
    obtain ⟨value, k', hanswer, hvalue⟩ := hnext a houtcome.symm k₁
    rw [hanswer]
    exact fun hminus => absurd hminus hvalue
  · rintro (reason | fault) k₁ ⟨_, hreported⟩
    · exact hreported
    · trivial

theorem undone_getTime (k : Kernel Simulated) : Leads (getTime k) (Undone k) := by
  unfold getTime
  rw [get_bind, orFault_check_bind]
  split
  · trivial
  · exact fun _ => .refl k

theorem undone_getPid (k : Kernel Simulated) : Leads (getPid k) (Undone k) := by
  unfold getPid
  rw [caller_bind]
  split
  · exact .refl k
  · exact fun _ => .refl k

/-- A write that fails leaves the machine as it was. -/
theorem eq_of_write_error {m after : Simulated} {address : UInt64} {data : List UInt8}
    {fault : MemoryFault} (hwrite : Platform.writeMemory address data m = (.error fault, after)) :
    after = m := by
  rw [writeMemory_eq] at hwrite
  injection hwrite with hresult hafter
  rw [Memory.write_of_error hresult] at hafter
  exact hafter.symm

theorem undone_getName (buffer : UInt64) (k : Kernel Simulated) :
    Leads (getName buffer k) (Undone k) := by
  unfold getName
  rw [caller_bind]
  split
  · exact .refl k
  rw [requirePointer_bind]
  split
  · exact .refl k
  rw [placeOf_bind]
  split
  · trivial
  rw [get_bind, write_bind]
  split
  · rename_i fault after hwrite
    rw [eq_of_write_error hwrite]
    exact .refl k
  · exact fun h => absurd h (by decide)

theorem undone_sleep (seconds : UInt64) (k : Kernel Simulated) :
    Leads (sleep seconds k) (Undone k) := by
  unfold sleep
  rw [caller_bind]
  split
  · exact .refl k
  rw [get_bind, placeOf_bind]
  split
  · trivial
  · exact fun h => absurd h (by decide)

theorem undone_yield (k : Kernel Simulated) : Leads (yield k) (Undone k) := by
  unfold yield
  rw [caller_bind]
  split
  · exact .refl k
  rw [placeOf_bind]
  split
  · trivial
  rw [get_bind, orFault_check_bind]
  split
  · trivial
  · exact fun h => absurd h (by decide)

theorem undone_exec (namePointer entry : UInt64) (k : Kernel Simulated) :
    Leads (exec namePointer entry k) (Undone k) := by
  unfold exec
  split
  · exact .refl k
  refine (leads_readText namePointer 0 nameCapacity k).bind ?_ ?_
  · rintro bytes k₁ ⟨rfl, _⟩
    unfold spawn
    simp only [bind_assoc]
    rw [get_bind]
    exact leads_perform_undone fun ⟨pid, tasks⟩ _ k₂ => ⟨_, _, rfl, pid.result_ne_neg_one⟩
  · rintro (reason | fault) k₁ ⟨rfl, _⟩
    · exact .refl k₁
    · trivial

theorem undone_exitCaller (k : Kernel Simulated) : Leads (exitCaller k) (Undone k) := by
  unfold exitCaller exit
  simp only [bind_assoc]
  rw [get_bind, get_bind]
  exact leads_perform_undone fun _ _ _ => ⟨_, _, rfl, by decide⟩

theorem undone_mutexAlloc (k : Kernel Simulated) : Leads (mutexAlloc k) (Undone k) := by
  unfold mutexAlloc
  rw [get_bind]
  refine leads_perform_undone fun ⟨id, _⟩ _ _ => ⟨_, _, rfl, Word.ofNat_ne_neg_one ?_⟩
  exact Nat.lt_trans id.isLt (by decide)

theorem undone_mutexFree (id : UInt64) (k : Kernel Simulated) :
    Leads (mutexFree id k) (Undone k) := by
  unfold mutexFree
  rw [get_bind]
  exact leads_perform_undone fun _ _ _ => ⟨_, _, rfl, by decide⟩

/-- The answer is the lock count, which the size of the wait queue bounds. -/
theorem undone_mutexLock (id : UInt64) (hk : k.mutexes.Sound) :
    Leads (mutexLock id k) (Undone k) := by
  unfold mutexLock
  rw [caller_bind]
  split
  · exact .refl k
  rw [get_bind]
  refine leads_perform_undone fun ⟨previous, _, _⟩ hlock _ =>
    ⟨_, _, rfl, Word.ofNat_ne_neg_one ?_⟩
  obtain ⟨index, mutex, _, hfind, rfl, _⟩ := MutexTable.replace_lock hk hlock
  have hentry := (MutexTable.find?_eq_some_iff.1 hfind).2
  exact Nat.lt_of_le_of_lt (hk.mutex index mutex hentry).lockCount_le (by decide)

theorem undone_mutexUnlock (id : UInt64) (hk : k.mutexes.Sound) :
    Leads (mutexUnlock id k) (Undone k) := by
  unfold mutexUnlock
  rw [caller_bind]
  split
  · exact .refl k
  rw [get_bind]
  refine leads_perform_undone fun ⟨lockCount, _, _⟩ hunlock _ =>
    ⟨_, _, rfl, Word.ofNat_ne_neg_one ?_⟩
  obtain ⟨_, _, _, hcount, _⟩ := MutexTable.replace_unlock hk hunlock
  exact Nat.lt_of_le_of_lt hcount (by decide)

/-- Sending and receiving are turned down late for a guard only. -/
theorem TurnedDown.onlyReported {mailbox pointer : UInt64} {serves : Mailbox → Prop}
    (hturned : TurnedDown k mailbox pointer serves k') (hwritable : k.Writable) :
    OnlyReported k k' :=
  hturned.onlyReported_iff.2 fun hguard => hwritable pointer wireSize hguard.2.1

theorem undone_send (mailbox pointer : UInt64) (hwritable : k.Writable) :
    Leads (send mailbox pointer k) (Undone k) := by
  refine (leads_send_turnedDown mailbox pointer k).mono ?_
  rintro ((reason | fault) | value) k' hend
  · exact hend.onlyReported hwritable
  · trivial
  · exact fun h => absurd (hend.symm.trans h) (by decide)

theorem undone_receive (mailbox pointer : UInt64) (hwritable : k.Writable) :
    Leads (receive mailbox pointer k) (Undone k) := by
  refine (leads_receive_turnedDown mailbox pointer k).mono ?_
  rintro ((reason | fault) | value) k' hend
  · exact hend.1.onlyReported hwritable
  · trivial
  · exact fun h => absurd (hend.1.symm.trans h) (by decide)

theorem undone_serve (call : Call) (arguments : Arguments) (hk : k.mutexes.Sound)
    (hwritable : k.Writable) : Leads (serve call arguments k) (Undone k) := by
  cases call with
  | getTime => exact undone_getTime k
  | exec => exact undone_exec _ _ k
  | exit => exact undone_exitCaller k
  | getName => exact undone_getName _ k
  | getPid => exact undone_getPid k
  | sleep => exact undone_sleep _ k
  | yield => exact undone_yield k
  | mutexAlloc => exact undone_mutexAlloc k
  | mutexFree => exact undone_mutexFree _ k
  | mutexLock => exact undone_mutexLock _ hk
  | mutexUnlock => exact undone_mutexUnlock _ hk
  | send => exact undone_send _ _ hwritable
  | receive => exact undone_receive _ _ hwritable

/-- A call that answers -1 has changed nothing but the journal. -/
theorem refused_call_undone {moments : List (Moment Simulated)} {number : UInt64}
    {arguments : Arguments} (hcourse : Course moments k) (hwritable : k.Writable)
    (hdispatch : dispatch number arguments k = .ok (-1) k') : OnlyReported k k' := by
  cases hcall : Call.ofNumber? number with
  | none =>
      unfold dispatch at hdispatch
      rw [hcall] at hdispatch
      contradiction
  | some call =>
      rw [Call.number_of_ofNumber? hcall] at hdispatch
      have hundone := undone_serve call arguments hcourse.sound_mutexes hwritable
      rcases dispatch_eq_ok hdispatch with hserve | ⟨reason, k₁, hserve, _, rfl⟩
      · exact hundone.of_ok hserve rfl
      · have hreported : OnlyReported k k₁ := hundone.of_error hserve
        exact hreported.trans (.log _ k₁)

/-- A message would reach over the end of memory; the receiver that waits for one is left
waiting. -/
theorem refused_call_undone_beside_receiver :
    ∃ (moments : List (Moment Simulated)) (k k' : Kernel Simulated),
      Course moments k ∧ k.Writable ∧ k.mailboxes.waitingAt 2 = [⟨1⟩] ∧
      dispatch Call.send.number ⟨2, 0x1F00, 0⟩ k = .ok (-1) k' ∧ OnlyReported k k' := by
  obtain ⟨moments, k, hcourse, hcheck⟩ := exists_course
    [.trap (callFrame .yield 0 0), .trap (callFrame .receive 2 0x1000)]
    (fun _ k => decide (k.platform.memory.guarded = [] ∧ k.mailboxes.waitingAt 2 = [⟨1⟩]) &&
      answers .send ⟨2, 0x1F00, 0⟩ (fun _ value _ => decide (value = -1)) k) (by decide +kernel)
  obtain ⟨hstate, hanswers⟩ := (Bool.and_eq_true ..).mp hcheck
  obtain ⟨hguarded, hwaiting⟩ := of_decide_eq_true hstate
  obtain ⟨value, k', hdispatch, hvalue⟩ := exists_of_answers hanswers
  obtain rfl : value = -1 := of_decide_eq_true hvalue
  have hwritable := writable_of_guarded hguarded
  exact ⟨moments, k, k', hcourse, hwritable, hwaiting, hdispatch,
    refused_call_undone hcourse hwritable hdispatch⟩

end Kernel

end Timeshare
