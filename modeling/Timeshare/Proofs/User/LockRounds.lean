import Timeshare.Proofs.User.Recording

/-!
# How the mutex program uses its mutex

The program takes its mutex a number of times.  Each time it holds it for as long, asleep or
reading the clock over and over, and gives it back.  It returns as soon as it is refused, so
its calls on the mutex are locks and unlocks in turn, all but the last of which succeed.
-/

namespace Timeshare.User

variable {G ε : Type}

/-! ## Waiting -/

/-- Readings of the clock up to the first that has reached the deadline. -/
inductive Spins (deadline : Nat) : List Exchange → Prop
  | reached {now : Int64} (hnow : deadline ≤ now.toNatClampNeg) : Spins deadline [⟨.getTime, now⟩]
  | early {now : Int64} {log : List Exchange} (hnow : now.toNatClampNeg < deadline)
      (hrest : Spins deadline log) : Spins deadline (⟨.getTime, now⟩ :: log)

/-- What is asked while a mutex is held.  The clock is read; on an even second the program sleeps,
and on an odd one it reads the clock again and then until it has got so many seconds on. -/
inductive Pause (hold : UInt64) : List Exchange → Prop
  | asleep {now slept : Int64} (heven : now.toNatClampNeg % 2 = 0) :
      Pause hold [⟨.getTime, now⟩, ⟨.sleep hold, slept⟩]
  | spun {now start : Int64} {log : List Exchange} (hodd : now.toNatClampNeg % 2 = 1)
      (hspins : Spins (start.toNatClampNeg + hold.toNat) log) :
      Pause hold (⟨.getTime, now⟩ :: ⟨.getTime, start⟩ :: log)

/-- The runs that return have asked this. -/
def Returned (Q : List Exchange → Prop) : Outcome G ε Unit → List Exchange → Prop
  | .ok _ _, log => Q log
  | .error _ _, _ => True

theorem Returned.imp {Q Q' : List Exchange → Prop} {outcome : Outcome G ε Unit}
    {log log' : List Exchange} (h : Returned Q outcome log) (hQ : Q log → Q' log') :
    Returned Q' outcome log' := by
  cases outcome with
  | ok a world => exact hQ h
  | error ending world => trivial

/-! ## Rounds -/

/-- What is asked in at most so many rounds. -/
inductive Rounds (mutex hold : UInt64) : Nat → List Exchange → Prop
  | done : Rounds mutex hold 0 []
  | refused {count : Nat} {locked : Int64} (hlocked : locked < 0) :
      Rounds mutex hold (count + 1) [⟨.mutexLock mutex, locked⟩]
  | kept {count : Nat} {locked unlocked : Int64} {between : List Exchange}
      (hlocked : 0 ≤ locked) (hpause : Pause hold between) (hunlocked : unlocked < 0) :
      Rounds mutex hold (count + 1)
        (⟨.mutexLock mutex, locked⟩ :: (between ++ [⟨.mutexUnlock mutex, unlocked⟩]))
  | round {count : Nat} {locked unlocked : Int64} {between log : List Exchange}
      (hlocked : 0 ≤ locked) (hpause : Pause hold between) (hunlocked : 0 ≤ unlocked)
      (hrest : Rounds mutex hold count log) :
      Rounds mutex hold (count + 1)
        (⟨.mutexLock mutex, locked⟩ :: (between ++ ⟨.mutexUnlock mutex, unlocked⟩ :: log))

variable [Gate G ε]

theorem asks_spinUntil (deadline : UInt64) (patience : Nat) (world : World G) :
    Asks (Returned (Spins deadline.toNat)) (spinUntil deadline patience)
      (spinUntil deadline patience) world := by
  induction patience generalizing world with
  | zero => exact Asks.throw trivial
  | succ patience ih =>
      unfold spinUntil
      refine Asks.time_bind fun now gate => ?_
      split
      · rename_i hearly
        rw [UInt64.lt_iff_toNat_lt, toNat_clockOf] at hearly
        exact (ih _).mono fun outcome log h => h.imp (.early hearly)
      · rename_i hreached
        rw [UInt64.lt_iff_toNat_lt, toNat_clockOf] at hreached
        exact Asks.pure (.reached (Nat.le_of_not_lt hreached))

/-- No deadline is too late for the clock. -/
theorem toNat_deadline (start : Int64) {hold : UInt64} (hhold : hold.toNat < Word.halfRange) :
    (Word.addSaturating (clockOf start) hold).toNat = start.toNatClampNeg + hold.toNat := by
  have hstart := start.toNatClampNeg_lt
  rw [Word.halfRange] at hhold
  rw [Word.toNat_addSaturating, toNat_clockOf, Word.range]
  omega

theorem asks_delay (patience : Nat) {hold : UInt64} (hhold : hold.toNat < Word.halfRange)
    (world : World G) :
    Asks (Returned fun log => ∃ start spins, log = ⟨.getTime, start⟩ :: spins ∧
        Spins (start.toNatClampNeg + hold.toNat) spins)
      (delay patience hold) (delay patience hold) world := by
  unfold delay
  refine Asks.time_bind fun start gate => (asks_spinUntil _ _ _).mono fun outcome log h => ?_
  rw [toNat_deadline start hhold] at h
  exact h.imp fun hspins => ⟨start, log, rfl, hspins⟩

theorem clockOf_even {now : Int64} : clockOf now % 2 = 0 ↔ now.toNatClampNeg % 2 = 0 := by
  rw [← UInt64.toNat_inj, UInt64.toNat_mod, toNat_clockOf]
  rfl

/-- Behind a pause the mutex is given back, and then come the other rounds. -/
theorem asks_release {mutex hold : UInt64} {count : Nat} {locked : Int64}
    {between : List Exchange} {others : Action G ε Unit} {others' : Action (Recording G) ε Unit}
    (hothers : ∀ world, Asks (Returned (Rounds mutex hold count)) others others' world)
    (hlocked : 0 ≤ locked) (hpause : Pause hold between) (world : World G) :
    Asks (fun outcome later => Returned (Rounds mutex hold (count + 1)) outcome
        (⟨.mutexLock mutex, locked⟩ :: (between ++ later)))
      (do match ← mutexUnlock mutex with
          | .error _ => pure ()
          | .ok () => others)
      (do match ← mutexUnlock mutex with
          | .error _ => pure ()
          | .ok () => others') world := by
  refine Asks.request_bind (fun unlocked gate hunlocked => ?_) fun unlocked gate hunlocked =>
    Asks.pure (.kept hlocked hpause hunlocked)
  exact (hothers _).mono fun outcome log h => h.imp (.round hlocked hpause hunlocked)

theorem asks_lockRounds (mutex : UInt64) {hold : UInt64} (hhold : hold.toNat < Word.halfRange)
    (patience count : Nat) (world : World G) :
    Asks (Returned (Rounds mutex hold count)) (lockRounds mutex hold patience count)
      (lockRounds mutex hold patience count) world := by
  induction count generalizing world with
  | zero => exact Asks.pure .done
  | succ count ih =>
      unfold lockRounds
      refine Asks.request_bind (fun locked gate hlocked => ?_) fun locked gate hlocked =>
        Asks.pure (.refused hlocked)
      refine Asks.time_bind fun now gate => ?_
      dsimp only
      split
      · rename_i heven
        refine Asks.sleep_bind fun slept gate => ?_
        exact asks_release ih hlocked (.asleep (clockOf_even.1 heven)) _
      · rename_i hodd
        rw [clockOf_even, Nat.mod_two_not_eq_zero] at hodd
        refine Asks.bind ((asks_delay patience hhold _).mono fun outcome earlier h => ?_)
        cases outcome with
        | ok a world =>
            obtain ⟨start, spins, rfl, hspins⟩ := h
            exact asks_release ih hlocked (.spun hodd hspins) _
        | error ending world => trivial

/-- What the program asks for a pid with these shared mutexes. -/
def Tested (shared : Shared) (log : List Exchange) : Prop :=
  ∃ code later, log = ⟨.getPid, code⟩ :: later ∧
    match shared.mutexFor? (pidOf code) with
    | none => later = []
    | some mutex =>
        Rounds mutex (pidOf code % 5).toUInt64 (((pidOf code).toNat % 5 + 1) * 3 + 1) later

theorem asks_test (patience : Nat) (world : World G) :
    Asks (Returned (Tested world.shared)) (test patience) (test patience) world := by
  unfold test
  refine Asks.pid_bind fun code gate => Asks.get_bind fun log => ?_
  have hsame : ((World.mk gate world.shared).recording log).shared = world.shared := rfl
  rw [hsame]
  dsimp only
  cases hmutex : world.shared.mutexFor? (pidOf code) with
  | none =>
      refine Asks.pure ⟨code, [], rfl, ?_⟩
      rw [hmutex]
  | some mutex =>
      have hmod : (pidOf code % 5).toNat = (pidOf code).toNat % 5 := UInt32.toNat_mod ..
      have hhold : (pidOf code % 5).toUInt64.toNat < Word.halfRange := by
        rw [UInt32.toNat_toUInt64, hmod, Word.halfRange]
        omega
      refine (asks_lockRounds mutex hhold patience _ _).mono fun outcome later h => ?_
      refine h.imp fun hrounds => ⟨code, later, rfl, ?_⟩
      rw [hmutex, ← hmod]
      exact hrounds

/-! ## The calls on the mutex -/

/-- A call that locks or unlocks a mutex. -/
def Exchange.onMutex (exchange : Exchange) : Bool :=
  match exchange.request with
  | .mutexLock _ | .mutexUnlock _ => true
  | _ => false

/-- The calls that lock or unlock a mutex. -/
def mutexCalls (log : List Exchange) : List Exchange := log.filter Exchange.onMutex

/-- The caller holds the mutex behind these calls, if it did not before.  A call that is refused
changes nothing. -/
def holding (calls : List Exchange) : Bool :=
  calls.foldl (fun held call =>
    if call.code < 0 then held else match call.request with
      | .mutexLock _ => true
      | _ => false) false

/-- Locks and unlocks in turn, at most so many pairs.  All but the last succeed. -/
inductive InTurn (mutex : UInt64) : Nat → List Exchange → Prop
  | done : InTurn mutex 0 []
  | refused {count : Nat} {locked : Int64} (hlocked : locked < 0) :
      InTurn mutex (count + 1) [⟨.mutexLock mutex, locked⟩]
  | kept {count : Nat} {locked unlocked : Int64} (hlocked : 0 ≤ locked) (hunlocked : unlocked < 0) :
      InTurn mutex (count + 1) [⟨.mutexLock mutex, locked⟩, ⟨.mutexUnlock mutex, unlocked⟩]
  | round {count : Nat} {locked unlocked : Int64} {calls : List Exchange} (hlocked : 0 ≤ locked)
      (hunlocked : 0 ≤ unlocked) (hrest : InTurn mutex count calls) :
      InTurn mutex (count + 1)
        (⟨.mutexLock mutex, locked⟩ :: ⟨.mutexUnlock mutex, unlocked⟩ :: calls)

section

variable {mutex hold : UInt64} {count : Nat} {log calls between : List Exchange}

theorem Spins.mutexCalls_eq_nil {deadline : Nat} (h : Spins deadline log) :
    mutexCalls log = [] := by
  induction h with
  | reached => rfl
  | early _ _ ih => exact ih

theorem Pause.mutexCalls_eq_nil (h : Pause hold between) : mutexCalls between = [] := by
  cases h with
  | asleep => rfl
  | spun _ hspins => exact hspins.mutexCalls_eq_nil

/-- Between the two halves of a round nothing is asked of a mutex. -/
theorem Pause.mutexCalls_round (h : Pause hold between) (locked unlocked : Int64)
    (log : List Exchange) :
    mutexCalls (⟨.mutexLock mutex, locked⟩ :: (between ++ ⟨.mutexUnlock mutex, unlocked⟩ :: log))
      = ⟨.mutexLock mutex, locked⟩ :: ⟨.mutexUnlock mutex, unlocked⟩ :: mutexCalls log := by
  show _ :: List.filter _ (between ++ _) = _
  rw [List.filter_append]
  show _ :: (mutexCalls between ++ _) = _
  rw [h.mutexCalls_eq_nil]
  rfl

theorem Rounds.inTurn (h : Rounds mutex hold count log) : InTurn mutex count (mutexCalls log) := by
  induction h with
  | done => exact .done
  | refused hlocked => exact .refused hlocked
  | kept hlocked hpause hunlocked =>
      rw [hpause.mutexCalls_round]
      exact .kept hlocked hunlocked
  | round hlocked hpause hunlocked _ ih =>
      rw [hpause.mutexCalls_round]
      exact .round hlocked hunlocked ih

namespace InTurn

theorem request_eq (h : InTurn mutex count calls) {i : Nat} {call : Exchange}
    (hat : calls[i]? = some call) :
    call.request = if i % 2 = 0 then .mutexLock mutex else .mutexUnlock mutex := by
  induction h generalizing i with
  | done => contradiction
  | refused =>
      match i with
      | 0 =>
          obtain rfl := Option.some.inj hat
          rfl
      | i + 1 => contradiction
  | kept =>
      match i with
      | 0 | 1 =>
          obtain rfl := Option.some.inj hat
          rfl
      | i + 2 => contradiction
  | round _ _ _ ih =>
      match i with
      | 0 | 1 =>
          obtain rfl := Option.some.inj hat
          rfl
      | i + 2 =>
          rw [Nat.add_mod_right]
          exact ih hat

theorem nonneg_of_succ_lt (h : InTurn mutex count calls) {i : Nat} {call : Exchange}
    (hat : calls[i]? = some call) (hmore : i + 1 < calls.length) : 0 ≤ call.code := by
  induction h generalizing i with
  | done => contradiction
  | refused => exact absurd hmore (by simp)
  | kept hlocked =>
      obtain rfl : i = 0 := Nat.lt_one_iff.1 (Nat.lt_of_succ_lt_succ hmore)
      obtain rfl := Option.some.inj hat
      exact hlocked
  | round hlocked hunlocked _ ih =>
      match i with
      | 0 | 1 =>
          obtain rfl := Option.some.inj hat
          assumption
      | i + 2 => exact ih hat (Nat.lt_of_succ_lt_succ (Nat.lt_of_succ_lt_succ hmore))

theorem refused_of_holding (h : InTurn mutex count calls) (hholding : holding calls) :
    ∃ call ∈ calls, call.request = .mutexUnlock mutex ∧ call.code < 0 := by
  induction h with
  | done => contradiction
  | refused hlocked =>
      rw [holding, List.foldl_cons, if_pos hlocked] at hholding
      contradiction
  | kept _ hunlocked => exact ⟨_, List.mem_cons_of_mem _ List.mem_cons_self, rfl, hunlocked⟩
  | round hlocked hunlocked _ ih =>
      rw [holding, List.foldl_cons, List.foldl_cons, if_neg (Int64.not_lt.2 hlocked),
        if_neg (Int64.not_lt.2 hunlocked)] at hholding
      obtain ⟨call, hmem, hrefused⟩ := ih hholding
      exact ⟨call, List.mem_cons_of_mem _ (List.mem_cons_of_mem _ hmem), hrefused⟩

theorem length_of_nonneg (h : InTurn mutex count calls) (hdone : ∀ call ∈ calls, 0 ≤ call.code) :
    calls.length = 2 * count := by
  induction h with
  | done => rfl
  | refused hlocked =>
      exact absurd hlocked (Int64.not_lt.2 (hdone _ List.mem_cons_self))
  | kept _ hunlocked =>
      exact absurd hunlocked
        (Int64.not_lt.2 (hdone _ (List.mem_cons_of_mem _ List.mem_cons_self)))
  | round _ _ _ ih =>
      have hrest := ih fun call hmem =>
        hdone call (List.mem_cons_of_mem _ (List.mem_cons_of_mem _ hmem))
      rw [List.length_cons, List.length_cons, hrest]
      omega

end InTurn

/-- What ends a list and begins with something that is not in its first part ends its second
part. -/
theorem suffix_of_suffix_append {α : Type} {a : α} {l first second : List α}
    (h : a :: l <:+ first ++ second) (hfirst : a ∉ first) : a :: l <:+ second := by
  induction first with
  | nil => exact h
  | cons b rest ih =>
      rcases List.suffix_cons_iff.1 h with heq | hrest
      · injection heq with hab
        exact absurd (hab ▸ List.mem_cons_self) hfirst
      · exact ih hrest fun hmem => hfirst (List.mem_cons_of_mem _ hmem)

/-- A lock is neither in a pause nor the unlock behind it. -/
theorem Pause.lock_behind_unlock (h : Pause hold between) {locked unlocked : Int64}
    {later : List Exchange}
    (hlock : ⟨.mutexLock mutex, locked⟩ :: later
      <:+ between ++ ⟨.mutexUnlock mutex, unlocked⟩ :: log) :
    ⟨.mutexLock mutex, locked⟩ :: later <:+ log := by
  have hbetween : (⟨.mutexLock mutex, locked⟩ : Exchange) ∉ between := by
    intro hmem
    have hcall := List.mem_filter.2 ⟨hmem, (rfl : Exchange.onMutex _ = true)⟩
    rw [← mutexCalls, h.mutexCalls_eq_nil] at hcall
    contradiction
  rcases List.suffix_cons_iff.1 (suffix_of_suffix_append hlock hbetween) with heq | hlog
  · injection heq with hcall
    injection hcall with hrequest
    contradiction
  · exact hlog

/-- A lock that succeeds is followed by a pause and the unlock. -/
theorem Rounds.pause_behind_lock (h : Rounds mutex hold count log) {locked : Int64}
    {later : List Exchange} (hlock : ⟨.mutexLock mutex, locked⟩ :: later <:+ log)
    (hlocked : 0 ≤ locked) :
    ∃ between unlocked rest, later = between ++ ⟨.mutexUnlock mutex, unlocked⟩ :: rest ∧
      Pause hold between := by
  have hnil : ¬ ⟨.mutexLock mutex, locked⟩ :: later <:+ [] := fun hend =>
    List.cons_ne_nil _ _ (List.suffix_nil.1 hend)
  induction h with
  | done => exact absurd hlock hnil
  | refused hrefused =>
      rcases List.suffix_cons_iff.1 hlock with heq | hnone
      · injection heq with hcall
        injection hcall with _ hsame
        exact absurd hrefused (Int64.not_lt.2 (hsame ▸ hlocked))
      · exact absurd hnone hnil
  | @kept _ _ unlocked between _ hpause _ =>
      rcases List.suffix_cons_iff.1 hlock with heq | hrest
      · injection heq with _ heq
        exact ⟨between, unlocked, [], heq, hpause⟩
      · exact absurd (hpause.lock_behind_unlock hrest) hnil
  | @round _ _ unlocked between log _ hpause _ _ ih =>
      rcases List.suffix_cons_iff.1 hlock with heq | hrest
      · injection heq with _ heq
        exact ⟨between, unlocked, log, heq, hpause⟩
      · exact ih (hpause.lock_behind_unlock hrest)

end

/-! ## The program -/

/-- The program locks and unlocks a mutex as it should. -/
structure LockDiscipline (mutex hold : UInt64) (count : Nat) (log : List Exchange) : Prop where
  /-- Locks and unlocks are asked in turn, of the same mutex, a lock first. -/
  alternate : ∀ (i : Nat) (call : Exchange), (mutexCalls log)[i]? = some call →
    call.request = if i % 2 = 0 then .mutexLock mutex else .mutexUnlock mutex
  /-- Nothing is asked of the mutex behind a call that failed. -/
  granted : ∀ (i : Nat) (call : Exchange), (mutexCalls log)[i]? = some call →
    i + 1 < (mutexCalls log).length → 0 ≤ call.code
  /-- The mutex is only kept if giving it back failed. -/
  released : holding (mutexCalls log) →
    ∃ call ∈ mutexCalls log, call.request = .mutexUnlock mutex ∧ call.code < 0
  /-- If no call fails the mutex is taken and given back so many times. -/
  complete : (∀ call ∈ mutexCalls log, 0 ≤ call.code) → (mutexCalls log).length = 2 * count
  /-- Between the halves of each pair the program pauses. -/
  pause : ∀ (locked : Int64) (later : List Exchange),
    ⟨.mutexLock mutex, locked⟩ :: later <:+ log → 0 ≤ locked →
      ∃ between unlocked rest, later = between ++ ⟨.mutexUnlock mutex, unlocked⟩ :: rest ∧
        Pause hold between

/-- However the gate answers, a mutex program that returns has locked and unlocked its mutex as it
should; without shared mutexes it has only asked for its pid. -/
theorem test_keeps_lock_discipline {patience : Nat} {world world' : World G}
    (hreturns : test patience world = .ok () world') :
    ∃ code later, asked (test patience) world = ⟨.getPid, code⟩ :: later ∧
      (world.shared.pair = none → later = []) ∧
      ∀ even odd, world.shared.pair = some (even, odd) →
        LockDiscipline (if pidOf code % 2 = 0 then even else odd) (pidOf code % 5).toUInt64
          (((pidOf code).toNat % 5 + 1) * 3 + 1) later := by
  have hrun := (asks_test patience world).of_answered (by rw [hreturns]; rfl)
  rw [hreturns] at hrun
  obtain ⟨code, later, hasked, hlater⟩ := hrun
  refine ⟨code, later, hasked, fun hnone => ?_, fun even odd hpair => ?_⟩
  · rwa [Shared.mutexFor?, hnone] at hlater
  · rw [Shared.mutexFor?, hpair] at hlater
    have hrounds : Rounds _ _ _ later := hlater
    have hturns := hrounds.inTurn
    exact ⟨fun _ _ => hturns.request_eq, fun _ _ => hturns.nonneg_of_succ_lt,
      hturns.refused_of_holding, hturns.length_of_nonneg, fun _ _ => hrounds.pause_behind_lock⟩

/-- The process with the pid six takes the even mutex seven times, for a second each. -/
theorem test_keeps_lock_discipline_of_six :
    (mutexCalls (asked (test 200) (alone 6 ⟨some (10, 11)⟩ 1000))).length = 14 ∧
    ∃ world', test 200 (alone 6 ⟨some (10, 11)⟩ 1000) = .ok () world' ∧
      ∃ code later,
        asked (test 200) (alone 6 ⟨some (10, 11)⟩ 1000) = ⟨.getPid, code⟩ :: later ∧
          ((alone 6 ⟨some (10, 11)⟩ 1000).shared.pair = none → later = []) ∧
          ∀ even odd, (alone 6 ⟨some (10, 11)⟩ 1000).shared.pair = some (even, odd) →
            LockDiscipline (if pidOf code % 2 = 0 then even else odd) (pidOf code % 5).toUInt64
              (((pidOf code).toNat % 5 + 1) * 3 + 1) later := by
  have hreturned : (match test 200 (alone 6 ⟨some (10, 11)⟩ 1000) with
      | .ok _ _ => true
      | .error _ _ => false) = true := by decide +kernel
  refine ⟨by decide +kernel, ?_⟩
  cases hrun : test 200 (alone 6 ⟨some (10, 11)⟩ 1000) with
  | ok a world' => exact ⟨world', rfl, test_keeps_lock_discipline hrun⟩
  | error ending world' =>
      rw [hrun] at hreturned
      contradiction

end Timeshare.User
