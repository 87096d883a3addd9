import Timeshare.Proofs.User.Recording

/-!
# What the producer sends

The producer sends the first words of its sentence, in order and one a second.  It stops behind
the sentence, when sending fails, or when its time is up.  The last is only noticed before the
next word, where the clock is read.

The pid is doubled before it is reduced, so a producer whose pid cannot be doubled faults before it
sends anything.
-/

namespace Timeshare.User

variable {G ε : Type}

/-- The results of reading the clock. -/
def readings (log : List Exchange) : List Int64 :=
  log.filterMap fun exchange => match exchange.request with
    | .getTime => some exchange.code
    | _ => none

/-- The clock is told whenever it is read, and never goes back. -/
def Steady (log : List Exchange) : Prop :=
  (∀ code ∈ readings log, 0 ≤ code) ∧ (readings log).Pairwise (· ≤ ·)

-- by going through the readings, not through all numbers that a reading can be
instance (log : List Exchange) : Decidable (Steady log) :=
  haveI := List.decidableBAll (fun code : Int64 => 0 ≤ code) (readings log)
  instDecidableAnd

/-- The messages that are sent, with the mailboxes. -/
def sends (log : List Exchange) : List (UInt64 × Message) :=
  log.filterMap fun exchange => match exchange.request with
    | .send mailbox message => some (mailbox, message)
    | _ => none

/-- The message for a word and its number. -/
def numbered (entry : String × Nat) : Message :=
  (WordRecord.new (UInt32.ofNat entry.2) entry.1).toMessage

/-! ## The loop over the words -/

/-- What is asked to send words until the clock has passed the deadline.  Each word is sent behind
a reading of the clock, and is slept behind for a second. -/
inductive Sending (mailbox : UInt64) (deadline : Nat) :
    List (String × Nat) → List Exchange → Prop
  | done : Sending mailbox deadline [] []
  | late {entry : String × Nat} {rest : List (String × Nat)} {now : Int64}
      (hlate : deadline < now.toNatClampNeg) :
      Sending mailbox deadline (entry :: rest) [⟨.getTime, now⟩]
  | refused {entry : String × Nat} {rest : List (String × Nat)} {now code : Int64}
      (hnow : now.toNatClampNeg ≤ deadline) (hcode : code < 0) :
      Sending mailbox deadline (entry :: rest)
        [⟨.getTime, now⟩, ⟨.send mailbox (numbered entry), code⟩]
  | sent {entry : String × Nat} {rest : List (String × Nat)} {now code slept : Int64}
      {log : List Exchange} (hnow : now.toNatClampNeg ≤ deadline) (hcode : 0 ≤ code)
      (hrest : Sending mailbox deadline rest log) :
      Sending mailbox deadline (entry :: rest)
        (⟨.getTime, now⟩ :: ⟨.send mailbox (numbered entry), code⟩ :: ⟨.sleep 1, slept⟩ :: log)

/-- Where an exchange stands among all those of a run.  A message is sent right behind a reading of
the clock that is not past the deadline; a second is slept right behind a message that was
sent, and only there. -/
inductive Placed (mailbox : UInt64) (deadline : Nat) (log : List Exchange) :
    Nat → Exchange → Prop
  | reading {i : Nat} {now : Int64} : Placed mailbox deadline log i ⟨.getTime, now⟩
  | send {i : Nat} {now code : Int64} {message : Message}
      (hreading : log[i]? = some ⟨.getTime, now⟩) (hnow : now.toNatClampNeg ≤ deadline)
      (hsleep : 0 ≤ code → ∃ slept, log[i + 2]? = some ⟨.sleep 1, slept⟩) :
      Placed mailbox deadline log (i + 1) ⟨.send mailbox message, code⟩
  | sleep {i : Nat} {code slept : Int64} {message : Message}
      (hsend : log[i]? = some ⟨.send mailbox message, code⟩) (hcode : 0 ≤ code) :
      Placed mailbox deadline log (i + 1) ⟨.sleep 1, slept⟩

section

variable {mailbox : UInt64} {deadline : Nat} {queue : List (String × Nat)} {log : List Exchange}

/-- Earlier exchanges move an exchange on. -/
theorem Placed.append {i : Nat} {exchange : Exchange} (h : Placed mailbox deadline log i exchange)
    (earlier : List Exchange) :
    Placed mailbox deadline (earlier ++ log) (earlier.length + i) exchange := by
  have hlater (j : Nat) : (earlier ++ log)[earlier.length + j]? = log[j]? := by
    rw [List.getElem?_append_right (Nat.le_add_right ..), Nat.add_sub_cancel_left]
  cases h with
  | reading => exact .reading
  | send hreading hnow hsleep =>
      exact .send ((hlater _).trans hreading) hnow fun hcode =>
        (hsleep hcode).imp fun slept hslept => (hlater _).trans hslept
  | sleep hsend hcode => exact .sleep ((hlater _).trans hsend) hcode

namespace Sending

/-- The words are sent in order from the first on. -/
theorem sends_isPrefix (h : Sending mailbox deadline queue log) :
    sends log <+: queue.map fun entry => (mailbox, numbered entry) := by
  induction h with
  | done => exact List.nil_prefix
  | late => exact List.nil_prefix
  | refused => exact List.cons_prefix_cons.2 ⟨rfl, List.nil_prefix⟩
  | sent _ _ _ ih => exact List.cons_prefix_cons.2 ⟨rfl, ih⟩

theorem placed (h : Sending mailbox deadline queue log) {i : Nat} {exchange : Exchange}
    (hat : log[i]? = some exchange) : Placed mailbox deadline log i exchange := by
  induction h generalizing i with
  | done => contradiction
  | late =>
      obtain ⟨hi, rfl⟩ := List.getElem?_eq_some_iff.1 hat
      obtain rfl : i = 0 := Nat.lt_one_iff.1 hi
      exact .reading
  | refused hnow hcode =>
      match i with
      | 0 =>
          obtain rfl := Option.some.inj hat
          exact .reading
      | 1 =>
          obtain rfl := Option.some.inj hat
          exact .send rfl hnow fun hdone => absurd hcode (Int64.not_lt.2 hdone)
      | i + 2 => contradiction
  | @sent entry rest now code slept later hnow hcode _ ih =>
      match i with
      | 0 =>
          obtain rfl := Option.some.inj hat
          exact .reading
      | 1 =>
          obtain rfl := Option.some.inj hat
          exact .send rfl hnow fun _ => ⟨slept, rfl⟩
      | 2 =>
          obtain rfl := Option.some.inj hat
          exact .sleep (i := 1) rfl hcode
      | i + 3 =>
          have hplaced := (ih hat).append
            [⟨.getTime, now⟩, ⟨.send mailbox (numbered entry), code⟩, ⟨.sleep 1, slept⟩]
          rwa [Nat.add_comm] at hplaced

/-- Where words are left, the last one was refused or the clock was past the deadline. -/
theorem last_of_left (h : Sending mailbox deadline queue log)
    (hleft : (sends log).length < queue.length) :
    (∃ message code, log.getLast? = some ⟨.send mailbox message, code⟩ ∧ code < 0) ∨
      ∃ now, log.getLast? = some ⟨.getTime, now⟩ ∧ deadline < now.toNatClampNeg := by
  induction h with
  | done => contradiction
  | late hlate => exact .inr ⟨_, rfl, hlate⟩
  | refused _ hcode => exact .inl ⟨_, _, rfl, hcode⟩
  | @sent entry rest now code slept later hnow hcode hrest ih =>
      have hmore := ih (Nat.lt_of_succ_lt_succ hleft)
      have hsome : later ≠ [] := by
        rintro rfl
        cases hrest
        exact absurd hleft (Nat.lt_irrefl _)
      rwa [List.getLast?_cons_of_ne_nil, List.getLast?_cons_of_ne_nil,
        List.getLast?_cons_of_ne_nil hsome]
      all_goals simp

end Sending

end

/-- The words are sent, or the clock has gone back behind the start. -/
def SentOrFaulted (mailbox budget start : UInt64) (queue : List (String × Nat)) :
    Outcome G ε Unit → List Exchange → Prop
  | .ok _ _, log => Sending mailbox (start.toNat + budget.toNat) queue log
  | .error (.fault _) _, log => ∃ code ∈ readings log, code.toNatClampNeg < start.toNat
  | .error _ _, _ => False

variable [Gate G ε]

/-- The seconds since the start are what the clock is on from there, unless it has gone back. -/
theorem asks_elapsed_bind {α : Type} {Q : Outcome G ε α → List Exchange → Prop} {start : UInt64}
    {f : UInt64 → Action G ε α} {g : UInt64 → Action (Recording G) ε α} {world : World G}
    (hok : ∀ (now : Int64) (gate : G) (seconds : UInt64),
      start.toNat + seconds.toNat = now.toNatClampNeg →
        Asks (fun outcome later => Q outcome (⟨.getTime, now⟩ :: later)) (f seconds) (g seconds)
          { world with gate })
    (hfault : ∀ (now : Int64) (gate : G), now.toNatClampNeg < start.toNat →
      Q (.error (.fault (.arithmetic .subtract)) { world with gate }) [⟨.getTime, now⟩]) :
    Asks Q (elapsed start >>= f) (elapsed start >>= g) world := by
  unfold elapsed
  rw [bind_assoc, bind_assoc]
  refine Asks.time_bind fun now gate => ?_
  rcases Nat.lt_or_ge now.toNatClampNeg start.toNat with hback | hstart
  · have hlt : ¬ start ≤ clockOf now := by
      rw [UInt64.le_iff_toNat_le, toNat_clockOf]
      omega
    rw [Word.sub, if_neg hlt]
    refine Asks.check_bind (fun a ha => by contradiction) fun fault hfaulted => ?_
    cases hfaulted
    exact hfault now gate hback
  · have hle : start ≤ clockOf now := by
      rwa [UInt64.le_iff_toNat_le, toNat_clockOf]
    rw [Word.sub, if_pos hle]
    refine Asks.check_bind (fun seconds hseconds => ?_) fun fault hfaulted => by contradiction
    cases hseconds
    refine hok now gate _ ?_
    rw [UInt64.toNat_sub_of_le _ _ hle, toNat_clockOf]
    omega

theorem asks_sendWords (mailbox budget start : UInt64) (queue : List (String × Nat))
    (world : World G) :
    Asks (SentOrFaulted mailbox budget start queue) (sendWords mailbox budget start queue)
      (sendWords mailbox budget start queue) world := by
  induction queue generalizing world with
  | nil => exact Asks.pure .done
  | cons entry rest ih =>
      unfold sendWords
      refine asks_elapsed_bind (fun now gate seconds hseconds => ?_) fun now gate hback =>
        ⟨now, List.mem_cons_self, hback⟩
      split
      · rename_i hlate
        rw [UInt64.lt_iff_toNat_lt] at hlate
        exact Asks.pure (.late (by omega))
      · rename_i hearly
        rw [UInt64.lt_iff_toNat_lt] at hearly
        have hnow : now.toNatClampNeg ≤ start.toNat + budget.toNat := by omega
        refine Asks.send_bind (fun code stamped gate hdone => ?_) fun code stamped gate hrefused =>
          Asks.pure (.refused hnow hrefused)
        refine Asks.sleep_bind fun slept gate => (ih _).mono fun outcome log hlog => ?_
        cases outcome with
        | ok a world' => exact .sent hnow hdone hlog
        | error ending world' =>
            cases ending with
            | fault fault =>
                obtain ⟨back, hback, hearlier⟩ := hlog
                exact ⟨back, List.mem_cons_of_mem _ hback, hearlier⟩
            | cutOff reason => exact hlog
            | unfinished => exact hlog

/-! ## The producer -/

theorem channel_of_lt {pid : UInt32} (hpid : 2 * pid.toNat < Word.halfRange) :
    ∃ budget, channel pid = .ok ((pid % 2).toUInt64, budget) ∧
      budget.toNat = 2 * pid.toNat % 15 := by
  have hdouble : pid.toNat * (2 : UInt32).toNat < Word.halfRange := by
    rwa [Nat.mul_comm] at hpid
  refine ⟨(pid * 2 % 15).toUInt64, ?_, ?_⟩
  · unfold channel Word.mul32
    rw [if_pos hdouble]
    rfl
  · rw [UInt32.toNat_toUInt64, UInt32.toNat_mod, UInt32.toNat_mul, Nat.mod_eq_of_lt hdouble]
    show pid.toNat * 2 % 15 = _
    rw [Nat.mul_comm]

theorem channel_of_le {pid : UInt32} (hpid : Word.halfRange ≤ 2 * pid.toNat) :
    channel pid = .error (.arithmetic .multiply) := by
  have hdouble : ¬ pid.toNat * (2 : UInt32).toNat < Word.halfRange := by
    rw [Nat.mul_comm] at hpid
    exact Nat.not_lt.2 hpid
  unfold channel Word.mul32
  rw [if_neg hdouble]
  rfl

/-- The numbered words in their order, as they are sent by a process. -/
def sentence (pid : UInt32) : List (UInt64 × Message) :=
  words.zipIdx.map fun entry => ((pid % 2).toUInt64, numbered entry)

/-- What a producer asks behind the reading of the clock from which it counts its time. -/
structure SendsSentence (pid : UInt32) (start : Int64) (log : List Exchange) : Prop where
  /-- The words are sent in order from the first on, to the mailbox of the process. -/
  inOrder : sends log <+: sentence pid
  /-- Each is sent in time, and slept behind for a second. -/
  placed : ∀ (i : Nat) (exchange : Exchange), log[i]? = some exchange →
    Placed (pid % 2).toUInt64 (start.toNatClampNeg + 2 * pid.toNat % 15) log i exchange
  /-- Words are only left behind one that is refused or when the time is up. -/
  left : (sends log).length < words.length →
    (∃ message code, log.getLast? = some ⟨.send (pid % 2).toUInt64 message, code⟩ ∧ code < 0) ∨
      ∃ now, log.getLast? = some ⟨.getTime, now⟩ ∧
        start.toNatClampNeg + 2 * pid.toNat % 15 < now.toNatClampNeg

/-- How a producer ends and what it asks until then. -/
def Produced (outcome : Outcome G ε Unit) (log : List Exchange) : Prop :=
  ∃ code later, log = ⟨.getPid, code⟩ :: later ∧
    (Word.halfRange ≤ 2 * (pidOf code).toNat →
      later = [] ∧ ∃ world, outcome = .error (.fault (.arithmetic .multiply)) world) ∧
    (2 * (pidOf code).toNat < Word.halfRange →
      ∃ start log budget, later = ⟨.getTime, start⟩ :: log ∧
        budget.toNat = 2 * (pidOf code).toNat % 15 ∧
        SentOrFaulted (pidOf code % 2).toUInt64 budget (clockOf start) words.zipIdx outcome log)

theorem asks_producer (world : World G) : Asks Produced producer producer world := by
  unfold producer
  refine Asks.pid_bind fun code gate => ?_
  rcases Nat.lt_or_ge (2 * (pidOf code).toNat) Word.halfRange with hlow | hhigh
  · obtain ⟨budget, hchannel, hbudget⟩ := channel_of_lt hlow
    rw [hchannel]
    refine Asks.check_bind (fun _ hpair => ?_) fun fault hfault => by contradiction
    cases hpair
    refine Asks.time_bind fun start gate => (asks_sendWords _ _ _ _ _).mono ?_
    intro outcome log hlog
    exact ⟨code, _, rfl, fun hhigh => absurd hlow (Nat.not_lt.2 hhigh), fun _ =>
      ⟨start, log, budget, rfl, hbudget, hlog⟩⟩
  · rw [channel_of_le hhigh]
    refine Asks.check_bind (fun _ hpair => by contradiction) fun fault hfault => ?_
    cases hfault
    exact ⟨code, [], rfl, fun _ => ⟨rfl, _, rfl⟩, fun hlow => absurd hlow (Nat.not_lt.2 hhigh)⟩

/-- On a steady clock no reading is behind the first. -/
theorem Steady.le_of_mem {start code : Int64} {log : List Exchange}
    (h : Steady (⟨.getTime, start⟩ :: log)) (hmem : code ∈ readings log) :
    start.toNatClampNeg ≤ code.toNatClampNeg := by
  have hle : start ≤ code := (List.pairwise_cons.1 h.2).1 code hmem
  exact Int.toNat_le_toNat (Int64.le_iff_toInt_le.1 hle)

/-- On a steady clock a producer whose pid can be doubled comes to its end and has sent the first
words of its sentence, as long as its time lasted and sending did not fail.  Any other producer
faults before it reads the clock. -/
theorem producer_sends_sentence {world : World G} (hanswered : Outcome.answered (producer world))
    (hsteady : Steady (asked producer world)) :
    ∃ code later, asked producer world = ⟨.getPid, code⟩ :: later ∧
      (2 * (pidOf code).toNat < Word.halfRange → (∃ world', producer world = .ok () world') ∧
        ∃ start log, later = ⟨.getTime, start⟩ :: log ∧ SendsSentence (pidOf code) start log) ∧
      (Word.halfRange ≤ 2 * (pidOf code).toNat → later = [] ∧
        ∃ world', producer world = .error (.fault (.arithmetic .multiply)) world') := by
  obtain ⟨code, later, hasked, hhigh, hlow⟩ := (asks_producer world).of_answered hanswered
  refine ⟨code, later, hasked, fun hpid => ?_, hhigh⟩
  obtain ⟨start, log, budget, rfl, hbudget, hlog⟩ := hlow hpid
  rw [hasked] at hsteady
  cases hrun : producer world with
  | ok a world' =>
      rw [hrun, SentOrFaulted, toNat_clockOf, hbudget] at hlog
      exact ⟨⟨world', rfl⟩, start, log, rfl, hlog.sends_isPrefix, fun _ _ => hlog.placed,
        hlog.last_of_left⟩
  | error ending world' =>
      rw [hrun] at hlog hanswered
      cases ending with
      | fault fault =>
          obtain ⟨back, hback, hearlier⟩ := hlog
          rw [toNat_clockOf] at hearlier
          exact absurd hearlier (Nat.not_lt.2 (Steady.le_of_mem hsteady hback))
      | cutOff reason => exact hlog.elim
      | unfinished => exact hlog.elim

/-- The first process counts two seconds, and sends three words. -/
theorem producer_sends_three_words :
    Outcome.answered (producer (alone 1 .unknown 100)) ∧
      Steady (asked producer (alone 1 .unknown 100)) ∧
      (sends (asked producer (alone 1 .unknown 100))).length = 3 ∧
      ∃ code later, asked producer (alone 1 .unknown 100) = ⟨.getPid, code⟩ :: later ∧
        (2 * (pidOf code).toNat < Word.halfRange →
          (∃ world', producer (alone 1 .unknown 100) = .ok () world') ∧
          ∃ start log, later = ⟨.getTime, start⟩ :: log ∧ SendsSentence (pidOf code) start log) ∧
        (Word.halfRange ≤ 2 * (pidOf code).toNat → later = [] ∧
          ∃ world', producer (alone 1 .unknown 100)
            = .error (.fault (.arithmetic .multiply)) world') := by
  have hanswered : Outcome.answered (producer (alone 1 .unknown 100)) := by decide +kernel
  have hsteady : Steady (asked producer (alone 1 .unknown 100)) := by decide +kernel
  exact ⟨hanswered, hsteady, by decide +kernel, producer_sends_sentence hanswered hsteady⟩

/-- The first process whose pid cannot be doubled faults, on a steady clock. -/
theorem producer_faults_in_upper_half :
    Outcome.answered (producer (alone 2147483648 .unknown 100)) ∧
      Steady (asked producer (alone 2147483648 .unknown 100)) ∧
      ∃ world', producer (alone 2147483648 .unknown 100)
        = .error (.fault (.arithmetic .multiply)) world' :=
  ⟨by decide +kernel, by decide +kernel, _, rfl⟩

end Timeshare.User
