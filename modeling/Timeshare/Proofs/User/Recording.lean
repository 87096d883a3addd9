import Timeshare.User.Programs
import Timeshare.User.Scripted

/-!
# What a program asks

A recording gate answers as the gate behind it does and keeps what it has answered.  A program
cannot tell the difference, so what the recording gate has kept in the end is what the program
has asked of the gate behind.

`Asks` tells how a part of a program ends and what it asks until then.  There is one rule for
each way of building programs, and one for each call of a process; applied in turn, they follow
a program as it runs.  Nothing is said of runs that the gate ends.
-/

namespace Timeshare.User

variable {G ε α β : Type}

/-! ## Recording -/

/-- A gate that keeps what the gate behind it has answered, oldest first. -/
structure Recording (G : Type) where
  gate : G
  log : List Exchange

instance [Gate G ε] : Gate (Recording G) ε where
  call request recording :=
    match Gate.call request recording.gate with
    | (.ok reply, gate) => (.ok reply, ⟨gate, recording.log ++ [⟨request, reply.code⟩]⟩)
    | (.error reason, gate) => (.error reason, ⟨gate, recording.log⟩)

/-- The world with a recording gate that has kept `log`. -/
def World.recording (log : List Exchange) (world : World G) : World (Recording G) :=
  ⟨⟨world.gate, log⟩, world.shared⟩

/-- The gate has answered every request. -/
def Ending.answered : Ending ε → Bool
  | .cutOff _ => false
  | _ => true

/-- How the run of a program ends. -/
abbrev Outcome (G ε α : Type) : Type := EStateM.Result (Ending ε) (World G) α

namespace Outcome

/-- The same end behind a recording gate that has kept `log`. -/
def recording (log : List Exchange) : Outcome G ε α → Outcome (Recording G) ε α
  | .ok a world => .ok a (world.recording log)
  | .error ending world => .error ending (world.recording log)

/-- What the gate has kept in the end. -/
def log : Outcome (Recording G) ε α → List Exchange
  | .ok _ world => world.gate.log
  | .error _ world => world.gate.log

/-- The gate has answered every request. -/
def answered : Outcome G ε α → Bool
  | .ok _ _ => true
  | .error ending _ => ending.answered

@[simp] theorem log_recording (log : List Exchange) (outcome : Outcome G ε α) :
    (outcome.recording log).log = log := by
  cases outcome <;> rfl

end Outcome

/-- What a program asks, and the results. -/
def asked (program : Action (Recording G) ε α) (world : World G) : List Exchange :=
  Outcome.log (program (world.recording []))

/-- The seconds that a reading of the clock tells. -/
def clockOf (code : Int64) : UInt64 := (accepted code).toOption.getD 0

/-- The pid that the kernel tells. -/
def pidOf (code : Int64) : UInt32 := ((accepted code).map UInt64.toUInt32).toOption.getD 0

theorem accepted_of_neg {code : Int64} (h : code < 0) : accepted code = .error .failed := if_pos h

theorem accepted_of_nonneg {code : Int64} (h : 0 ≤ code) : accepted code = .ok code.toUInt64 :=
  if_neg (Int64.not_lt.2 h)

/-- A refused reading tells no seconds. -/
theorem toNat_clockOf (code : Int64) : (clockOf code).toNat = code.toNatClampNeg := by
  unfold clockOf
  rcases Int64.lt_or_le code 0 with hneg | hnonneg
  · rw [accepted_of_neg hneg]
    exact (Int64.toNatClampNeg_eq_zero_iff.2 (Int64.le_of_lt hneg)).symm
  · rw [accepted_of_nonneg hnonneg]
    exact Int64.toNat_toUInt64_of_le hnonneg

/-- A process alone with its kernel.  There are a hundred ticks in a second, a call takes one, and
no result is fixed. -/
def alone (self : UInt32) (shared : Shared) (callLimit : Nat) : World Scripted where
  gate :=
    { self, ticks := 0, cost := 1, ticksPerSecond := 100, nextId := 0, name := [], inbox := [],
      replies := [], callLimit, callCount := 0, exchanges := #[] }
  shared

/-! ## How a program ends and what it asks until then -/

/-- The program ends on a recording gate as it does on the gate behind it, and unless the gate
ends the run, `Q` holds of the end and of what is asked until then. -/
def Asks (Q : Outcome G ε α → List Exchange → Prop) (program : Action G ε α)
    (recorded : Action (Recording G) ε α) (world : World G) : Prop :=
  ∀ log, ∃ later,
    recorded (world.recording log) = Outcome.recording (log ++ later) (program world) ∧
      (Outcome.answered (program world) → Q (program world) later)

namespace Asks

section

variable {Q Q' : Outcome G ε α → List Exchange → Prop} {program : Action G ε α}
  {recorded : Action (Recording G) ε α} {world : World G}

/-- What is known of the end and of what is asked until then holds of the run. -/
theorem of_answered (h : Asks Q program recorded world)
    (hanswered : Outcome.answered (program world)) :
    Q (program world) (asked recorded world) := by
  obtain ⟨later, hrun, hQ⟩ := h []
  rw [asked, hrun, Outcome.log_recording]
  exact hQ hanswered

theorem mono (h : Asks Q program recorded world)
    (hQ : ∀ outcome later, Q outcome later → Q' outcome later) :
    Asks Q' program recorded world := by
  intro log
  obtain ⟨later, hrun, hlater⟩ := h log
  exact ⟨later, hrun, fun hanswered => hQ _ _ (hlater hanswered)⟩

theorem pure {a : α} (h : Q (.ok a world) []) : Asks Q (pure a) (pure a) world :=
  fun log => ⟨[], by rw [List.append_nil]; rfl, fun _ => h⟩

theorem throw {ending : Ending ε} (h : Q (.error ending world) []) :
    Asks Q (throw ending) (throw ending) world :=
  fun log => ⟨[], by rw [List.append_nil]; rfl, fun _ => h⟩

end

variable {Q : Outcome G ε β → List Exchange → Prop} {world : World G}

/-- A sequence asks what its first part asks and then, if that one has a result, what the second
part asks. -/
theorem bind {program : Action G ε α} {recorded : Action (Recording G) ε α}
    {f : α → Action G ε β} {g : α → Action (Recording G) ε β}
    (h : Asks (fun outcome earlier => match outcome with
      | .ok a world => Asks (fun outcome later => Q outcome (earlier ++ later)) (f a) (g a) world
      | .error ending world => Q (.error ending world) earlier) program recorded world) :
    Asks Q (program >>= f) (recorded >>= g) world := by
  intro log
  obtain ⟨earlier, hrun, hearlier⟩ := h log
  show ∃ later, EStateM.bind recorded g (world.recording log)
    = Outcome.recording (log ++ later) (EStateM.bind program f world) ∧
      (Outcome.answered (EStateM.bind program f world) →
        Q (EStateM.bind program f world) later)
  unfold EStateM.bind
  rw [hrun]
  cases hfirst : program world with
  | error ending world' =>
      rw [hfirst] at hearlier
      exact ⟨earlier, rfl, hearlier⟩
  | ok a world' =>
      rw [hfirst] at hearlier
      obtain ⟨later, hsecond, hlater⟩ := hearlier rfl (log ++ earlier)
      refine ⟨earlier ++ later, ?_, hlater⟩
      rw [← List.append_assoc]
      exact hsecond

/-- A sequence that looks at the world first goes on with the world as it is. -/
theorem get_bind {f : World G → Action G ε β} {g : World (Recording G) → Action (Recording G) ε β}
    (h : ∀ log, Asks Q (f world) (g (world.recording log)) world) :
    Asks Q (get >>= f) (get >>= g) world :=
  fun log => h log log

/-- A checked step goes on or ends in its fault. -/
theorem check_bind {r : Except Fault α} {f : α → Action G ε β}
    {g : α → Action (Recording G) ε β} (hok : ∀ a, r = .ok a → Asks Q (f a) (g a) world)
    (hfault : ∀ fault, r = .error fault → Q (.error (.fault fault) world) []) :
    Asks Q (check r >>= f) (check r >>= g) world := by
  cases r with
  | ok a => exact hok a rfl
  | error fault => exact fun log => ⟨[], by rw [List.append_nil]; rfl, fun _ => hfault fault rfl⟩

variable [Gate G ε]

/-- A request is asked, and if the gate answers it the program goes on with the reply. -/
theorem ask_bind {request : Request} {f : Reply request → Action G ε β}
    {g : Reply request → Action (Recording G) ε β}
    (h : ∀ (reply : Reply request) (gate : G),
      Asks (fun outcome later => Q outcome (⟨request, reply.code⟩ :: later)) (f reply) (g reply)
        { world with gate }) :
    Asks Q (ask request >>= f) (ask request >>= g) world := by
  refine bind fun log => ?_
  unfold ask
  cases hcall : Gate.call request world.gate with
  | mk answer gate =>
    cases answer with
    | ok reply =>
        refine ⟨[⟨request, reply.code⟩], ?_, fun _ => h reply gate⟩
        dsimp [Gate.call, World.recording]
        rw [hcall]
        rfl
    | error reason =>
        refine ⟨[], ?_, fun hanswered => ?_⟩
        · dsimp [Gate.call, World.recording]
          rw [hcall, List.append_nil]
          rfl
        · contradiction

/-! ### Calls of a process -/

/-- A call asks, and the program goes on with what is read from the reply. -/
theorem read_bind {r : Request} {read : Reply r → α} {f : α → Action G ε β}
    {g : α → Action (Recording G) ε β}
    (h : ∀ (reply : Reply r) (gate : G),
      Asks (fun outcome later => Q outcome (⟨r, reply.code⟩ :: later)) (f (read reply))
        (g (read reply)) { world with gate }) :
    Asks Q ((do return read (← ask r)) >>= f) ((do return read (← ask r)) >>= g) world := by
  rw [bind_assoc, bind_assoc]
  simp only [pure_bind]
  exact ask_bind h

theorem time_bind {f : UInt64 → Action G ε β} {g : UInt64 → Action (Recording G) ε β}
    (h : ∀ (code : Int64) (gate : G),
      Asks (fun outcome later => Q outcome (⟨.getTime, code⟩ :: later)) (f (clockOf code))
        (g (clockOf code)) { world with gate }) :
    Asks Q (time >>= f) (time >>= g) world :=
  read_bind fun reply gate => h reply.code gate

theorem pid_bind {f : UInt32 → Action G ε β} {g : UInt32 → Action (Recording G) ε β}
    (h : ∀ (code : Int64) (gate : G),
      Asks (fun outcome later => Q outcome (⟨.getPid, code⟩ :: later)) (f (pidOf code))
        (g (pidOf code)) { world with gate }) :
    Asks Q (pid >>= f) (pid >>= g) world :=
  read_bind fun reply gate => h reply.code gate

theorem sleep_bind {seconds : UInt64} {f : Unit → Action G ε β}
    {g : Unit → Action (Recording G) ε β}
    (h : ∀ (code : Int64) (gate : G),
      Asks (fun outcome later => Q outcome (⟨.sleep seconds, code⟩ :: later)) (f ()) (g ())
        { world with gate }) :
    Asks Q (sleep seconds >>= f) (sleep seconds >>= g) world :=
  read_bind fun reply gate => h reply.code gate

/-- What is requested is either done or refused. -/
theorem request_bind {r : Request} {f : Except CallError Unit → Action G ε β}
    {g : Except CallError Unit → Action (Recording G) ε β}
    (hdone : ∀ (code : Int64) (gate : G), 0 ≤ code →
      Asks (fun outcome later => Q outcome (⟨r, code⟩ :: later)) (f (.ok ())) (g (.ok ()))
        { world with gate })
    (hrefused : ∀ (code : Int64) (gate : G), code < 0 →
      Asks (fun outcome later => Q outcome (⟨r, code⟩ :: later)) (f (.error .failed))
        (g (.error .failed)) { world with gate }) :
    Asks Q (request r >>= f) (request r >>= g) world := by
  refine read_bind fun reply gate => ?_
  rcases Int64.lt_or_le reply.code 0 with hneg | hnonneg
  · rw [accepted_of_neg hneg]
    exact hrefused reply.code gate hneg
  · rw [accepted_of_nonneg hnonneg]
    exact hdone reply.code gate hnonneg

/-- A message is either sent or refused. -/
theorem send_bind {mailbox : UInt64} {message : Message}
    {f : Except CallError Unit × Message → Action G ε β}
    {g : Except CallError Unit × Message → Action (Recording G) ε β}
    (hdone : ∀ (code : Int64) (stamped : Message) (gate : G), 0 ≤ code →
      Asks (fun outcome later => Q outcome (⟨.send mailbox message, code⟩ :: later))
        (f (.ok (), stamped)) (g (.ok (), stamped)) { world with gate })
    (hrefused : ∀ (code : Int64) (stamped : Message) (gate : G), code < 0 →
      Asks (fun outcome later => Q outcome (⟨.send mailbox message, code⟩ :: later))
        (f (.error .failed, stamped)) (g (.error .failed, stamped)) { world with gate }) :
    Asks Q (send mailbox message >>= f) (send mailbox message >>= g) world := by
  refine read_bind fun reply gate => ?_
  rcases Int64.lt_or_le reply.code 0 with hneg | hnonneg
  · rw [accepted_of_neg hneg]
    exact hrefused reply.code reply.memory gate hneg
  · rw [accepted_of_nonneg hnonneg]
    exact hdone reply.code reply.memory gate hnonneg

end Asks

end Timeshare.User
