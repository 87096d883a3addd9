import Timeshare.Proofs.Kernel.Confined
import Timeshare.Proofs.Kernel.Lasting
import Timeshare.Proofs.Kernel.Texts
import Timeshare.User.Calls

/-!
# Names survive

A process that is started by name is called by the longest valid start of the text at the
pointer.  It goes by that name as long as it lives: asking for its name writes it, followed by
a zero byte, and the process reads the same text back.  No name is cut within a character, so
none is shown as a question mark.
-/

namespace Timeshare

/-- The answer tells which process was started. -/
theorem Pid.result_inj {pid other : Pid}
    (heq : pid.number.toUInt64.toInt64 = other.number.toUInt64.toInt64) : pid = other := by
  have hnumber := congrArg (fun value : Int64 => value.toUInt64.toUInt32) heq
  simp only [UInt64.toUInt64_toInt64, UInt32.toUInt32_toUInt64] at hnumber
  exact congrArg Pid.mk hnumber

/-! ## Reading a name back -/

namespace User

variable {G ε : Type} [Gate G ε] {world : World G} {gate : G} {buffer image : NameBuffer}
  {text : List Char}

/-- The text in front of the first zero byte is the name. -/
theorem name_of_reply (hcall : Gate.call (.getName buffer) world.gate = (.ok ⟨0, image⟩, gate))
    (himage : Text.encode text ++ [0] <+: image.toList) (hzero : 0 ∉ Text.encode text) :
    (name buffer : Action G ε (Except CallError String)) world =
      .ok (.ok (String.ofList text)) { world with gate } := by
  obtain ⟨rest, hrest⟩ := himage
  have htext : image.toList.takeWhile (· != 0) = Text.encode text := by
    rw [← hrest, List.append_assoc, List.takeWhile_append_of_pos]
    · rw [List.singleton_append, List.takeWhile_cons_of_neg (by decide), List.append_nil]
    · intro b hb
      exact bne_iff_ne.2 fun h => hzero (h ▸ hb)
  have hask : (ask (.getName buffer) : Action G ε (Reply (.getName buffer))) world =
      .ok ⟨0, image⟩ { world with gate } := by
    rw [ask, hcall]
  show EStateM.bind (ask (.getName buffer)) _ world = _
  rw [EStateM.bind, hask]
  dsimp only
  rw [show accepted 0 = .ok 0 from rfl]
  dsimp only
  rw [htext, Text.decode?_encode]
  rfl

end User

namespace Kernel

open Machine (Memory Region Simulated)

variable {k k' : Kernel Simulated} {pid : Pid} {p : Process} {text : List Char}
  {arguments : Arguments}

/-! ## Asking for a name -/

/-- A call that is served is answered with its value. -/
theorem dispatch_of_serve {call : Call} {value : Int64}
    (hserve : serve call arguments k = .ok value k') :
    dispatch call.number arguments k = .ok value k' := by
  unfold dispatch
  rw [Call.ofNumber?_number]
  show EStateM.bind (attempt (serve call arguments)) _ k = _
  rw [EStateM.bind, attempt, hserve]
  rfl

/-- With a buffer that can be written the name is, followed by a zero byte. -/
theorem dispatch_getName (hcurrent : k.current = some pid)
    (hget : k.tasks.table.get? pid = some p)
    (hholds : k.userMemory.Holds ⟨arguments.first, p.name.bytes.length + 1⟩)
    (hfree : k.userMemory.forbids arguments.first (p.name.bytes.length + 1) = false) :
    ∃ k', dispatch Call.getName.number arguments k = .ok 0 k' ∧
      k.userMemory.Replaced ⟨arguments.first, p.name.bytes.length + 1⟩ (p.name.bytes ++ [0])
        k'.userMemory := by
  obtain ⟨slot, hfind, rfl, _⟩ := ProcessTable.get?_eq_some hget
  have hlength : ((k.tasks.table.block slot).name.bytes ++ [0]).length =
      (k.tasks.table.block slot).name.bytes.length + 1 := List.length_append
  rw [← hlength] at hholds hfree ⊢
  obtain ⟨after, hwrite, hreplaced⟩ := Memory.exists_replaced hholds hfree
  refine ⟨{ k with platform := { k.platform with memory := after } }, dispatch_of_serve ?_,
    hreplaced⟩
  have hpointer : arguments.first ≠ 0 := by
    intro hnull
    have hfirst : Memory.base.toNat ≤ arguments.first.toNat := hholds.1
    rw [hnull] at hfirst
    exact absurd hfirst (by decide)
  show getName arguments.first k = _
  unfold getName
  rw [caller_bind, hcurrent]
  dsimp only
  rw [requirePointer_bind, if_neg hpointer, placeOf_bind, hfind]
  dsimp only
  rw [get_bind, write_bind, writeMemory_eq, hwrite]
  rfl

/-- The process goes by this text: it has it as its name as long as it lives, and when it asks
for its name, the text and a zero byte are written and read back. -/
structure GoesBy (k : Kernel Simulated) (pid : Pid) (text : List Char) : Prop where
  named : ∀ p, k.tasks.table.get? pid = some p → p.name.bytes = Text.encode text
  told : k.current = some pid → ∀ arguments : Arguments,
    k.userMemory.Holds ⟨arguments.first, (Text.encode text).length + 1⟩ →
    k.userMemory.forbids arguments.first ((Text.encode text).length + 1) = false →
    ∃ k', dispatch Call.getName.number arguments k = .ok 0 k' ∧
      k.userMemory.Replaced ⟨arguments.first, (Text.encode text).length + 1⟩
        (Text.encode text ++ [0]) k'.userMemory ∧
      ∀ {G ε : Type} [User.Gate G ε] (world : User.World G) (gate : G)
        (buffer image : User.NameBuffer),
        k'.userMemory.read arguments.first (nameCapacity + 1) = .ok image →
        User.Gate.call (.getName buffer) world.gate = (.ok ⟨0, image⟩, gate) →
        (User.name buffer : User.Action G ε _) world =
          .ok (.ok (String.ofList text)) { world with gate }

/-- Who has a name goes by it. -/
theorem goesBy_of_named (hlives : ∀ pid, k.current = some pid → (k.tasks.table.get? pid).isSome)
    (hnamed : ∀ p, k.tasks.table.get? pid = some p → p.name.bytes = Text.encode text)
    (hzero : 0 ∉ Text.encode text) (hfits : (Text.encode text).length ≤ nameCapacity) :
    k.GoesBy pid text := by
  refine ⟨hnamed, fun hcurrent arguments hholds hfree => ?_⟩
  obtain ⟨p, hget⟩ := Option.isSome_iff_exists.1 (hlives pid hcurrent)
  rw [← hnamed p hget] at hholds hfree ⊢
  obtain ⟨k', hdispatch, hreplaced⟩ := dispatch_getName hcurrent hget hholds hfree
  refine ⟨k', hdispatch, hreplaced, fun world gate buffer image hread hcall => ?_⟩
  refine User.name_of_reply hcall ?_ hzero
  -- the longest name and its zero byte just fill the buffer
  rw [← hnamed p hget] at hfits ⊢
  exact hreplaced.read_starts (Nat.succ_le_succ hfits) hread

/-! ## Starting processes -/

theorem exists_spawn_of_spawn {entry : UInt64} {name : String}
    (hspawn : spawn entry name k = .ok pid k') (other : String) :
    ∃ k', spawn entry other k = .ok pid k' := by
  obtain ⟨_, _, tasks, hcreate, _⟩ := (leads_spawn entry name k).of_ok hspawn
  obtain ⟨_, hother⟩ := Tasks.exists_create_of_create hcreate other
  cases hstep : spawn entry other k with
  | ok q after =>
      obtain ⟨_, _, _, hsame, _⟩ := (leads_spawn entry other k).of_ok hstep
      rw [hother] at hsame
      injection hsame with hsame
      injection hsame with hpid
      exact ⟨after, by rw [hpid]⟩
  | error stop after =>
      obtain ⟨_, _, hstop, _⟩ := (leads_spawn entry other k).of_error hstep
      rw [hother] at hstop
      contradiction

/-- Whoever is started is new, and called by what fits of the text. -/
theorem Lasting.spawn {entry : UInt64} {name : String} (hk : k.Lasting)
    (hspawn : spawn entry name k = .ok pid k') :
    k'.Lasting ∧ k.tasks.table.get? pid = none ∧
      ∃ p, k'.tasks.table.get? pid = some p ∧ p.name = .ofText name := by
  obtain ⟨_, _, tasks, hcreate, rfl⟩ := (leads_spawn entry name k).of_ok hspawn
  have htable := hk.names.table
  refine ⟨⟨hk.names.trans (Tasks.keepsNames_create htable hcreate), hk.mutexes⟩, ?_,
    Tasks.name_of_create htable hcreate⟩
  rw [(Tasks.rewrite_create htable hcreate).1]
  exact htable.get?_nextPid

/-- Who lives goes by its name as long as it lives. -/
theorem Lasting.name_later {p' : Process} (hk : k.Lasting) (hlater : Later k k')
    (hget : k.tasks.table.get? pid = some p) (hget' : k'.tasks.table.get? pid = some p') :
    p'.name = p.name := by
  obtain ⟨slot, _, rfl, hlive, rfl⟩ := ProcessTable.get?_eq_some hget
  exact (hk.later hlater).1.name (hk.names.table.issued slot hlive) hget hget'

theorem Lasting.current (hk : k.Lasting) :
    ∀ pid, k.current = some pid → (k.tasks.table.get? pid).isSome :=
  hk.names.current fun _ h => by contradiction

/-- Every name was made from text, so it shows that text. -/
theorem Lasting.shown (hk : k.Lasting) (hget : k.tasks.table.get? pid = some p) :
    ∃ text, Text.encode text = p.name.bytes ∧ p.name.text = String.ofList text := by
  rcases hk.names.named pid p hget with ⟨_, hnobody, _⟩ | ⟨_, text, hname⟩
  · contradiction
  · rw [hname]
    exact ⟨_, rfl, ProcessName.text_ofText text⟩

/-! ## Names from the outside to the inside and back -/

/-- How the names of processes relate to what they were started by. -/
structure NamesSurvive (k : Kernel Simulated) : Prop where
  /-- A process that is started by name goes by the longest valid start of the text. -/
  executed : ∀ (arguments : Arguments) value k',
    dispatch Call.exec.number arguments k = .ok value k' → 0 ≤ value →
    ∃ bytes text pid, k.userMemory.TextAt arguments.first.toNat nameCapacity bytes ∧
      Text.LongestValid bytes text ∧ value = pid.number.toUInt64.toInt64 ∧
      k.tasks.table.get? pid = none ∧ (k'.tasks.table.get? pid).isSome ∧
      ∀ k'', Later k' k'' → k''.GoesBy pid text
  /-- Where there is text and a process can be started at all, it can be started by it. -/
  read : ∀ (arguments : Arguments) bytes name pid k',
    k.userMemory.TextAt arguments.first.toNat nameCapacity bytes →
    spawn arguments.second name k = .ok pid k' →
    0 ≤ pid.number.toUInt64.toInt64 ∧
      ∃ k', dispatch Call.exec.number arguments k = .ok pid.number.toUInt64.toInt64 k'
  /-- A text of any length is kept up to the last character that ends within the room. -/
  created : ∀ entry name pid k', spawn entry name k = .ok pid k' →
    ∃ text p, Text.LongestFitting nameCapacity name.toList text ∧
      k'.tasks.table.get? pid = some p ∧ p.name.bytes = Text.encode text
  shown : ∀ pid p, k.tasks.table.get? pid = some p →
    ∃ text, Text.encode text = p.name.bytes ∧ p.name.text = String.ofList text

theorem Lasting.executed {value : Int64} (hk : k.Lasting)
    (hdispatch : dispatch Call.exec.number arguments k = .ok value k') (hvalue : 0 ≤ value) :
    ∃ bytes text pid, k.userMemory.TextAt arguments.first.toNat nameCapacity bytes ∧
      Text.LongestValid bytes text ∧ value = pid.number.toUInt64.toInt64 ∧
      k.tasks.table.get? pid = none ∧ (k'.tasks.table.get? pid).isSome ∧
      ∀ k'', Later k' k'' → k''.GoesBy pid text := by
  -- a refused call answers -1, so this one was served
  have hserve : exec arguments.first arguments.second k = .ok value k' := by
    rcases dispatch_eq_ok hdispatch with hserve | ⟨_, _, _, hrefused, _⟩
    · exact hserve
    · rw [hrefused] at hvalue
      exact absurd hvalue (by decide)
  obtain ⟨bytes, pid, htext, hspawn, hpid⟩ := exec_eq_ok hserve
  obtain ⟨hk', hnew, p, hget, hname⟩ := hk.spawn hspawn
  have hvalid := Text.longestValid_decodeValid bytes
  have hfits : (Text.encode (Text.decodeValid bytes)).length ≤ nameCapacity :=
    hvalid.start.length_le.trans htext.length_le
  refine ⟨bytes, _, pid, htext, hvalid, hpid, hnew, by rw [hget]; rfl, fun k'' hlater => ?_⟩
  -- the text holds no zero byte, since reading stopped in front of the first one
  refine goesBy_of_named (hk'.later hlater).2.current (fun p' hget' => ?_) (fun hzero => ?_) hfits
  · rw [hk'.name_later hlater hget hget', hname, ProcessName.bytes_ofText_ofList hfits]
  · exact htext.nonzero 0 (hvalid.start.subset hzero) rfl

theorem Lasting.namesSurvive (hk : k.Lasting) : k.NamesSurvive := by
  refine ⟨fun _ _ _ => hk.executed, fun arguments bytes name pid k' htext hspawn => ?_,
    fun entry name pid k' hspawn => ?_, fun _ _ => hk.shown⟩
  · have hentry : arguments.second ≠ 0 := by
      intro hnull
      obtain ⟨_, _, _, hcreate, _⟩ := (leads_spawn _ name k).of_ok hspawn
      rw [hnull] at hcreate
      contradiction
    obtain ⟨k₁, hnamed⟩ :=
      exists_spawn_of_spawn hspawn (String.ofList (Text.decodeValid bytes))
    refine ⟨pid.result_nonneg, k₁, dispatch_of_serve ?_⟩
    show exec arguments.first arguments.second k = _
    rw [exec_of_textAt htext hentry]
    exact bind_eq_ok_iff.2 ⟨pid, k₁, hnamed, rfl⟩
  · obtain ⟨_, _, p, hget, hname⟩ := hk.spawn hspawn
    exact ⟨_, p, Text.longestFitting_fitting nameCapacity name.toList, hget, by rw [hname]; rfl⟩

/-- In whatever state a kernel comes to, before it is booted, between traps or in the middle of
one, a process that is started by name is called by the longest valid start of the text at the
pointer: the bytes up to the first zero, or as many as a name may have.  Nothing behind the
text is read.  It goes by that name at any later time: when it asks with a buffer that can be
written, the answer is 0, the buffer holds the name and a zero byte, and it reads the name back.
A text that is given from outside is cut behind the last character that fits, so every name
is text and none is shown as a question mark that was not asked for. -/
theorem names_survive {log : List (Happening Simulated)} {k₀ : Kernel Simulated}
    (hfresh : Fresh log k₀) (hlater : Later k₀ k) : k.NamesSurvive :=
  (hfresh.lasting.later hlater).2.namesSurvive

/-- The text breaks off within its last character, and the zero byte behind it is the last one of
memory. -/
theorem names_survive_at_last_byte :
    ∃ (log : List (Happening Simulated)) (k₀ k k' : Kernel Simulated),
      Fresh log k₀ ∧ Later k₀ k ∧ k.userMemory.bytes = #[110, 195, 169, 195, 0] ∧
        dispatch Call.exec.number ⟨0x1000, 0x4000, 0⟩ k = .ok 4 k' ∧
        ∀ k'', Later k' k'' → k''.GoesBy ⟨4⟩ ['n', 'é'] := by
  obtain ⟨moments, k, hcourse, hcheck⟩ := exists_course
    [.machine { Simulated.ofMemorySize 0 with memory := ⟨#[110, 195, 169, 195, 0], []⟩ }]
    (fun _ k => decide (k.userMemory.bytes = #[110, 195, 169, 195, 0]) &&
      answers .exec ⟨0x1000, 0x4000, 0⟩ (fun _ value k' => decide (value = 4 ∧
        (k'.tasks.table.get? ⟨4⟩).map (·.name.bytes) = some [110, 195, 169])) k)
    (by decide +kernel)
  obtain ⟨hbytes, hanswers⟩ := (Bool.and_eq_true ..).mp hcheck
  obtain ⟨value, k', hdispatch, hvalue⟩ := exists_of_answers hanswers
  obtain ⟨rfl, hname⟩ := of_decide_eq_true hvalue
  obtain ⟨log, k₀, hfresh, hlater⟩ := hcourse.later
  obtain ⟨_, text, pid, _, _, hpid, _, _, hgoes⟩ :=
    (names_survive hfresh hlater).executed _ _ _ hdispatch (by decide)
  obtain rfl : ⟨4⟩ = pid := Pid.result_inj hpid
  -- the text is known from the name that the process has at once
  obtain ⟨p, hget, hbytes'⟩ := Option.map_eq_some_iff.1 hname
  have htext := congrArg Text.decodeValid ((hgoes k' .refl).named p hget)
  rw [Text.decodeValid_encode, hbytes'] at htext
  obtain rfl : ['n', 'é'] = text := htext ▸ (Text.decodeValid_encode ['n', 'é']).symm
  exact ⟨log, k₀, k, k', hfresh, hlater, of_decide_eq_true hbytes, hdispatch, hgoes⟩

end Kernel

end Timeshare
