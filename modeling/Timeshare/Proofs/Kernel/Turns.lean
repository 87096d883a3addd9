import Timeshare.Proofs.Kernel.Course
import Timeshare.Proofs.Kernel.Stages
import Timeshare.Proofs.Tasks.Order

/-!
# Everybody's turn comes

Whatever a trap is for, whoever is queued stays in order: calls, keys and wake-ups append to
the run queue, and a call that takes the processor from its caller is followed by a pass that
takes the head off.  So the distance to the processor never grows, each tick shortens it, and
it is used up after as many ticks as it counts.
-/

namespace Timeshare.Kernel

open Machine (Simulated)
open Tasks (InTurn LinesUp)

variable {P : Type} {k k' : Kernel P} {frame : Frame} {slice : UInt64} {pid : Pid}

/-! ## Lining up -/

theorem Saved.linesUp (hsaved : Saved frame k (.ok ()) k') (hk : k.Coherent) :
    k.tasks.LinesUp k'.tasks := by
  cases hsaved with
  | nobody => exact .refl _
  | saved _ hfind =>
      exact Tasks.linesUp_modify hk.tasks.table hfind (ProcessTable.find?_eq_some hfind).1 rfl rfl

theorem Saved.unexpired (hsaved : Saved frame k (.ok ()) k') (hk : k.Coherent)
    (hsettled : k.tasks.Settled) (h : k.tasks.Unexpired slice) : k'.tasks.Unexpired slice := by
  obtain ⟨active, hcurrent, _⟩ := hsettled
  obtain ⟨p, hget, hrewrite⟩ := hsaved.rewrite hk hcurrent
  intro pid p' hafter
  rw [hrewrite.get?] at hafter
  split at hafter
  · obtain rfl := Option.some.inj hafter
    exact h active p hget
  · exact h pid p' hafter

/-- Sending queues the receiver, if there is one. -/
theorem linesUp_send {id now : UInt64} {message stamped : Message} {handoff : Option Handoff}
    {sender : Pid} {mailboxes : MailboxTable} {tasks : Tasks} (hk : k.Coherent)
    (hsend : (k.mailboxes.send id message sender now k.tasks).outcome =
      .ok ((stamped, handoff), mailboxes, tasks)) : k.tasks.LinesUp tasks := by
  obtain ⟨_, _, _, _, hcases⟩ := MailboxTable.send_cases hsend
  rcases hcases with ⟨_, rfl, _⟩ | ⟨_, slot, _, _, _, _, _, hfind, _, henqueue⟩
  · exact .refl _
  · have hrewrite := (Tasks.rewrite_modify_enqueue hk.tasks.table hfind
      (ProcessTable.find?_eq_some hfind).1 rfl henqueue).2
    exact hrewrite.linesUp_of_queued (ProcessTable.get?_of_find? hfind) rfl

variable [Platform P]

/-- A call appends to the queue, and a caller that goes on does so with its time slice. -/
theorem Served.linesUp {call : Call} {arguments : Arguments} {result : Except Stop Int64}
    (hserved : Served k call arguments result k') (hk : k.Coherent) (hengaged : k.tasks.Engaged)
    (hresult : ∀ fault, result ≠ .error (.fault fault)) : k.tasks.LinesUp k'.tasks := by
  have htable := hk.tasks.table
  have hfresh {caller : Pid} (hcurrent : k.current = some caller) : caller ∉ k.tasks.queue :=
    hk.tasks.not_mem_queue (by rw [hengaged caller hcurrent]; decide)
  cases hserved with
  | fault => exact absurd rfl (hresult _)
  | lost => exact absurd rfl (hresult _)
  | refused | answered | mutexAlloc | mutexFree => exact .refl _
  | exec hcreate => exact Tasks.linesUp_create htable hcreate
  | exit hdestroy =>
      exact Tasks.linesUp_destroy_current hk.tasks (fun pid hcurrent _ => hengaged pid hcurrent)
        hdestroy
  | sleep _ hfind hsleep =>
      subst hsleep
      exact (Tasks.rewrite_modify htable hfind rfl rfl).clearCurrent.linesUp List.prefix_rfl (.inl rfl)
  | yield _ hfind henqueue =>
      have hrewrite := (Tasks.rewrite_modify_enqueue htable hfind
        (ProcessTable.find?_eq_some hfind).1 rfl henqueue).2
      exact hrewrite.clearCurrent.linesUp (List.prefix_append _ _) (.inl rfl)
  | mutexLock hcurrent hlock =>
      obtain ⟨_, _, _, _, _, _, _, hcases⟩ := MutexTable.replace_lock hk.mutexes hlock
      rcases hcases with ⟨_, _, rfl⟩ | ⟨_, hpark⟩
      · exact .refl _
      · obtain ⟨_, _, hrewrite⟩ := Tasks.rewrite_park htable hpark
        exact hrewrite.linesUp_of_stopped hcurrent (hfresh hcurrent)
  | mutexUnlock _ hunlock =>
      obtain ⟨_, _, _, _, hcases⟩ := MutexTable.replace_unlock hk.mutexes hunlock
      rcases hcases with ⟨_, _, rfl⟩ | ⟨_, _, _, ⟨_, _, rfl⟩ | ⟨_, _, _, hfind, henqueue⟩⟩
      · exact .refl _
      · exact .refl _
      · exact (Tasks.rewrite_enqueue htable hfind henqueue).2.linesUp_of_queued
          (ProcessTable.get?_of_find? hfind) rfl
  | send _ hsend => exact linesUp_send hk hsend
  | deliver _ hsend hfind =>
      exact (linesUp_send hk hsend).trans (Tasks.linesUp_modify (hk.send hsend).tasks.table hfind
        (ProcessTable.find?_eq_some hfind).1 rfl rfl)
  | receive hcurrent hreceive =>
      obtain ⟨_, _, _, hcases⟩ := MailboxTable.receive_cases hreceive
      rcases hcases with ⟨_, rfl, _⟩ | ⟨_, _, _, _, slot, hfind, hpark⟩
      · exact .refl _
      · exact (Tasks.rewrite_modify_park htable hfind (ProcessTable.find?_eq_some hfind).1 rfl
          hpark).linesUp_of_stopped hcurrent (hfresh hcurrent)

theorem Dispatched.linesUp {number : UInt64} {arguments : Arguments} {value : Int64}
    (hdispatched : Dispatched k number arguments (.ok value) k') (hk : k.Coherent)
    (hengaged : k.tasks.Engaged) : k.tasks.LinesUp k'.tasks := by
  cases hdispatched with
  | value _ hserved => exact hserved.linesUp hk hengaged fun _ h => by contradiction
  | refused _ hserved => exact hserved.linesUp hk hengaged fun _ h => by injection h; contradiction

theorem Called.linesUp (hcalled : Called k (.ok ()) k') (hk : k.Coherent)
    (hengaged : k.tasks.Engaged) : k.tasks.LinesUp k'.tasks := by
  cases hcalled with
  | gone _ _ hdispatch => exact ((leads_dispatch _ _ k).of_ok hdispatch).linesUp hk hengaged
  | answered _ _ hdispatch hfind =>
      have hdispatched := (leads_dispatch _ _ k).of_ok hdispatch
      have hsound := (hdispatched.coherent hk hengaged).tasks.table
      exact (hdispatched.linesUp hk hengaged).trans
        (Tasks.linesUp_modify hsound hfind (ProcessTable.find?_eq_some hfind).1 rfl rfl)

theorem Operated.linesUp (hoperated : Operated k (.ok ()) k') (hk : k.Coherent) :
    k.tasks.LinesUp k'.tasks := by
  cases hoperated with
  | quiet => exact .refl _
  | killed hdestroy => exact Tasks.linesUp_destroy_current hk.tasks hk.engaged hdestroy
  | spawned _ hcreate => exact Tasks.linesUp_create hk.tasks.table hcreate

/-- A new process is queued behind everybody else. -/
theorem Spawned.linesUp {S : Pid → Prop} {entry : UInt64} {name : String}
    {result : Except Refusal Pid} (hspawned : Spawned entry name k (.ok result) k')
    (hk : k.CoherentOn S) : k.tasks.LinesUp k'.tasks := by
  cases hspawned with
  | created hcreate => exact Tasks.linesUp_create hk.tasks.table hcreate
  | refused => exact .refl _

/-- A tick uses up one tick of the active process's time slice. -/
theorem Ticked.spent (hticked : Ticked k (.ok ()) k') (hk : k.Coherent)
    (hcurrent : k.current = some pid) :
    k'.tasks.queue = k.tasks.queue ∧ k'.tasks.current = k.tasks.current ∧
      k'.tasks.spent = k.tasks.spent + 1 := by
  obtain ⟨p, activeTime, cpuTime, hget, hactive, _, hrewrite⟩ := hticked.rewrite hk hcurrent
  refine ⟨hrewrite.queue, hrewrite.current, ?_⟩
  have hrecorded : k.tasks.current = some pid := hcurrent
  rw [Tasks.spent, Tasks.spent, hrewrite.current, hrecorded, Option.bind_some, Option.bind_some,
    hrewrite.get?, if_pos rfl, hget]
  exact hactive

/-- Nobody leaves the queue before the pass. -/
theorem queue_prefix_of_stages {k₁ k₂ : Kernel P} (henter : enter frame k = .ok () k₁)
    (hattend : attend k₁ = .ok () k₂) (hk : k.Coherent) (hsettled : k.tasks.Settled) :
    k.tasks.queue <+: k₂.tasks.queue := by
  obtain ⟨saved, hsave, hentered⟩ := enter_eq_ok henter
  obtain ⟨operated, hoperated, hpainted⟩ := attend_eq_ok hattend
  have hsaved := (leads_saveContext frame k).of_ok hsave
  have hk₀ := hsaved.coherent hk
  have hsettled₀ := hsaved.settled hsettled
  have hserved : saved.tasks.queue <+: k₁.tasks.queue := by
    cases hentered with
    | timer _ hticked =>
        obtain ⟨active, hcurrent, _⟩ := hsettled₀
        rw [(hticked.spent hk₀ hcurrent).1]
    | call _ hcalled => exact (hcalled.linesUp hk₀ hsettled₀.engaged).queue
  rw [hpainted.tables.2]
  exact ((hsaved.linesUp hk).queue.trans hserved).trans
    (hoperated.linesUp (coherent_enter henter hk hsettled.engaged)).queue

/-! ## Time slices -/

theorem Operated.onlyActiveExpired (hoperated : Operated k (.ok ()) k') (hk : k.Coherent)
    (hslice : 0 < slice) (h : k.tasks.OnlyActiveExpired slice) :
    k'.tasks.OnlyActiveExpired slice := by
  cases hoperated with
  | quiet => exact h
  | killed hdestroy =>
      obtain ⟨killed, hcurrent, _, _, hrewrite⟩ := Tasks.rewrite_destroy hk.tasks.table hdestroy
      intro pid p hget
      rw [hrewrite.get?] at hget
      split at hget
      · contradiction
      · rename_i hother
        refine .inl ((h pid p hget).resolve_right fun ⟨hself, _⟩ => hother ?_)
        exact Option.some.inj (hself.symm.trans hcurrent)
  | spawned _ hcreate =>
      obtain ⟨_, _, _, _, _, _, hrewrite⟩ := Tasks.rewrite_create hk.tasks.table hcreate
      intro pid p hget
      rw [hrewrite.get?] at hget
      split at hget
      · obtain rfl := Option.some.inj hget
        exact .inl hslice
      · exact (h pid p hget).imp id fun ⟨hself, hstate⟩ => ⟨hrewrite.current.trans hself, hstate⟩

theorem Ticked.onlyActiveExpired (hticked : Ticked k (.ok ()) k') (hk : k.Coherent)
    (hsettled : k.tasks.Settled) (h : k.tasks.Unexpired slice) :
    k'.tasks.OnlyActiveExpired slice := by
  obtain ⟨active, hcurrent, hstate⟩ := hsettled
  obtain ⟨p, activeTime, cpuTime, hget, _, _, hrewrite⟩ := hticked.rewrite hk hcurrent
  intro pid p' hafter
  rw [hrewrite.get?] at hafter
  split at hafter
  · rename_i hself
    obtain rfl := Option.some.inj hafter
    rw [Tasks.stateOf_of_get? hget] at hstate
    exact .inr ⟨hrewrite.current.trans (hself ▸ hcurrent), Option.some.inj hstate⟩
  · exact .inl (h pid p' hafter)

theorem Entered.onlyActiveExpired (hentered : Entered frame k (.ok ()) k') (hk : k.Coherent)
    (hsettled : k.tasks.Settled) (hslice : 0 < slice) (h : k.tasks.Unexpired slice) :
    k'.tasks.OnlyActiveExpired slice := by
  cases hentered with
  | timer _ hticked => exact hticked.onlyActiveExpired hk hsettled h
  | call _ hcalled =>
      have hafter := (hcalled.evolvesAt hk hsettled.engaged).unexpired hslice h
      exact fun pid p hget => .inl (hafter pid p hget)

/-! ## Traps -/

/-- Behind a trap nobody has used up a time slice, if nobody had before. -/
theorem Trapped.unexpired {resumed : Frame} (htrapped : Trapped frame k (.ok resumed) k')
    (hk : k.Coherent) (hsettled : k.tasks.Settled) (hslice : 0 < k.config.timeSlice)
    (h : k.tasks.Unexpired k.config.timeSlice) : k'.tasks.Unexpired k.config.timeSlice := by
  cases htrapped with
  | left hsave hentered hoperated hpainted hpassed =>
      have hsaved := (leads_saveContext frame k).of_ok hsave
      have hk₁ := hsaved.coherent hk
      have hsettled₁ := hsaved.settled hsettled
      have hk₂ := hentered.coherent hk₁ hsettled₁.engaged
      have hsound := (hpainted.coherent (hoperated.coherent hk₂)).tasks.table
      have hserved := hentered.onlyActiveExpired hk₁ hsettled₁ hslice (hsaved.unexpired hk hsettled h)
      have hready := hoperated.onlyActiveExpired hk₂ hslice hserved
      rw [← hpainted.tables.2] at hready
      cases hpassed with
      | passed hpass =>
          rw [hpainted.kept.config, hoperated.kept.config, hentered.config, hsaved.kept.config] at hpass
          exact Tasks.unexpired_reschedule hsound hslice hready hpass

/-- A trap serves the queue in turn; only the timer shortens the distance by a tick. -/
theorem Trapped.inTurn {resumed : Frame} (htrapped : Trapped frame k (.ok resumed) k')
    (hk : k.Coherent) (hsettled : k.tasks.Settled) (hspent : k.tasks.spent < slice.toNat) :
    InTurn slice (ticks frame) k.tasks k'.tasks := by
  cases htrapped with
  | left hsave hentered hoperated hpainted hpassed =>
      have hsaved := (leads_saveContext frame k).of_ok hsave
      have hk₁ := hsaved.coherent hk
      have hsettled₁ := hsaved.settled hsettled
      have hk₂ := hentered.coherent hk₁ hsettled₁.engaged
      have hk₄ := hpainted.coherent (hoperated.coherent hk₂)
      have hattended := hoperated.linesUp hk₂
      rw [← hpainted.tables.2] at hattended
      cases hpassed with
      | passed hpass =>
          obtain ⟨roused, hrouse, hpick⟩ := Tasks.reschedule_eq_ok hpass
          have hroused := hattended.trans (Tasks.linesUp_rouse hk₄.tasks hrouse)
          have hsound := Tasks.Moves.keeps_sound (Tasks.moves_rouse hk₄.tasks.table hrouse).1 hk₄.tasks
          cases hentered with
          | call hvector hcalled =>
              rw [ticks, if_neg (by rw [hvector]; decide)]
              have hserved := (hsaved.linesUp hk).trans (hcalled.linesUp hk₁ hsettled₁.engaged)
              exact (hserved.trans hroused).inTurn hsound hpick
          | timer hvector hticked =>
              rw [ticks, if_pos hvector]
              obtain ⟨active, hcurrent, _⟩ := hsettled
              obtain ⟨p, _, hsame⟩ := hsaved.rewrite hk hcurrent
              obtain ⟨hqueue, hkept, hticks⟩ := hticked.spent hk₁ (hsame.current.trans hcurrent)
              have hbefore := ((hsaved.linesUp hk).current.resolve_left
                (by rw [hsame.current, hcurrent]; simp)).2
              refine (hroused.inTurn hsound hpick).tick (hqueue.trans hsame.queue) ?_
              rw [hticks, hbefore]
              omega

/-! ## Courses -/

variable {moments past later : List (Moment P)} {m : Moment P} {deed : Deed P}

/-- The ticks of a deed. -/
def Deed.ticks {P : Type} : Deed P → Nat
  | .trap frame => Kernel.ticks frame
  | _ => 0

/-- Only traps take time. -/
theorem Deed.exists_frame_of_ticks {P : Type} {deed : Deed P} (hticks : deed.ticks ≠ 0) :
    ∃ frame, deed = .trap frame := by
  cases deed with
  | trap frame => exact ⟨frame, rfl⟩
  | bind | spawn | machine | exit | schedule | call | systemCall | tick | press | paint =>
      exact absurd rfl hticks

theorem Deed.ticks_of_other {P : Type} {deed : Deed P} (hother : ∀ frame, deed ≠ .trap frame) :
    deed.ticks = 0 := by
  by_contra hticks
  obtain ⟨frame, hframe⟩ := Deed.exists_frame_of_ticks hticks
  exact hother frame hframe

/-- The ticks of some moments. -/
def ticksOf {P : Type} (moments : List (Moment P)) : Nat := (moments.map fun m => m.deed.ticks).sum

/-- The settings stay as they are. -/
theorem Deed.config (hordinary : deed.ordinary) (hdone : deed.carryOut k = .ok () k') :
    k'.config = k.config := by
  rcases Deed.effect hordinary hdone with
    ⟨frame, _, _, htrap⟩ | ⟨_, _, _, _, hspawned⟩ | ⟨_, _, _, rfl⟩
  · exact ((leads_trap frame k).of_ok htrap).config
  · exact hspawned.kept.config
  · rfl

/-- Only ticks move the clock. -/
theorem Deed.clock (hordinary : deed.ordinary) (hdone : deed.carryOut k = .ok () k') :
    k'.clock.now.toNat = k.clock.now.toNat + deed.ticks := by
  rcases Deed.effect hordinary hdone with
    ⟨frame, _, rfl, htrap⟩ | ⟨_, _, _, rfl, hspawned⟩ | ⟨hother, _, _, rfl⟩
  · exact ((leads_trap frame k).of_ok htrap).clock
  · rw [hspawned.kept.clock]
    rfl
  · rw [Deed.ticks_of_other hother]
    rfl

/-- Between traps processes evolve. -/
theorem Deed.evolvesAt (hordinary : deed.ordinary) (hdone : deed.carryOut k = .ok () k')
    (hk : k.Coherent) (hother : ∀ frame, deed ≠ .trap frame) :
    k.tasks.EvolvesAt k.clock.now k'.tasks := by
  rcases Deed.effect hordinary hdone with
    ⟨frame, _, hframe, _⟩ | ⟨_, _, _, _, hspawned⟩ | ⟨_, _, _, rfl⟩
  · exact absurd hframe (hother frame)
  · exact hspawned.evolvesAt hk
  · exact .refl _ _

/-- Whatever happens, old pids do not come back. -/
theorem Deed.continues (hordinary : deed.ordinary) (hdone : deed.carryOut k = .ok () k')
    (hk : k.Coherent) (hsettled : k.tasks.Settled) : k.tasks.Continues k'.tasks := by
  by_cases htrap : ∃ frame, deed = .trap frame
  · obtain ⟨frame, rfl⟩ := htrap
    obtain ⟨resumed, htrap⟩ := exists_of_discard hdone
    exact ((leads_trap _ k).of_ok htrap).continues hk hsettled.engaged
  · exact (Deed.evolvesAt hordinary hdone hk (not_exists.1 htrap)).continues

theorem Deed.unexpired (hordinary : deed.ordinary) (hdone : deed.carryOut k = .ok () k')
    (hk : k.Coherent) (hsettled : k.tasks.Settled) (hslice : 0 < k.config.timeSlice)
    (h : k.tasks.Unexpired k.config.timeSlice) : k'.tasks.Unexpired k.config.timeSlice := by
  rcases Deed.effect hordinary hdone with
    ⟨frame, _, _, htrap⟩ | ⟨_, _, _, _, hspawned⟩ | ⟨_, _, _, rfl⟩
  · exact ((leads_trap frame k).of_ok htrap).unexpired hk hsettled hslice h
  · exact (hspawned.evolvesAt hk).unexpired hslice h
  · exact h

/-- Everything that happens serves the queue in turn. -/
theorem Deed.inTurn (hordinary : deed.ordinary) (hdone : deed.carryOut k = .ok () k')
    (hk : k.Coherent) (hsettled : k.tasks.Settled) (hspent : k.tasks.spent < slice.toNat) :
    InTurn slice deed.ticks k.tasks k'.tasks := by
  obtain ⟨hk', active, hcurrent, _⟩ := Deed.coherent hordinary hdone hk hsettled
  have hstays (h : k.tasks.LinesUp k'.tasks) : InTurn slice 0 k.tasks k'.tasks :=
    h.inTurn_of_current hk'.tasks.queue_nodup (by rw [hcurrent]; simp)
  rcases Deed.effect hordinary hdone with
    ⟨frame, _, rfl, htrap⟩ | ⟨_, _, _, rfl, hspawned⟩ | ⟨hother, _, _, rfl⟩
  · exact ((leads_trap frame k).of_ok htrap).inTurn hk hsettled hspent
  · exact hstays (hspawned.linesUp hk)
  · exact Deed.ticks_of_other hother ▸ hstays (.refl _)

/-- Between traps nobody has used up a time slice. -/
theorem Course.unexpired (hcourse : Course moments k) (hordinary : ∀ m ∈ moments, m.deed.ordinary)
    (hslice : 0 < k.config.timeSlice) : k.tasks.Unexpired k.config.timeSlice := by
  induction hcourse with
  | boot hfresh hboot =>
      -- every process is as it was created, apart from what evolved
      have hevolves := ((leads_boot _ _ _).of_ok hboot _ rfl).evolvesAt hfresh.coherent
      refine hevolves.unexpired hslice fun pid p hget => ?_
      rw [hfresh.tables.1, Tasks.empty, ProcessTable.get?_empty] at hget
      contradiction
  | step hcourse hdone ih =>
      have hpast := fun m hm => hordinary m (List.mem_cons_of_mem _ hm)
      have hdeed := hordinary _ List.mem_cons_self
      obtain ⟨hk, hsettled⟩ := hcourse.coherent hpast
      rw [Deed.config hdeed hdone] at hslice ⊢
      exact Deed.unexpired hdeed hdone hk hsettled hslice (ih hpast hslice)

/-- Whoever is queued comes closer with every tick until it is active. -/
theorem Course.closer (hcourse : Course (later ++ m :: past) k)
    (hordinary : ∀ u ∈ later ++ m :: past, u.deed.ordinary) (hslice : 0 < slice)
    (hconfig : m.before.config.timeSlice = slice) (hmem : pid ∈ m.before.tasks.queue) :
    (∃ u ∈ later ++ [m], u.after.tasks.stateOf pid = some .active) ∨
      pid ∈ k.tasks.queue ∧
        k.tasks.distance slice pid + ticksOf (later ++ [m]) ≤ m.before.tasks.distance slice pid := by
  have hunexpired : m.before.tasks.Unexpired slice := by
    have hpast := hcourse.upTo.tail.1
    rw [← hconfig]
    exact hpast.unexpired (fun u hu => hordinary u (List.mem_append_right _
      (List.mem_cons_of_mem _ hu))) (hconfig ▸ hslice)
  have hone (u : Moment P) (hu : u.deed.ordinary) (hk : u.before.Coherent)
      (hsettled : u.before.tasks.Settled) (hdone : u.deed.carryOut u.before = .ok () u.after)
      (h : u.before.tasks.Unexpired slice) (hqueued : pid ∈ u.before.tasks.queue) :
      u.after.tasks.stateOf pid = some .active ∨ pid ∈ u.after.tasks.queue ∧
        u.after.tasks.distance slice pid + u.deed.ticks ≤ u.before.tasks.distance slice pid := by
    have hturn := Deed.inTurn hu hdone hk hsettled (h.spent_lt hslice)
    by_cases hstays : pid ∈ u.after.tasks.queue
    · exact .inr ⟨hstays, hturn.closer pid hqueued hstays⟩
    · exact .inl (hturn.leaves pid hqueued hstays)
  have hends := hcourse.since_ordinary (Q := fun later k =>
    k.config.timeSlice = slice ∧ k.tasks.Unexpired slice ∧
      ((∃ u ∈ later ++ [m], u.after.tasks.stateOf pid = some .active) ∨ pid ∈ k.tasks.queue ∧
        k.tasks.distance slice pid + ticksOf (later ++ [m]) ≤ m.before.tasks.distance slice pid))
    hordinary ?_ ?_
  · exact hends.2.2
  · intro hm hk hsettled hdone
    refine ⟨(congrArg _ (Deed.config hm hdone)).trans hconfig, ?_, ?_⟩
    · have hafter := Deed.unexpired hm hdone hk hsettled (hconfig ▸ hslice) (hconfig ▸ hunexpired)
      rwa [hconfig] at hafter
    · rcases hone m hm hk hsettled hdone hunexpired hmem with hactive | hcloser
      · exact .inl ⟨m, List.mem_singleton_self m, hactive⟩
      · exact .inr (by simpa [ticksOf] using hcloser)
  · rintro u later hu hk hsettled hdone ⟨hsame, h, hbefore⟩
    refine ⟨(congrArg _ (Deed.config hu hdone)).trans hsame, ?_, ?_⟩
    · have hafter := Deed.unexpired hu hdone hk hsettled (hsame ▸ hslice) (hsame ▸ h)
      rwa [hsame] at hafter
    rcases hbefore with ⟨v, hv, hactive⟩ | ⟨hqueued, hle⟩
    · exact .inl ⟨v, List.mem_cons_of_mem _ hv, hactive⟩
    rcases hone u hu hk hsettled hdone h hqueued with hactive | ⟨hstays, hcloser⟩
    · exact .inl ⟨u, List.mem_cons_self, hactive⟩
    · refine .inr ⟨hstays, ?_⟩
      simp only [ticksOf, List.cons_append, List.map_cons, List.sum_cons] at hle ⊢
      omega

/-- With a time slice of at least one tick, nobody has used up a time slice between traps, and
everything that happens serves the queue in turn: who stays queued stays in order, who leaves
is active, and the distance to the processor never grows and shrinks with every tick.  So a
queued process is active at the latest with the tick that ends one time slice for it and one
for each process ahead of it. -/
theorem round_robin (hcourse : Course (later ++ m :: past) k)
    (hordinary : ∀ u ∈ later ++ m :: past, u.deed.ordinary) (hslice : 1 ≤ k.config.timeSlice) :
    k.tasks.Unexpired k.config.timeSlice ∧
    InTurn k.config.timeSlice m.deed.ticks m.before.tasks m.after.tasks ∧
    ∀ pid ∈ m.before.tasks.queue,
      (m.before.tasks.queue.idxOf pid + 1) * k.config.timeSlice.toNat ≤ ticksOf (later ++ [m]) →
        ∃ u ∈ later ++ [m], u.after.tasks.stateOf pid = some .active := by
  have hpositive : 0 < k.config.timeSlice := by
    rw [UInt64.lt_iff_toNat_lt]
    exact UInt64.le_iff_toNat_le.1 hslice
  have hends := hcourse.unexpired hordinary hpositive
  have hpast (u : Moment P) (hu : u ∈ past) : u.deed.ordinary :=
    hordinary u (List.mem_append_right _ (List.mem_cons_of_mem _ hu))
  have hm : m.deed.ordinary := hordinary m (List.mem_append_right _ List.mem_cons_self)
  obtain ⟨hbefore, hdone, _⟩ := hcourse.upTo.tail
  obtain ⟨hk, hsettled⟩ := hbefore.coherent hpast
  have hconfig : k.config = m.before.config := by
    refine hcourse.since (Q := fun later k => (∀ u ∈ later ++ m :: past, u.deed.ordinary) →
      k.config = m.before.config) ?_ ?_ hordinary
    · exact fun _ hdone _ => Deed.config hm hdone
    · exact fun u later _ hdone ih hordinary => (Deed.config (hordinary u List.mem_cons_self)
        hdone).trans (ih fun v hv => hordinary v (List.mem_cons_of_mem _ hv))
  rw [hconfig] at hpositive hends ⊢
  refine ⟨hends, Deed.inTurn hm hdone hk hsettled
    ((hbefore.unexpired hpast hpositive).spent_lt hpositive), fun pid hmem hticks => ?_⟩
  refine (hcourse.closer hordinary hpositive rfl hmem).resolve_right fun ⟨_, hcloser⟩ => ?_
  -- the active process has a tick left, and nobody has more than a time slice
  have hleft := hends.spent_lt hpositive
  rw [Tasks.distance, Tasks.distance] at hcloser
  rw [Nat.succ_mul] at hticks
  have hnothing := Nat.zero_le
    (k.tasks.queue.idxOf pid * m.before.config.timeSlice.toNat)
  omega

/-- One process yields and the others run on, so the second of them is active before ten ticks
are over. -/
theorem round_robin_over_two_slices :
    ∃ (later past : List (Moment Simulated)) (m : Moment Simulated) (k : Kernel Simulated),
      Course (later ++ m :: past) k ∧ (∀ u ∈ later ++ m :: past, u.deed.ordinary) ∧
      1 ≤ k.config.timeSlice ∧ m.before.tasks.queue = [⟨1⟩, ⟨2⟩, ⟨3⟩] ∧
      InTurn k.config.timeSlice m.deed.ticks m.before.tasks m.after.tasks ∧
      ∃ u ∈ later ++ [m], u.after.tasks.stateOf ⟨2⟩ = some .active := by
  obtain ⟨later, m, past, k, hcourse, hordinary, hcheck⟩ := exists_course_around 12
    (List.replicate 5 (.trap timerFrame) ++ [.trap (callFrame .getTime 0 0),
      .spawn 0x1000 "fourth", .trap timerFrame, .trap (callFrame .yield 0 0)] ++
      List.replicate 4 (.trap timerFrame))
    (fun later m _ k => decide (1 ≤ k.config.timeSlice ∧
      m.before.tasks.queue = [⟨1⟩, ⟨2⟩, ⟨3⟩] ∧
      (m.before.tasks.queue.idxOf ⟨2⟩ + 1) * k.config.timeSlice.toNat ≤ ticksOf (later ++ [m])))
    (by decide +kernel)
  obtain ⟨hslice, hqueue, hticks⟩ := of_decide_eq_true hcheck
  obtain ⟨_, hturn, hactive⟩ := round_robin hcourse hordinary hslice
  exact ⟨later, past, m, k, hcourse, hordinary, hslice, hqueue, hturn,
    hactive ⟨2⟩ (by rw [hqueue]; decide) hticks⟩

end Timeshare.Kernel
