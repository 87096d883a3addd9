import Timeshare.Proofs.Kernel.Creations
import Timeshare.Proofs.Kernel.Faultless
import Timeshare.Proofs.Kernel.Orderly
import Timeshare.Proofs.Kernel.Replay

/-!
# Every orderly trap resumes a process

The stages of a trap are gone through one by one: on a ready kernel a fault in one of them
would break an invariant, unless a process is asked for when all pids but the last are given
out.  So a kernel with an orderly history serves every orderly trap, as long as the clock and
the pids last.
-/

namespace Timeshare

/-- A recorded process that is active lives. -/
theorem Tasks.Settled.isSome {t : Tasks} {pid : Pid} (hsettled : t.Settled)
    (hcurrent : t.current = some pid) : (t.table.get? pid).isSome :=
  isSome_of_stateOf (Kernel.Settled.active hsettled hcurrent)

/-- A recorded process other than idle lives. -/
theorem Coherence.isSome_current {t : Tasks} {mutexes : MutexTable} {mailboxes : MailboxTable}
    {pid : Pid} (h : Coherence (· ≠ .idle) t mutexes mailboxes) (hcurrent : t.current = some pid)
    (hidle : pid ≠ .idle) : (t.table.get? pid).isSome :=
  Tasks.isSome_of_stateOf (h.engaged pid hcurrent hidle)

namespace Kernel

open Machine (Simulated)

variable {k k' : Kernel Simulated} {frame : Frame} {fault : Fault}
  {log : List (Happening Simulated)} {created : Nat}

/-! ## Calls -/

/-- A call that is not made by idle faults only for want of pids. -/
theorem Cause.exhausted {call : Call} {arguments : Arguments}
    (hcause : Cause k call arguments fault) (hk : k.Ready) (hsettled : k.tasks.Settled)
    (hcaller : k.current ≠ some .idle) : call = .exec ∧ k.issued + 1 = 2 ^ 32 := by
  have hcoherent := hk.coherent
  have hother {pid : Pid} (hcurrent : k.current = some pid) : pid ≠ .idle :=
    fun heq => hcaller (heq ▸ hcurrent)
  cases hcause with
  | noTicks hzero => exact absurd hzero hk.ticksPerSecond
  | overrun hmachine => exact absurd (Simulated.bounded hk.memory) hmachine
  | create hentry hcreate => exact ⟨rfl, (hcoherent.tasks.create_fault hentry hcreate).2⟩
  | destroy hdestroy =>
      exact absurd hdestroy (hcoherent.tasks.faultless_destroy
        (fun pid hcurrent _ => hsettled.isSome hcurrent) fault)
  | stranger hcurrent hfind =>
      exact absurd hfind (Tasks.find?_ne_none (hsettled.isSome hcurrent))
  | yield hcurrent hfind henqueue =>
      have hactive := Settled.active hsettled hcurrent
      obtain ⟨after, hafter⟩ := hcoherent.tasks.exists_modify_enqueue
        (f := fun p => { p with activeTime := 0 }) hfind (by rw [hactive]; simp)
        (ProcessTable.find?_eq_some hfind).1 rfl
      rw [hafter] at henqueue
      contradiction
  | mutexFree hrelease => exact absurd hrelease (hcoherent.mutexes.faultless_release fault)
  | mutexLock hcurrent hlock =>
      exact absurd hlock
        (hcoherent.faultless_lock hk.restless (hsettled.isSome hcurrent) fault)
  | mutexUnlock _ hunlock => exact absurd hunlock (hcoherent.faultless_unlock hk.restless fault)
  | send _ hsend => exact absurd hsend (hcoherent.faultless_send hk.restless fault)
  | receive hcurrent hreceive =>
      exact absurd hreceive
        (hcoherent.faultless_receive hk.restless (hsettled.isSome hcurrent) fault)

theorem Served.exhausted {call : Call} {arguments : Arguments}
    (hserved : Served k call arguments (.error (.fault fault)) k') (hk : k.Ready)
    (hsettled : k.tasks.Settled) (hcaller : k.current ≠ some .idle) :
    call = .exec ∧ k.issued + 1 = 2 ^ 32 := by
  cases hserved with
  | fault hcause => exact hcause.exhausted hk hsettled hcaller
  | send _ _ hresult =>
      rcases hresult with ⟨hok, _⟩ | ⟨_, hrefused⟩
      · contradiction
      · injection hrefused with hstop
        contradiction
  | receive _ _ hresult =>
      rcases hresult with hok | ⟨_, hrefused⟩
      · contradiction
      · injection hrefused with hstop
        contradiction
  | lost _ hsend hfind =>
      exact absurd hfind
        (Tasks.find?_ne_none (MailboxTable.isSome_receiver hk.coherent.tasks.table hsend))

theorem isSome_ofNumber? {number : UInt64} (hnumber : number ≤ 12) :
    (Call.ofNumber? number).isSome := by
  have hlt : number.toNat < Call.all.length := by
    rw [UInt64.le_iff_toNat_le] at hnumber
    exact Nat.lt_succ_of_le hnumber
  rw [Call.ofNumber?, List.getElem?_eq_getElem hlt]
  rfl

/-- An orderly call that faults asks for one process more than there are pids. -/
theorem exhausted_of_systemCall (hcall : systemCall k = .error fault k') (hk : k.Ready)
    (hsettled : k.tasks.Settled) (hvector : frame.vector = callVector)
    (hnumber : frame.callNumber ≤ 12) (hcaller : k.current ≠ some .idle)
    (hcontext : ∀ pid p, k.current = some pid → k.tasks.table.get? pid = some p →
      p.context = frame) :
    2 ^ 32 ≤ k.issued + callCreations frame k := by
  cases (leads_systemCall k).of_error hcall with
  | nobody hcurrent =>
      obtain ⟨pid, hrecorded, _⟩ := hsettled
      replace hcurrent : k.tasks.current = none := hcurrent
      rw [hrecorded] at hcurrent
      contradiction
  | stranger hcurrent hfind =>
      exact absurd hfind (Tasks.find?_ne_none (hsettled.isSome hcurrent))
  | fault hcurrent hget hdispatch =>
      -- the call served is the one in the frame
      rw [hcontext _ _ hcurrent hget] at hdispatch
      rcases dispatch_eq_error hdispatch with hunknown | ⟨call, hnamed, hserve⟩
      · have hsome := isSome_ofNumber? hnumber
        rw [hunknown] at hsome
        contradiction
      · have hserved := (leads_serve call frame.arguments k).of_error hserve
        obtain ⟨rfl, hlast⟩ := hserved.exhausted hk hsettled hcaller
        rw [callCreations, if_pos ⟨hvector, hnamed⟩, granted, hserve]
        exact hlast.ge

/-! ## The stages of a trap -/

theorem Ticked.not_fault (hticked : Ticked k (.error fault) k') (hk : k.Ready)
    (hsettled : k.tasks.Settled) (hroom : k.clock.now.toNat + 1 < 2 ^ 64) : False := by
  cases hticked with
  | stranger hcurrent hfind =>
      exact absurd hfind (Tasks.find?_ne_none (hsettled.isSome hcurrent))
  | overflow hword hfull =>
      rename_i word
      -- no time of a process runs ahead of the clock
      have hle : word.toNat ≤ k.clock.now.toNat := by
        rcases hword with rfl | ⟨pid, slot, _, hfind, rfl | rfl⟩
        · exact Nat.le_refl _
        · exact (hk.fit _ _ (ProcessTable.get?_of_find? hfind)).activeTime
        · exact (hk.fit _ _ (ProcessTable.get?_of_find? hfind)).cpuTime
      simp only [Word.range] at hfull
      omega

theorem Saved.not_fault (hsaved : Saved frame k (.error fault) k') (hsettled : k.tasks.Settled) :
    False := by
  cases hsaved with
  | stranger hcurrent hfind =>
      exact absurd hfind (Tasks.find?_ne_none (hsettled.isSome hcurrent))

theorem Painted.not_fault (hpainted : Painted k (.error fault) k') (hk : k.Ready) : False := by
  cases hpainted with
  | noTicks hzero => exact hk.ticksPerSecond hzero
  | display hpaint => injection hpaint

theorem Passed.not_fault (hpassed : Passed k (.error fault) k') (hk : k.Ready) : False := by
  cases hpassed with
  | fault hpass =>
      obtain ⟨result, hresult⟩ := hk.coherent.tasks.exists_reschedule hk.idle
      rw [hresult] at hpass
      contradiction

/-- Behind a pass there is a process to resume. -/
theorem exists_activeContext (hk : k.Ready) (hsettled : k.tasks.Settled) :
    ∃ resumed, activeContext k = .ok resumed ∧ resumed.interruptible = true := by
  obtain ⟨pid, hcurrent, hactive⟩ := hsettled
  obtain ⟨p, hget, _⟩ := Option.map_eq_some_iff.1 hactive
  have hfit := (hk.fit pid p hget).interruptible
  refine ⟨p.context, ?_, hfit⟩
  have hcontext : k.context? pid = some p.context := by rw [context?, hget]; rfl
  replace hcurrent : k.current = some pid := hcurrent
  rw [activeContext, hcurrent]
  dsimp only
  rw [hcontext]
  exact if_pos hfit

theorem ready_of_enter (henter : enter frame k = .ok () k') (hk : k.Ready)
    (hsettled : k.tasks.Settled) (hframe : Orderly frame k.current) : k'.Ready := by
  obtain ⟨saved, hsave, hentered⟩ := enter_eq_ok henter
  have hsaved := (leads_saveContext frame k).of_ok hsave
  exact hentered.ready (hsaved.ready hk hframe.1) (hsaved.settled hsettled)
    (hsaved.current.symm ▸ hframe)

theorem ready_of_attend (hattend : attend k = .ok () k') (hk : k.Ready) : k'.Ready := by
  obtain ⟨operated, hoperated, hpainted⟩ := attend_eq_ok hattend
  exact hpainted.ready (hoperated.ready hk)

/-- The serving of an orderly trap faults only for want of pids. -/
theorem exhausted_of_enter (henter : enter frame k = .error fault k') (hk : k.Ready)
    (hsettled : k.tasks.Settled) (hframe : Orderly frame k.current)
    (hticks : k.clock.now.toNat + ticks frame < 2 ^ 64) :
    2 ^ 32 ≤ k.issued + behind (saveContext frame) (callCreations frame) k := by
  rcases bind_eq_error_iff.1 henter with hsave | ⟨_, saved, hsave, hserve⟩
  · exact (((leads_saveContext frame k).of_error hsave).not_fault hsettled).elim
  -- the saved registers are those of the frame, and the kernel is as ready as before
  have hsaved := (leads_saveContext frame k).of_ok hsave
  have hready := hsaved.ready hk hframe.1
  have hactive := hsaved.settled hsettled
  rw [behind_of_ok hsave, ← hsaved.issued]
  split at hserve
  · rename_i htimer
    rw [ticks, if_pos htimer, ← hsaved.kept.clock] at hticks
    exact (((leads_timerTick saved).of_error hserve).not_fault hready hactive hticks).elim
  rename_i htimer
  obtain ⟨hvector, hnumber, hcaller⟩ := hframe.2.resolve_left htimer
  rw [if_pos hvector] at hserve
  exact exhausted_of_systemCall hserve hready hactive hvector hnumber
    (hsaved.current.symm ▸ hcaller) fun _ _ hcurrent hget =>
      hsaved.context hk.coherent hcurrent hget

/-- The operator's key faults only for want of pids. -/
theorem exhausted_of_attend (hattend : attend k = .error fault k') (hk : k.Ready) :
    2 ^ 32 ≤ k.issued + keyCreations k := by
  rcases bind_eq_error_iff.1 hattend with hserve | ⟨_, operated, hserve, hpaint⟩
  · cases (leads_serveOperator k).of_error hserve with
    | killFault hdestroy =>
        exact absurd hdestroy (hk.coherent.tasks.faultless_destroy
          (fun pid hcurrent hidle => hk.coherent.isSome_current hcurrent hidle) fault)
    | spawnFault hpoll hkey hcreate =>
        have hlast := (hk.coherent.tasks.create_fault (hk.entry _ _ hkey) hcreate).2
        rw [keyCreations, hpoll, Option.bind_some, hkey, Option.elim_some, commandCreations,
          granted_spawn, hcreate]
        exact hlast.ge
  · have hready := ((leads_serveOperator k).of_ok hserve).ready hk
    rw [get_bind] at hpaint
    split at hpaint
    · exact (((leads_paintStats operated).of_error hpaint).not_fault hready).elim
    · contradiction

/-- A ready kernel always finds a process to resume. -/
theorem leave_ne_error (hk : k.Ready) : (leave k : EStateM.Result ..) ≠ .error fault k' := by
  intro hleave
  unfold leave at hleave
  rw [discard_bind] at hleave
  rcases bind_eq_error_iff.1 hleave with hschedule | ⟨transition, passed, hschedule, hcheck⟩
  · exact ((leads_schedule k).of_error hschedule).not_fault hk
  · have hpassed := (leads_schedule k).of_ok hschedule
    obtain ⟨resumed, hok, _⟩ := exists_activeContext (hpassed.ready hk)
      ⟨_, hpassed.settled hk.coherent⟩
    rw [get_bind, hok] at hcheck
    contradiction

/-- An orderly trap of a ready kernel faults only if it creates one process more than there
are pids. -/
theorem exhausted_of_trap (htrap : trap frame k = .error fault k') (hk : k.Ready)
    (hsettled : k.tasks.Settled) (hframe : Orderly frame k.current)
    (hticks : k.clock.now.toNat + ticks frame < 2 ^ 64) :
    2 ^ 32 ≤ k.issued + creations frame k := by
  rw [trap_eq] at htrap
  rcases bind_eq_error_iff.1 htrap with henter | ⟨_, entered, henter, htrap⟩
  · exact (exhausted_of_enter henter hk hsettled hframe hticks).trans
      (Nat.add_le_add_left (Nat.le_add_right ..) _)
  have hentered := ready_of_enter henter hk hsettled hframe
  rcases bind_eq_error_iff.1 htrap with hattend | ⟨_, attended, hattend, hleave⟩
  · have hlast := exhausted_of_attend hattend hentered
    rwa [issued_enter henter hk.coherent, Nat.add_assoc, ← behind_of_ok henter keyCreations]
      at hlast
  · exact absurd hleave (leave_ne_error (ready_of_attend hattend hentered))

/-- Behind a trap that went through, the resumed registers let interrupts through. -/
theorem Trapped.interruptible {resumed : Frame} (htrapped : Trapped frame k (.ok resumed) k') :
    resumed.interruptible = true := by
  cases htrapped with
  | left _ _ _ _ _ hresult =>
      unfold activeContext at hresult
      split at hresult
      · contradiction
      split at hresult
      · contradiction
      split at hresult
      · rename_i hinterruptible
        injection hresult with heq
        exact heq ▸ hinterruptible
      · contradiction

/-- Every orderly trap of an orderly history resumes a process with interrupts enabled, as long
as there are fewer than 2⁶⁴ ticks and fewer than 2³² creations, those of the trap included. -/
theorem trap_resumes (htallied : Tallied log k created)
    (horderly : ∀ happening ∈ log, happening.Orderly) (hframe : Orderly frame k.current)
    (hticks : elapsed log + ticks frame < 2 ^ 64)
    (hcreated : created + creations frame k < 2 ^ 32) :
    ∃ resumed k', trap frame k = .ok resumed k' ∧ resumed.interruptible = true := by
  have hhistory := htallied.history
  cases htrap : trap frame k with
  | ok resumed k' =>
      exact ⟨resumed, k', rfl, ((leads_trap frame k).of_ok htrap).interruptible⟩
  | error fault k' =>
      rw [← hhistory.clock] at hticks
      rw [← htallied.issued] at hcreated
      have hlast := exhausted_of_trap htrap (hhistory.ready horderly) hhistory.coherent.2 hframe
        hticks
      exact absurd hcreated hlast.not_gt

/-- The holder of a contended mutex hands it over, and a key that was typed starts one more
process behind idle and the three that were started at boot. -/
theorem trap_resumes_at_hand_over :
    ∃ r : Recorded Simulated, Tallied r.1 r.2 4 ∧
      ((∀ happening ∈ r.1, happening.Orderly) ∧
        Orderly (callFrame .mutexUnlock 0 0) r.2.current ∧
        elapsed r.1 + ticks (callFrame .mutexUnlock 0 0) < 2 ^ 64 ∧
        creations (callFrame .mutexUnlock 0 0) r.2 = 1 ∧ r.2.mutexes.waiters = [⟨2⟩]) ∧
      ∃ resumed k', trap (callFrame .mutexUnlock 0 0) r.2 = .ok resumed k' ∧
        resumed.interruptible = true := by
  obtain ⟨r, hhistory, hcheck⟩ := @exists_of_any
    (fun r => (replay (List.replicate 5 timerFrame ++
      [callFrame .mutexAlloc 0 0, callFrame .mutexLock 0 0, callFrame .yield 0 0,
        callFrame .mutexLock 0 0, callFrame .yield 0 0]) r).bind
          (summon 'f' ⟨"fourth", 0x1000⟩))
    (fun r r' hhistory hnext => by
      obtain ⟨replayed, hreplay, hsummon⟩ := Option.bind_eq_some_iff.1 hnext
      exact history_of_summon (history_of_replay hhistory hreplay) hsummon)
    (fun r => decide (r.2.issued = 4 ∧ (∀ happening ∈ r.1, happening.Orderly) ∧
      Orderly (callFrame .mutexUnlock 0 0) r.2.current ∧
      elapsed r.1 + ticks (callFrame .mutexUnlock 0 0) < 2 ^ 64 ∧
      creations (callFrame .mutexUnlock 0 0) r.2 = 1 ∧ r.2.mutexes.waiters = [⟨2⟩]))
    (by decide +kernel)
  obtain ⟨hissued, horderly, hframe, hticks, hcreations, hwaiters⟩ := of_decide_eq_true hcheck
  obtain ⟨created, htallied⟩ := hhistory.exists_tally
  obtain rfl : created = 4 := htallied.issued.symm.trans hissued
  refine ⟨r, htallied, ⟨horderly, hframe, hticks, hcreations, hwaiters⟩, ?_⟩
  exact trap_resumes htallied horderly hframe hticks (by rw [hcreations]; decide)

end Kernel

end Timeshare
