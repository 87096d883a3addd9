import Timeshare.Proofs.Tasks.Pass

/-!
# The run queue holds exactly the ready processes

Sound tasks queue no process twice, queue only processes that are ready, queue
every ready process but idle, and record the active process.  Each kind of
rewrite (a process keeps its state, becomes ready, stops, or gets the
processor) keeps tasks sound, and so does every move of a scheduling pass.
-/

namespace Timeshare.Tasks

variable {now : UInt64} {before after t : Tasks} {pid : Pid} {p : Process}
  {p' : Option Process} {queue : List Pid} {current : Option Pid}

/-- What every operation on tasks keeps. -/
structure Sound (t : Tasks) : Prop where
  table : t.table.Sound
  queue_nodup : t.queue.Nodup
  /-- Queued processes are ready. -/
  queued : ∀ pid ∈ t.queue, t.stateOf pid = some .running
  /-- Ready processes are queued; only idle may be ready without being queued. -/
  ready : ∀ pid, t.stateOf pid = some .running → pid ≠ .idle → pid ∈ t.queue
  /-- An active process is the recorded one. -/
  active : ∀ pid, t.stateOf pid = some .active → t.current = some pid

theorem sound_empty : empty.Sound := by
  have hnone (pid : Pid) : empty.stateOf pid = none := by
    rw [stateOf, empty, ProcessTable.get?_empty]
    rfl
  refine ⟨ProcessTable.empty_sound, List.nodup_nil, ?_, ?_, ?_⟩
  · intro pid hmem
    exact absurd hmem List.not_mem_nil
  · intro pid hstate
    rw [hnone] at hstate
    contradiction
  · intro pid hstate
    rw [hnone] at hstate
    contradiction

/-- Processes that are not ready are not queued. -/
theorem Sound.not_mem_queue (hsound : t.Sound) (hstate : t.stateOf pid ≠ some .running) :
    pid ∉ t.queue :=
  fun hmem => hstate (hsound.queued pid hmem)

/-- The queue is never full. -/
theorem Sound.length_queue_lt (hsound : t.Sound) : t.queue.length < queueCapacity := by
  have hlength : t.queue.length ≤ processCapacity := by
    have hlive : ∀ pid ∈ t.queue, (t.table.get? pid).isSome :=
      fun pid hmem => isSome_of_stateOf (hsound.queued pid hmem)
    exact ProcessTable.length_le_of_live hsound.queue_nodup hlive
  exact Nat.lt_of_le_of_lt hlength (by decide)

/-- Only the recorded process is active. -/
theorem Sound.eq_of_active (hsound : t.Sound) (hcurrent : t.current = some pid) {q : Pid}
    (hactive : t.stateOf q = some .active) : q = pid :=
  Option.some.inj ((hsound.active q hactive).symm.trans hcurrent)

/-! ## Rewrites -/

/-- A rewrite keeps tasks sound if the queue still serves the rewritten process
and the others, and if the processor is still accounted for. -/
theorem Rewrite.sound (h : Rewrite before after pid p' queue current) (hsound : before.Sound)
    (hnodup : queue.Nodup) (hothers : ∀ q, q ≠ pid → (q ∈ queue ↔ q ∈ before.queue))
    (hqueued : pid ∈ queue → p'.map (·.state) = some .running)
    (hready : p'.map (·.state) = some .running → pid ≠ .idle → pid ∈ queue)
    (hactive : p'.map (·.state) = some .active → current = some pid)
    (hcurrent : ∀ q, q ≠ pid → before.stateOf q = some .active → current = some q) :
    after.Sound := by
  -- the rewritten process is covered by the hypotheses, the others by the old tasks
  refine ⟨h.table, by rwa [h.queue], ?_, ?_, ?_⟩
  · intro q hmem
    rw [h.queue] at hmem
    rw [h.stateOf]
    by_cases hq : q = pid
    · rw [if_pos hq]
      exact hqueued (hq ▸ hmem)
    · rw [if_neg hq]
      exact hsound.queued q ((hothers q hq).1 hmem)
  · intro q hstate hidle
    rw [h.stateOf] at hstate
    rw [h.queue]
    by_cases hq : q = pid
    · rw [if_pos hq] at hstate
      rw [hq] at hidle ⊢
      exact hready hstate hidle
    · rw [if_neg hq] at hstate
      exact (hothers q hq).2 (hsound.ready q hstate hidle)
  · intro q hstate
    rw [h.stateOf] at hstate
    rw [h.current]
    by_cases hq : q = pid
    · rw [if_pos hq] at hstate
      rw [hq]
      exact hactive hstate
    · rw [if_neg hq] at hstate
      exact hcurrent q hq hstate

/-- The rewritten process does what it did before. -/
theorem Rewrite.sound_of_same_state (h : Rewrite before after pid p' before.queue before.current)
    (hsound : before.Sound) (hstate : p'.map (·.state) = before.stateOf pid) : after.Sound := by
  refine h.sound hsound hsound.queue_nodup (fun _ _ => Iff.rfl) ?_ ?_ ?_ ?_
  · intro hmem
    rw [hstate]
    exact hsound.queued pid hmem
  · intro hrunning hidle
    rw [hstate] at hrunning
    exact hsound.ready pid hrunning hidle
  · intro hactive
    rw [hstate] at hactive
    exact hsound.active pid hactive
  · intro q _ hactive
    exact hsound.active q hactive

/-- The rewritten process becomes ready behind all others. -/
theorem Rewrite.sound_of_queued
    (h : Rewrite before after pid (some p) (before.queue ++ [pid]) current)
    (hsound : before.Sound) (hfresh : pid ∉ before.queue) (hstate : p.state = .running)
    (hcurrent : ∀ q, q ≠ pid → before.stateOf q = some .active → current = some q) :
    after.Sound := by
  have hrunning : (some p).map (·.state) = some .running := by rw [Option.map_some, hstate]
  refine h.sound hsound ?_ ?_ (fun _ => hrunning) ?_ ?_ hcurrent
  · exact hsound.queue_nodup.append (List.nodup_singleton pid) (by simpa using hfresh)
  · intro q hq
    simp [hq]
  · intro _ _
    simp
  · intro hactive
    rw [hrunning] at hactive
    contradiction

/-- The rewritten process stops: it is asleep, waits or is gone, and it leaves
the queue and the processor. -/
theorem Rewrite.sound_of_stopped
    (h : Rewrite before after pid p' (before.queue.filter (· ≠ pid))
      (if before.current = some pid then none else before.current))
    (hsound : before.Sound) (hrunning : p'.map (·.state) ≠ some .running)
    (hactive : p'.map (·.state) ≠ some .active) : after.Sound := by
  refine h.sound hsound (hsound.queue_nodup.filter _) ?_ ?_ ?_ ?_ ?_
  · intro q hq
    simp [hq]
  · intro hmem
    simp at hmem
  · intro hstate
    exact absurd hstate hrunning
  · intro hstate
    exact absurd hstate hactive
  · intro q hq hstate
    have hother := hsound.active q hstate
    rw [hother, if_neg fun heq => hq (Option.some.inj heq)]

/-! ## Scheduling -/

/-- Every move of a pass keeps tasks sound. -/
theorem Move.keeps_sound (hmove : Move now before after) (hsound : before.Sound) :
    after.Sound := by
  cases hmove with
  | drop hcurrent hstate =>
      rename_i pid
      refine ⟨hsound.table, hsound.queue_nodup, hsound.queued, hsound.ready, ?_⟩
      intro q hactive
      exact absurd (hsound.eq_of_active hcurrent hactive ▸ hactive) hstate
  | expire hcurrent hget hstate hfresh hrewrite =>
      rename_i pid p
      have hother (q : Pid) (hq : q ≠ pid) (hactive : before.stateOf q = some .active) :
          (none : Option Pid) = some q :=
        absurd (hsound.eq_of_active hcurrent hactive) hq
      by_cases hidle : pid = .idle
      · rw [if_pos hidle] at hrewrite
        -- idle was active, so it is not queued, and it may be ready without being queued
        have habsent : pid ∉ before.queue := by
          apply hsound.not_mem_queue
          rw [stateOf, hget, Option.map_some, hstate]
          simp
        refine hrewrite.sound hsound hsound.queue_nodup (fun _ _ => Iff.rfl) ?_ ?_ ?_ hother
        · intro hmem
          exact absurd hmem habsent
        · intro _ hne
          exact absurd hidle hne
        · intro hactive
          simp at hactive
      · rw [if_neg hidle] at hrewrite
        exact hrewrite.sound_of_queued hsound (hfresh hidle) rfl hother
  | wake _ _ _ hfresh hrewrite =>
      exact hrewrite.sound_of_queued hsound hfresh rfl fun q _ hactive => hsound.active q hactive
  | pick hcurrent hget hhead hrewrite =>
      rename_i pid p rest
      have hnobody (q : Pid) : before.stateOf q ≠ some .active := by
        intro hactive
        have hrecorded := hsound.active q hactive
        rw [hcurrent] at hrecorded
        contradiction
      have hnodup := hsound.queue_nodup
      -- the chosen process leaves the queue, and nobody else does
      have hsplit : pid ∉ rest ∧ rest.Nodup ∧ ∀ q, q ≠ pid → (q ∈ rest ↔ q ∈ before.queue) := by
        rcases hhead with hqueue | ⟨hqueue, hrest, _⟩
        · rw [hqueue, List.nodup_cons] at hnodup
          refine ⟨hnodup.1, hnodup.2, fun q hq => ?_⟩
          rw [hqueue, List.mem_cons]
          exact ⟨.inr, fun h => h.resolve_left hq⟩
        · rw [hrest, hqueue]
          exact ⟨List.not_mem_nil, List.nodup_nil, fun _ _ => Iff.rfl⟩
      refine hrewrite.sound hsound hsplit.2.1 hsplit.2.2 ?_ ?_ (fun _ => rfl) ?_
      · intro hmem
        exact absurd hmem hsplit.1
      · intro hrunning
        simp at hrunning
      · intro q _ hactive
        exact absurd hactive (hnobody q)

/-- A chain of moves keeps tasks sound. -/
theorem Moves.keeps_sound (hmoves : Moves now before after) (hsound : before.Sound) :
    after.Sound := by
  induction hmoves with
  | refl => exact hsound
  | tail _ hmove ih => exact hmove.keeps_sound ih

end Timeshare.Tasks
