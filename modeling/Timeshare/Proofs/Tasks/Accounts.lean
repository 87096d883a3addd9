import Mathlib.Algebra.BigOperators.Ring.Finset
import Timeshare.Proofs.Tasks.Evolves

/-!
# Accounts of processor time

Every process has an account of the ticks for which it had the processor.  While no tick is
charged, the accounts of the live processes and of those that were destroyed meanwhile add up
to the same total; a tick that is charged to one process adds one.
-/

namespace Timeshare

/-- The ticks in the accounts of some processes. -/
def totalTime (processes : List Process) : Nat := (processes.map fun p => p.cpuTime.toNat).sum

theorem totalTime_append (processes others : List Process) :
    totalTime (processes ++ others) = totalTime processes + totalTime others := by
  simp [totalTime]

namespace Tasks

variable {before after t : Tasks} {pid : Pid} {p p' : Process} {queue : List Pid}
  {current : Option Pid} {now : UInt64}

/-- The live processes, in table order. -/
def processes (t : Tasks) : List Process := t.table.live.map t.table.block

/-- The processes of `before` that are gone in `after`, as they were. -/
def departed (before after : Tasks) : List Process :=
  before.processes.filter fun p => (after.table.get? p.pid).isNone

/-! ## Totals as sums over pids -/

theorem mem_processes (hsound : t.table.Sound) :
    p ∈ t.processes ↔ t.table.get? p.pid = some p := by
  rw [processes, List.mem_map, hsound.distinct.get?_eq_some_iff]
  constructor
  · rintro ⟨slot, hmem, rfl⟩
    exact ⟨slot, rfl, (List.mem_filter.1 hmem).2, rfl⟩
  · rintro ⟨slot, rfl, hlive, _⟩
    exact ⟨slot, List.mem_filter.2 ⟨List.mem_finRange slot, hlive⟩, rfl⟩

theorem nodup_pids (hsound : t.table.Sound) : (t.processes.map (·.pid)).Nodup := by
  rw [processes, List.map_map]
  apply ((List.nodup_finRange _).filter _).map_on
  intro a ha b hb hpid
  exact hsound.distinct a b (List.mem_filter.1 ha).2 (List.mem_filter.1 hb).2 hpid

/-- The pids of the live processes. -/
def pids (t : Tasks) : Finset Pid := (t.processes.map (·.pid)).toFinset

theorem mem_pids (hsound : t.table.Sound) : pid ∈ t.pids ↔ (t.table.get? pid).isSome := by
  rw [pids, List.mem_toFinset, List.mem_map, Option.isSome_iff_exists]
  constructor
  · rintro ⟨p, hmem, rfl⟩
    exact ⟨p, (mem_processes hsound).1 hmem⟩
  · rintro ⟨p, hget⟩
    obtain ⟨_, _, _, _, rfl⟩ := ProcessTable.get?_eq_some hget
    exact ⟨p, (mem_processes hsound).2 hget, rfl⟩

/-- The ticks in the account of a process, if it lives. -/
def timeOf (t : Tasks) (pid : Pid) : Nat := ((t.table.get? pid).map (·.cpuTime.toNat)).getD 0

theorem timeOf_of_get? (hget : t.table.get? pid = some p) : t.timeOf pid = p.cpuTime.toNat := by
  rw [timeOf, hget]
  rfl

/-- Adding up accounts by pid instead of by place. -/
theorem totalTime_eq_sum {processes : List Process} (hnodup : (processes.map (·.pid)).Nodup)
    (hlive : ∀ p ∈ processes, t.table.get? p.pid = some p) :
    totalTime processes = ∑ pid ∈ (processes.map (·.pid)).toFinset, t.timeOf pid := by
  rw [List.sum_toFinset _ hnodup, List.map_map, totalTime]
  congr 1
  exact List.map_congr_left fun p hmem => (timeOf_of_get? (hlive p hmem)).symm

theorem totalTime_processes (hsound : t.table.Sound) :
    totalTime t.processes = ∑ pid ∈ t.pids, t.timeOf pid :=
  totalTime_eq_sum (nodup_pids hsound) fun _ => (mem_processes hsound).1

theorem totalTime_departed (hbefore : before.table.Sound) (hafter : after.table.Sound) :
    totalTime (before.departed after) = ∑ pid ∈ before.pids \ after.pids, before.timeOf pid := by
  have hsublist : (before.departed after).Sublist before.processes := List.filter_sublist
  rw [totalTime_eq_sum ((nodup_pids hbefore).sublist (hsublist.map _))
    fun p hmem => (mem_processes hbefore).1 (hsublist.subset hmem)]
  congr 1
  ext pid
  rw [Finset.mem_sdiff, mem_pids hafter, pids, List.mem_toFinset, List.mem_toFinset, List.mem_map,
    List.mem_map]
  constructor
  · rintro ⟨p, hmem, rfl⟩
    obtain ⟨hlive, hgone⟩ := List.mem_filter.1 hmem
    exact ⟨⟨p, hlive, rfl⟩, by simpa using hgone⟩
  · rintro ⟨⟨p, hlive, rfl⟩, hgone⟩
    exact ⟨p, List.mem_filter.2 ⟨hlive, by simpa using hgone⟩, rfl⟩

/-! ## Conservation -/

/-- No tick is charged: whoever lives had the same account, or is new and has an empty one. -/
def KeepsTimes (before after : Tasks) : Prop :=
  ∀ pid p', after.table.get? pid = some p' →
    (∃ p, before.table.get? pid = some p ∧ p'.cpuTime = p.cpuTime) ∨
      before.table.get? pid = none ∧ p'.cpuTime = 0

theorem Evolves.keepsTimes (h : before.Evolves after) (hsound : before.table.Sound) :
    before.KeepsTimes after := by
  intro pid p' hget
  rcases h.process pid p' hget with ⟨p, hbefore, hp⟩ | ⟨hnew, _, ⟨_, _, _, _, _, _, rfl⟩, hp⟩
  · exact .inl ⟨p, hbefore, hp.cpuTime⟩
  · refine .inr ⟨?_, hp.cpuTime⟩
    cases hbefore : before.table.get? pid with
    | none => rfl
    | some p => exact absurd (hsound.lt_nextPid hbefore) (Nat.not_lt.2 hnew)

theorem KeepsTimes.timeOf (h : before.KeepsTimes after) (hafter : after.table.Sound)
    (hmem : pid ∈ after.pids) : after.timeOf pid = before.timeOf pid := by
  obtain ⟨p', hget⟩ := Option.isSome_iff_exists.1 ((mem_pids hafter).1 hmem)
  rw [timeOf_of_get? hget]
  rcases h pid p' hget with ⟨p, hbefore, hsame⟩ | ⟨hnobody, hzero⟩
  · rw [timeOf_of_get? hbefore, hsame]
  · rw [Tasks.timeOf, hnobody, hzero]
    rfl

/-- What is not charged is not lost either. -/
theorem KeepsTimes.totalTime (h : before.KeepsTimes after) (hbefore : before.table.Sound)
    (hafter : after.table.Sound) :
    totalTime after.processes + totalTime (before.departed after) =
      totalTime before.processes := by
  rw [totalTime_processes hafter, totalTime_departed hbefore hafter, totalTime_processes hbefore,
    ← Finset.sum_inter_add_sum_sdiff before.pids after.pids]
  congr 1
  calc ∑ pid ∈ after.pids, after.timeOf pid
      = ∑ pid ∈ after.pids, before.timeOf pid :=
        Finset.sum_congr rfl fun _ hmem => h.timeOf hafter hmem
    _ = ∑ pid ∈ before.pids ∩ after.pids, before.timeOf pid := by
        refine (Finset.sum_subset Finset.inter_subset_right fun pid hmem habsent => ?_).symm
        -- a new process had no account
        have hnew : ¬ (before.table.get? pid).isSome := fun hlive =>
          habsent (Finset.mem_inter.2 ⟨(mem_pids hbefore).2 hlive, hmem⟩)
        rw [Tasks.timeOf, Option.not_isSome_iff_eq_none.1 hnew]
        rfl

/-- A rewritten process takes its new account into the total. -/
theorem Rewrite.totalTime (h : Rewrite before after pid (some p') queue current)
    (hsound : before.table.Sound) (hget : before.table.get? pid = some p) :
    totalTime after.processes + p.cpuTime.toNat =
      totalTime before.processes + p'.cpuTime.toNat := by
  have hself : after.table.get? pid = some p' := (h.get? pid).trans (if_pos rfl)
  have hpids : after.pids = before.pids := by
    ext q
    rw [mem_pids h.table, mem_pids hsound, h.get?]
    split
    · rename_i heq
      rw [heq, hget]
      rfl
    · rfl
  have hmem : pid ∈ before.pids := (mem_pids hsound).2 (by rw [hget]; rfl)
  have hothers : ∑ q ∈ before.pids.erase pid, after.timeOf q =
      ∑ q ∈ before.pids.erase pid, before.timeOf q := by
    refine Finset.sum_congr rfl fun q hq => ?_
    rw [timeOf, timeOf, h.get?, if_neg (Finset.ne_of_mem_erase hq)]
  rw [totalTime_processes h.table, totalTime_processes hsound, hpids,
    ← Finset.add_sum_erase _ after.timeOf hmem, ← Finset.add_sum_erase _ before.timeOf hmem,
    hothers, timeOf_of_get? hself, timeOf_of_get? hget]
  omega

/-- A rewritten process is not gone. -/
theorem Rewrite.departed (h : Rewrite before after pid (some p') queue current)
    (hsound : before.table.Sound) : before.departed after = [] := by
  refine List.filter_eq_nil_iff.2 fun p hmem => ?_
  rw [h.get?, (mem_processes hsound).1 hmem]
  split <;> simp

theorem processes_empty : empty.processes = [] := by
  refine List.eq_nil_iff_forall_not_mem.2 fun p hmem => ?_
  have hget := (mem_processes ProcessTable.empty_sound).1 hmem
  rw [empty, ProcessTable.get?_empty] at hget
  contradiction

end Tasks

/-! ## Times within a life -/

/-- A process has not used more of its time slice than it had of the processor, and not had
that longer than it lives. -/
structure Process.Timely (p : Process) (now : UInt64) : Prop where
  activeTime : p.activeTime.toNat ≤ p.cpuTime.toNat
  cpuTime : p.startTime.toNat + p.cpuTime.toNat ≤ now.toNat

theorem Process.Evolves.timely {p p' : Process} {now : UInt64} (h : p.Evolves p')
    (hp : p.Timely now) : p'.Timely now where
  activeTime := by
    rw [h.cpuTime]
    exact h.activeTime_le.trans hp.activeTime
  cpuTime := by
    rw [h.startTime, h.cpuTime]
    exact hp.cpuTime

/-- The times of all processes are within their lives. -/
def Tasks.Timely (t : Tasks) (now : UInt64) : Prop :=
  ∀ pid p, t.table.get? pid = some p → p.Timely now

theorem Tasks.Rewrite.timely {before after : Tasks} {pid : Pid} {p : Process} {queue : List Pid}
    {current : Option Pid} {now : UInt64} (h : Rewrite before after pid (some p) queue current)
    (hbefore : before.Timely now) (hp : p.Timely now) : after.Timely now := by
  intro q p' hget
  rw [h.get?] at hget
  split at hget
  · exact Option.some.inj hget ▸ hp
  · exact hbefore q p' hget

/-- Whoever is created lives from now on. -/
theorem Tasks.EvolvesAt.timely {before after : Tasks} {now : UInt64}
    (h : before.EvolvesAt now after) (hbefore : before.Timely now) : after.Timely now := by
  intro pid p' hget
  rcases h.started pid p' hget with ⟨p, hlive, hp⟩ | hstart
  · exact hp.timely (hbefore pid p hlive)
  rcases h.process pid p' hget with ⟨p, hlive, hp⟩ | ⟨_, _, ⟨_, _, _, _, _, _, rfl⟩, hp⟩
  · exact hp.timely (hbefore pid p hlive)
  · constructor
    · rw [hp.cpuTime]
      exact hp.activeTime_le
    · rw [hstart, hp.cpuTime]
      exact Nat.le_refl _

end Timeshare
