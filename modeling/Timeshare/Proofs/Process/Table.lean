import Mathlib.Data.Fintype.Card
import Timeshare.Process.Table
import Timeshare.Proofs.Ring

/-!
# The process table as a map

A sound table gives each live process its own pid below the next one and keeps
exactly the free places in the queue of free places.  Such a table is a finite
map from pids to processes: the three ways in which it changes (a process is
rewritten, added or removed) change the map at one pid.
-/

namespace Timeshare.ProcessTable

variable {table : ProcessTable} {slot other : Slot} {pid : Pid} {p : Process}

/-- Live processes have different pids. -/
def Distinct (table : ProcessTable) : Prop :=
  ∀ a b : Slot, (table.block a).isLive → (table.block b).isLive →
    (table.block a).pid = (table.block b).pid → a = b

/-- What every operation on the process table keeps. -/
structure Sound (table : ProcessTable) : Prop where
  distinct : table.Distinct
  /-- Pids in use have been given out. -/
  issued : ∀ slot : Slot, (table.block slot).isLive →
    (table.block slot).pid.number.toNat < table.nextPid.toNat
  free_nodup : table.free.toList.Nodup
  /-- The queue of free places holds the free places. -/
  mem_free : ∀ slot : Slot, slot ∈ table.free.toList ↔ (table.block slot).isLive = false

theorem isLive_vacant : Process.vacant.isLive = false := rfl

/-! ## Looking up -/

theorem find?_eq_some (hfind : table.find? pid = some slot) :
    (table.block slot).isLive = true ∧ (table.block slot).pid = pid := by
  simpa [beq_iff_eq] using List.find?_some hfind

theorem get?_of_find? (hfind : table.find? pid = some slot) :
    table.get? pid = some (table.block slot) := by
  rw [get?, hfind, Option.map_some]

theorem get?_eq_some (hget : table.get? pid = some p) :
    ∃ slot, table.find? pid = some slot ∧ table.block slot = p ∧ p.isLive = true ∧ p.pid = pid := by
  obtain ⟨slot, hfind, hblock⟩ := Option.map_eq_some_iff.1 hget
  obtain ⟨hlive, hpid⟩ := find?_eq_some hfind
  rw [hblock] at hlive hpid
  exact ⟨slot, hfind, hblock, hlive, hpid⟩

theorem expect_eq_ok_iff : table.expect pid = .ok slot ↔ table.find? pid = some slot := by
  unfold expect
  cases table.find? pid <;> simp

theorem Distinct.find?_block (hdistinct : table.Distinct) (hlive : (table.block slot).isLive) :
    table.find? (table.block slot).pid = some slot := by
  cases hfind : table.find? (table.block slot).pid with
  | none =>
      have habsent := List.find?_eq_none.1 hfind slot (List.mem_finRange slot)
      simp [hlive] at habsent
  | some found =>
      obtain ⟨hfound, hpid⟩ := find?_eq_some hfind
      rw [hdistinct found slot hfound hlive hpid]

theorem Distinct.get?_block (hdistinct : table.Distinct) (hlive : (table.block slot).isLive) :
    table.get? (table.block slot).pid = some (table.block slot) :=
  get?_of_find? (hdistinct.find?_block hlive)

/-- With different pids, the map holds what the places hold. -/
theorem Distinct.get?_eq_some_iff (hdistinct : table.Distinct) :
    table.get? pid = some p ↔
      ∃ slot, table.block slot = p ∧ p.isLive = true ∧ p.pid = pid := by
  constructor
  · intro hget
    obtain ⟨slot, _, hfields⟩ := get?_eq_some hget
    exact ⟨slot, hfields⟩
  · rintro ⟨slot, rfl, hlive, rfl⟩
    exact hdistinct.get?_block hlive

/-! ## One place changes -/

theorem modify_modify (table : ProcessTable) (slot : Slot) (f g : Process → Process) :
    (table.modify slot f).modify slot g = table.modify slot fun p => g (f p) := by
  rw [modify, block_modify_self]
  simp [modify, put]

/-- A change that keeps who lives at a place moves nobody. -/
theorem find?_modify {f : Process → Process}
    (hlive : (f (table.block slot)).isLive = (table.block slot).isLive)
    (hpid : (f (table.block slot)).pid = (table.block slot).pid) (pid : Pid) :
    (table.modify slot f).find? pid = table.find? pid := by
  unfold find?
  congr 1
  funext other
  by_cases hother : other = slot
  · rw [hother, block_modify_self, hlive, hpid]
  · rw [block_modify_of_ne table f hother]

/-- A changed process stays where it is. -/
theorem find?_modify_self {f : Process → Process} (hfind : table.find? pid = some slot)
    (hlive : (f (table.block slot)).isLive)
    (hpid : (f (table.block slot)).pid = (table.block slot).pid) :
    (table.modify slot f).find? pid = some slot :=
  (find?_modify (hlive.trans (find?_eq_some hfind).1.symm) hpid pid).trans hfind

/-- The map after the control block of a live process was changed. -/
theorem get?_modify {f : Process → Process} (hfind : table.find? pid = some slot)
    (hlive : (f (table.block slot)).isLive)
    (hpid : (f (table.block slot)).pid = (table.block slot).pid) (q : Pid) :
    (table.modify slot f).get? q =
      if q = pid then some (f (table.block slot)) else table.get? q := by
  have hbefore := (find?_eq_some hfind).1
  rw [get?, find?_modify (hlive.trans hbefore.symm) hpid]
  split
  · rename_i hq
    rw [hq, hfind, Option.map_some, block_modify_self]
  · rename_i hq
    cases hother : table.find? q with
    | none =>
        rw [get?, hother]
        rfl
    | some other =>
        -- another pid is found at another place
        have hne : other ≠ slot := by
          rintro rfl
          exact hq ((find?_eq_some hother).2.symm.trans (find?_eq_some hfind).2)
        rw [get?_of_find? hother, Option.map_some, block_modify_of_ne table f hne]

theorem block_fill (table : ProcessTable) (slot : Slot) (p : Process)
    (free : Ring Slot queueCapacity) (nextPid : UInt32) :
    block { table.put slot p with free, nextPid } slot = p :=
  table.block_put_self slot p

/-- A change right after a place was filled changes what it was filled with. -/
theorem modify_fill (table : ProcessTable) (slot : Slot) (p : Process) (f : Process → Process)
    (free : Ring Slot queueCapacity) (nextPid : UInt32) :
    modify { table.put slot p with free, nextPid } slot f =
      { table.put slot (f p) with free, nextPid } := by
  rw [modify, block_fill]
  simp [put]

/-- Rewriting one place keeps pids different if the new contents are free or
carry a pid that no other place carries. -/
theorem Distinct.put (hdistinct : table.Distinct)
    (hother : p.isLive → ∀ other, other ≠ slot → (table.block other).isLive →
      (table.block other).pid ≠ p.pid) :
    (table.put slot p).Distinct := by
  intro a b ha hb hpid
  by_cases hslotA : a = slot <;> by_cases hslotB : b = slot
  · rw [hslotA, hslotB]
  · rw [hslotA, block_put_self] at ha hpid
    rw [block_put_of_ne table p hslotB] at hb hpid
    exact absurd hpid.symm (hother ha b hslotB hb)
  · rw [hslotB, block_put_self] at hb hpid
    rw [block_put_of_ne table p hslotA] at ha hpid
    exact absurd hpid (hother hb a hslotA ha)
  · rw [block_put_of_ne table p hslotA] at ha hpid
    rw [block_put_of_ne table p hslotB] at hb hpid
    exact hdistinct a b ha hb hpid

/-- The map after one place was rewritten. -/
theorem Distinct.get?_put (hdistinct : table.Distinct) (hafter : (table.put slot p).Distinct)
    (pid : Pid) :
    (table.put slot p).get? pid =
      if p.isLive ∧ p.pid = pid then some p
      else if (table.block slot).isLive ∧ (table.block slot).pid = pid then none
      else table.get? pid := by
  split
  · rename_i hp
    rw [← hp.2]
    -- the new contents are live and carry the pid
    refine hafter.get?_eq_some_iff.2 ⟨slot, block_put_self table slot p, hp.1, rfl⟩
  · rename_i hp
    refine Option.ext fun q => ?_
    -- else the pid is looked up among the other places, where nothing changed
    rw [hafter.get?_eq_some_iff]
    split
    · rename_i hold
      refine ⟨?_, fun hq => by contradiction⟩
      rintro ⟨found, rfl, hlive, hpid⟩
      by_cases hslot : found = slot
      · rw [hslot, block_put_self] at hlive hpid
        exact absurd ⟨hlive, hpid⟩ hp
      · rw [block_put_of_ne table p hslot] at hlive hpid
        exact absurd (hdistinct found slot hlive hold.1 (hpid.trans hold.2.symm)) hslot
    · rename_i hold
      rw [hdistinct.get?_eq_some_iff]
      constructor
      · rintro ⟨found, rfl, hlive, hpid⟩
        by_cases hslot : found = slot
        · rw [hslot, block_put_self] at hlive hpid
          exact absurd ⟨hlive, hpid⟩ hp
        · exact ⟨found, (block_put_of_ne table p hslot).symm, hlive, hpid⟩
      · rintro ⟨found, rfl, hlive, hpid⟩
        have hslot : found ≠ slot := fun heq => hold (heq ▸ ⟨hlive, hpid⟩)
        exact ⟨found, block_put_of_ne table p hslot, hlive, hpid⟩

/-! ## The three changes -/

/-- A place is rewritten, and the queue of free places and the next pid with it.  The
new contents need a pid of their own that has been given out, and the place has to be
in the queue exactly if it is free now. -/
theorem Sound.put {free : Ring Slot queueCapacity} {nextPid : UInt32} (hsound : table.Sound)
    (hother : p.isLive → ∀ other, other ≠ slot → (table.block other).isLive →
      (table.block other).pid ≠ p.pid)
    (hissued : p.isLive → p.pid.number.toNat < nextPid.toNat)
    (hnext : table.nextPid.toNat ≤ nextPid.toNat) (hnodup : free.toList.Nodup)
    (hself : slot ∈ free.toList ↔ p.isLive = false)
    (hothers : ∀ other, other ≠ slot → (other ∈ free.toList ↔ other ∈ table.free.toList)) :
    Sound { table.put slot p with free, nextPid } := by
  refine ⟨hsound.distinct.put hother, fun other hlive => ?_, hnodup, fun other => ?_⟩
  · show ((table.put slot p).block other).pid.number.toNat < nextPid.toNat
    replace hlive : ((table.put slot p).block other).isLive := hlive
    by_cases hslot : other = slot
    · rw [hslot, block_put_self] at hlive ⊢
      exact hissued hlive
    · rw [block_put_of_ne table p hslot] at hlive ⊢
      exact Nat.lt_of_lt_of_le (hsound.issued other hlive) hnext
  · show other ∈ free.toList ↔ ((table.put slot p).block other).isLive = false
    by_cases hslot : other = slot
    · rw [hslot, block_put_self]
      exact hself
    · rw [block_put_of_ne table p hslot, hothers other hslot]
      exact hsound.mem_free other

/-- A live process is rewritten and keeps its pid. -/
theorem Sound.put_live (hsound : table.Sound) (hlive : (table.block slot).isLive)
    (hp : p.isLive) (hpid : p.pid = (table.block slot).pid) :
    (table.put slot p).Sound ∧
      ∀ pid, (table.put slot p).get? pid = if pid = p.pid then some p else table.get? pid := by
  have hafter : (table.put slot p).Sound := by
    refine hsound.put ?_ ?_ (Nat.le_refl _) hsound.free_nodup ?_ (fun _ _ => Iff.rfl)
    · intro _ other hother hlive' heq
      exact hother (hsound.distinct other slot hlive' hlive (heq.trans hpid))
    · intro _
      rw [hpid]
      exact hsound.issued slot hlive
    · rw [hsound.mem_free slot, hlive, hp]
  refine ⟨hafter, fun pid => ?_⟩
  rw [hsound.distinct.get?_put hafter.distinct]
  by_cases heq : pid = p.pid
  · rw [if_pos heq, if_pos ⟨hp, heq.symm⟩]
  · rw [if_neg heq, if_neg (fun h => heq h.2.symm),
      if_neg (fun h => heq (h.2.symm.trans hpid.symm))]

theorem Sound.modify {f : Process → Process} (hsound : table.Sound)
    (hfind : table.find? pid = some slot) (hlive : (f (table.block slot)).isLive)
    (hpid : (f (table.block slot)).pid = (table.block slot).pid) :
    (table.modify slot f).Sound ∧
      ∀ q, (table.modify slot f).get? q =
        if q = pid then some (f (table.block slot)) else table.get? q := by
  obtain ⟨hbefore, hname⟩ := find?_eq_some hfind
  have hput := hsound.put_live hbefore hlive hpid
  rw [hpid, hname] at hput
  exact hput

/-- A process with the next pid moves into the oldest free place. -/
theorem Sound.add {free : Ring Slot queueCapacity} {nextPid : UInt32} (hsound : table.Sound)
    (hpop : table.free.pop = some (slot, free)) (hp : p.isLive)
    (hpid : p.pid = ⟨table.nextPid⟩) (hnext : nextPid.toNat = table.nextPid.toNat + 1) :
    Sound { table.put slot p with free, nextPid } ∧
      ∀ q, ({ table.put slot p with free, nextPid } : ProcessTable).get? q =
        if q = ⟨table.nextPid⟩ then some p else table.get? q := by
  have hlist := Ring.toList_pop hpop
  have hnodup := hsound.free_nodup
  rw [hlist, List.nodup_cons] at hnodup
  have hempty : (table.block slot).isLive = false :=
    (hsound.mem_free slot).1 (hlist ▸ List.mem_cons_self)
  have hafter : Sound { table.put slot p with free, nextPid } := by
    refine hsound.put ?_ ?_ (by omega) hnodup.2 ?_ ?_
    · -- pids in use are below the next one
      intro _ other _ hother heq
      have hissued := hsound.issued other hother
      rw [heq, hpid] at hissued
      exact Nat.lt_irrefl _ hissued
    · intro _
      rw [hpid, hnext]
      exact Nat.lt_succ_self _
    · rw [hp]
      simpa using hnodup.1
    · intro other hslot
      rw [hlist, List.mem_cons]
      exact ⟨.inr, fun h => h.resolve_left hslot⟩
  refine ⟨hafter, fun q => ?_⟩
  show (table.put slot p).get? q = _
  rw [hsound.distinct.get?_put hafter.distinct, hpid, hempty]
  by_cases heq : q = ⟨table.nextPid⟩
  · rw [if_pos heq, if_pos ⟨hp, heq.symm⟩]
  · rw [if_neg heq, if_neg (fun h => heq h.2.symm), if_neg (fun h => by simp at h)]

/-- A process leaves the table and its place becomes the youngest free one. -/
theorem Sound.remove {free : Ring Slot queueCapacity} (hsound : table.Sound)
    (hfind : table.find? pid = some slot) (hpush : table.free.push slot = some free) :
    Sound { table.put slot Process.vacant with free } ∧
      ∀ q, ({ table.put slot Process.vacant with free } : ProcessTable).get? q =
        if q = pid then none else table.get? q := by
  obtain ⟨hlive, hname⟩ := find?_eq_some hfind
  have hlist := Ring.toList_push hpush
  have habsent : slot ∉ table.free.toList := by
    rw [hsound.mem_free, hlive]
    simp
  have hafter : Sound { table.put slot Process.vacant with free } := by
    refine hsound.put ?_ ?_ (Nat.le_refl _) ?_ ?_ ?_
    · intro h
      rw [isLive_vacant] at h
      contradiction
    · intro h
      rw [isLive_vacant] at h
      contradiction
    · rw [hlist]
      exact hsound.free_nodup.append (List.nodup_singleton slot) (by simpa using habsent)
    · rw [hlist, isLive_vacant]
      simp
    · intro other hslot
      rw [hlist, List.mem_append, List.mem_singleton]
      exact ⟨fun h => h.resolve_right hslot, .inl⟩
  refine ⟨hafter, fun q => ?_⟩
  show (table.put slot Process.vacant).get? q = _
  rw [hsound.distinct.get?_put hafter.distinct, isLive_vacant, if_neg (fun h => by simp at h), hname]
  by_cases heq : q = pid
  · rw [if_pos heq, if_pos ⟨hlive, heq.symm⟩]
  · rw [if_neg heq, if_neg (fun h => heq h.2.symm)]

/-- The pid of a live process has been given out. -/
theorem Sound.lt_nextPid (hsound : table.Sound) (hget : table.get? pid = some p) :
    pid.number.toNat < table.nextPid.toNat := by
  obtain ⟨slot, _, hblock, hlive, hpid⟩ := get?_eq_some hget
  have hissued := hsound.issued slot (by rwa [hblock])
  rwa [hblock, hpid] at hissued

theorem Sound.get?_nextPid (hsound : table.Sound) : table.get? ⟨table.nextPid⟩ = none := by
  cases hget : table.get? ⟨table.nextPid⟩ with
  | none => rfl
  | some p => exact absurd (hsound.lt_nextPid hget) (Nat.lt_irrefl _)

/-! ## How many there are -/

/-- Different live processes are no more than there are places. -/
theorem length_le_of_live {pids : List Pid} (hnodup : pids.Nodup)
    (hlive : ∀ pid ∈ pids, (table.get? pid).isSome) : pids.length ≤ processCapacity := by
  have hsubset : pids ⊆ Slot.all.map fun slot => (table.block slot).pid := by
    intro pid hmem
    obtain ⟨p, hget⟩ := Option.isSome_iff_exists.1 (hlive pid hmem)
    obtain ⟨slot, _, hblock, _, hpid⟩ := get?_eq_some hget
    rw [List.mem_map]
    exact ⟨slot, List.mem_finRange slot, by rw [hblock, hpid]⟩
  have hlength := (hnodup.subperm hsubset).length_le
  rwa [List.length_map, Slot.all, List.length_finRange] at hlength

/-- There is room to free another place. -/
theorem Sound.length_free_le (hsound : table.Sound) :
    table.free.toList.length ≤ processCapacity := by
  have hcard := hsound.free_nodup.length_le_card
  rwa [Fintype.card_fin] at hcard

theorem empty_sound : empty.Sound := by
  have hvacant (slot : Slot) : empty.block slot = Process.vacant := by
    simp [empty, block]
  have hfree : empty.free.toList = Slot.all :=
    Ring.toList_pushAll Slot.all Ring.empty (by decide)
  refine ⟨?_, ?_, ?_, ?_⟩
  · intro a b ha
    rw [hvacant, isLive_vacant] at ha
    exact absurd ha Bool.false_ne_true
  · intro slot hlive
    rw [hvacant, isLive_vacant] at hlive
    exact absurd hlive Bool.false_ne_true
  · rw [hfree]
    exact List.nodup_finRange _
  · intro slot
    rw [hvacant, hfree]
    exact ⟨fun _ => isLive_vacant, fun _ => List.mem_finRange slot⟩

theorem get?_empty (pid : Pid) : empty.get? pid = none := by
  cases hget : empty.get? pid with
  | none => rfl
  | some p =>
      obtain ⟨slot, hblock, hlive, _⟩ := empty_sound.distinct.get?_eq_some_iff.1 hget
      have hvacant : p = Process.vacant := by simpa [empty, block] using hblock.symm
      rw [hvacant, isLive_vacant] at hlive
      contradiction

end Timeshare.ProcessTable
