import Mathlib.Data.List.FinRange
import Mathlib.Logic.Basic
import Timeshare.Proofs.Ring
import Timeshare.Proofs.Run
import Timeshare.Word

/-!
# Rings against lists and registers

Two more ways to keep a bounded queue stand beside a ring.  A line keeps the
items as a list: it is what a queue is for.  Registers keep the cells with
three numbers, the cell of the oldest item, the cell of the next one and the
count of items, and check every index, every remainder and every sum; they are
what a queue costs.  A ring drops the second number, which follows from the
others, and its types leave nothing to check.

Any requests to the three, from no items on, get the same answers.  The
registers never fault, the ring keeps the items of the line in order, and its
cells outside the window of items stay cleared.
-/

namespace Timeshare.Ring

variable {α : Type} {n : Nat}

/-- What a queue is asked for. -/
inductive Request (α : Type) where
  | push (a : α)
  | pop
  deriving DecidableEq

/-- What a queue answers. -/
inductive Reply (α : Type) where
  /-- The item was appended. -/
  | kept
  /-- There was no room for the item. -/
  | full
  /-- The oldest item, if there was one. -/
  | taken (item : Option α)
  deriving DecidableEq

/-- Serve requests in order and collect the answers. -/
def answers {σ : Type} (serve : σ → Request α → Reply α × σ) :
    σ → List (Request α) → List (Reply α) × σ
  | s, [] => ([], s)
  | s, request :: rest =>
      let (reply, s) := serve s request
      let (replies, s) := answers serve s rest
      (reply :: replies, s)

/-- One request to a ring; a full ring and an empty one stay as they are. -/
def serve [Inhabited α] (q : Ring α n) : Request α → Reply α × Ring α n
  | .push a =>
      match q.push a with
      | none => (.full, q)
      | some r => (.kept, r)
  | .pop =>
      match q.pop with
      | none => (.taken none, q)
      | some (a, r) => (.taken (some a), r)

/-! ## Lines -/

/-- One request to a line of at most `n` items: the last place is joined, the first one is
left. -/
def lineUp (n : Nat) (items : List α) : Request α → Reply α × List α
  | .push a => if items.length < n then (.kept, items ++ [a]) else (.full, items)
  | .pop =>
      match items with
      | [] => (.taken none, [])
      | a :: rest => (.taken (some a), rest)

/-! ## Registers -/

/-- The cells of a queue with all the numbers that say where its items are. -/
structure Registers (α : Type) (n : Nat) where
  cells : Vector α n
  /-- The cell of the oldest item. -/
  head : Nat
  /-- The cell of the next item. -/
  tail : Nat
  /-- The number of items. -/
  count : Nat

namespace Registers

/-- Registers without items. -/
def empty [Inhabited α] : Registers α n := ⟨Vector.replicate n default, 0, 0, 0⟩

/-- Read a cell. -/
def load (cells : Vector α n) (i : Nat) : Except Fault α :=
  if h : i < n then .ok cells[i] else .error .outOfBounds

/-- Write a cell. -/
def store (cells : Vector α n) (i : Nat) (a : α) : Except Fault (Vector α n) :=
  if h : i < n then .ok (cells.set i a) else .error .outOfBounds

/-- What remains of `i` when it is divided by the number of cells. -/
def wrap (n i : Nat) : Except Fault Nat :=
  if n = 0 then .error (.arithmetic .divide) else .ok (i % n)

/-- The cell that lies `i` cells after `start`. -/
def advance (n start i : Nat) : Except Fault Nat := do
  let sum ← Word.addSize start i
  wrap n sum

def push (r : Registers α n) (a : α) : Except Fault (Reply α × Registers α n) := do
  if r.count = n then
    return (.full, r)
  let cells ← store r.cells r.tail a
  let tail ← advance n r.tail 1
  let count ← Word.addSize r.count 1
  return (.kept, { r with cells, tail, count })

def pop [Inhabited α] (r : Registers α n) : Except Fault (Reply α × Registers α n) := do
  if r.count = 0 then
    return (.taken none, r)
  let a ← load r.cells r.head
  let cells ← store r.cells r.head default
  let head ← advance n r.head 1
  return (.taken (some a), { r with cells, head, count := r.count - 1 })

/-- One request to registers. -/
def serve [Inhabited α] (r : Registers α n) : Request α → Except Fault (Reply α × Registers α n)
  | .push a => r.push a
  | .pop => r.pop

/-- Serve requests in order and collect the answers, up to a fault. -/
def answers [Inhabited α] : Registers α n → List (Request α) →
    Except Fault (List (Reply α) × Registers α n)
  | r, [] => .ok ([], r)
  | r, request :: rest => do
      let (reply, r) ← r.serve request
      let (replies, r) ← answers r rest
      return (reply :: replies, r)

/-- The items, oldest first, read cell by cell. -/
def items (r : Registers α n) : Except Fault (List α) :=
  (List.finRange r.count).mapM fun i => do
    let place ← advance n r.head i.val
    load r.cells place

/-- Whether `a` is among the items. -/
def contains [BEq α] (r : Registers α n) (a : α) : Except Fault Bool := do
  let items ← r.items
  return items.any (· == a)

theorem load_eq_ok {cells : Vector α n} {i : Nat} (hi : i < n) : load cells i = .ok cells[i] :=
  dif_pos hi

theorem store_eq_ok {cells : Vector α n} {i : Nat} (hi : i < n) (a : α) :
    store cells i a = .ok (cells.set i a) :=
  dif_pos hi

/-- A cell that exists is found when the sum fits a word. -/
theorem advance_eq_ok {start i : Nat} (hroom : 0 < n) (hfits : start + i < Word.range) :
    advance n start i = .ok ((start + i) % n) := by
  unfold advance Word.addSize wrap
  rw [if_pos hfits]
  exact if_neg (Nat.ne_of_gt hroom)

/-- The registers say of each item what the ring says. -/
structure Matches (r : Registers α n) (q : Ring α n) : Prop where
  cells : r.cells = q.cells
  head : r.head = q.head
  count : r.count = q.size
  /-- The next item goes behind the window, also when that wraps around. -/
  tail : r.tail = q.index q.size

theorem matches_empty [Inhabited α] :
    (empty : Registers α n).Matches (Ring.empty : Ring α n) where
  cells := rfl
  head := rfl
  count := rfl
  tail := (Nat.zero_mod n).symm

variable {r : Registers α n} {q : Ring α n}

/-- Pushing to registers does what pushing to the ring does. -/
theorem Matches.push (hmatches : r.Matches q) (hcapacity : n < Word.range) (a : α) :
    match q.push a with
    | none => r.push a = .ok (.full, r)
    | some p => ∃ r', r.push a = .ok (.kept, r') ∧ r'.Matches p := by
  unfold Ring.push
  split
  · rename_i hpush
    split at hpush
    · contradiction
    · rename_i hfull
      have hcount : r.count = n := by have := q.size_le; rw [hmatches.count]; omega
      unfold Registers.push
      rw [if_pos hcount]
      rfl
  · rename_i p hpush
    split at hpush
    · rename_i hroom
      injection hpush with hpush
      subst hpush
      have hn : 0 < n := by omega
      have htail : r.tail < n := hmatches.tail ▸ q.index_lt _ hn
      have hcount : r.count ≠ n := by rw [hmatches.count]; omega
      refine ⟨⟨r.cells.set r.tail a, r.head, (r.tail + 1) % n, r.count + 1⟩, ?_, ?_⟩
      · unfold Registers.push Word.addSize
        rw [if_neg hcount, store_eq_ok htail, advance_eq_ok hn (by omega),
          if_pos (by rw [hmatches.count]; omega)]
        rfl
      · refine ⟨?_, hmatches.head, congrArg (· + 1) hmatches.count, ?_⟩
        · simp only [hmatches.cells, hmatches.tail]
        · show (r.tail + 1) % n = (q.head + (q.size + 1)) % n
          rw [hmatches.tail]
          exact q.index_add q.size 1
    · contradiction

/-- Popping from registers does what popping from the ring does. -/
theorem Matches.pop [Inhabited α] (hmatches : r.Matches q) (hcapacity : n < Word.range) :
    match q.pop with
    | none => r.pop = .ok (.taken none, r)
    | some (a, p) => ∃ r', r.pop = .ok (.taken (some a), r') ∧ r'.Matches p := by
  unfold Ring.pop
  split
  · rename_i hpop
    split at hpop
    · contradiction
    · rename_i hempty
      have hcount : r.count = 0 := by rw [hmatches.count]; omega
      unfold Registers.pop
      rw [if_pos hcount]
      rfl
  · rename_i a p hpop
    split at hpop
    · rename_i hheld
      injection hpop with hpop
      injection hpop with hfirst hrest
      subst hfirst hrest
      have hn : 0 < n := Nat.lt_of_lt_of_le hheld q.size_le
      have hhead : r.head < n := by have := q.head_le; rw [hmatches.head]; omega
      have hcount : r.count ≠ 0 := by rw [hmatches.count]; omega
      refine ⟨⟨r.cells.set r.head default, (r.head + 1) % n, r.tail, r.count - 1⟩, ?_, ?_⟩
      · unfold Registers.pop
        rw [if_neg hcount, load_eq_ok hhead, store_eq_ok hhead, advance_eq_ok hn (by omega)]
        simp only [hmatches.cells, hmatches.head]
        rfl
      · refine ⟨?_, ?_, congrArg (· - 1) hmatches.count, ?_⟩
        · simp only [hmatches.cells, hmatches.head]
        · show (r.head + 1) % n = q.index 1
          rw [hmatches.head, index]
        · show r.tail = ((q.head + 1) % n + (q.size - 1)) % n
          rw [hmatches.tail]
          exact ((q.index_add 1 _).trans (congrArg q.index (Nat.add_sub_cancel' hheld))).symm
    · contradiction

/-- One request has the same answer from both and leaves them matching. -/
theorem Matches.serve [Inhabited α] (hmatches : r.Matches q) (hcapacity : n < Word.range)
    (request : Request α) :
    ∃ r', r.serve request = .ok ((q.serve request).1, r') ∧
      r'.Matches (q.serve request).2 := by
  cases request with
  | push a =>
      have hpush := hmatches.push hcapacity a
      cases hq : q.push a with
      | none =>
          rw [hq] at hpush
          simp only [Ring.serve, hq]
          exact ⟨r, hpush, hmatches⟩
      | some p =>
          rw [hq] at hpush
          simp only [Ring.serve, hq]
          exact hpush
  | pop =>
      have hpop := hmatches.pop hcapacity
      cases hq : q.pop with
      | none =>
          rw [hq] at hpop
          simp only [Ring.serve, hq]
          exact ⟨r, hpop, hmatches⟩
      | some taken =>
          rw [hq] at hpop
          simp only [Ring.serve, hq]
          exact hpop

/-- Requests have the same answers from both. -/
theorem Matches.answers [Inhabited α] (hmatches : r.Matches q) (hcapacity : n < Word.range)
    (requests : List (Request α)) :
    ∃ r', r.answers requests = .ok ((Ring.answers Ring.serve q requests).1, r') ∧
      r'.Matches (Ring.answers Ring.serve q requests).2 := by
  induction requests generalizing r q with
  | nil => exact ⟨r, rfl, hmatches⟩
  | cons request rest ih =>
      obtain ⟨r₁, hserve, hmatches₁⟩ := hmatches.serve hcapacity request
      obtain ⟨r₂, hrest, hmatches₂⟩ := ih hmatches₁
      refine ⟨r₂, ?_, hmatches₂⟩
      rw [Registers.answers, hserve]
      show (r₁.answers rest).bind _ = _
      rw [hrest]
      rfl

/-- Reading cell by cell gives the items, unless there are so many cells that a sum on the way
does not fit a word. -/
theorem Matches.items (hmatches : r.Matches q) (hcapacity : 2 * n ≤ Word.range) :
    r.items = .ok q.toList := by
  obtain ⟨cells, head, tail, count⟩ := r
  obtain ⟨rfl, rfl, rfl, _⟩ := hmatches
  unfold Registers.items toList
  rw [List.ofFn_eq_map]
  apply mapM_eq_ok
  intro i _
  have hhead := q.head_le
  have hsize := q.size_le
  have hi : i.val < q.size := i.isLt
  have hfits : q.head + i.val < Word.range := by omega
  have hn : 0 < n := by omega
  rw [advance_eq_ok hn hfits]
  exact load_eq_ok (Nat.mod_lt _ hn)

end Registers

/-! ## Cleared cells -/

/-- The cells outside the window of items are cleared. -/
def Cleared [Inhabited α] (q : Ring α n) : Prop :=
  ∀ (c : Nat) (hc : c < n), (∀ i < q.size, q.index i ≠ c) → q.cells[c] = default

variable [Inhabited α] {q r : Ring α n} {a : α}

theorem cleared_empty : (empty : Ring α n).Cleared := by
  intro c hc _
  exact Vector.getElem_replicate hc

/-- The item goes to a cell that its window includes from then on. -/
theorem Cleared.push (hcleared : q.Cleared) (hpush : q.push a = some r) : r.Cleared := by
  unfold Ring.push at hpush
  split at hpush
  · injection hpush with hpush
    subst hpush
    intro c hc houtside
    have hlast : q.index q.size ≠ c := houtside q.size (Nat.lt_succ_self _)
    rw [Vector.getElem_set_ne _ _ hlast]
    exact hcleared c hc fun i hi => houtside i (Nat.lt_succ_of_lt hi)
  · contradiction

/-- The cell that leaves the window is the one that is cleared. -/
theorem Cleared.pop (hcleared : q.Cleared) (hpop : q.pop = some (a, r)) : r.Cleared := by
  unfold Ring.pop at hpop
  split at hpop
  · rename_i hheld
    injection hpop with hpop
    injection hpop with _ hrest
    subst hrest
    intro c hc houtside
    by_cases hfront : q.head = c
    · simp only [hfront, Vector.getElem_set_self]
    · rw [Vector.getElem_set_ne _ _ hfront]
      refine hcleared c hc fun i hi => ?_
      cases i with
      | zero => exact q.index_zero (by omega) ▸ hfront
      | succ i =>
          rw [Nat.add_comm, ← q.index_add]
          exact houtside i (by show i < q.size - 1; omega)
  · contradiction

/-! ## Any requests -/

/-- A ring that keeps the items of a line. -/
structure Keeps (q : Ring α n) (items : List α) : Prop where
  toList : q.toList = items
  cleared : q.Cleared

theorem keeps_empty : (empty : Ring α n).Keeps [] := ⟨toList_empty, cleared_empty⟩

variable {items : List α}

/-- One request to a ring is one request to its line. -/
theorem Keeps.serve (hkeeps : q.Keeps items) (request : Request α) :
    (q.serve request).1 = (lineUp n items request).1 ∧
      (q.serve request).2.Keeps (lineUp n items request).2 := by
  cases request with
  | push a =>
      by_cases hroom : items.length < n
      · obtain ⟨p, hpush, hlist⟩ := exists_push (hkeeps.toList.symm ▸ hroom) a
        rw [hkeeps.toList] at hlist
        simp only [Ring.serve, lineUp, hpush, if_pos hroom, true_and]
        exact ⟨hlist, hkeeps.cleared.push hpush⟩
      · have hpush : q.push a = none := by
          rw [push_eq_none_iff, isFull, beq_iff_eq, ← length_toList, hkeeps.toList]
          have := q.length_toList_le
          rw [hkeeps.toList] at this
          omega
        simp only [Ring.serve, lineUp, hpush, if_neg hroom, true_and]
        exact hkeeps
  | pop =>
      cases items with
      | nil =>
          have hpop : q.pop = none := by
            rw [pop_eq_none_iff, isEmpty, beq_iff_eq, ← length_toList, hkeeps.toList]
            rfl
          simp only [Ring.serve, lineUp, hpop, true_and]
          exact hkeeps
      | cons a rest =>
          obtain ⟨p, hpop, hlist⟩ := exists_pop hkeeps.toList
          simp only [Ring.serve, lineUp, hpop, true_and]
          exact ⟨hlist, hkeeps.cleared.pop hpop⟩

/-- Requests to a ring are requests to its line. -/
theorem Keeps.answers (hkeeps : q.Keeps items) (requests : List (Request α)) :
    (answers Ring.serve q requests).1 = (answers (lineUp n) items requests).1 ∧
      (answers Ring.serve q requests).2.Keeps (answers (lineUp n) items requests).2 := by
  induction requests generalizing q items with
  | nil => exact ⟨rfl, hkeeps⟩
  | cons request rest ih =>
      obtain ⟨hreply, hkeeps₁⟩ := hkeeps.serve request
      obtain ⟨hreplies, hkeeps₂⟩ := ih hkeeps₁
      exact ⟨congrArg₂ List.cons hreply hreplies, hkeeps₂⟩

/-- What can be asked of a ring that keeps the items of a line. -/
structure Shows (q : Ring α n) (items : List α) : Prop where
  toList : q.toList = items
  length : items.length ≤ n
  size : q.size = items.length
  isEmpty : q.isEmpty = true ↔ items = []
  isFull : q.isFull = true ↔ items.length = n
  push : ∀ a, q.push a = none ↔ items.length = n
  pop : q.pop = none ↔ items = []
  contains : ∀ [BEq α] [LawfulBEq α] (a : α), q.contains a = true ↔ a ∈ items
  cleared : q.Cleared

theorem Keeps.shows (hkeeps : q.Keeps items) : q.Shows items := by
  have hsize : q.size = items.length := by rw [← hkeeps.toList, length_toList]
  have hempty : q.isEmpty = true ↔ items = [] := by
    rw [isEmpty, beq_iff_eq, hsize, List.length_eq_zero_iff]
  have hfull : q.isFull = true ↔ items.length = n := by rw [isFull, beq_iff_eq, hsize]
  exact
    { toList := hkeeps.toList
      length := hsize ▸ q.size_le
      size := hsize
      isEmpty := hempty
      isFull := hfull
      push := fun a => (q.push_eq_none_iff a).trans hfull
      pop := q.pop_eq_none_iff.trans hempty
      contains := fun a => hkeeps.toList ▸ contains_iff_mem
      cleared := hkeeps.cleared }

/-- What can be read off registers that keep the items of a line. -/
structure Registers.Shows (r : Registers α n) (items : List α) : Prop where
  count : r.count = items.length
  tail : r.tail = (r.head + items.length) % n
  cleared : ∀ (c : Nat) (hc : c < n), (∀ i < items.length, (r.head + i) % n ≠ c) →
    r.cells[c] = default
  walk : 2 * n ≤ Word.range → r.items = .ok items
  contains : 2 * n ≤ Word.range →
    ∀ [BEq α] (a : α), r.contains a = .ok (items.any (· == a))

theorem Registers.Matches.shows {r : Registers α n} (hmatches : r.Matches q)
    (hkeeps : q.Keeps items) : r.Shows items := by
  have hsize : q.size = items.length := by rw [← hkeeps.toList, length_toList]
  have hitems (hcapacity : 2 * n ≤ Word.range) : r.items = .ok items :=
    hkeeps.toList ▸ hmatches.items hcapacity
  refine ⟨hmatches.count.trans hsize, ?_, ?_, hitems, ?_⟩
  · rw [hmatches.tail, index, hmatches.head, hsize]
  · intro c hc houtside
    simp only [hmatches.cells]
    refine hkeeps.cleared c hc fun i hi => ?_
    rw [index, ← hmatches.head]
    exact houtside i (hsize ▸ hi)
  · intro hcapacity _ a
    unfold Registers.contains
    rw [hitems hcapacity]
    rfl

/-- Any requests to an empty ring of any capacity are answered as a line of that many places
answers them, and so are they by registers, which do not fault; ring and registers show the
items of the line. -/
theorem answers_as_line (hcapacity : n < Word.range) (requests : List (Request α)) :
    ∃ replies items q r,
      answers (lineUp n) [] requests = (replies, items) ∧
      answers serve (empty : Ring α n) requests = (replies, q) ∧ q.Shows items ∧
      (Registers.empty : Registers α n).answers requests = .ok (replies, r) ∧
      r.Shows items := by
  obtain ⟨hreplies, hkeeps⟩ := keeps_empty (α := α) (n := n).answers requests
  obtain ⟨r, hanswers, hmatches⟩ :=
    (Registers.matches_empty (α := α) (n := n)).answers hcapacity requests
  refine ⟨_, _, _, r, rfl, Prod.ext hreplies rfl, hkeeps.shows, ?_, hmatches.shows hkeeps⟩
  rw [hanswers, hreplies]

/-- A queue of two places is filled, overfilled, emptied and used again. -/
theorem answers_as_line_around :
    2 < Word.range ∧
    ∃ replies items q r,
      replies = [.kept, .kept, .full, .taken (some 7), .kept, .taken (some 8), .taken (some 10),
        .taken none, .kept] ∧ items = [11] ∧
      answers serve (empty : Ring Nat 2) [.push 7, .push 8, .push 9, .pop, .push 10, .pop, .pop,
        .pop, .push 11] = (replies, q) ∧ q.Shows items ∧
      (Registers.empty : Registers Nat 2).answers [.push 7, .push 8, .push 9, .pop, .push 10, .pop,
        .pop, .pop, .push 11] = .ok (replies, r) ∧ r.Shows items := by
  obtain ⟨replies, items, q, r, hline, hring, hshows, hregisters, hkept⟩ :=
    answers_as_line (α := Nat) (n := 2) (by decide)
      [.push 7, .push 8, .push 9, .pop, .push 10, .pop, .pop, .pop, .push 11]
  refine ⟨by decide, replies, items, q, r, ?_, ?_, hring, hshows, hregisters, hkept⟩
  · exact (congrArg Prod.fst hline).symm
  · exact (congrArg Prod.snd hline).symm

end Timeshare.Ring
