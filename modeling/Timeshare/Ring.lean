import Timeshare.Capacity

/-!
# Bounded first-in first-out queues

A ring keeps at most `n` items in `n` cells.  The items occupy a window of
cells that starts at `head` and wraps around the end of the array; taking an
item clears its cell.  The view of a ring is the list of its items, oldest
first: `push` appends to that list and `pop` takes its head.
-/

namespace Timeshare

/-- A queue of at most `n` items. -/
structure Ring (α : Type) (n : Nat) where
  /-- The cells. -/
  cells : Vector α n
  /-- The cell of the oldest item. -/
  head : Nat
  /-- The number of items. -/
  size : Nat
  /-- The oldest item has a cell. -/
  head_le : head ≤ n - 1
  /-- There are no more items than cells. -/
  size_le : size ≤ n

namespace Ring

variable {α : Type} {n : Nat}

/-- A ring without items, its cells cleared. -/
def empty [Inhabited α] : Ring α n where
  cells := Vector.replicate n default
  head := 0
  size := 0
  head_le := Nat.zero_le _
  size_le := Nat.zero_le _

instance [Inhabited α] : Inhabited (Ring α n) := ⟨empty⟩

/-- The cell that lies `i` cells after the oldest item. -/
def index (q : Ring α n) (i : Nat) : Nat := (q.head + i) % n

theorem index_lt (q : Ring α n) (i : Nat) (h : 0 < n) : q.index i < n :=
  Nat.mod_lt _ h

/-- The oldest item lies at the head. -/
theorem index_zero (q : Ring α n) (h : 0 < n) : q.index 0 = q.head :=
  Nat.mod_eq_of_lt (by have := q.head_le; omega)

/-- Indices wrap around as often as it takes. -/
theorem index_add (q : Ring α n) (i j : Nat) : (q.index i + j) % n = q.index (i + j) := by
  rw [index, Nat.mod_add_mod, index, Nat.add_assoc]

/-- Whether there are no items. -/
def isEmpty (q : Ring α n) : Bool := q.size == 0

/-- Whether there is no room for another item. -/
def isFull (q : Ring α n) : Bool := q.size == n

/-- Append an item, if there is room. -/
def push (q : Ring α n) (a : α) : Option (Ring α n) :=
  if h : q.size < n then
    some
      { cells := q.cells.set (q.index q.size) a (q.index_lt _ (by omega))
        head := q.head
        size := q.size + 1
        head_le := q.head_le
        size_le := h }
  else none

/-- Take the oldest item and clear its cell. -/
def pop [Inhabited α] (q : Ring α n) : Option (α × Ring α n) :=
  if h : 0 < q.size then
    have room : 0 < n := Nat.lt_of_lt_of_le h q.size_le
    have inside : q.head < n := by have := q.head_le; omega
    some (q.cells[q.head],
      { cells := q.cells.set q.head default
        head := q.index 1
        size := q.size - 1
        head_le := Nat.le_sub_one_of_lt (q.index_lt 1 room)
        size_le := Nat.le_trans (Nat.sub_le _ _) q.size_le })
  else none

/-- The items, oldest first. -/
def toList (q : Ring α n) : List α :=
  List.ofFn fun i : Fin q.size =>
    q.cells.get ⟨q.index i,
      q.index_lt _ (Nat.lt_of_lt_of_le (Nat.zero_lt_of_lt i.2) q.size_le)⟩

/-- Whether `a` is among the items. -/
def contains [BEq α] (q : Ring α n) (a : α) : Bool := q.toList.contains a

/-- Append items in order, as long as there is room. -/
def pushAll (q : Ring α n) : List α → Ring α n
  | [] => q
  | a :: rest =>
      match q.push a with
      | none => q
      | some q => q.pushAll rest

@[simp] theorem length_toList (q : Ring α n) : q.toList.length = q.size := by
  simp [toList]

@[simp] theorem toList_empty [Inhabited α] : (empty : Ring α n).toList = [] := rfl

/-- An item is refused exactly by a full ring. -/
theorem push_eq_none_iff (q : Ring α n) (a : α) : q.push a = none ↔ q.isFull = true := by
  have := q.size_le
  unfold push isFull
  split
  · simp; omega
  · simp; omega

/-- Items lie in the cells behind the oldest one, in order. -/
theorem getElem?_toList (q : Ring α n) {i : Nat} (h : i < q.size) :
    q.toList[i]? = q.cells[q.index i]? := by
  have room := q.size_le
  have inside : q.index i < n := q.index_lt i (by omega)
  rw [List.getElem?_eq_getElem (by rw [length_toList]; exact h),
    Vector.getElem?_eq_getElem inside]
  simp only [toList, List.getElem_ofFn]
  rfl

/-- Different items lie in different cells. -/
theorem index_ne (q : Ring α n) {i j : Nat} (hi : i < n) (hj : j < n) (h : i ≠ j) :
    q.index i ≠ q.index j := by
  have := q.head_le
  have wrap (k : Nat) (hk : k < n) :
      q.index k = if q.head + k < n then q.head + k else q.head + k - n := by
    unfold index
    split
    · exact Nat.mod_eq_of_lt ‹_›
    · rw [Nat.mod_eq_sub_mod (by omega), Nat.mod_eq_of_lt (by omega)]
  rw [wrap i hi, wrap j hj]
  split <;> split <;> omega

/-- Pushing appends at the end. -/
theorem toList_push {q r : Ring α n} {a : α} (h : q.push a = some r) :
    r.toList = q.toList ++ [a] := by
  unfold push at h
  split at h
  case isFalse => contradiction
  case isTrue room =>
    injection h with h
    subst h
    apply List.ext_getElem?
    intro i
    rcases Nat.lt_trichotomy i q.size with hi | hi | hi
    · rw [getElem?_toList _ (Nat.lt_succ_of_lt hi),
        List.getElem?_append_left (by rw [length_toList]; exact hi), getElem?_toList q hi]
      exact Vector.getElem?_set_ne (q.index_lt _ (by omega)) (q.index_ne room (by omega) (by omega))
    · subst hi
      rw [getElem?_toList _ (Nat.lt_succ_self _),
        List.getElem?_append_right (Nat.le_of_eq q.length_toList)]
      simp [index]
    · have past : q.size + 1 ≤ i := hi
      rw [List.getElem?_eq_none (by rw [length_toList]; exact past),
        List.getElem?_eq_none (by rwa [List.length_append, length_toList, List.length_singleton])]

/-- Popping takes the oldest item. -/
theorem toList_pop [Inhabited α] {q r : Ring α n} {a : α} (h : q.pop = some (a, r)) :
    q.toList = a :: r.toList := by
  unfold pop at h
  split at h
  case isFalse => contradiction
  case isTrue some_item =>
    injection h with h
    injection h with first rest
    subst first rest
    have room := q.size_le
    have start := q.head_le
    apply List.ext_getElem?
    intro i
    cases i with
    | zero =>
      rw [getElem?_toList q some_item]
      simp [q.index_zero (by omega)]
    | succ i =>
      by_cases hi : i + 1 < q.size
      · have apart : q.head ≠ q.index (i + 1) := by
          rw [← q.index_zero (by omega)]
          exact q.index_ne (by omega) (by omega) (by omega)
        rw [List.getElem?_cons_succ, getElem?_toList q hi, getElem?_toList _ (Nat.lt_sub_of_add_lt hi)]
        show _ = (q.cells.set q.head default)[(q.index 1 + i) % n]?
        rw [q.index_add, Nat.add_comm 1]
        exact (Vector.getElem?_set_ne _ apart).symm
      · have past : q.size - 1 ≤ i := by omega
        rw [List.getElem?_eq_none (by rw [length_toList]; omega), List.getElem?_cons_succ,
          List.getElem?_eq_none (by rw [length_toList]; exact past)]

/-- There is nothing to pop exactly in an empty ring. -/
theorem pop_eq_none_iff [Inhabited α] (q : Ring α n) : q.pop = none ↔ q.isEmpty = true := by
  unfold pop isEmpty
  split
  · simp; omega
  · simp; omega

end Ring

end Timeshare
