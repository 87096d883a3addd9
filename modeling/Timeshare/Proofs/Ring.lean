import Timeshare.Ring

/-!
# Rings as lists

What `push`, `pop`, `contains` and `pushAll` do to the list of a ring's items,
with the case in which they succeed.  Proofs about queues use these statements
and never the cells.
-/

namespace Timeshare.Ring

variable {α : Type} {n : Nat}

/-- There is room for another item exactly when the list is shorter than the
capacity. -/
theorem exists_push {q : Ring α n} (hroom : q.toList.length < n) (a : α) :
    ∃ r, q.push a = some r ∧ r.toList = q.toList ++ [a] := by
  cases hpush : q.push a with
  | none =>
      rw [push_eq_none_iff, isFull, beq_iff_eq] at hpush
      rw [length_toList] at hroom
      omega
  | some r => exact ⟨r, rfl, toList_push hpush⟩

theorem length_toList_le (q : Ring α n) : q.toList.length ≤ n := by
  rw [length_toList]
  exact q.size_le

theorem toList_of_pop_eq_none [Inhabited α] {q : Ring α n} (hpop : q.pop = none) :
    q.toList = [] := by
  rw [pop_eq_none_iff, isEmpty, beq_iff_eq] at hpop
  exact List.eq_nil_of_length_eq_zero (by rw [length_toList, hpop])

/-- The oldest item of a ring that holds one is popped. -/
theorem exists_pop [Inhabited α] {q : Ring α n} {a : α} {rest : List α}
    (hlist : q.toList = a :: rest) : ∃ r, q.pop = some (a, r) ∧ r.toList = rest := by
  cases hpop : q.pop with
  | none =>
      rw [toList_of_pop_eq_none hpop] at hlist
      contradiction
  | some taken =>
      obtain ⟨b, r⟩ := taken
      have hcons := toList_pop hpop
      rw [hlist] at hcons
      injection hcons with hhead htail
      exact ⟨r, by rw [hhead], htail.symm⟩

theorem contains_iff_mem [BEq α] [LawfulBEq α] {q : Ring α n} {a : α} :
    q.contains a = true ↔ a ∈ q.toList := by
  simp [contains]

/-- Items that all fit are appended in order. -/
theorem toList_pushAll (items : List α) (q : Ring α n)
    (hroom : q.toList.length + items.length ≤ n) :
    (q.pushAll items).toList = q.toList ++ items := by
  induction items generalizing q with
  | nil => simp [pushAll]
  | cons a rest ih =>
      rw [List.length_cons] at hroom
      obtain ⟨r, hpush, hlist⟩ := exists_push (q := q) (by omega) a
      have hrest : r.toList.length + rest.length ≤ n := by
        rw [hlist, List.length_append, List.length_singleton]
        omega
      rw [pushAll, hpush, ih r hrest, hlist]
      simp

end Timeshare.Ring
