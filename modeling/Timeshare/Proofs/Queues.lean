import Mathlib.Algebra.BigOperators.Fin

/-!
# Families of queues

The mutexes and the mailboxes each keep one wait queue per index.  When one
queue of a family changes, the entries of all queues taken together change by
what that queue gains and loses.
-/

namespace Timeshare

/-- Counting in all queues when only the one at `i` differs. -/
theorem count_flatMap_finRange {α : Type} [BEq α] {n : Nat} {f g : Fin n → List α} {i : Fin n}
    (hothers : ∀ j, j ≠ i → f j = g j) (a : α) :
    ((List.finRange n).flatMap f).count a + (g i).count a =
      ((List.finRange n).flatMap g).count a + (f i).count a := by
  have hsplit (h : Fin n → List α) :
      ((List.finRange n).flatMap h).count a =
        (h i).count a + ∑ j ∈ Finset.univ.erase i, (h j).count a := by
    rw [List.count_flatMap,
      Finset.add_sum_erase Finset.univ (fun j => (h j).count a) (Finset.mem_univ i),
      Fin.sum_univ_def]
    rfl
  have hrest : ∑ j ∈ Finset.univ.erase i, (f j).count a =
      ∑ j ∈ Finset.univ.erase i, (g j).count a :=
    Finset.sum_congr rfl fun j hj => by rw [hothers j (Finset.ne_of_mem_erase hj)]
  rw [hsplit f, hsplit g, hrest]
  omega

/-- Nothing but `items` enters the queues when only the one at `i` differs, and
nothing but `items` enters that one. -/
theorem flatMap_finRange_subset {α : Type} {n : Nat} {f g : Fin n → List α} {i : Fin n}
    {items : List α} (hothers : ∀ j, j ≠ i → f j = g j) (hself : f i ⊆ items ++ g i) :
    (List.finRange n).flatMap f ⊆ items ++ (List.finRange n).flatMap g := by
  intro a hmem
  obtain ⟨j, hj, hmem⟩ := List.mem_flatMap.1 hmem
  rw [List.mem_append, List.mem_flatMap]
  by_cases heq : j = i
  · rw [heq] at hmem
    exact (List.mem_append.1 (hself hmem)).imp_right fun h => ⟨i, List.mem_finRange i, h⟩
  · rw [hothers j heq] at hmem
    exact .inr ⟨j, hj, hmem⟩

/-- Each queue of a family is part of all queues taken together. -/
theorem sublist_flatMap_finRange {α : Type} {n : Nat} (f : Fin n → List α) (i : Fin n) :
    (f i).Sublist ((List.finRange n).flatMap f) := by
  rw [List.flatMap_def]
  exact List.sublist_flatten_of_mem (List.mem_map_of_mem (List.mem_finRange i))

end Timeshare
