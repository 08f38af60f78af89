import Mathlib.Data.List.Sort

/-!
# Sorting and removing duplicates

`sortDedup` sorts a list and drops adjacent elements that are equal.  What is left has the elements
of the list in increasing order (`pairwise_sortDedup`), so it is also what an ordered set of the
elements lists.
-/

namespace SortDedup

/-- Drop elements that equal the one behind them. -/
def dedup {α : Type*} [DecidableEq α] : List α → List α
  | [] => []
  | [a] => [a]
  | a :: b :: rest => if a = b then dedup (b :: rest) else a :: dedup (b :: rest)

theorem mem_dedup {α : Type*} [DecidableEq α] {x : α} (xs : List α) : x ∈ dedup xs ↔ x ∈ xs := by
  fun_induction dedup xs with
  | case1 => rfl
  | case2 a => rfl
  | case3 a rest ih =>
      refine ih.trans ⟨List.mem_cons_of_mem a, fun member => ?_⟩
      rcases List.mem_cons.mp member with rfl | later
      · exact List.mem_cons_self
      · exact later
  | case4 a b rest differ ih => rw [List.mem_cons, ih, ← List.mem_cons]

variable {α : Type*} [LinearOrder α]

/-- Sort, then drop adjacent duplicates. -/
def sortDedup (xs : List α) : List α := dedup (xs.insertionSort (· ≤ ·))

/-- Without duplicates, what was ordered is strictly ordered. -/
theorem pairwise_dedup (xs : List α) (sorted : xs.Pairwise (· ≤ ·)) :
    (dedup xs).Pairwise (· < ·) := by
  fun_induction dedup xs with
  | case1 => exact .nil
  | case2 a => exact List.pairwise_singleton _ a
  | case3 a rest ih => exact ih (List.pairwise_cons.mp sorted).2
  | case4 a b rest differ ih =>
      obtain ⟨below, tail⟩ := List.pairwise_cons.mp sorted
      refine List.pairwise_cons.mpr ⟨fun x member => ?_, ih tail⟩
      have first : a < b := lt_of_le_of_ne (below b List.mem_cons_self) differ
      rcases List.mem_cons.mp ((mem_dedup _).mp member) with rfl | later
      · exact first
      · exact first.trans_le ((List.pairwise_cons.mp tail).1 x later)

theorem mem_sortDedup {x : α} {xs : List α} : x ∈ sortDedup xs ↔ x ∈ xs :=
  (mem_dedup _).trans (List.mem_insertionSort _)

theorem pairwise_sortDedup (xs : List α) : (sortDedup xs).Pairwise (· < ·) :=
  pairwise_dedup _ (List.pairwise_insertionSort _ _)

theorem nodup_sortDedup (xs : List α) : (sortDedup xs).Nodup :=
  (pairwise_sortDedup xs).imp ne_of_lt

end SortDedup
