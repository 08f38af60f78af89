import Mathlib.Data.List.AList
import Mathlib.Data.List.Perm.Basic

/-!
# Counting what is on its way

A message that goes from place to place is counted at each: among those in transit, which are a list
from which any one may be taken, and in tables, which are association lists.  What takes a message
from a place takes one from the count there, and what puts one there adds at most one.
-/

namespace Flight

section Transit

variable {α : Type*} {p : α → Bool}

/-- A message leaves the list. -/
theorem countP_eraseIdx {l : List α} {i : ℕ} {a : α} (found : l[i]? = some a) :
    (l.eraseIdx i).countP p + (if p a then 1 else 0) = l.countP p := by
  obtain ⟨bound, rfl⟩ := List.getElem?_eq_some_iff.mp found
  rw [← List.countP_cons]
  exact (List.getElem_cons_eraseIdx_perm bound).countP_eq p

theorem countP_eraseIdx_le (l : List α) (i : ℕ) : (l.eraseIdx i).countP p ≤ l.countP p :=
  (List.eraseIdx_sublist l i).countP_le

end Transit

section Tables

variable {κ β : Type*} [DecidableEq κ] {p : (Sigma fun _ : κ => β) → Bool}

/-- A message is put under a key, perhaps in the place of another. -/
theorem countP_insert_le (table : AList fun _ : κ => β) (k : κ) (value : β) :
    (table.insert k value).entries.countP p ≤
      table.entries.countP p + if p ⟨k, value⟩ then 1 else 0 := by
  rw [AList.entries_insert, List.countP_cons]
  exact Nat.add_le_add_right (List.kerase_sublist k table.entries).countP_le _

/-- The message under a key leaves the table. -/
theorem countP_erase {table : AList fun _ : κ => β} {k : κ} {value : β}
    (found : table.lookup k = some value) :
    (table.erase k).entries.countP p + (if p ⟨k, value⟩ then 1 else 0) =
      table.entries.countP p := by
  have listed := AList.mem_lookup_iff.mp found
  obtain ⟨value', before, after, absent, split, erased⟩ :=
    List.exists_of_kerase (List.mem_keys_of_mem listed)
  have same : value' = value := by
    have first : List.dlookup k table.entries = some value' := by
      rw [split, List.dlookup_append, List.dlookup_eq_none.mpr absent, Option.none_or,
        List.dlookup_cons_eq]
    exact Option.some.inj (first.symm.trans found)
  show (List.kerase k table.entries).countP p + _ = _
  rw [erased, split, same, List.countP_append, List.countP_append, List.countP_cons, Nat.add_assoc]

end Tables

end Flight
