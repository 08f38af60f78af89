import Mathlib.Data.List.DropRight
import Mathlib.Data.List.Basic

/-!
# Histories of which the last items are kept

A `History` has the items that were recorded, oldest first, and the positions of those that were
taken.  Positions are taken from the front to the back, and an item is taken once at most.

Of the items behind the one that was taken last, the last `depth` ones are kept (`window`).  A
buffer that is a window of a history stays one when an item is recorded, be it that the oldest
item makes room (`window_record`), and when the first item of the window is taken
(`exists_take`).
-/

namespace KeepLast

variable {α : Type*}

/-- The position behind the last one. -/
def behind (taken : List ℕ) : ℕ := (taken.getLast?.map (· + 1)).getD 0

structure History (α : Type*) where
  /-- All items that were recorded, oldest first. -/
  items : List α
  /-- The positions of the items that were taken, in the order in which they were taken. -/
  taken : List ℕ
  increasing : taken.Pairwise (· < ·)
  inside : ∀ p ∈ taken, p < items.length

namespace History

def empty : History α := { items := [], taken := [], increasing := .nil, inside := by simp }

/-- The items that were taken, in the order in which they were taken. -/
def delivered (h : History α) : List α := h.taken.filterMap fun p => h.items[p]?

/-- The items behind the one that was taken last. -/
def fresh (h : History α) : List α := h.items.drop (behind h.taken)

/-- What is kept of the items behind the one that was taken last. -/
def window (depth : ℕ) (h : History α) : List α := h.fresh.rtake depth

def record (h : History α) (item : α) : History α where
  items := h.items ++ [item]
  taken := h.taken
  increasing := h.increasing
  inside p member := by
    rw [List.length_append]
    exact Nat.lt_add_right _ (h.inside p member)

variable {h : History α} {depth : ℕ} {item : α}

theorem behind_le (h : History α) : behind h.taken ≤ h.items.length := by
  unfold behind
  cases last : h.taken.getLast? with
  | none => exact Nat.zero_le _
  | some p => exact h.inside p (List.mem_of_getLast? last)

theorem lt_behind (h : History α) : ∀ p ∈ h.taken, p < behind h.taken := by
  intro p member
  unfold behind
  rcases List.eq_nil_or_concat h.taken with none | ⟨before, last, shape⟩
  · rw [none] at member
    cases member
  · have increasing := h.increasing
    rw [shape, List.concat_eq_append] at member increasing ⊢
    rw [List.getLast?_append, List.getLast?_singleton]
    rcases List.mem_append.mp member with earlier | same
    · exact Nat.lt_succ_of_lt
        ((List.pairwise_append.mp increasing).2.2 p earlier last (List.mem_singleton_self _))
    · exact List.mem_singleton.mp same ▸ Nat.lt_succ_self _

/-! ## Recording -/

theorem length_window_le : (h.window depth).length ≤ depth := by
  rw [window, List.rtake, List.length_drop]
  omega

theorem fresh_record : (h.record item).fresh = h.fresh ++ [item] :=
  List.drop_append_of_le_length h.behind_le

theorem delivered_record : (h.record item).delivered = h.delivered := by
  unfold delivered
  refine List.filterMap_congr fun p member => ?_
  exact List.getElem?_append_left (h.inside p member)

/-- When the window is full, its oldest item makes room for the new one. -/
theorem window_record (room : 0 < depth) : (h.record item).window depth =
    (if depth ≤ (h.window depth).length then (h.window depth).tail else h.window depth) ++
      [item] := by
  obtain ⟨d, rfl⟩ := Nat.exists_eq_add_of_le' room
  rw [window, fresh_record, List.rtake_concat_succ]
  congr 1
  unfold window List.rtake
  rw [List.length_drop, List.tail_drop]
  split_ifs with full
  · congr 1
    omega
  · congr 1
    omega

/-! ## Taking -/

/-- Take the item at a position that is not behind any other that was taken. -/
def take (h : History α) (p : ℕ) (next : behind h.taken ≤ p) (present : p < h.items.length) :
    History α where
  items := h.items
  taken := h.taken ++ [p]
  increasing := by
    refine List.pairwise_append.mpr ⟨h.increasing, List.pairwise_singleton _ _, ?_⟩
    intro earlier member last same
    rw [List.mem_singleton.mp same]
    exact Nat.lt_of_lt_of_le (h.lt_behind earlier member) next
  inside q member := by
    rcases List.mem_append.mp member with earlier | last
    · exact h.inside q earlier
    · exact List.mem_singleton.mp last ▸ present

/-- The first item of the window is taken. -/
theorem exists_take {rest : List α} (first : h.window depth = item :: rest) :
    ∃ h' : History α, h'.items = h.items ∧ h'.delivered = h.delivered ++ [item] ∧
      h'.window depth = rest := by
  obtain ⟨p, next, front⟩ : ∃ p, behind h.taken ≤ p ∧ h.items.drop p = item :: rest := by
    refine ⟨behind h.taken + (h.fresh.length - depth), Nat.le_add_right _ _, ?_⟩
    rw [← List.drop_drop]
    exact first
  have present : p < h.items.length := by
    have count := congrArg List.length front
    rw [List.length_drop, List.length_cons] at count
    omega
  have here : h.items[p]? = some item := by
    rw [← List.head?_drop, front, List.head?_cons]
  have behindIt : (h.take p next present).fresh = rest := by
    have last : behind (h.taken ++ [p]) = p + 1 := by
      rw [behind, List.getLast?_append, List.getLast?_singleton]
      rfl
    show h.items.drop (behind (h.taken ++ [p])) = rest
    rw [last, ← List.tail_drop, front, List.tail_cons]
  refine ⟨h.take p next present, rfl, ?_, ?_⟩
  · show (h.taken ++ [p]).filterMap (fun q => h.items[q]?) = h.delivered ++ [item]
    rw [List.filterMap_append, delivered]
    congr 1
    exact List.filterMap_cons_some here
  · have bounded : (h.window depth).length ≤ depth := length_window_le
    rw [first, List.length_cons] at bounded
    rw [window, behindIt, List.rtake, Nat.sub_eq_zero_of_le (by omega), List.drop_zero]

end History

end KeepLast
