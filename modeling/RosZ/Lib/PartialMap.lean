import Mathlib.Data.List.AList
import Mathlib.Data.Nat.Init
import Mathlib.Logic.Function.Basic

/-!
# Partial maps

A state that keeps something for each of a growing number of identities is a function into
`Option` that is updated at one identity at a time.  What is found after an update is new or was
there before (`update_eq_some_iff`).

Identities may be handed out in order: those from `next` on are unused.  Tables with few entries
are association lists, of which the same is said (`lookup_insert_eq_some_iff`).
-/

namespace PartialMap

section Update

variable {α β : Type*} [DecidableEq α] {f : α → Option β} {a b : α} {value : β}

theorem update_eq_some_iff {new : Option β} : Function.update f a new b = some value ↔
    b = a ∧ new = some value ∨ b ≠ a ∧ f b = some value := by
  by_cases same : b = a
  · subst same
    simp
  · simp [same]

/-- What is found after an entry was cleared was there before. -/
theorem of_update_none (found : Function.update f a none b = some value) : f b = some value := by
  rcases update_eq_some_iff.mp found with ⟨-, new⟩ | ⟨-, before⟩
  · cases new
  · exact before

end Update

section Unused

variable {β : Type*} {f : ℕ → Option β} {next k : ℕ} {value : β}

theorem lt_of_found (unused : ∀ k, next ≤ k → f k = none) (found : f k = some value) :
    k < next := by
  by_contra late
  cases (unused k (Nat.le_of_not_lt late)).symm.trans found

/-- An update at an identity in use keeps the others unused. -/
theorem unused_update (unused : ∀ k, next ≤ k → f k = none) (found : f k = some value)
    (new : Option β) : ∀ j, next ≤ j → Function.update f k new j = none := by
  intro j late
  have apart : j ≠ k := Nat.ne_of_gt (Nat.lt_of_lt_of_le (lt_of_found unused found) late)
  exact (Function.update_of_ne apart ..).trans (unused j late)

/-- The next identity is taken into use. -/
theorem unused_next (unused : ∀ k, next ≤ k → f k = none) (new : Option β) :
    ∀ j, next + 1 ≤ j → Function.update f next new j = none := by
  intro j late
  have apart : j ≠ next := Nat.ne_of_gt late
  exact (Function.update_of_ne apart ..).trans (unused j (Nat.le_of_succ_le late))

end Unused

section Lookup

variable {κ β : Type*} [DecidableEq κ]

theorem lookup_insert_eq (table : AList (fun _ : κ => β)) (k k' : κ) (value : β) :
    (table.insert k value).lookup k' = if k' = k then some value else table.lookup k' := by
  by_cases same : k' = k
  · subst same
    rw [if_pos rfl, AList.lookup_insert]
  · rw [if_neg same, AList.lookup_insert_ne same]

theorem lookup_insert_eq_some_iff {table : AList (fun _ : κ => β)} {k k' : κ} {new value : β} :
    (table.insert k new).lookup k' = some value ↔
      k' = k ∧ new = value ∨ k' ≠ k ∧ table.lookup k' = some value := by
  rw [lookup_insert_eq]
  split
  · next same => simp [same]
  · next other => simp [other]

theorem map_entries_eq (table : AList (fun _ : κ => β)) :
    table.entries.map (·.2) = table.keys.filterMap table.lookup := by
  rw [AList.keys, List.keys, List.filterMap_map, ← List.filterMap_eq_map]
  refine (List.filterMap_congr fun entry member => ?_).symm
  exact AList.mem_lookup_iff.mpr member

/-- The values of a table that agrees with a function on a list, and has no other keys. -/
theorem map_entries_perm {table : AList (fun _ : κ => β)} {known : List κ} {f : κ → Option β}
    (distinct : known.Nodup) (agrees : ∀ k, table.lookup k = if k ∈ known then f k else none) :
    (table.entries.map (·.2)).Perm (known.filterMap f) := by
  have keys : table.keys.Perm (known.filter fun k => (f k).isSome) := by
    refine (List.perm_ext_iff_of_nodup table.keys_nodup (distinct.filter _)).mpr fun k => ?_
    rw [← AList.mem_keys, ← AList.lookup_isSome, agrees k, List.mem_filter]
    split_ifs with there <;> simp [there]
  have values : table.keys.filterMap table.lookup = table.keys.filterMap f := by
    refine List.filterMap_congr fun k member => ?_
    have there := (List.mem_filter.mp (keys.mem_iff.mp member)).1
    rw [agrees k, if_pos there]
  rw [map_entries_eq, values]
  refine (keys.filterMap f).trans (List.Perm.of_eq ?_)
  rw [List.filterMap_filter]
  refine List.filterMap_congr fun k _ => ?_
  cases f k <;> rfl

end Lookup

end PartialMap
