import Mathlib.Tactic.Linarith
import Mathlib.Data.List.Nodup
import Mathlib.Data.List.Pairwise

/-!
# Ordered maps whose values know their key

An ordered map that is only ever filled by inserting a value under a key computed
from that value.  `Keyed` is the invariant; under it the values of the map, read in
key order, have pairwise different keys, and filling the map from a list keeps
exactly the values of that list when their keys are different.
-/

namespace KeyedMap

variable {α β : Type} [Ord α] [Std.TransOrd α] [Std.LawfulEqOrd α]

/-- The values of a map in key order. -/
def valuesOf (t : Std.TreeMap α β) : List β := t.toList.map Prod.snd

/-- Every value is stored under its own key. -/
def Keyed (key : β → α) (t : Std.TreeMap α β) : Prop :=
  ∀ k v, t[k]? = some v → k = key v

theorem mem_valuesOf {t : Std.TreeMap α β} {v : β} :
    v ∈ valuesOf t ↔ ∃ k : α, t[k]? = some v := by
  simp only [valuesOf, List.mem_map, Prod.exists, exists_eq_right,
    Std.TreeMap.mem_toList_iff_getElem?_eq_some]

omit [Std.LawfulEqOrd α] in
theorem mem_iff {t : Std.TreeMap α β} {k : α} : k ∈ t ↔ ∃ v, t[k]? = some v := by
  rw [Std.TreeMap.mem_iff_isSome_getElem?, Option.isSome_iff_exists]

theorem getElem?_insert [DecidableEq α] (t : Std.TreeMap α β) (k a : α) (v : β) :
    (t.insert k v)[a]? = if k = a then some v else t[a]? := by
  rw [Std.TreeMap.getElem?_insert]
  simp only [Std.LawfulEqCmp.compare_eq_iff_eq]

omit [Std.LawfulEqOrd α] in
theorem keyed_empty (key : β → α) : Keyed key (∅ : Std.TreeMap α β) := by
  intro k v h
  simp at h

section Insert

variable [DecidableEq α] {key : β → α} {t : Std.TreeMap α β}

theorem Keyed.insert (h : Keyed key t) (v : β) : Keyed key (t.insert (key v) v) := by
  intro k w hw
  rw [getElem?_insert] at hw
  split at hw
  · next hk => simp only [Option.some.injEq] at hw; rw [← hk, hw]
  · exact h k w hw

omit [DecidableEq α] in
theorem Keyed.nodup_valuesOf (h : Keyed key t) : ((valuesOf t).map key).Nodup := by
  have hkeys : (valuesOf t).map key = t.toList.map Prod.fst := by
    unfold valuesOf
    rw [List.map_map]
    apply List.map_congr_left
    rintro ⟨k, v⟩ hkv
    exact (h k v (Std.TreeMap.mem_toList_iff_getElem?_eq_some.mp hkv)).symm
  rw [hkeys, List.Nodup, List.pairwise_map]
  refine Std.TreeMap.distinct_keys_toList.imp fun hne heq => hne ?_
  rw [heq]
  exact Std.ReflCmp.compare_self

omit [DecidableEq α] in
/-- The values are in the order of their keys. -/
theorem Keyed.sorted_valuesOf (h : Keyed key t) :
    (valuesOf t).Pairwise fun v w => compare (key v) (key w) = .lt := by
  unfold valuesOf
  rw [List.pairwise_map]
  refine Std.TreeMap.ordered_keys_toList.imp_of_mem ?_
  rintro ⟨k, v⟩ ⟨k', v'⟩ hkv hkv' hlt
  rwa [← h k v (Std.TreeMap.mem_toList_iff_getElem?_eq_some.mp hkv),
    ← h k' v' (Std.TreeMap.mem_toList_iff_getElem?_eq_some.mp hkv')]

/-- The map filled from a list, each value under its own key. -/
def insertAll (key : β → α) (vs : List β) (t : Std.TreeMap α β) : Std.TreeMap α β :=
  vs.foldl (fun t v => t.insert (key v) v) t

theorem keyed_insertAll (vs : List β) (h : Keyed key t) : Keyed key (insertAll key vs t) := by
  induction vs generalizing t with
  | nil => exact h
  | cons v vs ih => exact ih (h.insert v)

/-- A value of the filled map was in the list or there before. -/
theorem getElem?_insertAll {vs : List β} {k : α} {v : β}
    (h : (insertAll key vs t)[k]? = some v) : v ∈ vs ∨ t[k]? = some v := by
  induction vs generalizing t with
  | nil => exact .inr h
  | cons w vs ih =>
    rcases ih h with hv | hv
    · exact .inl (List.mem_cons_of_mem _ hv)
    · rw [getElem?_insert] at hv
      split at hv
      · simp only [Option.some.injEq] at hv
        exact .inl (hv ▸ List.mem_cons_self)
      · exact .inr hv

/-- A later value takes the place of an earlier one only under the same key. -/
theorem getElem?_insertAll_of_mem {vs : List β} {v : β}
    (hinj : ∀ w ∈ vs, key w = key v → w = v) (hv : v ∈ vs ∨ t[key v]? = some v) :
    (insertAll key vs t)[key v]? = some v := by
  induction vs generalizing t with
  | nil => exact hv.resolve_left List.not_mem_nil
  | cons w vs ih =>
    refine ih (fun u hu => hinj u (List.mem_cons_of_mem _ hu)) ?_
    by_cases hkey : key w = key v
    · have := hinj w List.mem_cons_self hkey
      exact .inr (by rw [getElem?_insert, if_pos hkey, this])
    · rcases hv with hv | hv
      · rcases List.mem_cons.mp hv with rfl | hv
        · exact absurd rfl hkey
        · exact .inl hv
      · exact .inr (by rwa [getElem?_insert, if_neg hkey])

theorem mem_valuesOf_insertAll {vs : List β} {v : β}
    (h : v ∈ valuesOf (insertAll key vs ∅)) : v ∈ vs := by
  obtain ⟨k, hk⟩ := mem_valuesOf.mp h
  rcases getElem?_insertAll hk with hv | hv
  · exact hv
  · simp at hv

theorem valuesOf_insertAll_of_mem {vs : List β} {v : β}
    (hinj : ∀ w ∈ vs, key w = key v → w = v) (hv : v ∈ vs) :
    v ∈ valuesOf (insertAll key vs ∅) :=
  mem_valuesOf.mpr ⟨_, getElem?_insertAll_of_mem hinj (.inl hv)⟩

/-- Values with different keys all stay. -/
theorem mem_valuesOf_insertAll_iff {vs : List β} (hnodup : (vs.map key).Nodup) {v : β} :
    v ∈ valuesOf (insertAll key vs ∅) ↔ v ∈ vs := by
  constructor
  · exact mem_valuesOf_insertAll
  · intro hv
    exact valuesOf_insertAll_of_mem (fun w hw hkey => List.inj_on_of_nodup_map hnodup hw hv hkey) hv

end Insert

end KeyedMap
