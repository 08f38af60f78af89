import Mathlib.Data.List.Chain
import RosZ.Lib.Replica

/-!
# Telling what has changed

A set is listed now and then, and for each listing it is told what has come and what has gone since
the one before (`between`).  What is told about a key says by turns that it has come and that it has
gone (`Tells`), and whoever follows it is wrong about the key in the end only by having been wrong
at the beginning and never being told (`Tells.wrong_iff`).  A follower may begin while changes
between two listings are still being told (`Bridges`).
-/

namespace Deltas

open Replica

variable {κ : Type*} [DecidableEq κ]

/-- What has come, and then what has gone. -/
def between (old new : List κ) : List (Change κ) :=
  ((new.filter fun k => k ∉ old).map .put) ++ ((old.filter fun k => k ∉ new).map .delete)

/-- What is told about a key, `true` when it has come. -/
def told (k : κ) (changes : List (Change κ)) : List Bool :=
  changes.filterMap fun change => if change.key = k then some change.isPut else none

variable {k : κ} {present : Bool} {changes later : List (Change κ)} {old new base : List κ}
  {listings : List (List κ)}

theorem told_append : told k (changes ++ later) = told k changes ++ told k later :=
  List.filterMap_append

theorem settle_eq_told : settle k present changes = (told k changes).getLastD present := by
  induction changes generalizing present with
  | nil => rfl
  | cons change rest ih =>
      rw [settle, List.foldl_cons]
      refine ih.trans ?_
      by_cases same : change.key = k
      · rw [Change.apply, if_pos same, told, told, List.filterMap_cons, if_pos same]
        cases List.filterMap _ rest <;> rfl
      · rw [Change.apply_of_ne same, told, told, List.filterMap_cons, if_neg same]

/-- Keys that all have come, or that all have gone. -/
theorem told_map {f : κ → Change κ} {isPut : Bool} (key : ∀ k, (f k).key = k)
    (same : ∀ k, (f k).isPut = isPut) {keys : List κ} (once : keys.Nodup) :
    told k (keys.map f) = if k ∈ keys then [isPut] else [] := by
  induction keys with
  | nil => rfl
  | cons first rest ih =>
      obtain ⟨fresh, once⟩ := List.nodup_cons.mp once
      have tail := ih once
      unfold told at tail ⊢
      rw [List.map_cons, List.filterMap_cons, tail, key, same]
      by_cases here : first = k
      · subst here
        simp [fresh]
      · simp [here, Ne.symm here]

/-- The changes tell of a key just where the listings differ on it, and once. -/
def Bridges (old new : List κ) (changes : List (Change κ)) : Prop :=
  ∀ k, told k changes = if k ∈ old ↔ k ∈ new then [] else [decide (k ∈ new)]

theorem bridges_between (onceOld : old.Nodup) (onceNew : new.Nodup) :
    Bridges old new (between old new) := by
  intro k
  rw [between, told_append,
    told_map (f := .put) (fun _ => rfl) (fun _ => rfl) (onceNew.filter _),
    told_map (f := .delete) (fun _ => rfl) (fun _ => rfl) (onceOld.filter _)]
  by_cases before : k ∈ old <;> by_cases after : k ∈ new <;> simp [before, after]

theorem Bridges.nil : Bridges base base ([] : List (Change κ)) :=
  fun _ => (if_pos Iff.rfl).symm

theorem Bridges.congr (bridges : Bridges old new changes) {old' : List κ}
    (same : ∀ k, k ∈ old' ↔ k ∈ old) : Bridges old' new changes := by
  intro k
  simp only [bridges k, same]

/-- Nothing is left to be told. -/
theorem Bridges.mem_iff (bridges : Bridges old new []) (k : κ) : k ∈ old ↔ k ∈ new := by
  by_contra differ
  have one := bridges k
  rw [if_neg differ] at one
  cases one

/-- The keys after a change. -/
def patch (keys : List κ) : Change κ → List κ
  | .put k => k :: keys
  | .delete k => keys.filter (· ≠ k)

theorem mem_patch {keys : List κ} {change : Change κ} :
    k ∈ patch keys change ↔ change.apply k (decide (k ∈ keys)) = true := by
  cases change with
  | put key =>
      by_cases same : key = k
      · simp [patch, Change.apply, Change.key, Change.isPut, same]
      · simp [patch, Change.apply, Change.key, same, Ne.symm same]
  | delete key =>
      by_cases same : key = k
      · simp [patch, Change.apply, Change.key, Change.isPut, same]
      · simp [patch, Change.apply, Change.key, same, Ne.symm same]

/-- The first change is told. -/
theorem Bridges.tail {change : Change κ} (bridges : Bridges old new (change :: changes)) :
    Bridges (patch old change) new changes := by
  intro k
  have whole := bridges k
  rw [told, List.filterMap_cons] at whole
  by_cases same : change.key = k
  · rw [if_pos same] at whole
    split_ifs at whole with agree
    obtain ⟨first, rest⟩ := List.cons.inj whole
    have now : k ∈ patch old change ↔ k ∈ new := by
      rw [mem_patch, Change.apply, if_pos same, first, decide_eq_true_iff]
    rw [if_pos now]
    exact rest
  · rw [if_neg same] at whole
    have stays : k ∈ patch old change ↔ k ∈ old := by
      rw [mem_patch, Change.apply, if_neg same, decide_eq_true_iff]
    simp only [stays]
    exact whole

/-- What was told over some listings, which followed on a first one. -/
structure Tells (base : List κ) (listings : List (List κ)) (changes : List (Change κ)) : Prop where
  alternates : ∀ k, (decide (k ∈ base) :: told k changes).IsChain (· ≠ ·)
  latest : ∀ k, settle k (decide (k ∈ base)) changes = decide (k ∈ listings.getLastD base)
  silent_iff : ∀ k, told k changes = [] ↔ ∀ listing ∈ listings, (k ∈ listing ↔ k ∈ base)

theorem Tells.nil : Tells base [] [] where
  alternates _ := List.isChain_singleton _
  latest _ := rfl
  silent_iff _ := iff_of_true rfl (List.forall_mem_nil _)

/-- The set is listed once more. -/
theorem Tells.list (tells : Tells base listings changes) (bridges : Bridges old new later)
    (same : ∀ k, k ∈ old ↔ k ∈ listings.getLastD base) :
    Tells base (listings ++ [new]) (changes ++ later) := by
  have latest : ∀ k, settle k (decide (k ∈ base)) changes = decide (k ∈ old) := fun k =>
    (tells.latest k).trans (decide_eq_decide.mpr (same k).symm)
  refine ⟨fun k => ?_, fun k => ?_, fun k => ?_⟩
  · rw [told_append, bridges k]
    split_ifs with agree
    · rw [List.append_nil]
      exact tells.alternates k
    · rw [← List.cons_append, List.isChain_append]
      refine ⟨tells.alternates k, List.isChain_singleton _, fun before last after first => ?_⟩
      have known : before = decide (k ∈ old) := by
        rw [← latest, settle_eq_told]
        rw [Option.mem_def, List.getLast?_cons] at last
        rw [List.getLastD_eq_getLast?]
        exact (Option.some.inj last).symm
      obtain rfl : decide (k ∈ new) = after := Option.some.inj first
      exact fun equal => agree (decide_eq_decide.mp (known.symm.trans equal))
  · rw [settle_append, latest, settle_eq_told, bridges k, List.getLastD_concat]
    split_ifs with agree
    · exact decide_eq_decide.mpr agree
    · rfl
  · rw [told_append, bridges k, List.append_eq_nil_iff, tells.silent_iff,
      List.forall_mem_append, List.forall_mem_singleton]
    refine and_congr_right fun agree => ?_
    have before : k ∈ old ↔ k ∈ base := by
      have last := latest k
      rw [settle_eq_told, (tells.silent_iff k).mpr agree] at last
      exact (decide_eq_decide.mp last).symm
    split_ifs with same
    · exact iff_of_true rfl (same.symm.trans before)
    · exact iff_of_false not_false fun back => same (before.trans back.symm)

/-- A follower ends up wrong just where it was wrong and all listings are as the first. -/
theorem Tells.wrong_iff (tells : Tells base listings changes) (k : κ) (present : Bool) :
    settle k present changes ≠ decide (k ∈ listings.getLastD base) ↔
      present ≠ decide (k ∈ base) ∧ ∀ listing ∈ listings, (k ∈ listing ↔ k ∈ base) := by
  rw [← tells.latest, ← tells.silent_iff, settle_eq_told, settle_eq_told]
  cases told k changes with
  | nil => simp
  | cons first rest => simp [List.getLast?_cons]

end Deltas
