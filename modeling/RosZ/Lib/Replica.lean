import Mathlib.Data.List.Basic
import Mathlib.Data.List.Perm.Basic

/-!
# Following a set from afar

A set changes, and a follower is told of the changes later.  The changes of one key arrive in order;
those of different keys may overtake each other.  `settle` says what the follower will make of a key
once all changes that are on their way have arrived.

The changes on their way decide about the keys that they are about (`settle_of_about`), and leave
alone what the follower has of the others (`settle_of_not_about`).  So a delivery does not alter the
outcome (`settle_eraseIdx`), and neither does news from elsewhere that agrees with it
(`settle_apply`).
-/

namespace Replica

variable {κ : Type*}

/-- A key has come or gone. -/
inductive Change (κ : Type*) where
  | put (key : κ)
  | delete (key : κ)
  deriving DecidableEq

namespace Change

def key : Change κ → κ
  | put k => k
  | delete k => k

def isPut : Change κ → Bool
  | put _ => true
  | delete _ => false

variable [DecidableEq κ]

/-- Whether a key is present after a change, if `present` says so before. -/
def apply (change : Change κ) (k : κ) (present : Bool) : Bool :=
  if change.key = k then change.isPut else present

theorem apply_self (change : Change κ) (present : Bool) :
    change.apply change.key present = change.isPut :=
  if_pos rfl

theorem apply_of_ne {change : Change κ} {k : κ} (other : change.key ≠ k) (present : Bool) :
    change.apply k present = present :=
  if_neg other

end Change

variable [DecidableEq κ]

/-- Whether a key is present after the changes. -/
def settle (k : κ) (present : Bool) (changes : List (Change κ)) : Bool :=
  changes.foldl (fun b change => change.apply k b) present

/-- One of the changes is about the key. -/
def About (k : κ) (changes : List (Change κ)) : Prop := ∃ change ∈ changes, change.key = k

instance (k : κ) (changes : List (Change κ)) : Decidable (About k changes) :=
  inferInstanceAs (Decidable (∃ change ∈ changes, change.key = k))

variable {k : κ} {present : Bool} {changes later : List (Change κ)}

omit [DecidableEq κ] in
theorem About.mono (about : About k changes) (more : changes ⊆ later) : About k later := by
  obtain ⟨change, listed, same⟩ := about
  exact ⟨change, more listed, same⟩

omit [DecidableEq κ] in
theorem about_snoc {change : Change κ} :
    About k (changes ++ [change]) ↔ About k changes ∨ change.key = k := by
  simp [About, or_and_right, exists_or]

omit [DecidableEq κ] in
theorem about_map_put {keys : List κ} : About k (keys.map Change.put) ↔ k ∈ keys := by
  simp [About, Change.key]

theorem settle_append : settle k present (changes ++ later) =
    settle k (settle k present changes) later :=
  List.foldl_append

theorem settle_snoc (change : Change κ) : settle k present (changes ++ [change]) =
    change.apply k (settle k present changes) :=
  settle_append

theorem settle_of_not_about (none : ¬ About k changes) : settle k present changes = present := by
  induction changes with
  | nil => rfl
  | cons change rest ih =>
      have other : change.key ≠ k := fun same => none ⟨change, List.mem_cons_self, same⟩
      rw [settle, List.foldl_cons, Change.apply_of_ne other]
      refine ih fun ⟨next, listed, same⟩ => ?_
      exact none ⟨next, List.mem_cons_of_mem _ listed, same⟩

/-- What the changes decide does not depend on what the follower has. -/
theorem settle_of_about (about : About k changes) (present' : Bool) :
    settle k present changes = settle k present' changes := by
  obtain ⟨change, listed, rfl⟩ := about
  obtain ⟨before, after, rfl⟩ := List.append_of_mem listed
  simp only [settle, List.foldl_append, List.foldl_cons, Change.apply_self]

/-- The first change of its key is delivered. -/
theorem settle_eraseIdx {i : ℕ} {change : Change κ} (found : changes[i]? = some change)
    (first : ¬ About change.key (changes.take i)) :
    settle k (change.apply k present) (changes.eraseIdx i) = settle k present changes := by
  obtain ⟨bound, rfl⟩ := List.getElem?_eq_some_iff.mp found
  rw [List.eraseIdx_eq_take_drop_succ, settle_append]
  conv_rhs => rw [← List.take_append_drop i changes, List.drop_eq_getElem_cons bound,
    settle_append, settle, List.foldl_cons]
  refine congrArg (settle k · _) ?_
  by_cases same : changes[i].key = k
  · subst same
    rw [settle_of_not_about first, Change.apply_self, Change.apply_self]
  · rw [Change.apply_of_ne same, Change.apply_of_ne same]

/-- News that agrees with the outcome does not alter it. -/
theorem settle_apply {change : Change κ}
    (agrees : change.key = k → settle k present changes = change.isPut) :
    settle k (change.apply k present) changes = settle k present changes := by
  by_cases same : change.key = k
  · by_cases about : About k changes
    · exact settle_of_about about present
    · rw [agrees same, settle_of_not_about about, Change.apply, if_pos same]
  · rw [Change.apply_of_ne same]

/-- The whole set is sent to a follower. -/
theorem settle_map_put (keys : List κ) :
    settle k present (keys.map Change.put) = (present || decide (k ∈ keys)) := by
  induction keys generalizing present with
  | nil => exact (Bool.or_false present).symm
  | cons key rest ih =>
      rw [List.map_cons, settle, List.foldl_cons]
      refine ih.trans ?_
      by_cases same : key = k
      · simp [Change.apply, Change.key, Change.isPut, same]
      · simp [Change.apply, Change.key, same, Ne.symm same]

end Replica
