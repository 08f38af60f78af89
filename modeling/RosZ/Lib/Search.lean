import Mathlib.Logic.Relation
import RosZ.Lib.KeyedMap

/-!
# Collecting what is reachable

A depth-first search that collects nodes in an ordered map under their keys.  A node
has keys of other nodes as its children, and a key is looked up when it is met for
the first time; keys that are in the map already, or that no lookup finds, are passed
over.

* `collect` is the algorithm.  Its fuel bounds the depth of the recursion, which is at
  most the number of keys that can be found (`exists_collect`).
* `Collects` says what a search that starts at some keys has done.  It composes
  (`Collects.append`), so that several searches in a row are one.
* `Reached` is what a search may add to the map: keys that can be found from a start without
  passing one that was there before.
-/

namespace Search

variable {κ ν : Type} [Ord κ] [Std.TransOrd κ] [Std.LawfulEqOrd κ]

section Algorithm

variable (lookup : κ → Option ν) (children : ν → List κ) (key : ν → κ)

/-- Collect the nodes below a node, each before those below it. -/
def collect : ℕ → ν → Std.TreeMap κ ν → Option (Std.TreeMap κ ν)
  | 0, _, _ => none
  | fuel + 1, node, collected =>
      (children node).foldlM (fun collected child =>
        if collected.contains child then some collected
        else
          match lookup child with
          | none => some collected
          | some found => collect fuel found (collected.insert (key found) found)) collected

end Algorithm

variable (lookup : κ → Option ν) (children : ν → List κ)

/-! ## What a search reaches -/

/-- From one key to a child of its node, past the keys to avoid. -/
def Step (avoid : Std.TreeMap κ ν) (k k' : κ) : Prop :=
  ∃ node, lookup k = some node ∧ k' ∈ children node ∧ k' ∉ avoid ∧ ∃ found, lookup k' = some found

/-- A key that can be reached from one of the starts, past the keys to avoid. -/
def Reached (avoid : Std.TreeMap κ ν) (starts : List κ) (k : κ) : Prop :=
  ∃ start ∈ starts, start ∉ avoid ∧ (∃ found, lookup start = some found) ∧
    Relation.ReflTransGen (Step lookup children avoid) start k

/-- What a search from `starts` has made of the map `before`. -/
structure Collects (starts : List κ) (before after : Std.TreeMap κ ν) : Prop where
  kept : ∀ (k : κ) (v : ν), before[k]? = some v → after[k]? = some v
  found : ∀ (k : κ) (v : ν), after[k]? = some v → k ∉ before →
    lookup k = some v ∧ Reached lookup children before starts k
  covered : ∀ start ∈ starts, ∀ found, lookup start = some found → start ∈ after
  closed : ∀ (k : κ) (v : ν), after[k]? = some v → k ∉ before →
    ∀ child ∈ children v, ∀ found, lookup child = some found → child ∈ after

variable {lookup children}

omit [Std.TransOrd κ] [Std.LawfulEqOrd κ] in
theorem Step.mono {avoid avoid' : Std.TreeMap κ ν} (fewer : ∀ k ∈ avoid', k ∈ avoid) (k k' : κ)
    (step : Step lookup children avoid k k') : Step lookup children avoid' k k' := by
  obtain ⟨node, known, child, free, found⟩ := step
  exact ⟨node, known, child, fun marked => free (fewer k' marked), found⟩

omit [Std.TransOrd κ] [Std.LawfulEqOrd κ] in
/-- Avoiding less reaches more. -/
theorem Reached.mono {avoid avoid' : Std.TreeMap κ ν} {starts starts' : List κ} {k : κ}
    (fewer : ∀ k ∈ avoid', k ∈ avoid) (among : ∀ start ∈ starts, start ∈ starts')
    (reached : Reached lookup children avoid starts k) :
    Reached lookup children avoid' starts' k := by
  obtain ⟨start, member, free, known, path⟩ := reached
  exact ⟨start, among start member, fun marked => free (fewer start marked), known,
    Relation.ReflTransGen.mono (Step.mono fewer) _ _ path⟩

namespace Collects

variable {starts starts' : List κ} {before middle after : Std.TreeMap κ ν}

omit [Std.LawfulEqOrd κ] in
theorem kept_mem (collects : Collects lookup children starts before after) {k : κ}
    (member : k ∈ before) : k ∈ after := by
  obtain ⟨v, held⟩ := KeyedMap.mem_iff.mp member
  exact KeyedMap.mem_iff.mpr ⟨v, collects.kept k v held⟩

omit [Std.LawfulEqOrd κ] in
/-- Nothing to do: the start is in the map, or is not found. -/
theorem nothing (done : ∀ start ∈ starts, ∀ found, lookup start = some found → start ∈ before) :
    Collects lookup children starts before before where
  kept := fun _ _ held => held
  found := fun _ v held free => absurd (KeyedMap.mem_iff.mpr ⟨v, held⟩) free
  covered := done
  closed := fun _ v held free => absurd (KeyedMap.mem_iff.mpr ⟨v, held⟩) free

omit [Std.LawfulEqOrd κ] in
/-- One search after the other. -/
theorem append (first : Collects lookup children starts before middle)
    (second : Collects lookup children starts' middle after) :
    Collects lookup children (starts ++ starts') before after where
  kept := fun k v held => second.kept k v (first.kept k v held)
  found := by
    intro k v held free
    by_cases early : k ∈ middle
    · obtain ⟨w, heldEarly⟩ := KeyedMap.mem_iff.mp early
      have same : w = v := Option.some.inj ((second.kept k w heldEarly).symm.trans held)
      obtain ⟨known, reached⟩ := first.found k w heldEarly free
      rw [same] at known
      exact ⟨known, reached.mono (fun _ marked => marked)
        fun _ member => List.mem_append_left _ member⟩
    · obtain ⟨known, reached⟩ := second.found k v held early
      exact ⟨known, reached.mono (fun _ marked => first.kept_mem marked)
        fun _ member => List.mem_append_right _ member⟩
  covered := by
    intro start member found known
    rcases List.mem_append.mp member with early | late
    · exact second.kept_mem (first.covered start early found known)
    · exact second.covered start late found known
  closed := by
    intro k v held free child nested found known
    by_cases early : k ∈ middle
    · obtain ⟨w, heldEarly⟩ := KeyedMap.mem_iff.mp early
      have same : w = v := Option.some.inj ((second.kept k w heldEarly).symm.trans held)
      rw [← same] at nested
      exact second.kept_mem (first.closed k w heldEarly free child nested found known)
    · exact second.closed k v held early child nested found known

/-- A node that is met for the first time: itself, then what is below it. -/
theorem visit [DecidableEq κ] {k : κ} {node : ν} (free : k ∉ before)
    (known : lookup k = some node)
    (below : Collects lookup children (children node) (before.insert k node) after) :
    Collects lookup children [k] before after := by
  have own : after[k]? = some node := by
    apply below.kept
    rw [KeyedMap.getElem?_insert, if_pos rfl]
  have fewer : ∀ a ∈ before, a ∈ before.insert k node :=
    fun a marked => Std.TreeMap.mem_insert.mpr (Or.inr marked)
  have notYet : ∀ k', k ≠ k' → k' ∉ before → k' ∉ before.insert k node := by
    intro k' other free'
    rw [Std.TreeMap.mem_insert]
    simp [other, free']
  refine ⟨?_, ?_, ?_, ?_⟩
  · intro k' v held
    apply below.kept
    have other : k ≠ k' := by
      rintro rfl
      exact free (KeyedMap.mem_iff.mpr ⟨v, held⟩)
    rwa [KeyedMap.getElem?_insert, if_neg other]
  · intro k' v held free'
    by_cases same : k = k'
    · subst same
      rw [own, Option.some.injEq] at held
      rw [← held]
      exact ⟨known, k, List.mem_singleton_self k, free, ⟨node, known⟩,
        Relation.ReflTransGen.refl⟩
    · obtain ⟨knownV, start, nested, freeStart, knownStart, path⟩ :=
        below.found k' v held (notYet k' same free')
      have first : Step lookup children before k start :=
        ⟨node, known, nested, fun marked => freeStart (fewer start marked), knownStart⟩
      have later := Relation.ReflTransGen.mono (Step.mono fewer) _ _ path
      exact ⟨knownV, k, List.mem_singleton_self k, free, ⟨node, known⟩,
        Relation.ReflTransGen.head first later⟩
  · intro start member _ _
    rw [List.mem_singleton.mp member]
    exact KeyedMap.mem_iff.mpr ⟨node, own⟩
  · intro k' v held free' child nested found knownChild
    by_cases same : k = k'
    · subst same
      rw [own, Option.some.injEq] at held
      rw [← held] at nested
      exact below.covered child nested found knownChild
    · exact below.closed k' v held (notYet k' same free') child nested found knownChild

end Collects

/-! ## The search -/

/-- How many of the keys have not been collected. -/
def unseen (keys : List κ) (collected : Std.TreeMap κ ν) : ℕ :=
  (keys.filter fun k => k ∉ collected).length

omit [Std.TransOrd κ] [Std.LawfulEqOrd κ] in
theorem unseen_le {keys : List κ} {collected collected' : Std.TreeMap κ ν}
    (grown : ∀ k ∈ collected, k ∈ collected') : unseen keys collected' ≤ unseen keys collected := by
  refine (List.monotone_filter_right keys fun k free => ?_).length_le
  simp only [decide_eq_true_eq] at free ⊢
  exact fun marked => free (grown k marked)

theorem unseen_insert_lt [DecidableEq κ] {keys : List κ} {collected : Std.TreeMap κ ν} {k : κ}
    (member : k ∈ keys) (free : k ∉ collected) (v : ν) :
    unseen keys (collected.insert k v) < unseen keys collected := by
  have inside : (keys.filter fun a => a ∉ collected.insert k v) =
      (keys.filter fun a => a ∉ collected).filter fun a => a ∉ collected.insert k v := by
    rw [List.filter_filter]
    apply List.filter_congr
    intro a _
    by_cases marked : a ∈ collected
    · simp [Std.TreeMap.mem_insert, marked]
    · simp [marked]
  unfold unseen
  rw [inside, List.length_filter_lt_length_iff_exists]
  refine ⟨k, List.mem_filter.mpr ⟨member, by simpa using free⟩, ?_⟩
  simp [Std.TreeMap.mem_insert]

section Run

variable [DecidableEq κ] {key : ν → κ} {good : κ → Prop}
  (keyed : ∀ k v, good k → lookup k = some v → key v = k ∧ ∀ child ∈ children v, good child)

include keyed

/-- A search that ends has collected what its node's children reach.  Where nodes are found
under other keys than their own, the `good` keys are those that the search meets. -/
theorem collects_of_collect {fuel : ℕ} {node : ν} {before after : Std.TreeMap κ ν}
    (meets : ∀ child ∈ children node, good child)
    (finished : collect lookup children key fuel node before = some after) :
    Collects lookup children (children node) before after := by
  induction fuel generalizing node before after with
  | zero => cases finished
  | succ fuel ih =>
      unfold collect at finished
      generalize children node = starts at finished meets ⊢
      -- the loop over the children, one search after the other
      induction starts generalizing before with
      | nil =>
          cases finished
          exact Collects.nothing (by simp)
      | cons child rest loop =>
          rw [List.foldlM_cons] at finished
          obtain ⟨middle, first, others⟩ := Option.bind_eq_some_iff.mp finished
          have meetsRest := fun k later => meets k (List.mem_cons_of_mem child later)
          refine @Collects.append _ _ _ _ _ _ [child] _ _ _ _ ?_ (loop others meetsRest)
          by_cases marked : child ∈ before
          · rw [if_pos (Std.TreeMap.contains_iff_mem.mpr marked), Option.some.injEq] at first
            subst first
            refine Collects.nothing fun start member _ _ => ?_
            rwa [List.mem_singleton.mp member]
          · rw [if_neg (fun held => marked (Std.TreeMap.contains_iff_mem.mp held))] at first
            rcases known : lookup child with _ | found
            · rw [known] at first
              cases first
              refine Collects.nothing fun start member found impossible => ?_
              rw [List.mem_singleton.mp member, known] at impossible
              cases impossible
            · obtain ⟨own, meetsBelow⟩ := keyed child found (meets child List.mem_cons_self) known
              rw [known] at first
              dsimp only at first
              rw [own] at first
              exact Collects.visit marked known (ih meetsBelow first)

/-- **Enough fuel ends a search**: no path is longer than the list of all keys that can be
found and have not been collected. -/
theorem exists_collect {keys : List κ}
    (complete : ∀ k found, good k → lookup k = some found → k ∈ keys) {fuel : ℕ} {node : ν}
    {before : Std.TreeMap κ ν} (meets : ∀ child ∈ children node, good child)
    (enough : unseen keys before < fuel) :
    ∃ after, collect lookup children key fuel node before = some after := by
  induction fuel generalizing node before with
  | zero => cases enough
  | succ fuel ih =>
      unfold collect
      generalize children node = starts at meets ⊢
      have bound : unseen keys before ≤ fuel := Nat.lt_succ_iff.mp enough
      clear enough
      induction starts generalizing before with
      | nil => exact ⟨before, rfl⟩
      | cons child rest loop =>
          have meetsRest := fun k later => meets k (List.mem_cons_of_mem child later)
          simp only [List.foldlM_cons]
          by_cases marked : child ∈ before
          · rw [if_pos (Std.TreeMap.contains_iff_mem.mpr marked)]
            exact loop meetsRest bound
          · rw [if_neg (fun held => marked (Std.TreeMap.contains_iff_mem.mp held))]
            rcases known : lookup child with _ | found
            · exact loop meetsRest bound
            · have isGood := meets child List.mem_cons_self
              obtain ⟨own, meetsBelow⟩ := keyed child found isGood known
              dsimp only
              rw [own]
              have less := unseen_insert_lt (complete child found isGood known) marked found
              obtain ⟨middle, first⟩ := ih meetsBelow (less.trans_le bound)
              have collects := collects_of_collect keyed meetsBelow first
              have fewer : unseen keys middle ≤ unseen keys before :=
                unseen_le fun k early =>
                  collects.kept_mem (Std.TreeMap.mem_insert.mpr (Or.inr early))
              obtain ⟨after, others⟩ := loop meetsRest (fewer.trans bound)
              exact ⟨after, Option.bind_eq_some_iff.mpr ⟨middle, first, others⟩⟩

end Run

end Search
