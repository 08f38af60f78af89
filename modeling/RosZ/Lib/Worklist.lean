import Mathlib.Data.List.Nodup
import Mathlib.Data.List.Perm.Basic
import Mathlib.Data.Set.Finite.List
import Mathlib.Logic.Relation
import Mathlib.Order.WellFoundedSet

/-!
# Resolving a list of items in dependency order

A list of items is worked off in passes.  Each item is attempted with the results
found so far; it leaves the list when the attempt succeeds, and its result is
recorded under its key at once, for the items behind it in the same pass.  A pass
that resolves nothing ends the run with the items that are left.

* `pass` and `run` are the algorithm; `run` takes as much fuel as there are items.
* `Resolving` is its invariant: the items left have no result, all others have one,
  and every recorded result is what its item's attempt yields *with the results of
  now*.  That needs attempts to be monotone (`Monotonic`) and keys to differ.
* `resolving_of_run` reads the invariant off a finished run, and `run_finishes` is
  the converse: if among any items left one is ready, the run succeeds.
* `Ends` is the loop without fuel; the fuel that `run` takes is enough (`ends_run`).

## Dependencies

An item may need the results under certain keys.  `Ordered` says that every key that is
needed belongs to an item and that no item needs itself, however indirectly.  A set of
keys is `Trapped` when an item with a key in it always needs another one in it; no run
ever finds such a key.  The two are complementary (`ordered_iff`), which shows that a run
succeeds exactly on ordered items (`exists_run_iff`) and that the order of the items does
not matter (`run_perm`).
-/

namespace Worklist

universe u v w

variable {α : Type u} {κ : Type v} {β : Type w} [DecidableEq κ]

section Algorithm

variable (key : α → κ) (attempt : α → (κ → Option β) → Option β)

/-- One pass over the items; those whose attempt fails are kept. -/
def pass : List α → (κ → Option β) → List α × (κ → Option β)
  | [], found => ([], found)
  | item :: rest, found =>
      match attempt item found with
      | some result => pass rest (Function.update found (key item) (some result))
      | none => (item :: (pass rest found).1, (pass rest found).2)

/-- Passes until no item is left, or until one makes no progress. -/
def run : ℕ → List α → (κ → Option β) → Except (List α) (κ → Option β)
  | _, [], found => .ok found
  | 0, remaining, _ => .error remaining
  | fuel + 1, remaining, found =>
      let (kept, found') := pass key attempt remaining found
      if kept.length = remaining.length then .error kept else run fuel kept found'

end Algorithm

/-- More results never make an attempt fail or change its outcome. -/
def Monotonic (attempt : α → (κ → Option β) → Option β) : Prop :=
  ∀ item found found' result, (∀ k b, found k = some b → found' k = some b) →
    attempt item found = some result → attempt item found' = some result

variable {key : α → κ} {attempt : α → (κ → Option β) → Option β}

/-! ## What a run has found -/

/-- The invariant of a run over `items`. -/
structure Resolving (key : α → κ) (attempt : α → (κ → Option β) → Option β) (items : List α)
    (remaining : List α) (found : κ → Option β) : Prop where
  within : ∀ item ∈ remaining, item ∈ items
  distinct : (remaining.map key).Nodup
  pending : ∀ item ∈ remaining, found (key item) = none
  resolved : ∀ item ∈ items, item ∈ remaining ∨ ∃ result, found (key item) = some result
  origin : ∀ k result, found k = some result →
    ∃ item ∈ items, key item = k ∧ attempt item found = some result

omit [DecidableEq κ] in
/-- At the start everything is left. -/
theorem resolving_start {items : List α} (distinct : (items.map key).Nodup) :
    Resolving key attempt items items (fun _ => none) where
  within _ member := member
  distinct := distinct
  pending _ _ := rfl
  resolved _ member := Or.inl member
  origin := by
    intro k result impossible
    cases impossible

/-- Recording a result under a free key keeps the others. -/
theorem extends_update {found : κ → Option β} {k : κ} (free : found k = none) (result : β) :
    ∀ k' b, found k' = some b → Function.update found k (some result) k' = some b := by
  intro k' b recorded
  have other : k' ≠ k := by
    rintro rfl
    rw [free] at recorded
    cases recorded
  rw [Function.update_of_ne other]
  exact recorded

/-- One successful attempt. -/
theorem Resolving.step (monotonic : Monotonic attempt) {items front rest : List α} {item : α}
    {found : κ → Option β} {result : β}
    (resolving : Resolving key attempt items (front ++ item :: rest) found)
    (success : attempt item found = some result) :
    Resolving key attempt items (front ++ rest)
      (Function.update found (key item) (some result)) := by
  have member : item ∈ front ++ item :: rest := by simp
  have free := resolving.pending item member
  have smaller : (front ++ rest).Sublist (front ++ item :: rest) :=
    (List.sublist_cons_self item rest).append_left front
  have grown := extends_update free result
  have others : ∀ other ∈ front ++ rest, key other ≠ key item := by
    intro other among same
    have distinct := resolving.distinct
    rw [List.map_append, List.map_cons, List.nodup_middle, List.nodup_cons] at distinct
    apply distinct.1
    rw [← same, ← List.map_append]
    exact List.mem_map_of_mem among
  refine ⟨fun other among => resolving.within other (smaller.subset among),
    (smaller.map key).nodup resolving.distinct, fun other among => ?_, fun other among => ?_,
    fun k b recorded => ?_⟩
  · rw [Function.update_of_ne (others other among)]
    exact resolving.pending other (smaller.subset among)
  · rcases resolving.resolved other among with left | ⟨b, recorded⟩
    · rcases List.mem_append.mp left with inFront | behind
      · exact Or.inl (List.mem_append_left rest inFront)
      · rcases List.mem_cons.mp behind with rfl | inRest
        · exact Or.inr ⟨result, Function.update_self ..⟩
        · exact Or.inl (List.mem_append_right front inRest)
    · exact Or.inr ⟨b, grown _ b recorded⟩
  · by_cases same : k = key item
    · subst same
      rw [Function.update_self, Option.some.injEq] at recorded
      subst recorded
      exact ⟨item, resolving.within item member, rfl, monotonic _ _ _ _ grown success⟩
    · rw [Function.update_of_ne same] at recorded
      obtain ⟨source, among, keyed, yields⟩ := resolving.origin k b recorded
      exact ⟨source, among, keyed, monotonic _ _ _ _ grown yields⟩

/-- A pass keeps the invariant; `front` is what it has already passed over. -/
theorem Resolving.pass (monotonic : Monotonic attempt) {items : List α} :
    ∀ {todo front : List α} {found : κ → Option β},
      Resolving key attempt items (front ++ todo) found →
      Resolving key attempt items (front ++ (pass key attempt todo found).1)
        (pass key attempt todo found).2
  | [], _, _, resolving => resolving
  | item :: rest, front, found, resolving => by
      unfold Worklist.pass
      rcases outcome : attempt item found with _ | result
      · have passed := @Resolving.pass monotonic items rest (front ++ [item]) found
          (by rwa [List.append_assoc])
        rwa [List.append_assoc] at passed
      · exact (resolving.step monotonic outcome).pass monotonic

/-- **A finished run has resolved every item**, and its results are those of the
attempts. -/
theorem resolving_of_run (monotonic : Monotonic attempt) {items : List α} :
    ∀ {fuel : ℕ} {remaining : List α} {found found' : κ → Option β},
      Resolving key attempt items remaining found →
      run key attempt fuel remaining found = .ok found' →
      Resolving key attempt items [] found'
  | _, [], _, _, resolving, finished => by
      unfold run at finished
      cases finished
      exact resolving
  | 0, _ :: _, _, _, _, finished => by
      unfold run at finished
      cases finished
  | fuel + 1, item :: rest, found, _, resolving, finished => by
      unfold run at finished
      by_cases stuck : (pass key attempt (item :: rest) found).1.length = (item :: rest).length
      · simp only [if_pos stuck] at finished
        cases finished
      · simp only [if_neg stuck] at finished
        have passed := @Resolving.pass _ _ _ _ _ _ monotonic items (item :: rest) [] found resolving
        exact resolving_of_run monotonic passed finished

/-! ## When a run finishes -/

section Finishing

variable {items : List α}

theorem length_pass_le : ∀ (todo : List α) (found : κ → Option β),
    (pass key attempt todo found).1.length ≤ todo.length
  | [], _ => Nat.le_refl _
  | item :: rest, found => by
      unfold pass
      rcases attempt item found with _ | result
      · exact Nat.succ_le_succ (length_pass_le rest found)
      · exact Nat.le_succ_of_le (length_pass_le rest _)

/-- A pass over an item that is ready makes progress. -/
theorem pass_progress {remaining todo : List α} {found : κ → Option β}
    (covers : ∀ other ∈ items, other ∈ remaining ∨ ∃ result, found (key other) = some result)
    (ready : ∃ item ∈ todo, ∀ found,
      (∀ other ∈ items, other ∈ remaining ∨ ∃ result, found (key other) = some result) →
      attempt item found ≠ none) :
    (pass key attempt todo found).1.length < todo.length := by
  induction todo generalizing found with
  | nil =>
      obtain ⟨item, impossible, -⟩ := ready
      cases impossible
  | cons item rest ih =>
      unfold pass
      rcases outcome : attempt item found with _ | result
      · -- the item that is ready stands further back
        obtain ⟨other, among, succeeds⟩ := ready
        have further : other ∈ rest := by
          rcases List.mem_cons.mp among with rfl | further
          · exact absurd outcome (succeeds found covers)
          · exact further
        exact Nat.succ_lt_succ (ih covers ⟨other, further, succeeds⟩)
      · exact Nat.lt_succ_of_le (length_pass_le rest _)

/-- **A run finishes if among any items left one is ready**: an attempt at it succeeds
with any results that cover the items no longer left. -/
theorem run_finishes (monotonic : Monotonic attempt)
    (ready : ∀ remaining : List α, remaining ≠ [] → (∀ item ∈ remaining, item ∈ items) →
      ∃ item ∈ remaining, ∀ found,
        (∀ other ∈ items, other ∈ remaining ∨ ∃ result, found (key other) = some result) →
        attempt item found ≠ none) :
    ∀ {fuel : ℕ} {remaining : List α} {found : κ → Option β}, remaining.length ≤ fuel →
      Resolving key attempt items remaining found →
      ∃ found', run key attempt fuel remaining found = .ok found'
  | _, [], found, _, _ => ⟨found, by unfold run; rfl⟩
  | 0, _ :: _, _, enough, _ => by simp at enough
  | fuel + 1, item :: rest, found, enough, resolving => by
      have progress := pass_progress resolving.resolved
        (ready (item :: rest) (List.cons_ne_nil _ _) resolving.within)
      have passed := @Resolving.pass _ _ _ _ _ _ monotonic items (item :: rest) [] found resolving
      have less : (pass key attempt (item :: rest) found).1.length ≤ fuel := by omega
      obtain ⟨found', finished⟩ := run_finishes monotonic ready less passed
      refine ⟨found', ?_⟩
      unfold run
      simp only [if_neg (Nat.ne_of_lt progress)]
      exact finished

end Finishing

/-! ## The loop without fuel -/

/-- The loop over the items left, as it is written: it ends with an outcome. -/
inductive Ends (key : α → κ) (attempt : α → (κ → Option β) → Option β) :
    List α → (κ → Option β) → Except (List α) (κ → Option β) → Prop
  | done (found : κ → Option β) : Ends key attempt [] found (.ok found)
  | stuck {remaining : List α} {found : κ → Option β} (left : remaining ≠ [])
      (still : (pass key attempt remaining found).1.length = remaining.length) :
      Ends key attempt remaining found (.error (pass key attempt remaining found).1)
  | again {remaining : List α} {found : κ → Option β}
      {outcome : Except (List α) (κ → Option β)} (left : remaining ≠ [])
      (progress : (pass key attempt remaining found).1.length ≠ remaining.length)
      (rest : Ends key attempt (pass key attempt remaining found).1
        (pass key attempt remaining found).2 outcome) :
      Ends key attempt remaining found outcome

/-- **The loop ends**, and as much fuel as there are items does not cut it short. -/
theorem ends_run : ∀ {fuel : ℕ} {remaining : List α} {found : κ → Option β},
    remaining.length ≤ fuel →
      Ends key attempt remaining found (run key attempt fuel remaining found)
  | _, [], found, _ => by
      unfold run
      exact Ends.done found
  | 0, _ :: _, _, enough => by simp at enough
  | fuel + 1, item :: rest, found, enough => by
      unfold run
      by_cases still : (pass key attempt (item :: rest) found).1.length = (item :: rest).length
      · simp only [if_pos still]
        exact Ends.stuck (List.cons_ne_nil _ _) still
      · have fewer := @length_pass_le _ _ _ _ key attempt (item :: rest) found
        have less : (pass key attempt (item :: rest) found).1.length ≤ fuel := by
          have different := still
          simp only [List.length_cons] at enough fewer different
          omega
        simp only [if_neg still]
        exact Ends.again (List.cons_ne_nil _ _) still (ends_run less)

/-! ## Dependencies between items -/

section Dependencies

/-- The result of `inner` is one that `outer` needs. -/
def Needs (key : α → κ) (needs : α → List κ) (items : List α) (inner outer : α) : Prop :=
  inner ∈ items ∧ outer ∈ items ∧ key inner ∈ needs outer

/-- What is needed exists, and nothing needs itself. -/
structure Ordered (key : α → κ) (needs : α → List κ) (items : List α) : Prop where
  found : ∀ item ∈ items, ∀ k ∈ needs item, ∃ other ∈ items, key other = k
  acyclic : ∀ item, ¬ Relation.TransGen (Needs key needs items) item item

/-- Items with a key in the set need another key in it. -/
def Trapped (key : α → κ) (needs : α → List κ) (items : List α) (trap : κ → Prop) : Prop :=
  ∀ item ∈ items, trap (key item) → ∃ k ∈ needs item, trap k

variable {needs : α → List κ} {items : List α}

omit [DecidableEq κ] in
theorem Ordered.perm {items' : List α} (ordered : Ordered key needs items)
    (permuted : items'.Perm items) : Ordered key needs items' := by
  have same : Needs key needs items' = Needs key needs items := by
    funext inner outer
    simp only [Needs, permuted.mem_iff]
  refine ⟨fun item member k needed => ?_, same ▸ ordered.acyclic⟩
  obtain ⟨other, member', keyed⟩ := ordered.found item (permuted.mem_iff.mp member) k needed
  exact ⟨other, permuted.mem_iff.mpr member', keyed⟩

omit [DecidableEq κ] in
/-- Needs that always lead to a lower rank do not run in circles. -/
theorem ordered_of_rank (found : ∀ item ∈ items, ∀ k ∈ needs item, ∃ other ∈ items, key other = k)
    (rank : α → ℕ) (lower : ∀ inner outer, Needs key needs items inner outer →
      rank inner < rank outer) : Ordered key needs items := by
  refine ⟨found, fun item cycle => ?_⟩
  have below : ∀ {outer}, Relation.TransGen (Needs key needs items) item outer →
      rank item < rank outer := by
    intro outer path
    induction path with
    | single needed => exact lower _ _ needed
    | tail _ needed ih => exact ih.trans (lower _ _ needed)
  exact (below cycle).false

omit [DecidableEq κ] in
/-- There are finitely many items, so needs that do not run in circles come to an end. -/
theorem Ordered.wellFounded (ordered : Ordered key needs items) :
    WellFounded (Needs key needs items) := by
  have finite : {item | item ∈ items}.Finite := List.finite_toSet items
  have irreflexive : Std.Irrefl (Relation.TransGen (Needs key needs items)) :=
    ⟨ordered.acyclic⟩
  have order : IsStrictOrder α (Relation.TransGen (Needs key needs items)) := { }
  have within := Set.wellFoundedOn_iff.mp
    (@Set.Finite.wellFoundedOn α (Relation.TransGen (Needs key needs items)) order _ finite)
  refine Subrelation.wf (fun {inner outer} needed => ?_) within
  exact ⟨Relation.TransGen.single needed, needed.1, needed.2.1⟩

omit [DecidableEq κ] in
/-- Among any items left, one needs none of them. -/
theorem Ordered.exists_free (ordered : Ordered key needs items) {remaining : List α}
    (left : remaining ≠ []) (within : ∀ item ∈ remaining, item ∈ items) :
    ∃ item ∈ remaining, ∀ other ∈ remaining, key other ∉ needs item := by
  obtain ⟨first, isFirst⟩ := List.exists_mem_of_ne_nil remaining left
  obtain ⟨item, among, least⟩ := ordered.wellFounded.has_min {item | item ∈ remaining}
    ⟨first, isFirst⟩
  refine ⟨item, among, fun other alsoLeft needed => ?_⟩
  exact least other alsoLeft ⟨within other alsoLeft, within item among, needed⟩

omit [DecidableEq κ] in
/-- **Ordered items are the ones of which none is trapped.** -/
theorem ordered_iff (distinct : (items.map key).Nodup) :
    Ordered key needs items ↔
      ∀ trap, Trapped key needs items trap → ∀ item ∈ items, ¬ trap (key item) := by
  have unique : ∀ item ∈ items, ∀ other ∈ items, key item = key other → item = other :=
    fun item member other member' same => List.inj_on_of_nodup_map distinct member member' same
  constructor
  · intro ordered trap trapped item
    induction item using ordered.wellFounded.induction with
    | _ item ih =>
        intro member inside
        obtain ⟨k, needed, inside'⟩ := trapped item member inside
        obtain ⟨other, member', rfl⟩ := ordered.found item member k needed
        exact ih other ⟨member', member, needed⟩ member' inside'
  · intro untrapped
    refine ⟨fun item member k needed => ?_, fun item cycle => ?_⟩
    · by_contra missing
      refine untrapped (fun k' => k' = k ∨ k' = key item) ?_ item member (.inr rfl)
      rintro other member' (same | same)
      · exact absurd ⟨other, member', same⟩ missing
      · rw [unique other member' item member same]
        exact ⟨k, needed, .inl rfl⟩
    · have member : item ∈ items := by
        obtain ⟨_, _, last⟩ := Relation.TransGen.tail'_iff.mp cycle
        exact last.2.1
      refine untrapped (fun k => ∃ other ∈ items, key other = k ∧
        Relation.TransGen (Needs key needs items) other other) ?_ item member
        ⟨item, member, rfl, cycle⟩
      rintro other member' ⟨same, alike, equal, around⟩
      rw [unique same alike other member' equal] at around
      obtain ⟨before, path, last⟩ := Relation.TransGen.tail'_iff.mp around
      exact ⟨key before, last.2.2, before, last.1, rfl, Relation.TransGen.head'_iff.mpr
        ⟨other, last, path⟩⟩

variable {own : α → Prop}

/-- A pass finds no key of a trap. -/
theorem pass_untrapped {trap : κ → Prop} (trapped : Trapped key needs items trap)
    (satisfied : ∀ item ∈ items, ∀ found result, attempt item found = some result →
      ∀ k ∈ needs item, ∃ b, found k = some b) :
    ∀ {todo : List α} {found : κ → Option β}, (∀ item ∈ todo, item ∈ items) →
      (∀ k b, found k = some b → ¬ trap k) →
      ∀ k b, (pass key attempt todo found).2 k = some b → ¬ trap k
  | [], _, _, untrapped => untrapped
  | item :: rest, found, within, untrapped => by
      have inRest : ∀ other ∈ rest, other ∈ items := fun other member =>
        within other (List.mem_cons_of_mem _ member)
      unfold pass
      rcases outcome : attempt item found with _ | result
      · exact pass_untrapped trapped satisfied inRest untrapped
      · refine pass_untrapped trapped satisfied inRest fun k b recorded inside => ?_
        by_cases same : k = key item
        · subst same
          have member := within item List.mem_cons_self
          obtain ⟨k', needed, inside'⟩ := trapped item member inside
          obtain ⟨b', recorded'⟩ := satisfied item member found result outcome k' needed
          exact untrapped k' b' recorded' inside'
        · rw [Function.update_of_ne same] at recorded
          exact untrapped k b recorded inside

theorem run_untrapped {trap : κ → Prop} (monotonic : Monotonic attempt)
    (trapped : Trapped key needs items trap)
    (satisfied : ∀ item ∈ items, ∀ found result, attempt item found = some result →
      ∀ k ∈ needs item, ∃ b, found k = some b) :
    ∀ {fuel : ℕ} {remaining : List α} {found found' : κ → Option β},
      Resolving key attempt items remaining found → (∀ k b, found k = some b → ¬ trap k) →
      run key attempt fuel remaining found = .ok found' → ∀ k b, found' k = some b → ¬ trap k
  | _, [], _, _, _, untrapped, finished => by
      unfold run at finished
      cases finished
      exact untrapped
  | 0, _ :: _, _, _, _, _, finished => by
      unfold run at finished
      cases finished
  | fuel + 1, item :: rest, found, _, resolving, untrapped, finished => by
      unfold run at finished
      by_cases stuck : (pass key attempt (item :: rest) found).1.length = (item :: rest).length
      · simp only [if_pos stuck] at finished
        cases finished
      · simp only [if_neg stuck] at finished
        have passed := @Resolving.pass _ _ _ _ _ _ monotonic items (item :: rest) [] found resolving
        exact run_untrapped monotonic trapped satisfied passed
          (pass_untrapped trapped satisfied resolving.within untrapped) finished

/-- **A run succeeds exactly on ordered items** that could all be resolved by themselves. -/
theorem exists_run_iff (monotonic : Monotonic attempt) (distinct : (items.map key).Nodup)
    (succeeds : ∀ item ∈ items, ∀ found, (∃ result, attempt item found = some result) ↔
      own item ∧ ∀ k ∈ needs item, ∃ b, found k = some b) :
    (∃ found, run key attempt items.length items (fun _ => none) = .ok found) ↔
      (∀ item ∈ items, own item) ∧ Ordered key needs items := by
  constructor
  · rintro ⟨found, finished⟩
    have start : Resolving key attempt items items (fun _ => none) := resolving_start distinct
    have resolving := resolving_of_run monotonic start finished
    have resolved : ∀ item ∈ items, ∃ result, found (key item) = some result := fun item member =>
      (resolving.resolved item member).resolve_left List.not_mem_nil
    constructor
    · intro item member
      obtain ⟨result, recorded⟩ := resolved item member
      obtain ⟨other, member', same, yields⟩ := resolving.origin _ _ recorded
      rw [List.inj_on_of_nodup_map distinct member' member same] at yields
      exact ((succeeds item member found).mp ⟨_, yields⟩).1
    · rw [ordered_iff distinct]
      intro trap trapped item member
      obtain ⟨result, recorded⟩ := resolved item member
      refine run_untrapped monotonic trapped ?_ start ?_ finished _ _ recorded
      · intro item member found result yields
        exact ((succeeds item member found).mp ⟨_, yields⟩).2
      · intro k b impossible
        cases impossible
  · rintro ⟨all, ordered⟩
    refine run_finishes monotonic (fun remaining left within => ?_) (Nat.le_refl _)
      (resolving_start distinct)
    obtain ⟨item, among, free⟩ := ordered.exists_free left within
    refine ⟨item, among, fun found covers => ?_⟩
    have satisfied : ∀ k ∈ needs item, ∃ b, found k = some b := by
      intro k needed
      obtain ⟨other, member, rfl⟩ := ordered.found item (within item among) k needed
      exact (covers other member).resolve_left fun alsoLeft => free other alsoLeft needed
    obtain ⟨result, yields⟩ :=
      (succeeds item (within item among) found).mpr ⟨all item (within item among), satisfied⟩
    rw [yields]
    exact Option.some_ne_none result

/-- **The order of the items does not matter.** -/
theorem run_perm (monotonic : Monotonic attempt) (distinct : (items.map key).Nodup)
    (ordered : Ordered key needs items)
    (reads : ∀ item ∈ items, ∀ found found', (∀ k ∈ needs item, found k = found' k) →
      attempt item found = attempt item found')
    {items' : List α} (permuted : items'.Perm items) {found found' : κ → Option β}
    (finished : run key attempt items.length items (fun _ => none) = .ok found)
    (finished' : run key attempt items'.length items' (fun _ => none) = .ok found') :
    found = found' := by
  have distinct' : (items'.map key).Nodup := (permuted.map key).nodup_iff.mpr distinct
  have resolving := resolving_of_run monotonic (resolving_start distinct) finished
  have resolving' := resolving_of_run monotonic (resolving_start distinct') finished'
  -- by induction along the needs: equal results are read, so equal results are found
  have same : ∀ item, item ∈ items → found (key item) = found' (key item) := by
    intro item
    induction item using ordered.wellFounded.induction with
    | _ item ih =>
        intro member
        obtain ⟨result, recorded⟩ := (resolving.resolved item member).resolve_left
          List.not_mem_nil
        obtain ⟨result', recorded'⟩ := (resolving'.resolved item
          (permuted.mem_iff.mpr member)).resolve_left List.not_mem_nil
        obtain ⟨source, among, keyed, yields⟩ := resolving.origin _ _ recorded
        obtain ⟨source', among', keyed', yields'⟩ := resolving'.origin _ _ recorded'
        rw [List.inj_on_of_nodup_map distinct among member keyed] at yields
        rw [List.inj_on_of_nodup_map distinct (permuted.mem_iff.mp among') member keyed'] at yields'
        have read := reads item member found found' fun k needed => by
          obtain ⟨other, member', rfl⟩ := ordered.found item member k needed
          exact ih other ⟨member', member, needed⟩ member'
        rw [recorded, recorded', ← yields, ← yields', read]
  funext k
  rcases recorded : found k with _ | result
  · rcases recorded' : found' k with _ | result'
    · rfl
    · obtain ⟨source, among, rfl, -⟩ := resolving'.origin _ _ recorded'
      rw [← recorded, same source (permuted.mem_iff.mp among), recorded']
  · obtain ⟨source, among, rfl, -⟩ := resolving.origin _ _ recorded
    rw [← recorded, same source among]

end Dependencies

end Worklist
