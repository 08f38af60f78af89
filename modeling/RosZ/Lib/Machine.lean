import Mathlib.Logic.Relation
import Mathlib.Data.List.Basic

/-!
# Machines that leave a trace

A `Machine` takes one labelled step at a time and reports, for each step, what can
be observed of it.  A `Config` is a state together with everything observed since
the start, so that an invariant may speak about the past of a run as well as about
its present.

## Design notes

The label of a step says which component moves and which choices the environment
makes, so that `step` is a function and a given schedule can be executed.  All
interleavings are all lists of labels.

Runs may be restricted by a condition on the configuration *before* a step and the
label of that step.  `Reachable allowed` are the configurations that such runs reach,
and `Reachable.invariant` is the induction behind every safety result: what holds
at the start and is kept by each allowed step holds in every reachable
configuration.
-/

namespace Transition

/-- A deterministic machine on states `σ`, driven by labels `ℓ`, that reports
observations `ο`. -/
structure Machine (σ ℓ ο : Type*) where
  /-- The state in which every run starts. -/
  init : σ
  /-- The step with a given label, if it is enabled. -/
  step : σ → ℓ → Option (σ × List ο)

/-- A state and the observations made on the way to it, oldest first. -/
structure Config (σ ο : Type*) where
  state : σ
  trace : List ο

namespace Machine

variable {σ ℓ ο : Type*} (M : Machine σ ℓ ο)

/-- Nothing has happened yet. -/
def start : Config σ ο := ⟨M.init, []⟩

/-- The configuration after a step. -/
def next (c : Config σ ο) (label : ℓ) : Option (Config σ ο) :=
  (M.step c.state label).map fun after => ⟨after.1, c.trace ++ after.2⟩

/-- Some step that meets the condition leads from `c` to `c'`. -/
def Moves (allowed : Config σ ο → ℓ → Prop) (c c' : Config σ ο) : Prop :=
  ∃ label, allowed c label ∧ M.next c label = some c'

/-- Every step of some run from `c` to `c'` meets the condition. -/
def Runs (allowed : Config σ ο → ℓ → Prop) : Config σ ο → Config σ ο → Prop :=
  Relation.ReflTransGen (M.Moves allowed)

/-- A run from the start to `c` all of whose steps meet the condition. -/
def Reachable (allowed : Config σ ο → ℓ → Prop) (c : Config σ ο) : Prop :=
  M.Runs allowed M.start c

/-- No condition on the steps. -/
def anyStep : Config σ ο → ℓ → Prop := fun _ _ => True

variable {M} {allowed : Config σ ο → ℓ → Prop} {c c' : Config σ ο}

theorem next_eq_some {label : ℓ} (moved : M.next c label = some c') :
    ∃ observed, M.step c.state label = some (c'.state, observed) ∧
      c'.trace = c.trace ++ observed := by
  unfold next at moved
  obtain ⟨⟨state, observed⟩, stepped, rfl⟩ := Option.map_eq_some_iff.mp moved
  exact ⟨observed, stepped, rfl⟩

/-- What one step keeps, a run keeps. -/
theorem Runs.induct {P : Config σ ο → Prop} (run : M.Runs allowed c c') (holds : P c)
    (keeps : ∀ c label c', P c → allowed c label → M.next c label = some c' → P c') : P c' := by
  induction run with
  | refl => exact holds
  | tail _ moves ih =>
      obtain ⟨label, meets, moved⟩ := moves
      exact keeps _ label _ ih meets moved

/-- A run that meets a condition meets every weaker one. -/
theorem Runs.mono {weaker : Config σ ο → ℓ → Prop} (run : M.Runs allowed c c')
    (implies : ∀ c label, allowed c label → weaker c label) : M.Runs weaker c c' := by
  refine Runs.induct run Relation.ReflTransGen.refl ?_
  intro d label d' reached meets moved
  exact reached.tail ⟨label, implies d label meets, moved⟩

/-- What holds at the start and is kept by each step holds throughout. -/
theorem Reachable.invariant {P : Config σ ο → Prop} (reached : M.Reachable allowed c)
    (starts : P M.start)
    (keeps : ∀ c label c', P c → allowed c label → M.next c label = some c' → P c') : P c :=
  Runs.induct reached starts keeps

theorem Reachable.step {label : ℓ} (reached : M.Reachable allowed c) (meets : allowed c label)
    (moved : M.next c label = some c') : M.Reachable allowed c' :=
  Relation.ReflTransGen.tail reached ⟨label, meets, moved⟩

theorem Reachable.runs (reached : M.Reachable allowed c) (run : M.Runs allowed c c') :
    M.Reachable allowed c' :=
  Relation.ReflTransGen.trans reached run

/-- The trace only grows along a run. -/
theorem Runs.trace_append (run : M.Runs allowed c c') : ∃ later, c'.trace = c.trace ++ later := by
  refine run.induct (P := fun d => ∃ later, d.trace = c.trace ++ later) ⟨[], by simp⟩ ?_
  rintro d label d' ⟨later, grown⟩ - moved
  obtain ⟨observed, -, extended⟩ := next_eq_some moved
  exact ⟨later ++ observed, by rw [extended, grown, List.append_assoc]⟩

/-! ## Looking back at a trace -/

end Machine

/-- A list that is split inside an append is split in one of its parts. -/
theorem split_append {α : Type*} {first second before after : List α} {a : α}
    (split : first ++ second = before ++ a :: after) :
    (∃ after', first = before ++ a :: after') ∨
      ∃ before', before = first ++ before' ∧ second = before' ++ a :: after := by
  rcases List.append_eq_append_iff.mp split with ⟨mid, rfl, rfl⟩ | ⟨mid, rfl, shifted⟩
  · exact .inr ⟨mid, rfl, rfl⟩
  · cases mid with
    | nil => exact .inr ⟨[], by simp, by simpa using shifted.symm⟩
    | cons b mid =>
        obtain ⟨rfl, rfl⟩ := List.cons.inj shifted
        exact .inl ⟨mid, rfl⟩

namespace Machine

variable {σ ℓ ο : Type*} {M : Machine σ ℓ ο} {allowed : Config σ ο → ℓ → Prop}
  {c c' : Config σ ο}

/-! ## Executing a schedule -/

instance : DecidableRel (anyStep : Config σ ο → ℓ → Prop) :=
  fun _ _ => inferInstanceAs (Decidable True)

variable (M) (allowed) in
/-- Take the steps of a schedule in order, as long as they meet the condition. -/
def runLabels [DecidableRel allowed] : Config σ ο → List ℓ → Option (Config σ ο)
  | c, [] => some c
  | c, label :: rest =>
      if allowed c label then (M.next c label).bind fun c' => runLabels c' rest else none

theorem runs_of_runLabels [DecidableRel allowed] : ∀ {schedule : List ℓ} {c c' : Config σ ο},
    M.runLabels allowed c schedule = some c' → M.Runs allowed c c'
  | [], _, _, executed => by
      obtain rfl := Option.some.inj executed
      exact .refl
  | label :: rest, c, c', executed => by
      rw [runLabels] at executed
      split at executed
      · next meets =>
          obtain ⟨mid, moved, tail⟩ := Option.bind_eq_some_iff.mp executed
          exact .head ⟨label, meets, moved⟩ (runs_of_runLabels tail)
      · cases executed

/-- A schedule that is executed is a run of steps that meet a condition, if its labels meet the
condition wherever such a run may lead. -/
theorem reachable_of_runLabels {schedule : List ℓ}
    (meets : ∀ label ∈ schedule, ∀ c, M.Reachable allowed c → allowed c label)
    (reached : M.Reachable allowed c) (executed : M.runLabels anyStep c schedule = some c') :
    M.Reachable allowed c' := by
  induction schedule generalizing c with
  | nil =>
      obtain rfl := Option.some.inj executed
      exact reached
  | cons label rest ih =>
      rw [runLabels, if_pos (show anyStep c label from trivial)] at executed
      obtain ⟨mid, moved, tail⟩ := Option.bind_eq_some_iff.mp executed
      exact ih (fun later member => meets later (List.mem_cons_of_mem _ member))
        (reached.step (meets label List.mem_cons_self c reached) moved) tail

variable (M) (allowed) in
/-- A schedule executed in two parts, the second under a condition of its own, exhibits two
configurations of one run; `view` is what is to be known of them. -/
theorem exists_of_continuation (later : Config σ ο → ℓ → Prop) [DecidableRel allowed]
    [DecidableRel later] {α : Type*} (first second : List ℓ)
    (view : Config σ ο → Config σ ο → α) (seen : α)
    (executed : ((M.runLabels allowed M.start first).bind fun c =>
      (M.runLabels later c second).map (view c)) = some seen) :
    ∃ c c', M.Reachable allowed c ∧ M.Runs later c c' ∧ view c c' = seen := by
  obtain ⟨c, reached, rest⟩ := Option.bind_eq_some_iff.mp executed
  obtain ⟨c', run, shown⟩ := Option.map_eq_some_iff.mp rest
  exact ⟨c, c', runs_of_runLabels reached, runs_of_runLabels run, shown⟩

variable (M) (allowed) in
/-- A schedule executed in two parts under one condition. -/
theorem exists_of_execution [DecidableRel allowed] {α : Type*} (first second : List ℓ)
    (view : Config σ ο → Config σ ο → α) {seen : α}
    (executed : ((M.runLabels allowed M.start first).bind fun c =>
      (M.runLabels allowed c second).map (view c)) = some seen) :
    ∃ c c', M.Reachable allowed c ∧ M.Runs allowed c c' ∧ view c c' = seen :=
  M.exists_of_continuation allowed allowed first second view seen executed

variable (M) (allowed) in
/-- A schedule executed from the start exhibits one configuration. -/
theorem exists_of_schedule [DecidableRel allowed] {α : Type*} (schedule : List ℓ)
    (view : Config σ ο → α) (seen : α)
    (executed : (M.runLabels allowed M.start schedule).map view = some seen) :
    ∃ c, M.Reachable allowed c ∧ view c = seen := by
  obtain ⟨c, reached, shown⟩ := Option.map_eq_some_iff.mp executed
  exact ⟨c, runs_of_runLabels reached, shown⟩

end Machine

end Transition
