import Mathlib.Tactic.Basic

/-!
# Programs in lockstep

Two implementations of one interface, run by the same program: if every operation
of the interface keeps a relation between the two states, so does every program
over it, and the program fails on one exactly when it fails on the other.

* `Results R` — two results that agree: both failed alike, or both succeeded in
  related states.
* `Lockstep R` — two fallible state transformers that take related states to
  results that agree; closed under sequencing (`Lockstep.bind`).
* `observed` — what is seen of a state along a list of operations; the same on
  both sides when every operation keeps the relation (`observed_eq`).
-/

universe u v w

/-- Results that agree: the same failure, or related states. -/
inductive Results {σ : Type u} {τ : Type v} {ε : Type w} (R : σ → τ → Prop) :
    Except ε σ → Except ε τ → Prop where
  | ok {s : σ} {t : τ} (related : R s t) : Results R (.ok s) (.ok t)
  | error (e : ε) : Results R (.error e) (.error e)

/-- Programs that continue from agreeing results. -/
theorem Results.bind {ε : Type w} {σ σ' : Type u} {τ τ' : Type v} {R : σ → τ → Prop}
    {R' : σ' → τ' → Prop} {left : Except ε σ} {right : Except ε τ} {next : σ → Except ε σ'}
    {next' : τ → Except ε τ'} (agree : Results R left right)
    (continues : ∀ s t, R s t → Results R' (next s) (next' t)) :
    Results R' (left >>= next) (right >>= next') := by
  rcases agree with ⟨related⟩ | ⟨e⟩
  · exact continues _ _ related
  · exact Results.error e

/-- Related states are taken to results that agree. -/
def Lockstep {σ : Type u} {τ : Type v} {ε : Type w} (R : σ → τ → Prop)
    (first : σ → Except ε σ) (second : τ → Except ε τ) : Prop :=
  ∀ s t, R s t → Results R (first s) (second t)

namespace Lockstep

variable {σ : Type u} {τ : Type v} {ε : Type w} {R : σ → τ → Prop}

/-- Total operations that keep the relation. -/
theorem total {first : σ → σ} {second : τ → τ}
    (keeps : ∀ s t, R s t → R (first s) (second t)) :
    Lockstep R (fun s => (.ok (first s) : Except ε σ)) (fun t => .ok (second t)) :=
  fun s t related => .ok (keeps s t related)

/-- An operation that fails whatever the state. -/
theorem fail (e : ε) : Lockstep R (fun _ => .error e) (fun _ => .error e) :=
  fun _ _ _ => .error e

/-- Programs in sequence. -/
theorem bind {first next : σ → Except ε σ} {second next' : τ → Except ε τ}
    (head : Lockstep R first second) (tail : Lockstep R next next') :
    Lockstep R (fun s => first s >>= next) (fun t => second t >>= next') :=
  fun s t related => (head s t related).bind tail

end Lockstep

/-! ## Operations one after the other -/

section Runs

variable {ι : Type*} {σ : Type u} {τ : Type v} {ω : Type w} {R : σ → τ → Prop}
  {act : σ → ι → σ} {act' : τ → ι → τ}

/-- What is seen of the state before the first operation and after each one. -/
def observed (act : σ → ι → σ) (view : σ → ω) : List ι → σ → List ω
  | [], s => [view s]
  | op :: ops, s => view s :: observed act view ops (act s op)

/-- What every operation keeps and what shows in no view is seen alike throughout. -/
theorem observed_eq {view : σ → ω} {view' : τ → ω}
    (keeps : ∀ op s t, R s t → R (act s op) (act' t op))
    (shows : ∀ s t, R s t → view s = view' t) (ops : List ι) {s : σ} {t : τ} (related : R s t) :
    observed act view ops s = observed act' view' ops t := by
  induction ops generalizing s t with
  | nil =>
      show [view s] = [view' t]
      rw [shows s t related]
  | cons op ops ih =>
      show view s :: _ = view' t :: _
      rw [shows s t related, ih (keeps op s t related)]

/-- A relation that every operation keeps holds after all of them. -/
theorem related_foldl (keeps : ∀ op s t, R s t → R (act s op) (act' t op)) (ops : List ι)
    {s : σ} {t : τ} (related : R s t) : R (ops.foldl act s) (ops.foldl act' t) :=
  List.foldl_rel related fun op _ s t => keeps op s t

end Runs
