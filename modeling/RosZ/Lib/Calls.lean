import Mathlib.Data.List.Basic

/-!
# Calls that may stop early

A call changes a state and returns a value, or stops early for a reason; what it has changed by
then stays changed.

## Design notes

`Ensures` is the weakest precondition of a call for a condition on what it returns and one on
how it stops.  Its rules are equivalences, so they give the exact states in which a call meets
its conditions.
-/

namespace Calls

universe u

variable {ε σ α β : Type u}

/-- The call returns what the postcondition allows, or stops in an allowed way. -/
def Ensures (call : EStateM ε σ α) (post : α → σ → Prop) (stopped : ε → σ → Prop) (s : σ) :
    Prop :=
  match call s with
  | .ok value after => post value after
  | .error reason after => stopped reason after

section Rules

variable {call : EStateM ε σ α} {post post' : α → σ → Prop} {stopped stopped' : ε → σ → Prop}
  {s : σ}

@[simp] theorem ensures_pure {value : α} : Ensures (pure value) post stopped = post value :=
  rfl

@[simp] theorem ensures_throw {reason : ε} :
    Ensures (throw reason : EStateM ε σ α) post stopped = stopped reason :=
  rfl

@[simp] theorem ensures_modify {change : σ → σ} {post : PUnit → σ → Prop} :
    Ensures (modify change : EStateM ε σ PUnit) post stopped = fun s => post ⟨⟩ (change s) :=
  rfl

@[simp] theorem ensures_get {post : σ → σ → Prop} :
    Ensures (get : EStateM ε σ σ) post stopped = fun s => post s s :=
  rfl

@[simp] theorem ensures_set {after : σ} {post : PUnit → σ → Prop} :
    Ensures (set after : EStateM ε σ PUnit) post stopped = fun _ => post ⟨⟩ after :=
  rfl

/-- The first call must leave a state from which the second meets the conditions. -/
@[simp] theorem ensures_bind {next : α → EStateM ε σ β} {post : β → σ → Prop} :
    Ensures (call >>= next) post stopped =
      Ensures call (fun value => Ensures (next value) post stopped) stopped := by
  funext s
  show Ensures (EStateM.bind call next) post stopped s = _
  unfold Ensures EStateM.bind
  cases call s with
  | ok value after => rfl
  | error reason after => rfl

/-- A call that returns hands its value and its state to the next one. -/
theorem bind_of_ok {next : α → EStateM ε σ β} {value : α} {after : σ}
    (returned : call s = .ok value after) : (call >>= next) s = next value after := by
  show EStateM.bind call next s = next value after
  unfold EStateM.bind
  rw [returned]

theorem Ensures.mono (ensures : Ensures call post stopped s)
    (weaker : ∀ value after, post value after → post' value after)
    (weakerStop : ∀ reason after, stopped reason after → stopped' reason after) :
    Ensures call post' stopped' s := by
  unfold Ensures at ensures ⊢
  split at ensures
  · exact weaker _ _ ensures
  · exact weakerStop _ _ ensures

/-- Calls that keep an invariant, however they end. -/
def Keeps (inv : σ → Prop) (allowed : ε → Prop) (call : EStateM ε σ α) : Prop :=
  ∀ s, inv s → Ensures call (fun _ => inv) (fun reason after => allowed reason → inv after) s

variable {inv : σ → Prop} {allowed : ε → Prop}

theorem Keeps.pure (value : α) : Keeps inv allowed (pure value : EStateM ε σ α) :=
  fun _ kept => kept

theorem Keeps.throw (reason : ε) : Keeps inv allowed (throw reason : EStateM ε σ α) :=
  fun _ kept _ => kept

theorem Keeps.bind {next : α → EStateM ε σ β} (first : Keeps inv allowed call)
    (second : ∀ value, Keeps inv allowed (next value)) : Keeps inv allowed (call >>= next) := by
  intro s kept
  rw [ensures_bind]
  exact (first s kept).mono (fun value after => second value after) fun _ _ stop => stop

end Rules

/-! ## Loops that may end early -/

section Loops

variable {step : σ → β → Option σ}

/-- A loop runs to its end when every turn succeeds in the state that it starts from. -/
theorem isSome_foldlM_iff {items : List β} {s : σ} :
    (items.foldlM step s).isSome = true ↔
      ∀ before item later, items = before ++ item :: later → ∀ between,
        before.foldlM step s = some between → (step between item).isSome = true := by
  induction items generalizing s with
  | nil =>
      refine iff_of_true rfl fun before item later split => ?_
      simp at split
  | cons head rest ih =>
      rw [List.foldlM_cons]
      constructor
      · intro finished before item later split between reached
        obtain ⟨after, first, others⟩ := Option.bind_eq_some_iff.mp
          (Option.some_get finished).symm
        cases before with
        | nil =>
            obtain ⟨rfl, rfl⟩ := List.cons.inj split
            cases reached
            rw [first]
            rfl
        | cons first' before =>
            obtain ⟨rfl, splitRest⟩ := List.cons.inj split
            rw [List.foldlM_cons, first] at reached
            exact ih.mp (by rw [others]; rfl) before item later splitRest between reached
      · intro turns
        obtain ⟨after, first⟩ := Option.isSome_iff_exists.mp (turns [] head rest rfl s rfl)
        rw [first]
        refine ih.mpr fun before item later split between reached => ?_
        refine turns (head :: before) item later (by rw [split]; rfl) between ?_
        rw [List.foldlM_cons, first]
        exact reached

end Loops

end Calls
