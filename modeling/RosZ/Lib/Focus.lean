import Mathlib.Data.Nat.Notation

/-!
# Parts of a state

A `Focus` is a part of a state that can be looked at and replaced, when it is there.
Its laws are fields, and composition keeps them, so that a path into a nested state has
them without a proof of its own.

* `Focus.run` — a program on the part, run in place on the whole state.  A program on a
  part of a part is run from the outside in (`run_comp`).
* `Focus.write` — the program that replaces the part.  It succeeds exactly when the part
  is there, and then the part is what was written (`write_eq_ok_iff`); otherwise the
  state is the one it was (`write_eq_error_iff`).
* `Focus.Apart` — what lies outside of the part.  Two parts are apart when they are so
  from the first step on, or after a step they share (`Apart.comp`, `Apart.comp_right`).
-/

universe u

variable {ε σ τ α β γ : Type u}

/-- A part of a state of type `σ`, which may be missing. -/
structure Focus (ε σ α : Type u) where
  get : σ → Except ε α
  put : α → σ → σ
  /-- A part that was replaced is the replacement. -/
  get_put : ∀ {s a} b, get s = .ok a → get (put b s) = .ok b
  /-- Putting back what is there changes nothing. -/
  put_get : ∀ {s a}, get s = .ok a → put a s = s

namespace Focus

/-- The state as a part of itself. -/
def whole : Focus ε σ σ where
  get := .ok
  put := fun b _ => b
  get_put := fun _ _ => rfl
  put_get := fun h => (Except.ok.inj h).symm

/-- A part of a part. -/
def comp (l : Focus ε σ τ) (k : Focus ε τ α) : Focus ε σ α where
  get := fun s => l.get s >>= k.get
  put := fun b s =>
    match l.get s with
    | .ok t => l.put (k.put b t) s
    | .error _ => s
  get_put := by
    intro s a b found
    cases outer : l.get s with
    | error e =>
        rw [outer] at found
        cases found
    | ok t =>
        rw [outer] at found
        show l.get (l.put (k.put b t) s) >>= k.get = .ok b
        rw [l.get_put _ outer]
        exact k.get_put b found
  put_get := by
    intro s a found
    cases outer : l.get s with
    | error e => rfl
    | ok t =>
        rw [outer] at found
        show l.put (k.put a t) s = s
        rw [k.put_get found]
        exact l.put_get outer

section Composition

variable {l : Focus ε σ τ} {k : Focus ε τ α} {s : σ} {t : τ}

theorem get_comp (outer : l.get s = .ok t) : (l.comp k).get s = k.get t := by
  show l.get s >>= k.get = _
  rw [outer]
  rfl

theorem get_comp_error {e : ε} (outer : l.get s = .error e) : (l.comp k).get s = .error e := by
  show l.get s >>= k.get = _
  rw [outer]
  rfl

theorem put_comp (outer : l.get s = .ok t) (b : α) :
    (l.comp k).put b s = l.put (k.put b t) s := by
  show (match l.get s with
    | .ok t => l.put (k.put b t) s
    | .error _ => s) = _
  rw [outer]

theorem put_comp_error {e : ε} (outer : l.get s = .error e) (b : α) :
    (l.comp k).put b s = s := by
  show (match l.get s with
    | .ok t => l.put (k.put b t) s
    | .error _ => s) = _
  rw [outer]

/-- A part of a part is there when both are. -/
theorem get_comp_eq_ok_iff {a : α} :
    (l.comp k).get s = .ok a ↔ ∃ t, l.get s = .ok t ∧ k.get t = .ok a := by
  cases outer : l.get s with
  | error e =>
      rw [get_comp_error outer]
      simp
  | ok t =>
      rw [get_comp outer]
      simp

end Composition

/-! ## Programs on a part -/

/-- A program on the part, run in place. -/
def run (l : Focus ε σ α) (program : EStateM ε α β) : EStateM ε σ β := fun s =>
  match l.get s with
  | .error e => .error e s
  | .ok a =>
    match program a with
    | .ok b a' => .ok b (l.put a' s)
    | .error e a' => .error e (l.put a' s)

section Programs

variable {l : Focus ε σ τ} {k : Focus ε τ α} {s : σ}

theorem run_error {e : ε} (missing : l.get s = .error e) (program : EStateM ε τ β) :
    l.run program s = .error e s := by
  unfold run
  rw [missing]

theorem run_of_get {t : τ} (there : l.get s = .ok t) (program : EStateM ε τ β) :
    l.run program s =
      match program t with
      | .ok b t' => .ok b (l.put t' s)
      | .error e t' => .error e (l.put t' s) := by
  unfold run
  rw [there]

/-- A program on a part of a part is one on the part. -/
theorem run_comp (l : Focus ε σ τ) (k : Focus ε τ α) (program : EStateM ε α β) :
    (l.comp k).run program = l.run (k.run program) := by
  funext s
  cases outer : l.get s with
  | error e => rw [run_error outer, run_error (get_comp_error outer)]
  | ok t =>
      cases inner : k.get t with
      | error e =>
          have missing : (l.comp k).get s = .error e := (get_comp outer).trans inner
          rw [run_error missing]
          simp only [run, outer, inner, l.put_get outer]
      | ok a =>
          have there : (l.comp k).get s = .ok a := (get_comp outer).trans inner
          simp only [run, there, outer, inner]
          cases program a with
          | ok b a' => simp only [put_comp outer]
          | error e a' => simp only [put_comp outer]

end Programs

/-- Replace the part. -/
def write (l : Focus ε σ α) (b : α) : EStateM ε σ PUnit := l.run (set b)

section Writing

variable {l : Focus ε σ α} {s s' : σ} {b : α}

theorem write_of_get {a : α} (there : l.get s = .ok a) (b : α) :
    l.write b s = .ok ⟨⟩ (l.put b s) :=
  run_of_get there _

/-- A part is written exactly when it is there. -/
theorem write_eq_ok_iff :
    l.write b s = .ok ⟨⟩ s' ↔ (∃ a, l.get s = .ok a) ∧ s' = l.put b s := by
  cases there : l.get s with
  | error e =>
      rw [write, run_error there]
      simp
  | ok a =>
      rw [write_of_get there]
      simp [eq_comm]

/-- A write that fails leaves the state as it was. -/
theorem write_eq_error_iff {e : ε} :
    l.write b s = .error e s' ↔ l.get s = .error e ∧ s' = s := by
  cases there : l.get s with
  | error e' =>
      rw [write, run_error there]
      simp [eq_comm]
  | ok a =>
      rw [write_of_get there]
      simp

end Writing

/-! ## Parts apart -/

/-- Replacing the part `l` does not touch the part `k`. -/
def Apart (l : Focus ε σ α) (k : Focus ε σ β) : Prop :=
  ∀ s a b, l.get s = .ok a → k.get (l.put b s) = k.get s

/-- Parts of parts apart are apart. -/
theorem Apart.comp {l : Focus ε σ α} {k : Focus ε σ β} (apart : l.Apart k)
    (l' : Focus ε α γ) {δ : Type u} (k' : Focus ε β δ) : (l.comp l').Apart (k.comp k') := by
  intro s a b there
  obtain ⟨t, outer, -⟩ := get_comp_eq_ok_iff.mp there
  show k.get _ >>= k'.get = k.get s >>= k'.get
  rw [put_comp outer, apart s t _ outer]

/-- So are parts apart of one part. -/
theorem Apart.comp_right {k : Focus ε τ α} {k' : Focus ε τ β} (apart : k.Apart k')
    (l : Focus ε σ τ) : (l.comp k).Apart (l.comp k') := by
  intro s a b there
  obtain ⟨t, outer, inner⟩ := get_comp_eq_ok_iff.mp there
  rw [put_comp outer, get_comp (l.get_put _ outer), get_comp outer, apart t a b inner]

end Focus
