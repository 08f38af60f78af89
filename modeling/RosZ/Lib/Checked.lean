import RosZ.Lib.Layout

/-!
# Readers that may panic

A reader over a byte slice subtracts positions and cuts slices, and each of these can panic.  Here a
panic is an outcome of its own next to the errors that a reader returns (`Fault`), and the
operations that can panic are written out (`checkedSub`, `checkedMod`, `slice`, `firstOf`).

* `Guarded checked read`: within the input, the checked reader does what `read` does, and both only
  move forward within the input, where they fail as well.
* `Consumes read alignment encodes`: a success has moved over padding and the octets of its value.

Readers in sequence have either property where each of them has (`Guarded.bind`, `Consumes.bind`).
-/

namespace Wire

/-- How a call ends that does not return a value. -/
inductive Fault (ε : Type) where
  | error (e : ε)
  | panic
  deriving DecidableEq, Repr

section Operations

variable {ε σ β : Type}

/-- `a - b` on words without a sign. -/
def checkedSub (a b : ℕ) : EStateM (Fault ε) σ ℕ :=
  if b ≤ a then pure (a - b) else throw .panic

/-- `a % b`. -/
def checkedMod (a b : ℕ) : EStateM (Fault ε) σ ℕ :=
  if b = 0 then throw .panic else pure (a % b)

/-- `xs[start..stop]`. -/
def slice (xs : List β) (start stop : ℕ) : EStateM (Fault ε) σ (List β) :=
  if start ≤ stop ∧ stop ≤ xs.length then pure ((xs.drop start).take (stop - start))
  else throw .panic

/-- `xs[0]`. -/
def firstOf (xs : List β) : EStateM (Fault ε) σ β :=
  match xs with
  | x :: _ => pure x
  | [] => throw .panic

theorem checkedSub_of_le {a b : ℕ} (below : b ≤ a) :
    (checkedSub a b : EStateM (Fault ε) σ ℕ) = pure (a - b) :=
  if_pos below

theorem checkedMod_of_pos {a b : ℕ} (positive : 0 < b) :
    (checkedMod a b : EStateM (Fault ε) σ ℕ) = pure (a % b) :=
  if_neg positive.ne'

theorem slice_of_le {xs : List β} {start stop : ℕ} (ordered : start ≤ stop)
    (inside : stop ≤ xs.length) :
    (slice xs start stop : EStateM (Fault ε) σ (List β)) =
      pure ((xs.drop start).take (stop - start)) :=
  if_pos ⟨ordered, inside⟩

end Operations

/-! ## Safety -/

/-- Within the input, `checked` does what `read` does: it does not panic, and it stays within the
input and does not move back. -/
def Guarded {ε β α : Type} (checked : EStateM (Fault ε) (Cursor β) α)
    (read : EStateM ε (Cursor β) α) : Prop :=
  ∀ (input : List β) (pos : ℕ), pos ≤ input.length →
    ∃ pos', pos ≤ pos' ∧ pos' ≤ input.length ∧
      ((∃ value, read.run ⟨input, pos⟩ = .ok value ⟨input, pos'⟩ ∧
          checked.run ⟨input, pos⟩ = .ok value ⟨input, pos'⟩) ∨
        ∃ e, read.run ⟨input, pos⟩ = .error e ⟨input, pos'⟩ ∧
          checked.run ⟨input, pos⟩ = .error (.error e) ⟨input, pos'⟩)

namespace Guarded

variable {ε β α γ : Type}

theorem pure (value : α) :
    Guarded (Pure.pure value : EStateM (Fault ε) (Cursor β) α) (Pure.pure value) :=
  fun _ pos inside => ⟨pos, le_rfl, inside, .inl ⟨value, rfl, rfl⟩⟩

theorem throw (e : ε) :
    Guarded (MonadExcept.throw (Fault.error e) : EStateM (Fault ε) (Cursor β) α)
      (MonadExcept.throw e) :=
  fun _ pos inside => ⟨pos, le_rfl, inside, .inr ⟨e, rfl, rfl⟩⟩

/-- Guarded readers in sequence.  The second one may rely on what the first one returns. -/
theorem bind_of {checked : EStateM (Fault ε) (Cursor β) α} {read : EStateM ε (Cursor β) α}
    {checked' : α → EStateM (Fault ε) (Cursor β) γ} {read' : α → EStateM ε (Cursor β) γ}
    {returns : α → Prop} (head : Guarded checked read)
    (holds : ∀ r value r', read.run r = .ok value r' → returns value)
    (tail : ∀ value, returns value → Guarded (checked' value) (read' value)) :
    Guarded (checked >>= checked') (read >>= read') := by
  intro input pos inside
  obtain ⟨middle, forward, within, ⟨value, ran, same⟩ | ⟨e, ran, same⟩⟩ := head input pos inside
  · obtain ⟨pos', forward', within', outcome⟩ :=
      tail value (holds _ _ _ ran) input middle within
    refine ⟨pos', forward.trans forward', within', ?_⟩
    rw [EStateM.run_bind, EStateM.run_bind, ran, same]
    exact outcome
  · refine ⟨middle, forward, within, .inr ⟨e, ?_, ?_⟩⟩
    · rw [EStateM.run_bind, ran]
    · rw [EStateM.run_bind, same]

/-- Guarded readers in sequence. -/
theorem bind {checked : EStateM (Fault ε) (Cursor β) α} {read : EStateM ε (Cursor β) α}
    {checked' : α → EStateM (Fault ε) (Cursor β) γ} {read' : α → EStateM ε (Cursor β) γ}
    (head : Guarded checked read) (tail : ∀ value, Guarded (checked' value) (read' value)) :
    Guarded (checked >>= checked') (read >>= read') :=
  head.bind_of (fun _ _ _ _ => trivial) fun value _ => tail value

end Guarded

/-! ## What a success has consumed -/

/-- Where `read` succeeds it has moved over the padding to `alignment` and over octets that encode
its value. -/
def Consumes {ε β α : Type} (read : EStateM ε (Cursor β) α) (alignment : ℕ)
    (encodes : α → List β → Prop) : Prop :=
  ∀ (input : List β) (pos : ℕ) (value : α) (after : Cursor β), pos ≤ input.length →
    read.run ⟨input, pos⟩ = .ok value after →
    ∃ octets, encodes value octets ∧
      octets <+: input.drop (pos + Layout.padding alignment pos) ∧
      after = ⟨input, pos + Layout.padding alignment pos + octets.length⟩ ∧
      pos + Layout.padding alignment pos + octets.length ≤ input.length

namespace Consumes

variable {ε β α γ : Type} {read : EStateM ε (Cursor β) α} {alignment : ℕ}
  {encodes : α → List β → Prop}

/-- A value that is made of another one. -/
theorem map {f : α → γ} {encodes' : γ → List β → Prop} (consumes : Consumes read alignment encodes)
    (kept : ∀ value octets, encodes value octets → encodes' (f value) octets) :
    Consumes (do return f (← read)) alignment encodes' := by
  intro input pos result after inside succeeded
  obtain ⟨value, ran, rfl⟩ := run_map_eq_ok succeeded
  obtain ⟨octets, code, found, moved, within⟩ := consumes input pos value after inside ran
  exact ⟨octets, kept value octets code, found, moved, within⟩

/-- A second reader without padding takes the octets behind those of the first one. -/
theorem bind {next : α → EStateM ε (Cursor β) γ} {both : γ → List β → Prop}
    (head : Consumes read alignment encodes) (encodes' : α → γ → List β → Prop)
    (tail : ∀ value, Consumes (next value) 1 (encodes' value))
    (joined : ∀ value result octets octets', encodes value octets → encodes' value result octets' →
      both result (octets ++ octets')) :
    Consumes (read >>= next) alignment both := by
  intro input pos result final inside succeeded
  obtain ⟨value, middle, first, last⟩ := run_bind_eq_ok succeeded
  obtain ⟨octets, code, found, rfl, within⟩ := head input pos value middle inside first
  obtain ⟨octets', code', found', rfl, within'⟩ := tail value _ _ result final within last
  rw [Layout.padding_one, Nat.add_zero] at found' within' ⊢
  refine ⟨octets ++ octets', joined value result octets octets' code code', ?_, ?_, ?_⟩
  · obtain ⟨rest, split⟩ := found
    rw [← List.drop_drop, ← split, List.drop_left] at found'
    rw [← split]
    exact (List.prefix_append_right_inj octets).mpr found'
  · rw [List.length_append, Nat.add_assoc]
  · rw [List.length_append]
    omega

/-- Readers whose values have no octets of their own. -/
theorem of_nothing {value : α} (code : encodes value []) :
    Consumes (Pure.pure value : EStateM ε (Cursor β) α) 1 encodes := by
  rintro input pos _ _ inside ⟨⟩
  refine ⟨[], code, List.nil_prefix, ?_, ?_⟩
  · simp
  · simpa using inside

theorem of_throw (e : ε) :
    Consumes (MonadExcept.throw e : EStateM ε (Cursor β) α) alignment encodes := by
  intro input pos value after _ succeeded
  cases succeeded

end Consumes

end Wire
