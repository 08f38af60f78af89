import Mathlib.Algebra.BigOperators.Group.List.Basic
import RosZ.Lib.ByteOrder

/-!
# Position-dependent layouts

In an aligned format the octets of a datum depend on where it starts: the same
word takes a different amount of padding at every offset.  A `Layout` is that
dependency, a function from the starting offset to the octets, and laying one
datum after the other is a monoid on it.

## Main definitions

* `Layout` — what a datum occupies, as a function of its starting offset; a
  `Monoid` under sequencing, so a list of data is `List.prod`.
* `Reads` — a reader that, met by a layout at its cursor, returns the value and
  stops right behind it, whatever stands before and after.
* `Local` — a reader that looks only at what it consumes; where it also recognises a
  layout, it refuses every proper cut of it (`Reads.refuses_cut`).
* `Returns` — some run of a reader on a layout returns this value.  What a format
  cannot carry is found by following the reader through a layout it did not
  recognise.
* `Appends`, `Emits` — a total, respectively fallible, writer whose whole effect
  is to append a layout at its current position.
* `Grows` — a fallible writer that, where it succeeds, adds the size of a layout.

## Design notes

`Reads` quantifies over the octets in front of and behind the datum, so it
composes without any bookkeeping of positions: `Reads.bind` instantiates the
first reader's tail with the second datum, and the second reader's front with
the first one.  A proof about a nested format is then one rule per constructor
and no arithmetic.  `Emits` is the mirror image on the writing side; a format is
shown to round-trip by exhibiting one layout that the writer emits and the
reader reads.
-/

namespace Wire

universe u v w

/-- What a datum occupies on the wire, as a function of the offset at which it
starts. -/
@[ext] structure Layout (β : Type u) where
  /-- The octets of the datum when it starts at the given offset. -/
  place : ℕ → List β

/-- Sequencing: the second datum starts where the first one ends. -/
instance instMonoidLayout {β : Type u} : Monoid (Layout β) where
  one := ⟨fun _ => []⟩
  mul first second :=
    ⟨fun pos => first.place pos ++ second.place (pos + (first.place pos).length)⟩
  one_mul _ := rfl
  mul_one first := by
    ext1
    funext pos
    exact List.append_nil (first.place pos)
  mul_assoc first second third := by
    ext1
    funext pos
    show (first.place pos ++ second.place _) ++ third.place (pos + List.length (_ ++ _)) =
      first.place pos ++ (second.place _ ++ third.place _)
    rw [List.append_assoc, List.length_append, Nat.add_assoc]

namespace Layout

variable {β : Type u}

@[simp] theorem place_one (pos : ℕ) : (1 : Layout β).place pos = [] := rfl

theorem place_mul (first second : Layout β) (pos : ℕ) :
    (first * second).place pos =
      first.place pos ++ second.place (pos + (first.place pos).length) := rfl

/-- Octets that do not depend on where they stand. -/
def raw (octets : List β) : Layout β := ⟨fun _ => octets⟩

@[simp] theorem place_raw (octets : List β) (pos : ℕ) : (raw octets).place pos = octets := rfl

theorem raw_append (front back : List β) : raw (front ++ back) = raw front * raw back := rfl

/-- The number of octets from `pos` to the next multiple of `alignment`. -/
def padding (alignment pos : ℕ) : ℕ :=
  if pos % alignment = 0 then 0 else alignment - pos % alignment

@[simp] theorem padding_one (pos : ℕ) : padding 1 pos = 0 := by
  rw [padding, if_pos (Nat.mod_one pos)]

theorem padding_eq_zero {alignment pos : ℕ} (aligned : alignment ∣ pos) :
    padding alignment pos = 0 := by
  rw [padding, if_pos (Nat.mod_eq_zero_of_dvd aligned)]

/-- Behind the padding stands a multiple of the alignment. -/
theorem dvd_add_padding {alignment : ℕ} (positive : 0 < alignment) (pos : ℕ) :
    alignment ∣ pos + padding alignment pos := by
  apply Nat.dvd_of_mod_eq_zero
  unfold padding
  by_cases aligned : pos % alignment = 0
  · simp [aligned]
  · have below := Nat.mod_lt pos positive
    rw [if_neg aligned, Nat.add_mod,
      Nat.mod_eq_of_lt (by omega : alignment - pos % alignment < alignment),
      Nat.add_sub_cancel' (le_of_lt below), Nat.mod_self]

/-- Multiples of the alignment in front make no difference. -/
theorem padding_add {alignment start : ℕ} (aligned : alignment ∣ start) (pos : ℕ) :
    padding alignment (start + pos) = padding alignment pos := by
  obtain ⟨count, rfl⟩ := aligned
  rw [padding, padding, Nat.mul_add_mod]

/-- Padding up to the next multiple of `alignment`. -/
def align (zero : β) (alignment : ℕ) : Layout β :=
  ⟨fun pos => List.replicate (padding alignment pos) zero⟩

@[simp] theorem place_align (zero : β) (alignment pos : ℕ) :
    (align zero alignment).place pos = List.replicate (padding alignment pos) zero := rfl

/-- Aligning twice is aligning once. -/
theorem align_mul_align (zero : β) {alignment : ℕ} (positive : 0 < alignment) :
    align zero alignment * align zero alignment = align zero alignment := by
  ext1
  funext pos
  have done : padding alignment (pos + padding alignment pos) = 0 :=
    padding_eq_zero (dvd_add_padding positive pos)
  rw [place_mul, place_align, List.length_replicate, place_align, done]
  simp

end Layout

/-! ## Reading -/

/-- A reader's view of the input: all of it, and how far it has got. -/
structure Cursor (β : Type u) where
  /-- The whole input. -/
  input : List β
  /-- The number of octets consumed. -/
  position : ℕ

/-- `read` recognises `layout` as `value`: placed at the cursor it is consumed
exactly, whatever stands before and after it. -/
def Reads {ε β α : Type u} (read : EStateM ε (Cursor β) α)
    (layout : Layout β) (value : α) : Prop :=
  ∀ before after : List β,
    read.run ⟨before ++ layout.place before.length ++ after, before.length⟩ =
      .ok value ⟨before ++ layout.place before.length ++ after,
        before.length + (layout.place before.length).length⟩

namespace Reads

variable {ε β α γ : Type u}

theorem pure (value : α) :
    Reads (Pure.pure value : EStateM ε (Cursor β) α) (1 : Layout β) value :=
  fun _ _ => rfl

/-- Readers in sequence read layouts in sequence. -/
theorem bind {read : EStateM ε (Cursor β) α} {next : α → EStateM ε (Cursor β) γ}
    {first second : Layout β} {value : α} {result : γ}
    (reads : Reads read first value) (continues : Reads (next value) second result) :
    Reads (read >>= next) (first * second) result := by
  intro before after
  have head := reads before
    (second.place (before.length + (first.place before.length).length) ++ after)
  have tail := continues (before ++ first.place before.length) after
  rw [List.length_append] at tail
  have sameInput : before ++ (first * second).place before.length ++ after =
      before ++ first.place before.length ++
        (second.place (before.length + (first.place before.length).length) ++ after) := by
    simp [Layout.place_mul]
  rw [EStateM.run_bind, sameInput, head, ← List.append_assoc]
  simpa [Layout.place_mul, Nat.add_assoc] using tail

/-- Changing the error type does not touch a success. -/
theorem adaptExcept {ε' : Type u} {read : EStateM ε (Cursor β) α} {layout : Layout β}
    {value : α} (f : ε → ε') (reads : Reads read layout value) :
    Reads (EStateM.adaptExcept f read) layout value := by
  intro before after
  simp only [EStateM.run, EStateM.adaptExcept]
  rw [show read _ = _ from reads before after]

/-- A reader that ends in a pure step. -/
theorem bind_pure {read : EStateM ε (Cursor β) α} {next : α → EStateM ε (Cursor β) γ}
    {layout : Layout β} {value : α} {result : γ} (reads : Reads read layout value)
    (continues : Reads (next value) (1 : Layout β) result) :
    Reads (read >>= next) layout result := by
  simpa using reads.bind continues

end Reads

/-- Run `read` a given number of times and collect the values. -/
def readMany {ε σ α : Type u} (read : EStateM ε σ α) :
    ℕ → EStateM ε σ (List α)
  | 0 => pure []
  | count + 1 => do
      let value ← read
      let values ← readMany read count
      return value :: values

/-- One more turn of a counted loop reads one more layout. -/
theorem Reads.readMany_succ {ε β α : Type u} {read : EStateM ε (Cursor β) α}
    {first rest : Layout β} {value : α} {values : List α} {count : ℕ}
    (head : Reads read first value) (tail : Reads (readMany read count) rest values) :
    Reads (readMany read (count + 1)) (first * rest) (value :: values) :=
  head.bind (tail.bind_pure (Reads.pure _))

/-! ## Successful runs -/

section Runs

variable {ε σ α β : Type u}

/-- A successful sequence consists of two successful runs. -/
theorem run_bind_eq_ok {read : EStateM ε σ α} {next : α → EStateM ε σ β} {s s' : σ} {b : β}
    (h : (read >>= next).run s = .ok b s') :
    ∃ a middle, read.run s = .ok a middle ∧ (next a).run middle = .ok b s' := by
  rw [EStateM.run_bind] at h
  cases first : read.run s with
  | ok a middle =>
      rw [first] at h
      exact ⟨a, middle, rfl, h⟩
  | error e middle =>
      rw [first] at h
      cases h

/-- A successful run that ends in wrapping its value. -/
theorem run_map_eq_ok {read : EStateM ε σ α} {f : α → β} {s s' : σ} {b : β}
    (h : (do return f (← read)).run s = .ok b s') :
    ∃ a, read.run s = .ok a s' ∧ b = f a := by
  obtain ⟨a, middle, first, last⟩ := run_bind_eq_ok h
  rw [EStateM.run_pure] at last
  cases last
  exact ⟨a, first, rfl⟩

/-- One more turn of a loop that succeeds. -/
theorem run_readMany_succ_eq_ok {read : EStateM ε σ α} {count : ℕ} {s s' : σ}
    {values : List α} (h : (readMany read (count + 1)).run s = .ok values s') :
    ∃ value middle rest, read.run s = .ok value middle ∧
      (readMany read count).run middle = .ok rest s' ∧ values = value :: rest := by
  rw [readMany] at h
  obtain ⟨value, middle, first, h⟩ := run_bind_eq_ok h
  obtain ⟨rest, others, rfl⟩ := run_map_eq_ok h
  exact ⟨value, middle, rest, first, others, rfl⟩

theorem length_of_run_readMany {read : EStateM ε σ α} {count : ℕ} {s s' : σ}
    {values : List α} (h : (readMany read count).run s = .ok values s') :
    values.length = count := by
  induction count generalizing s values with
  | zero =>
      rw [readMany, EStateM.run_pure] at h
      cases h
      rfl
  | succ count ih =>
      obtain ⟨value, middle, rest, -, others, rfl⟩ := run_readMany_succ_eq_ok h
      rw [List.length_cons, ih others]

end Runs

/-! ## What is read from a layout -/

/-- Some run of `read` on `layout`, whatever stands before and after it, returns `value`. -/
def Returns {ε β α : Type u} (read : EStateM ε (Cursor β) α) (layout : Layout β)
    (value : α) : Prop :=
  ∃ before after final,
    read.run ⟨before ++ layout.place before.length ++ after, before.length⟩ = .ok value final

namespace Returns

variable {ε β α γ : Type u} {read : EStateM ε (Cursor β) α}

/-- A reader that ends in wrapping its value. -/
theorem of_map {layout : Layout β} {f : α → γ} {result : γ}
    (returns : Returns (do return f (← read)) layout result) :
    ∃ value, Returns read layout value ∧ result = f value := by
  obtain ⟨before, after, final, run⟩ := returns
  obtain ⟨value, first, same⟩ := run_map_eq_ok run
  exact ⟨value, ⟨before, after, final, first⟩, same⟩

/-- What is read inside an injective wrapping. -/
theorem unwrap {layout : Layout β} {f : α → γ} {value : α} {result : γ}
    (returns : Returns (do return f (← read)) layout result)
    (only : ∀ {a}, result = f a → value = a) : Returns read layout value := by
  obtain ⟨inside, inner, same⟩ := returns.of_map
  rwa [only same]

/-- Where it recognises its layout the second runs on the other one. -/
theorem rest {next : α → EStateM ε (Cursor β) γ} {front back : Layout β} {value : α} {result : γ}
    (returns : Returns (read >>= next) (front * back) result) (reads : Reads read front value) :
    Returns (next value) back result := by
  obtain ⟨before, after, final, run⟩ := returns
  rw [Layout.place_mul, ← List.append_assoc, List.append_assoc, EStateM.run_bind,
    reads before _, ← List.append_assoc] at run
  refine ⟨before ++ front.place before.length, after, final, ?_⟩
  rw [List.length_append]
  exact run

/-- Two readers whose values are both returned. -/
theorem both {δ : Type u} {more : EStateM ε (Cursor β) δ} {f : α → δ → γ}
    (injective : Function.Injective2 f) {front back : Layout β} {value : α} {other : δ}
    (returns : Returns (do
      let a ← read
      let b ← more
      return f a b) (front * back) (f value other)) :
    Returns read front value ∧ (Reads read front value → Returns more back other) := by
  constructor
  · obtain ⟨before, after, final, run⟩ := returns
    obtain ⟨a, middle, head, tail⟩ := run_bind_eq_ok run
    obtain ⟨b, -, same⟩ := run_map_eq_ok tail
    obtain ⟨rfl, rfl⟩ := injective same
    rw [Layout.place_mul, ← List.append_assoc, List.append_assoc] at head
    exact ⟨before, _, middle, head⟩
  · intro reads
    obtain ⟨b, inside, same⟩ := (returns.rest reads).of_map
    obtain ⟨-, rfl⟩ := injective same
    exact inside

end Returns

/-! ## Readers that look only at what they consume -/

/-- Where `read` succeeds it has moved forward within the input, and on every longer
input it does the same. -/
def Local {ε β α : Type u} (read : EStateM ε (Cursor β) α) : Prop :=
  ∀ (input : List β) (pos : ℕ) (value : α) (after : Cursor β), pos ≤ input.length →
    read.run ⟨input, pos⟩ = .ok value after →
    ∃ pos', after = ⟨input, pos'⟩ ∧ pos' ≤ input.length ∧
      ∀ more, read.run ⟨input ++ more, pos⟩ = .ok value ⟨input ++ more, pos'⟩

namespace Local

variable {ε β α γ : Type u}

theorem pure (value : α) : Local (Pure.pure value : EStateM ε (Cursor β) α) := by
  rintro input pos _ _ inside ⟨⟩
  exact ⟨pos, rfl, inside, fun _ => rfl⟩

theorem throw (e : ε) : Local (throw e : EStateM ε (Cursor β) α) := by
  intro input pos value after _ succeeded
  cases succeeded

/-- Local readers in sequence. -/
theorem bind {read : EStateM ε (Cursor β) α} {next : α → EStateM ε (Cursor β) γ}
    (head : Local read) (tail : ∀ value, Local (next value)) : Local (read >>= next) := by
  intro input pos result final inside succeeded
  obtain ⟨value, middle, first, last⟩ := run_bind_eq_ok succeeded
  obtain ⟨pos', rfl, inside', longer⟩ := head input pos value middle inside first
  obtain ⟨pos'', rfl, inside'', longer'⟩ := tail value input pos' result final inside' last
  refine ⟨pos'', rfl, inside'', fun more => ?_⟩
  rw [EStateM.run_bind, longer more]
  exact longer' more

theorem adaptExcept {ε' : Type u} {read : EStateM ε (Cursor β) α} (f : ε → ε')
    (reads : Local read) : Local (EStateM.adaptExcept f read) := by
  intro input pos value after inside succeeded
  have inner : read.run ⟨input, pos⟩ = .ok value after := by
    simp only [EStateM.run, EStateM.adaptExcept] at succeeded ⊢
    cases ran : read ⟨input, pos⟩ with
    | ok v s => simpa [ran] using succeeded
    | error e s => simp [ran] at succeeded
  obtain ⟨pos', same, inside', longer⟩ := reads input pos value after inside inner
  refine ⟨pos', same, inside', fun more => ?_⟩
  simp only [EStateM.run, EStateM.adaptExcept]
  rw [show read _ = _ from longer more]

/-- A counted loop over a local reader. -/
theorem readMany {read : EStateM ε (Cursor β) α} (reads : Local read) (count : ℕ) :
    Local (readMany read count) := by
  induction count with
  | zero => exact Local.pure _
  | succ count ih => exact reads.bind fun _ => ih.bind fun _ => Local.pure _

end Local

/-- **A local reader that recognises a layout refuses every proper cut of it.** -/
theorem Reads.refuses_cut {ε β α : Type u} {read : EStateM ε (Cursor β) α} {layout : Layout β}
    {value : α} (reads : Reads read layout value) (isLocal : Local read) (before : List β)
    {cut : List β} (isCut : cut <+: layout.place before.length)
    (proper : cut ≠ layout.place before.length) :
    ∃ e after, read.run ⟨before ++ cut, before.length⟩ = .error e after := by
  cases ran : read.run ⟨before ++ cut, before.length⟩ with
  | error e after => exact ⟨e, after, rfl⟩
  | ok short after =>
      obtain ⟨rest, whole⟩ := isCut
      have inside : before.length ≤ (before ++ cut).length := by
        rw [List.length_append]
        exact Nat.le_add_right _ _
      obtain ⟨pos, -, within, longer⟩ := isLocal _ _ _ _ inside ran
      -- on the whole datum the reader would stop inside the cut
      have stops := longer rest
      have ends := reads before []
      rw [List.append_nil, ← whole, ← List.append_assoc, stops] at ends
      have reached : pos = before.length + (cut ++ rest).length := by
        cases ends
        rfl
      rw [List.length_append] at reached within
      have nothing : rest = [] := List.length_eq_zero_iff.mp (by omega)
      rw [nothing, List.append_nil] at whole
      exact absurd whole proper

/-! ## Writing -/

/-- What is observed of a writer's state: everything written so far, and the
offset in it from which positions are counted. -/
structure Sink (σ : Type v) (β : Type u) where
  /-- Everything written so far. -/
  contents : σ → List β
  /-- Where position `0` is. -/
  origin : σ → ℕ

namespace Sink

variable {σ : Type v} {β : Type u}

/-- The writer's position relative to its origin. -/
def position (sink : Sink σ β) (state : σ) : ℕ :=
  (sink.contents state).length - sink.origin state

/-- The origin lies within what has been written. -/
def Valid (sink : Sink σ β) (state : σ) : Prop :=
  sink.origin state ≤ (sink.contents state).length

end Sink

section Emission

variable {σ : Type v} {β : Type u} {ε : Type w} {sink : Sink σ β}

/-- The whole effect of a total writer is to append `layout`. -/
def Appends (sink : Sink σ β) (write : σ → σ) (layout : Layout β) : Prop :=
  ∀ state, sink.Valid state →
    sink.contents (write state) =
        sink.contents state ++ layout.place (sink.position state) ∧
      sink.origin (write state) = sink.origin state

/-- A fallible writer succeeds, and its whole effect is to append `layout`. -/
def Emits (sink : Sink σ β) (write : σ → Except ε σ) (layout : Layout β) : Prop :=
  ∀ state, sink.Valid state → ∃ state', write state = .ok state' ∧
    sink.contents state' = sink.contents state ++ layout.place (sink.position state) ∧
      sink.origin state' = sink.origin state

/-- Appending keeps the origin inside and advances the position by what was
appended. -/
theorem Sink.advance {state state' : σ} {octets : List β} (valid : sink.Valid state)
    (grown : sink.contents state' = sink.contents state ++ octets)
    (sameOrigin : sink.origin state' = sink.origin state) :
    sink.Valid state' ∧ sink.position state' = sink.position state + octets.length := by
  have inside : sink.origin state ≤ (sink.contents state).length := valid
  constructor
  · show sink.origin state' ≤ (sink.contents state').length
    rw [grown, sameOrigin, List.length_append]
    omega
  · simp only [Sink.position, grown, sameOrigin, List.length_append]
    omega

theorem Appends.id : Appends sink (fun state => state) (1 : Layout β) :=
  fun _ _ => ⟨(List.append_nil _).symm, rfl⟩

theorem Appends.comp {write next : σ → σ} {first second : Layout β}
    (head : Appends sink write first) (tail : Appends sink next second) :
    Appends sink (fun state => next (write state)) (first * second) := by
  intro state valid
  obtain ⟨grown, sameOrigin⟩ := head state valid
  obtain ⟨valid', advanced⟩ := Sink.advance valid grown sameOrigin
  obtain ⟨grown', sameOrigin'⟩ := tail (write state) valid'
  refine ⟨?_, sameOrigin'.trans sameOrigin⟩
  rw [grown', grown, advanced, List.append_assoc, Layout.place_mul]

theorem Appends.emits {write : σ → σ} {layout : Layout β}
    (appends : Appends sink write layout) :
    Emits (ε := ε) sink (fun state => .ok (write state)) layout :=
  fun state valid => ⟨write state, rfl, appends state valid⟩

theorem Emits.nothing : Emits (ε := ε) sink (fun state => .ok state) (1 : Layout β) :=
  Appends.id.emits

/-- Writers in sequence emit layouts in sequence. -/
theorem Emits.bind {write next : σ → Except ε σ} {first second : Layout β}
    (head : Emits sink write first) (tail : Emits sink next second) :
    Emits sink (fun state => write state >>= next) (first * second) := by
  intro state valid
  obtain ⟨middle, wrote, grown, sameOrigin⟩ := head state valid
  obtain ⟨valid', advanced⟩ := Sink.advance valid grown sameOrigin
  obtain ⟨final, wrote', grown', sameOrigin'⟩ := tail middle valid'
  refine ⟨final, ?_, ?_, sameOrigin'.trans sameOrigin⟩
  · show write state >>= next = .ok final
    rw [wrote]
    exact wrote'
  · rw [grown', grown, advanced, List.append_assoc, Layout.place_mul]

/-- Whenever a fallible writer succeeds it has added as many octets as `layout`
takes there; it may fail, and the octets may be others. -/
def Grows (sink : Sink σ β) (write : σ → Except ε σ) (layout : Layout β) : Prop :=
  ∀ state, sink.Valid state → ∀ state', write state = .ok state' →
    (sink.contents state').length =
        (sink.contents state).length + (layout.place (sink.position state)).length ∧
      sink.origin state' = sink.origin state

/-- Appending a layout of the same size. -/
theorem Appends.grows {write : σ → σ} {written layout : Layout β}
    (appends : Appends sink write written)
    (sameSize : ∀ pos, (written.place pos).length = (layout.place pos).length) :
    Grows (ε := ε) sink (fun state => .ok (write state)) layout := by
  rintro state valid state' ⟨⟩
  obtain ⟨grown, sameOrigin⟩ := appends state valid
  refine ⟨?_, sameOrigin⟩
  rw [grown, List.length_append, sameSize]

theorem Grows.fail (e : ε) (layout : Layout β) :
    Grows sink (fun _ : σ => (.error e : Except ε σ)) layout := by
  intro state _ state' succeeded
  cases succeeded

/-- Growths in sequence. -/
theorem Grows.bind {write next : σ → Except ε σ} {first second : Layout β}
    (head : Grows sink write first) (tail : Grows sink next second) :
    Grows sink (fun state => write state >>= next) (first * second) := by
  intro state valid final succeeded
  have inside : sink.origin state ≤ (sink.contents state).length := valid
  rcases wrote : write state with e | middle
  · simp only [wrote] at succeeded
    cases succeeded
  · simp only [wrote] at succeeded
    obtain ⟨grown, sameOrigin⟩ := head state valid middle wrote
    have valid' : sink.Valid middle := by
      show sink.origin middle ≤ (sink.contents middle).length
      omega
    obtain ⟨grown', sameOrigin'⟩ := tail middle valid' final succeeded
    have advanced : sink.position middle =
        sink.position state + (first.place (sink.position state)).length := by
      simp only [Sink.position, grown, sameOrigin]
      omega
    refine ⟨?_, sameOrigin'.trans sameOrigin⟩
    rw [grown', grown, advanced, Layout.place_mul, List.length_append, Nat.add_assoc]

end Emission

end Wire
