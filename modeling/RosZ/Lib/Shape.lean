import Mathlib.Algebra.Order.GroupWithZero.Basic
import RosZ.Lib.Layout

/-!
# Sizes of aligned data

A datum of fixed size is a tree of words, each of which starts at a multiple of its own
width.  How much padding it takes can be counted in two ways.

## Main definitions

* `Shape` — words, records and repetitions.
* `Shape.paddingAt` — the padding in front of every word, the datum starting at a given
  offset.  Positions run through the whole tree.
* `Shape.paddingAlone` — the padding by composition: every component is counted by itself,
  as if it started at offset `0`, and placed at a multiple of its alignment.  Nothing stands
  between the elements of a repetition.
* `Shape.Rigid` — shapes on which the two agree at every offset, up to the padding in front
  of the whole (`Shape.Rigid.paddingAt_eq`).

## Design notes

Alignments are powers of two and appear as their exponents, so that one alignment divides
another as soon as it is smaller.  A shape that is not rigid may still be counted correctly
where it stands: padding counted too early is absorbed by the padding of a later word.
-/

namespace Wire

/-! ## Shapes -/

/-- What a datum of fixed size is made of. -/
inductive Shape where
  /-- A word of `2 ^ exponent` octets. -/
  | word (exponent : ℕ)
  /-- Components one after the other. -/
  | record (fields : List Shape)
  /-- One component several times. -/
  | repeated (element : Shape) (count : ℕ)

namespace Shape

open Layout

mutual

/-- The octets of the words. -/
def content : Shape → ℕ
  | .word exponent => 2 ^ exponent
  | .record fields => contentAll fields
  | .repeated element count => count * element.content

def contentAll : List Shape → ℕ
  | [] => 0
  | field :: fields => field.content + contentAll fields

end

mutual

/-- The exponent of the widest word. -/
def rank : Shape → ℕ
  | .word exponent => exponent
  | .record fields => rankAll fields
  | .repeated element _ => element.rank

def rankAll : List Shape → ℕ
  | [] => 0
  | field :: fields => max field.rank (rankAll fields)

end

/-- The width of the widest word. -/
def alignment (shape : Shape) : ℕ := 2 ^ shape.rank

theorem alignment_pos (shape : Shape) : 0 < shape.alignment := Nat.two_pow_pos shape.rank

/-- The alignment of a record is the greatest of its fields'. -/
theorem max?_alignments (fields : List Shape) :
    (fields.map alignment).max?.getD 1 = 2 ^ rankAll fields := by
  induction fields with
  | nil => rfl
  | cons field fields ih =>
      have widest : 2 ^ rankAll (field :: fields) = max field.alignment (2 ^ rankAll fields) :=
        (pow_right_mono₀ one_le_two).map_max
      rw [widest, ← ih, List.map_cons, List.max?_cons]
      cases (fields.map alignment).max? with
      | none => exact (max_eq_left field.alignment_pos).symm
      | some others => rfl

/-! ## The two accounts of padding -/

/-- The padding of `count` data in a row, given that of one at every offset. -/
def paddingOfRow (padding : ℕ → ℕ) (content : ℕ) : ℕ → ℕ → ℕ
  | 0, _ => 0
  | count + 1, pos =>
      padding pos + paddingOfRow padding content count (pos + (padding pos + content))

mutual

/-- The padding in front of the words of a datum that starts at the given offset. -/
def paddingAt : Shape → ℕ → ℕ
  | .word exponent, pos => padding (2 ^ exponent) pos
  | .record fields, pos => paddingAtAll fields pos
  | .repeated element count, pos => paddingOfRow element.paddingAt element.content count pos

def paddingAtAll : List Shape → ℕ → ℕ
  | [], _ => 0
  | field :: fields, pos =>
      field.paddingAt pos + paddingAtAll fields (pos + (field.paddingAt pos + field.content))

end

mutual

/-- The padding of a datum counted by itself and component by component. -/
def paddingAlone : Shape → ℕ
  | .word _ => 0
  | .record fields => paddingFrom 0 fields
  | .repeated element count => count * element.paddingAlone

/-- Fields from a position in their record on, each placed at a multiple of its
alignment. -/
def paddingFrom (pos : ℕ) : List Shape → ℕ
  | [] => 0
  | field :: fields =>
      padding field.alignment pos + field.paddingAlone +
        paddingFrom (pos + padding field.alignment pos + (field.paddingAlone + field.content))
          fields

end

/-- The size of a datum that starts at the given offset. -/
def sizeAt (shape : Shape) (pos : ℕ) : ℕ := shape.paddingAt pos + shape.content

/-- The size by composition. -/
def sizeAlone (shape : Shape) : ℕ := shape.paddingAlone + shape.content

/-- The other fields start where the first one ends. -/
theorem sizeAt_record_cons (field : Shape) (fields : List Shape) (pos : ℕ) :
    (record (field :: fields)).sizeAt pos =
      field.sizeAt pos + (record fields).sizeAt (pos + field.sizeAt pos) := by
  simp only [sizeAt, paddingAt, paddingAtAll, content, contentAll]
  omega

/-- The other elements start where the first one ends. -/
theorem sizeAt_repeated_succ (element : Shape) (count pos : ℕ) :
    (repeated element (count + 1)).sizeAt pos =
      element.sizeAt pos + (repeated element count).sizeAt (pos + element.sizeAt pos) := by
  simp only [sizeAt, paddingAt, paddingOfRow, content, Nat.succ_mul]
  omega

/-! ## Rigid shapes -/

mutual

/-- A shape whose inside does not depend on where it stands: a record begins with its
widest alignment, and the elements of a repetition leave the next one aligned. -/
def Rigid : Shape → Prop
  | .word _ => True
  | .record fields => AllRigid fields ∧ ∀ field ∈ fields.head?, field.rank = rankAll fields
  | .repeated element count =>
      element.Rigid ∧ (count = 0 → element.rank = 0) ∧
        (2 ≤ count → element.alignment ∣ element.sizeAlone)

def AllRigid : List Shape → Prop
  | [] => True
  | field :: fields => field.Rigid ∧ AllRigid fields

end

/-- A row is padded in front, and where each element leaves the next one aligned nowhere
else. -/
theorem paddingOfRow_succ {paddingAt : ℕ → ℕ} {alignment own content : ℕ}
    (positive : 0 < alignment) (each : ∀ pos, paddingAt pos = padding alignment pos + own)
    (count : ℕ) (closed : count ≠ 0 → alignment ∣ own + content) (pos : ℕ) :
    paddingOfRow paddingAt content (count + 1) pos =
      padding alignment pos + (count + 1) * own := by
  induction count generalizing pos with
  | zero => rw [paddingOfRow, paddingOfRow, each, Nat.add_zero, Nat.zero_add, Nat.one_mul]
  | succ count ih =>
      have closed : alignment ∣ own + content := closed (Nat.succ_ne_zero count)
      have next : padding alignment (pos + (padding alignment pos + own + content)) = 0 := by
        rw [Nat.add_assoc, ← Nat.add_assoc]
        exact padding_eq_zero (Nat.dvd_add (dvd_add_padding positive pos) closed)
      rw [paddingOfRow, each, ih fun _ => closed, next, Nat.succ_mul (count + 1)]
      omega

mutual

/-- **A rigid shape is aligned as a whole**, and inside it both accounts are the same. -/
theorem Rigid.paddingAt_eq : ∀ (shape : Shape), shape.Rigid → ∀ pos,
    shape.paddingAt pos = padding shape.alignment pos + shape.paddingAlone
  | .word _, _, _ => rfl
  | .record [], _, pos => by
      rw [alignment, rank, rankAll, pow_zero, padding_eq_zero (one_dvd pos)]
      rfl
  | .record (field :: fields), ⟨⟨head, tail⟩, widest⟩, pos => by
      have widest : field.rank = rankAll (field :: fields) := widest field rfl
      have same : (record (field :: fields)).alignment = field.alignment := by
        rw [alignment, rank, ← widest, alignment]
      have narrower : 2 ^ rankAll fields ∣ field.alignment := by
        apply Nat.pow_dvd_pow
        rw [widest]
        exact le_max_right field.rank (rankAll fields)
      have start := narrower.trans (dvd_add_padding field.alignment_pos pos)
      rw [same, paddingAt, paddingAtAll, Rigid.paddingAt_eq field head, paddingAlone, paddingFrom,
        padding_eq_zero (dvd_zero _), ← AllRigid.paddingAtAll_eq fields tail start]
      simp only [Nat.zero_add, Nat.add_assoc]
  | .repeated element 0, ⟨_, narrow, _⟩, pos => by
      rw [alignment, rank, narrow rfl, pow_zero, padding_eq_zero (one_dvd pos), paddingAt,
        paddingOfRow, paddingAlone, Nat.zero_mul]
  | .repeated element (count + 1), ⟨rigid, _, closed⟩, pos => by
      exact paddingOfRow_succ element.alignment_pos (Rigid.paddingAt_eq element rigid) count
        (fun more => closed (by omega)) pos

/-- Behind an offset that all of them divide, rigid fields are padded as their record
counts them. -/
theorem AllRigid.paddingAtAll_eq : ∀ (fields : List Shape), AllRigid fields →
    ∀ {start : ℕ}, 2 ^ rankAll fields ∣ start → ∀ pos,
      paddingAtAll fields (start + pos) = paddingFrom pos fields
  | [], _, _, _, _ => rfl
  | field :: fields, ⟨head, tail⟩, start, aligned, pos => by
      have narrow : field.alignment ∣ start :=
        (Nat.pow_dvd_pow 2 (le_max_left field.rank (rankAll fields))).trans aligned
      have rest : 2 ^ rankAll fields ∣ start :=
        (Nat.pow_dvd_pow 2 (le_max_right field.rank (rankAll fields))).trans aligned
      rw [paddingAtAll, paddingFrom, Rigid.paddingAt_eq field head, padding_add narrow,
        ← AllRigid.paddingAtAll_eq fields tail rest]
      congr 2
      omega

end

/-- Not rigid, as the inner record starts at offset `1`, and yet the padding is the same. -/
example : paddingAt (.record [.word 0, .record [.word 0, .word 1], .word 3]) 0 =
    paddingAlone (.record [.word 0, .record [.word 0, .word 1], .word 3]) := rfl

end Shape

end Wire
