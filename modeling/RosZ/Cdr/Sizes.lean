import RosZ.Cdr.Buffers
import RosZ.Lib.Shape

/-!
# Sizes of encodings

How many octets the encoding of a serde value takes is a matter of its `shape`, the words it
is made of: their widths are its content, and the padding depends on where it starts
(`length_place_layout`).  What is written in a fresh buffer is the shape laid out from offset `0`
(`length_of_toVec`).
-/

namespace RosZ.Cdr

open Wire

/-- Octets without an alignment. -/
def octetsShape (count : ℕ) : Shape := .repeated (.word 0) count

mutual

/-- The words of a value. -/
def SerdeValue.shape : SerdeValue → Shape
  | .bool _ => .word 0
  | .i8 _ => .word 0
  | .i16 _ => .word 1
  | .i32 _ => .word 2
  | .i64 _ => .word 3
  | .i128 _ => .word 4
  | .u8 _ => .word 0
  | .u16 _ => .word 1
  | .u32 _ => .word 2
  | .u64 _ => .word 3
  | .u128 _ => .word 4
  | .f32 _ => .word 2
  | .f64 _ => .word 3
  | .char _ => .word 2
  | .str v => .record [.word 2, octetsShape ((utf8Bytes v).length + 1)]
  | .bytes v => .record [.word 2, octetsShape v.length]
  | .none => .word 2
  | .some v => .record [.word 2, v.shape]
  | .unit => .record []
  | .unitStruct => .record []
  | .newtypeStruct v => v.shape
  | .seq elements => .record (.word 2 :: shapesOf elements)
  | .map entries => .record (.word 2 :: shapesOfEntries entries)
  | .tuple elements => .record (shapesOf elements)
  | .tupleStruct fields => .record (shapesOf fields)
  | .struct fields => .record (shapesOf fields)
  | .unitVariant _ => .word 2
  | .newtypeVariant _ v => .record [.word 2, v.shape]
  | .tupleVariant _ fields => .record (.word 2 :: shapesOf fields)
  | .structVariant _ fields => .record (.word 2 :: shapesOf fields)

def shapesOf : List SerdeValue → List Shape
  | [] => []
  | v :: rest => v.shape :: shapesOf rest

def shapesOfEntries : List (SerdeValue × SerdeValue) → List Shape
  | [] => []
  | (k, v) :: rest => .record [k.shape, v.shape] :: shapesOfEntries rest

end

/-! ## The size of a layout -/

/-- The layout takes the size of the shape, wherever it starts. -/
def Sized (layout : Layout UInt8) (shape : Shape) : Prop :=
  ∀ pos, (layout.place pos).length = shape.sizeAt pos

theorem sized_nothing : Sized 1 (.record []) := fun _ => rfl

theorem sized_octet (octet : UInt8) : Sized (Layout.raw [octet]) (.word 0) := by
  intro pos
  rw [Shape.sizeAt, Shape.paddingAt, pow_zero, Layout.padding_one]
  rfl

theorem sized_word (order : ByteOrder) (exponent value : ℕ) :
    Sized (wordLayout order (2 ^ exponent) value) (.word exponent) :=
  fun pos => length_place_wordLayout order (2 ^ exponent) value pos

theorem sized_octets (octets : List UInt8) :
    Sized (Layout.raw octets) (octetsShape octets.length) := by
  induction octets with
  | nil =>
      intro pos
      show 0 = (Shape.repeated (.word 0) 0).sizeAt pos
      simp [Shape.sizeAt, Shape.paddingAt, Shape.paddingOfRow, Shape.content]
  | cons octet octets ih =>
      intro pos
      rw [octetsShape, List.length_cons, Shape.sizeAt_repeated_succ, ← sized_octet octet pos,
        ← octetsShape, ← ih]
      exact Nat.add_comm _ _

/-- One part in front of the others. -/
theorem Sized.cons {first rest : Layout UInt8} {shape : Shape} {shapes : List Shape}
    (head : Sized first shape) (tail : Sized rest (.record shapes)) :
    Sized (first * rest) (.record (shape :: shapes)) := by
  intro pos
  rw [Layout.place_mul, List.length_append, head, tail, ← Shape.sizeAt_record_cons]

theorem Sized.single {layout : Layout UInt8} {shape : Shape} (sized : Sized layout shape) :
    Sized layout (.record [shape]) := by
  rw [← mul_one layout]
  exact sized.cons sized_nothing

mutual

/-- **The encoding of a value takes the size of its shape.** -/
theorem length_place_layout (order : ByteOrder) : ∀ v : SerdeValue, Sized (v.layout order) v.shape
  | .bool _ => sized_octet _
  | .i8 _ => sized_octet _
  | .i16 _ => sized_word order 1 _
  | .i32 _ => sized_word order 2 _
  | .i64 _ => sized_word order 3 _
  | .i128 _ => sized_word order 4 _
  | .u8 _ => sized_octet _
  | .u16 _ => sized_word order 1 _
  | .u32 _ => sized_word order 2 _
  | .u64 _ => sized_word order 3 _
  | .u128 _ => sized_word order 4 _
  | .f32 _ => sized_word order 2 _
  | .f64 _ => sized_word order 3 _
  | .char _ => sized_word order 2 _
  | .str v => by
      have octets := sized_octets (utf8Bytes v ++ [0])
      rw [List.length_append, List.length_singleton] at octets
      exact (sized_word order 2 _).cons octets.single
  | .bytes v => (sized_word order 2 _).cons (sized_octets v).single
  | .none => sized_word order 2 _
  | .some v => (sized_word order 2 _).cons (length_place_layout order v).single
  | .unit => sized_nothing
  | .unitStruct => sized_nothing
  | .newtypeStruct v => length_place_layout order v
  | .seq elements => (sized_word order 2 _).cons (length_place_elements order elements)
  | .map entries => (sized_word order 2 _).cons (length_place_entries order entries)
  | .tuple elements => length_place_elements order elements
  | .tupleStruct fields => length_place_elements order fields
  | .struct fields => length_place_elements order fields
  | .unitVariant _ => sized_word order 2 _
  | .newtypeVariant _ v => (sized_word order 2 _).cons (length_place_layout order v).single
  | .tupleVariant _ fields => (sized_word order 2 _).cons (length_place_elements order fields)
  | .structVariant _ fields => (sized_word order 2 _).cons (length_place_elements order fields)
termination_by structural v => v

theorem length_place_elements (order : ByteOrder) : ∀ vs : List SerdeValue,
    Sized (elementsLayout order vs) (.record (shapesOf vs))
  | [] => sized_nothing
  | v :: rest => (length_place_layout order v).cons (length_place_elements order rest)
termination_by structural vs => vs

theorem length_place_entries (order : ByteOrder) : ∀ entries : List (SerdeValue × SerdeValue),
    Sized (entriesLayout order entries) (.record (shapesOfEntries entries))
  | [] => sized_nothing
  | (k, v) :: rest =>
      ((length_place_layout order k).cons (length_place_layout order v).single).cons
        (length_place_entries order rest)
termination_by structural entries => entries

end

/-- What is written of a value takes the size of its shape from offset `0` on. -/
theorem length_of_toVec {order : ByteOrder} {v : SerdeValue} {payload : List UInt8}
    (written : toVec order v = .ok payload) : payload.length = v.shape.sizeAt 0 := by
  unfold toVec at written
  rcases done : CdrSerializer.serialize v (CdrWriter.new ([] : List UInt8) : CdrWriter order _)
    with abort | w
  · rw [done] at written
    cases written
  · rw [done] at written
    obtain rfl : w.buffer = payload := Except.ok.inj written
    have grown := (grows_serialize v (CdrWriter.new []) (CdrWriter.valid_new []) w done).1
    rw [CdrWriter.position_new, length_place_layout order v] at grown
    exact grown.trans (Nat.zero_add _)

end RosZ.Cdr
