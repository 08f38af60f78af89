import RosZ.Pubsub.Shm

/-!
# One encoding for every output

`CdrBuffer` (`buffer.rs`) in full, `ZBufWriter` (`zbuf_writer.rs`) with its
zero-copy appends, and the serializers of `CdrSerdes` (`msg.rs`) that write to a
`ZBuf` and to a vector.

* `CdrBufferMethods` adds the trait's provided methods, with their defaults, to
  the required ones of `CdrBuffer`.  Capacity is not part of a buffer's state:
  reserving leaves the buffer as it is.
* `BufferOp` is one call through the trait, and a run is a list of calls.
* `ZBuf::push_zslice` appends a slice and `ZBuf::clear` leaves none.

## Main results

* `lengths_eq` and `standsFor_run`: a `ZBufWriter` and a vector that receive the
  same calls report the same lengths throughout and hold the same octets.
* `wire_zbuf_eq_serialize`: so every serializer of `CdrSerdes` puts the same octets
  on the wire.
-/

namespace RosZ.Cdr

/-! ## The trait in full -/

/-- The provided methods of `CdrBuffer`. -/
class CdrBufferMethods (B : Type) extends CdrBuffer B where
  /-- Reserve capacity for at least that many more bytes. -/
  reserve : B → ℕ → B := fun buffer _additional => buffer
  /-- Reserve capacity with a granularity of 4KB. -/
  reserve4k : B → ℕ → B := fun buffer neededTotal =>
    if neededTotal > len buffer then reserve buffer (neededTotal - len buffer) else buffer
  /-- Append all slices of a `ZBuf`; the default copies the data. -/
  appendZbuf : B → ZBuf → B := fun buffer zbuf => extendFromSlice buffer zbuf.contiguous

/-- A vector's own `reserve` and `reserve_4k` change its capacity only. -/
instance instCdrBufferMethodsList : CdrBufferMethods (List UInt8) where
  reserve buffer _ := buffer
  reserve4k buffer _ := buffer

namespace ZBufWriter

/-- Append a slice directly without copying. -/
def appendZslice (writer : ZBufWriter) (slice : List UInt8) : ZBufWriter :=
  let flushed := writer.flushCurrent
  { flushed with
    zbuf := flushed.zbuf ++ [slice]
    totalLen := flushed.totalLen + slice.length
    counted := by
      rw [flushed.counted]
      simp [ZBuf.contiguous]
      omega }

end ZBufWriter

instance instCdrBufferMethodsZBufWriter : CdrBufferMethods ZBufWriter where
  -- `current.reserve`
  reserve writer _ := writer
  appendZbuf writer zbuf := zbuf.foldl ZBufWriter.appendZslice writer

/-- One call through the trait. -/
inductive BufferOp where
  | extendFromSlice (data : List UInt8)
  | push (byte : UInt8)
  | appendZbuf (zbuf : ZBuf)
  | clear
  | reserve (additional : ℕ)
  | reserve4k (neededTotal : ℕ)
  deriving DecidableEq

/-- The buffer after a call. -/
def BufferOp.apply {B : Type} [CdrBufferMethods B] (buffer : B) : BufferOp → B
  | extendFromSlice data => CdrBuffer.extendFromSlice buffer data
  | push byte => CdrBuffer.push buffer byte
  | appendZbuf zbuf => CdrBufferMethods.appendZbuf buffer zbuf
  | clear => CdrBuffer.clear buffer
  | reserve additional => CdrBufferMethods.reserve buffer additional
  | reserve4k neededTotal => CdrBufferMethods.reserve4k buffer neededTotal

/-- The buffer after a run of calls. -/
def BufferOp.run {B : Type} [CdrBufferMethods B] (ops : List BufferOp) (buffer : B) : B :=
  ops.foldl BufferOp.apply buffer

/-- The lengths reported before the first call and after each one. -/
def BufferOp.lengths {B : Type} [CdrBufferMethods B] (ops : List BufferOp) (buffer : B) :
    List ℕ :=
  observed BufferOp.apply CdrBuffer.len ops buffer

/-! ## What the zero-copy writer holds -/

namespace ZBufWriter

theorem written_flushCurrent (writer : ZBufWriter) :
    writer.flushCurrent.written = writer.written := by
  unfold flushCurrent written
  by_cases empty : writer.current.isEmpty = true
  · rw [if_pos empty]
  · rw [if_neg empty]
    simp [ZBuf.contiguous]

/-- Flushed, the writer has no octets pending. -/
theorem current_flushCurrent (writer : ZBufWriter) : writer.flushCurrent.current = [] := by
  unfold flushCurrent
  by_cases empty : writer.current.isEmpty = true
  · rw [if_pos empty]
    exact List.isEmpty_iff.mp empty
  · rw [if_neg empty]

theorem written_appendZslice (writer : ZBufWriter) (slice : List UInt8) :
    (writer.appendZslice slice).written = writer.written ++ slice := by
  have flushed := written_flushCurrent writer
  have nothing := current_flushCurrent writer
  unfold written at flushed ⊢
  rw [nothing, List.append_nil] at flushed
  show ZBuf.contiguous (writer.flushCurrent.zbuf ++ [slice]) ++ writer.flushCurrent.current = _
  rw [nothing, ← flushed]
  simp [ZBuf.contiguous]

/-- Slice by slice the octets of a `ZBuf` are appended, in order. -/
theorem written_appendZbuf (zbuf : ZBuf) (writer : ZBufWriter) :
    (zbuf.foldl appendZslice writer).written = writer.written ++ zbuf.contiguous := by
  induction zbuf generalizing writer with
  | nil => exact (List.append_nil _).symm
  | cons slice rest ih =>
      show (rest.foldl appendZslice (writer.appendZslice slice)).written = _
      rw [ih, written_appendZslice, List.append_assoc]
      rfl

end ZBufWriter

/-! ## A writer and a vector under the same calls -/

/-- The writer stands for the vector. -/
def StandsFor (writer : ZBufWriter) (octets : List UInt8) : Prop := writer.written = octets

theorem standsFor_withCapacity (capacity : ℕ) :
    StandsFor (ZBufWriter.withCapacity capacity) [] := rfl

/-- **Every call keeps the writer standing for the vector.** -/
theorem StandsFor.apply (op : BufferOp) {writer : ZBufWriter} {octets : List UInt8}
    (stands : StandsFor writer octets) : StandsFor (op.apply writer) (op.apply octets) := by
  subst stands
  cases op with
  | extendFromSlice data => exact LawfulCdrBuffer.bytes_extendFromSlice writer data
  | push byte => exact LawfulCdrBuffer.bytes_push writer byte
  | appendZbuf zbuf => exact ZBufWriter.written_appendZbuf zbuf writer
  | clear => rfl
  | reserve additional => rfl
  | reserve4k neededTotal =>
      show ZBufWriter.written (if _ then writer else writer) = writer.written
      rw [ite_self]

theorem StandsFor.len_eq {writer : ZBufWriter} {octets : List UInt8}
    (stands : StandsFor writer octets) : CdrBuffer.len writer = CdrBuffer.len octets := by
  subst stands
  exact LawfulCdrBuffer.len_eq writer

/-- What is turned into a `ZBuf` is the vector, in slices. -/
theorem StandsFor.contiguous_intoZbuf {writer : ZBufWriter} {octets : List UInt8}
    (stands : StandsFor writer octets) : writer.intoZbuf.contiguous = octets :=
  writer.contiguous_intoZbuf.trans stands

/-- The two report the same length throughout. -/
theorem lengths_eq (capacity : ℕ) (ops : List BufferOp) :
    BufferOp.lengths ops (ZBufWriter.withCapacity capacity) =
      BufferOp.lengths ops ([] : List UInt8) :=
  observed_eq (fun op _ _ stands => StandsFor.apply op stands) (fun _ _ => StandsFor.len_eq) ops
    (standsFor_withCapacity capacity)

/-- And in the end the writer holds the vector. -/
theorem standsFor_run (capacity : ℕ) (ops : List BufferOp) :
    StandsFor (BufferOp.run ops (ZBufWriter.withCapacity capacity)) (BufferOp.run ops []) :=
  related_foldl (fun op _ _ stands => StandsFor.apply op stands) ops
    (standsFor_withCapacity capacity)

/-! ## A field that is a `ZBuf` -/

namespace CdrSerializer

variable {order : Wire.ByteOrder}

/-- Serialize a `ZBuf` field with zero-copy. -/
def serializeZbuf (zbuf : ZBuf) (w : CdrWriter order ZBufWriter) : CdrWriter order ZBufWriter :=
  let len := (zbuf.map List.length).sum
  let prefixed := w.writeU32 (UInt32.ofNat len)
  { prefixed with buffer := CdrBufferMethods.appendZbuf prefixed.buffer zbuf }

/-- Copied or not, the field is the byte buffer of its octets. -/
theorem written_serializeZbuf (zbuf : ZBuf) (w : CdrWriter order ZBufWriter) :
    (serializeZbuf zbuf w).buffer.written = (w.writeBytes zbuf.contiguous).buffer.written := by
  have size : (zbuf.map List.length).sum = zbuf.contiguous.length := List.length_flatten.symm
  unfold serializeZbuf CdrWriter.writeBytes
  rw [size]
  show ZBufWriter.written (zbuf.foldl ZBufWriter.appendZslice _) = _
  rw [ZBufWriter.written_appendZbuf]
  exact (LawfulCdrBuffer.bytes_extendFromSlice (w.writeU32 _).buffer zbuf.contiguous).symm

end CdrSerializer

end RosZ.Cdr

namespace RosZ.Pubsub

open RosZ.Cdr

namespace CdrSerdes

/-! ## The serializers of `CdrSerdes` -/

/-- Serialize into a vector, whose old contents are discarded. -/
def serializeToBuf (input : SerdeValue) (buffer : List UInt8) : Except Panic (List UInt8) :=
  match serializeInto input (CdrBuffer.clear buffer) with
  | .ok buffer => .ok buffer
  -- `unwrap`, or the serializer's own panic
  | .error _ => .error .panicked

/-- Serialize to a new vector. -/
def serialize (input : SerdeValue) : Except Panic (List UInt8) := serializeToBuf input []

/-- What the vector held before is cleared first. -/
theorem serializeToBuf_eq (input : SerdeValue) (buffer : List UInt8) :
    serializeToBuf input buffer = serialize input := rfl

theorem serialize_eq (input : SerdeValue) :
    serialize input = (serializeInto input ([] : List UInt8)).mapError fun _ => .panicked := by
  have cleared : CdrBuffer.clear ([] : List UInt8) = [] := rfl
  unfold serialize serializeToBuf
  rw [cleared]
  cases serializeInto input ([] : List UInt8) with
  | error e => rfl
  | ok buffer => rfl

/-- The slices of a `ZBuf` and the vector carry the same octets, and one serializer
panics exactly when the other does. -/
theorem wire_zbuf_eq_serialize (input : SerdeValue) (capacityHint : ℕ) :
    wire (serializeToZbufWithHint input capacityHint) = serialize input := by
  rw [wire_serializeToZbufWithHint, serialize_eq]

/-- **All CDR outputs are the same bytes.** -/
theorem sameBytes_everywhere :
    (∀ (capacity : ℕ) (ops : List BufferOp),
      BufferOp.lengths ops (ZBufWriter.withCapacity capacity) =
          BufferOp.lengths ops ([] : List UInt8) ∧
        (BufferOp.run ops (ZBufWriter.withCapacity capacity)).intoZbuf.contiguous =
          BufferOp.run ops ([] : List UInt8)) ∧
    ∀ (input : SerdeValue) (capacityHint : ℕ) (buffer : List UInt8),
      wire (serializeToZbufWithHint input capacityHint) = serialize input ∧
        wire (serializeToZbuf input) = serialize input ∧
        serializeToBuf input buffer = serialize input := by
  refine ⟨fun capacity ops => ⟨lengths_eq capacity ops, ?_⟩, fun input capacityHint buffer =>
    ⟨?_, ?_, serializeToBuf_eq input buffer⟩⟩
  · exact (standsFor_run capacity ops).contiguous_intoZbuf
  · exact wire_zbuf_eq_serialize input capacityHint
  · exact wire_zbuf_eq_serialize input 256

end CdrSerdes

end RosZ.Pubsub
