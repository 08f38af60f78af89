import RosZ.Cdr.RoundTrip
import RosZ.Lib.Lockstep

/-!
# The serializer over other buffers

`CdrSerializer` is generic in its buffer and touches it through `CdrBuffer` only.

* `ZBufWriter` (`zbuf_writer.rs`) collects a `ZBuf`, a list of slices.
* `Tracks` relates two kinds of buffers that receive the same writes; the
  serializer then runs in lockstep on them (`lockstep_serialize`), whatever the
  value, and fails on one exactly when it fails on the other.
* `grows_serialize`: where the serializer succeeds it has written as many octets
  as the encoding of the value takes.  Length prefixes that wrap are allowed here:
  the size of a value does not depend on them.
-/

namespace RosZ.Cdr

open Wire

/-! ## The zero-copy writer -/

/-- `ZBuf`: octets in slices. -/
abbrev ZBuf : Type := List (List UInt8)

/-- The octets of a `ZBuf`, in order. -/
def ZBuf.contiguous (zbuf : ZBuf) : List UInt8 := zbuf.flatten

/-- A writer that accumulates bytes and slices into a `ZBuf`. -/
structure ZBufWriter where
  /-- Accumulated slices. -/
  zbuf : ZBuf
  /-- Current buffer for small writes. -/
  current : List UInt8
  /-- Total length, for alignment calculations. -/
  totalLen : ℕ
  counted : totalLen = zbuf.contiguous.length + current.length

namespace ZBufWriter

/-- Create a new writer; the capacity is a hint. -/
def withCapacity (_capacity : ℕ) : ZBufWriter :=
  { zbuf := [], current := [], totalLen := 0, counted := rfl }

/-- Flush the current byte buffer to the `ZBuf` as a slice. -/
def flushCurrent (writer : ZBufWriter) : ZBufWriter :=
  if writer.current.isEmpty then writer
  else
    { zbuf := writer.zbuf ++ [writer.current]
      current := []
      totalLen := writer.totalLen
      counted := by simp [ZBuf.contiguous, writer.counted] }

/-- Consume the writer and produce a `ZBuf`. -/
def intoZbuf (writer : ZBufWriter) : ZBuf := writer.flushCurrent.zbuf

/-- Everything written so far. -/
def written (writer : ZBufWriter) : List UInt8 := writer.zbuf.contiguous ++ writer.current

/-- What the writer is turned into is what was written. -/
theorem contiguous_intoZbuf (writer : ZBufWriter) :
    writer.intoZbuf.contiguous = writer.written := by
  unfold intoZbuf flushCurrent written
  by_cases empty : writer.current.isEmpty = true
  · have nothing : writer.current = [] := List.isEmpty_iff.mp empty
    rw [if_pos empty, nothing, List.append_nil]
  · rw [if_neg empty]
    simp [ZBuf.contiguous]

end ZBufWriter

instance instCdrBufferZBufWriter : CdrBuffer ZBufWriter where
  extendFromSlice writer data :=
    { writer with
      current := writer.current ++ data
      totalLen := writer.totalLen + data.length
      counted := by rw [writer.counted, List.length_append, Nat.add_assoc] }
  push writer byte :=
    { writer with
      current := writer.current ++ [byte]
      totalLen := writer.totalLen + 1
      counted := by rw [writer.counted, List.length_append, Nat.add_assoc]; rfl }
  len writer := writer.totalLen
  clear _ := { zbuf := [], current := [], totalLen := 0, counted := rfl }

instance instLawfulCdrBufferZBufWriter : LawfulCdrBuffer ZBufWriter where
  bytes := ZBufWriter.written
  bytes_extendFromSlice writer data := (List.append_assoc _ writer.current data).symm
  bytes_push writer byte := (List.append_assoc _ writer.current [byte]).symm
  len_eq writer := by
    show writer.totalLen = (writer.zbuf.contiguous ++ writer.current).length
    rw [writer.counted, List.length_append]
  bytes_clear _ := rfl

/-! ## Buffers in lockstep -/

/-- A relation between buffers that every write keeps and that shows in no length. -/
structure Tracks {B C : Type} [CdrBuffer B] [CdrBuffer C] (R : B → C → Prop) : Prop where
  len_eq : ∀ {b c}, R b c → CdrBuffer.len b = CdrBuffer.len c
  extend : ∀ {b c}, R b c → ∀ data,
    R (CdrBuffer.extendFromSlice b data) (CdrBuffer.extendFromSlice c data)
  push : ∀ {b c}, R b c → ∀ byte, R (CdrBuffer.push b byte) (CdrBuffer.push c byte)

/-- A lawful buffer tracks the list of its bytes. -/
theorem tracks_bytes (B : Type) [CdrBuffer B] [LawfulCdrBuffer B] :
    Tracks (fun (buffer : B) (octets : List UInt8) => LawfulCdrBuffer.bytes buffer = octets) where
  len_eq := by
    rintro buffer _ rfl
    exact LawfulCdrBuffer.len_eq buffer
  extend := by
    rintro buffer _ rfl data
    exact LawfulCdrBuffer.bytes_extendFromSlice buffer data
  push := by
    rintro buffer _ rfl byte
    exact LawfulCdrBuffer.bytes_push buffer byte

section Lockstep

open CdrSerializer CdrWriter

variable {order : ByteOrder} {B C : Type} [CdrBuffer B] [CdrBuffer C] {R : B → C → Prop}

/-- Writers over related buffers that count positions from the same origin. -/
def WritersRelated (order : ByteOrder) (R : B → C → Prop)
    (w : CdrWriter order B) (x : CdrWriter order C) : Prop :=
  R w.buffer x.buffer ∧ w.startOffset = x.startOffset

variable {w : CdrWriter order B} {x : CdrWriter order C}

theorem Tracks.position_eq (tracks : Tracks R) (related : WritersRelated order R w x) :
    w.position = x.position := by
  simp only [CdrWriter.position, tracks.len_eq related.1, related.2]

theorem Tracks.related_new (tracks : Tracks R) {b : B} {c : C} (related : R b c) :
    WritersRelated order R (CdrWriter.new b) (CdrWriter.new c) :=
  ⟨related, tracks.len_eq related⟩

theorem Tracks.related_extend (tracks : Tracks R) (data : List UInt8)
    (related : WritersRelated order R w x) :
    WritersRelated order R (w.extendFromSlice data) (x.extendFromSlice data) :=
  ⟨tracks.extend related.1 data, related.2⟩

theorem Tracks.related_push (tracks : Tracks R) (byte : UInt8)
    (related : WritersRelated order R w x) :
    WritersRelated order R (w.push byte) (x.push byte) :=
  ⟨tracks.push related.1 byte, related.2⟩

theorem Tracks.related_align (tracks : Tracks R) (alignment : ℕ)
    (related : WritersRelated order R w x) :
    WritersRelated order R (w.align alignment) (x.align alignment) := by
  have same := tracks.position_eq related
  unfold CdrWriter.align
  rw [same]
  by_cases aligned : x.position % alignment ≠ 0
  · simp only [if_pos aligned]
    exact tracks.related_extend _ related
  · simp only [if_neg aligned]
    exact related

theorem Tracks.related_writeWord (tracks : Tracks R) (width value : ℕ)
    (related : WritersRelated order R w x) :
    WritersRelated order R (w.writeWord width value) (x.writeWord width value) :=
  tracks.related_extend _ (tracks.related_align width related)

theorem Tracks.related_writeString (tracks : Tracks R) (s : String)
    (related : WritersRelated order R w x) :
    WritersRelated order R (w.writeString s) (x.writeString s) :=
  tracks.related_push 0 (tracks.related_extend _ (tracks.related_writeWord 4 _ related))

theorem Tracks.related_writeBytes (tracks : Tracks R) (bytes : List UInt8)
    (related : WritersRelated order R w x) :
    WritersRelated order R (w.writeBytes bytes) (x.writeBytes bytes) :=
  tracks.related_extend _ (tracks.related_writeWord 4 _ related)

/-- A word is written on both sides. -/
theorem lockstep_word (tracks : Tracks R) (width value : ℕ) :
    Lockstep (ε := Abort) (WritersRelated order R) (fun w => .ok (w.writeWord width value))
      (fun x => .ok (x.writeWord width value)) :=
  .total fun _ _ => tracks.related_writeWord width value

/-- A single octet is written on both sides. -/
theorem lockstep_push (tracks : Tracks R) (byte : UInt8) :
    Lockstep (ε := Abort) (WritersRelated order R) (fun w => .ok (w.push byte))
      (fun x => .ok (x.push byte)) :=
  .total fun _ _ => tracks.related_push byte

omit [CdrBuffer B] [CdrBuffer C] in
theorem lockstep_nothing :
    Lockstep (ε := Abort) (WritersRelated order R) (fun w => .ok w) (fun x => .ok x) :=
  .total fun _ _ related => related

/-- Both sides have the same padding to slice, so both panic or neither does. -/
theorem lockstep_serializeU128 (tracks : Tracks R) (v : BitVec 128) :
    Lockstep (WritersRelated order R) (serializeU128 v) (serializeU128 v) := by
  intro w x related
  have same : w.alignPanics 16 = x.alignPanics 16 := by
    simp only [CdrWriter.alignPanics, tracks.position_eq related]
  unfold serializeU128
  rw [same]
  by_cases panics : x.alignPanics 16 = true
  · rw [if_pos panics, if_pos panics]
    exact .error Abort.panic
  · rw [if_neg panics, if_neg panics]
    exact .ok (tracks.related_extend _ (tracks.related_align 16 related))

mutual

/-- **The serializer runs in lockstep on buffers that track each other.** -/
theorem lockstep_serialize (tracks : Tracks R) : ∀ v : SerdeValue,
    Lockstep (WritersRelated order R) (serialize v) (serialize v)
  | .bool _ => lockstep_push tracks _
  | .i8 _ => lockstep_push tracks _
  | .i16 _ => lockstep_word tracks 2 _
  | .i32 _ => lockstep_word tracks 4 _
  | .i64 _ => lockstep_word tracks 8 _
  | .i128 _ => .fail _
  | .u8 _ => lockstep_push tracks _
  | .u16 _ => lockstep_word tracks 2 _
  | .u32 _ => lockstep_word tracks 4 _
  | .u64 _ => lockstep_word tracks 8 _
  | .u128 v => lockstep_serializeU128 tracks v
  | .f32 _ => lockstep_word tracks 4 _
  | .f64 _ => lockstep_word tracks 8 _
  | .char _ => lockstep_word tracks 4 _
  | .str v => .total fun _ _ => tracks.related_writeString v
  | .bytes v => .total fun _ _ => tracks.related_writeBytes v
  | .none => lockstep_word tracks 4 _
  | .some v => (lockstep_word tracks 4 _).bind (lockstep_serialize tracks v)
  | .unit => lockstep_nothing
  | .unitStruct => lockstep_nothing
  | .newtypeStruct v => lockstep_serialize tracks v
  | .seq elements => (lockstep_word tracks 4 _).bind (lockstep_serializeElements tracks elements)
  | .map entries => (lockstep_word tracks 4 _).bind (lockstep_serializeEntries tracks entries)
  | .tuple elements => lockstep_serializeElements tracks elements
  | .tupleStruct fields => lockstep_serializeElements tracks fields
  | .struct fields => lockstep_serializeElements tracks fields
  | .unitVariant _ => lockstep_word tracks 4 _
  | .newtypeVariant _ v => (lockstep_word tracks 4 _).bind (lockstep_serialize tracks v)
  | .tupleVariant _ fields =>
      (lockstep_word tracks 4 _).bind (lockstep_serializeElements tracks fields)
  | .structVariant _ fields =>
      (lockstep_word tracks 4 _).bind (lockstep_serializeElements tracks fields)
termination_by structural v => v

theorem lockstep_serializeElements (tracks : Tracks R) : ∀ vs : List SerdeValue,
    Lockstep (WritersRelated order R) (serializeElements vs) (serializeElements vs)
  | [] => lockstep_nothing
  | v :: rest => (lockstep_serialize tracks v).bind (lockstep_serializeElements tracks rest)
termination_by structural vs => vs

theorem lockstep_serializeEntries (tracks : Tracks R) :
    ∀ entries : List (SerdeValue × SerdeValue),
    Lockstep (WritersRelated order R) (serializeEntries entries) (serializeEntries entries)
  | [] => lockstep_nothing
  | (key, value) :: rest =>
      ((lockstep_serialize tracks key).bind (lockstep_serialize tracks value)).bind
        (lockstep_serializeEntries tracks rest)
termination_by structural entries => entries

end

end Lockstep

/-! ## How much the serializer writes -/

section Size

open CdrSerializer CdrWriter

variable {order : ByteOrder} {B : Type} [CdrBuffer B] [LawfulCdrBuffer B]

/-- The size of a word does not depend on its value. -/
theorem length_place_wordLayout (order : ByteOrder) (width value pos : ℕ) :
    ((wordLayout order width value).place pos).length = Layout.padding width pos + width := by
  simp [wordLayout, Layout.place_mul, ByteOrder.length_encode]

/-- A word of eight octets or less is as large as any other of its width. -/
theorem grows_word {width : ℕ} (small : width ≤ 8) (value shown : ℕ) :
    Grows (ε := Abort) (sink order B) (fun w => .ok (w.writeWord width value))
      (wordLayout order width shown) :=
  (appends_writeWord small value).grows fun pos => by
    rw [length_place_wordLayout, length_place_wordLayout]

theorem grows_push (byte : UInt8) :
    Grows (ε := Abort) (sink order B) (fun w => .ok (w.push byte)) (Layout.raw [byte]) :=
  (appends_push byte).grows fun _ => rfl

theorem grows_nothing : Grows (ε := Abort) (sink order B) (fun w => .ok w) (1 : Layout UInt8) :=
  Appends.id.grows fun _ => rfl

/-- A string is as large as its layout, also when its length prefix wraps. -/
theorem grows_writeString (s : String) :
    Grows (ε := Abort) (sink order B) (fun w => .ok (w.writeString s)) (stringLayout order s) :=
  (appends_writeString s).grows fun _ => rfl

theorem grows_writeBytes (bytes : List UInt8) :
    Grows (ε := Abort) (sink order B) (fun w => .ok (w.writeBytes bytes))
      (bytesLayout order bytes) :=
  (appends_writeBytes bytes).grows fun _ => rfl

/-- Where `align` does not panic its padding is in full. -/
theorem bytes_align {w : CdrWriter order B} {alignment : ℕ}
    (safe : w.alignPanics alignment = false) :
    LawfulCdrBuffer.bytes (w.align alignment).buffer =
      LawfulCdrBuffer.bytes w.buffer ++
        List.replicate (Layout.padding alignment w.position) 0 := by
  unfold CdrWriter.align Layout.padding
  by_cases aligned : w.position % alignment = 0
  · simp [aligned]
  · have short : alignment - w.position % alignment ≤ 8 := by
      by_contra long
      simp [alignPanics, aligned, not_le.mp long] at safe
    have slice : zeros.take (alignment - w.position % alignment) =
        List.replicate (alignment - w.position % alignment) 0 := by
      rw [zeros, List.take_replicate, Nat.min_eq_left short]
    simp only [ne_eq, aligned, not_false_eq_true, if_true, if_false, extendFromSlice]
    rw [LawfulCdrBuffer.bytes_extendFromSlice, slice]

omit [LawfulCdrBuffer B] in
theorem startOffset_align (w : CdrWriter order B) (alignment : ℕ) :
    (w.align alignment).startOffset = w.startOffset := by
  unfold CdrWriter.align
  by_cases aligned : w.position % alignment ≠ 0
  · simp only [if_pos aligned, extendFromSlice]
  · simp only [if_neg aligned]

/-- Within the eight zeros a 128-bit integer is written as it is laid out. -/
theorem bytes_serializeU128 {w : CdrWriter order B} (safe : w.alignPanics 16 = false)
    (v : BitVec 128) :
    serializeU128 v w = .ok ((w.align 16).extendFromSlice (order.encode 16 v.toNat)) ∧
      LawfulCdrBuffer.bytes ((w.align 16).extendFromSlice (order.encode 16 v.toNat)).buffer =
        LawfulCdrBuffer.bytes w.buffer ++ (wordLayout order 16 v.toNat).place w.position := by
  refine ⟨if_neg (by rw [safe]; exact Bool.false_ne_true), ?_⟩
  show LawfulCdrBuffer.bytes (CdrBuffer.extendFromSlice (w.align 16).buffer _) = _
  rw [LawfulCdrBuffer.bytes_extendFromSlice, bytes_align safe, List.append_assoc]
  rfl

theorem grows_serializeU128 (v : BitVec 128) :
    Grows (sink order B) (serializeU128 v) (wordLayout order 16 v.toNat) := by
  intro w valid w' succeeded
  cases panics : w.alignPanics 16 with
  | true =>
      rw [serializeU128, if_pos panics] at succeeded
      cases succeeded
  | false =>
      obtain ⟨done, grown⟩ := bytes_serializeU128 panics v
      rw [done, Except.ok.injEq] at succeeded
      subst succeeded
      refine ⟨?_, startOffset_align w 16⟩
      rw [← position_eq, ← List.length_append]
      exact congrArg List.length grown

mutual

/-- **Where the serializer succeeds it has written the size of the encoding.** -/
theorem grows_serialize : ∀ v : SerdeValue,
    Grows (sink order B) (serialize v) (v.layout order)
  | .bool _ => grows_push _
  | .i8 _ => grows_push _
  | .i16 _ => grows_word (by decide) _ _
  | .i32 _ => grows_word (by decide) _ _
  | .i64 _ => grows_word (by decide) _ _
  | .i128 _ => .fail _ _
  | .u8 _ => grows_push _
  | .u16 _ => grows_word (by decide) _ _
  | .u32 _ => grows_word (by decide) _ _
  | .u64 _ => grows_word (by decide) _ _
  | .u128 v => grows_serializeU128 v
  | .f32 _ => grows_word (by decide) _ _
  | .f64 _ => grows_word (by decide) _ _
  | .char _ => grows_word (by decide) _ _
  | .str v => grows_writeString v
  | .bytes v => grows_writeBytes v
  | .none => grows_word (by decide) _ _
  | .some v => (grows_word (by decide) _ _).bind (grows_serialize v)
  | .unit => grows_nothing
  | .unitStruct => grows_nothing
  | .newtypeStruct v => grows_serialize v
  | .seq elements => (grows_word (by decide) _ _).bind (grows_serializeElements elements)
  | .map entries => (grows_word (by decide) _ _).bind (grows_serializeEntries entries)
  | .tuple elements => grows_serializeElements elements
  | .tupleStruct fields => grows_serializeElements fields
  | .struct fields => grows_serializeElements fields
  | .unitVariant _ => grows_word (by decide) _ _
  | .newtypeVariant _ v => (grows_word (by decide) _ _).bind (grows_serialize v)
  | .tupleVariant _ fields =>
      (grows_word (by decide) _ _).bind (grows_serializeElements fields)
  | .structVariant _ fields =>
      (grows_word (by decide) _ _).bind (grows_serializeElements fields)
termination_by structural v => v

theorem grows_serializeElements : ∀ vs : List SerdeValue,
    Grows (sink order B) (serializeElements vs) (elementsLayout order vs)
  | [] => grows_nothing
  | v :: rest => (grows_serialize v).bind (grows_serializeElements rest)
termination_by structural vs => vs

theorem grows_serializeEntries : ∀ entries : List (SerdeValue × SerdeValue),
    Grows (sink order B) (serializeEntries entries) (entriesLayout order entries)
  | [] => grows_nothing
  | (key, value) :: rest =>
      ((grows_serialize key).bind (grows_serialize value)).bind (grows_serializeEntries rest)
termination_by structural entries => entries

end

end Size

end RosZ.Cdr
