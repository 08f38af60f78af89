import RosZ.Lib.Layout

/-!
# CDR primitives

The low-level writer and reader of `ros-z-cdr` (`primitives.rs`), the buffer
trait they write to (`buffer.rs`) and the error type (`error.rs`).

* `CdrBuffer` is the trait; `List UInt8` is its `Vec<u8>` instance.
* `CdrWriter` and `CdrReader` are the two structs.  The byte order `BO` is a type
  parameter in Rust and an index here.
* Reader operations take `&mut self` and return `Result`: they are `EStateM`
  actions, so that a failing operation still returns the reader it leaves behind.

## Layouts

`wordLayout`, `stringLayout` and `bytesLayout` say what each primitive is on the
wire, as a function of the offset at which it starts.  Every write operation
`Appends` its layout and every read operation `Reads` it; nothing outside this
module looks at padding again.

Floats are carried as their bit patterns, which is what `byteorder` writes and
reads.  Integer casts `as u32` wrap, and so does the addition in `write_string`
(the release profile).
-/

namespace RosZ.Cdr

open Wire

/-- Errors of the CDR crate.  `utf8` carries the rejected octets, of which the
source's `Utf8Error` is a function. -/
inductive Error where
  | custom (msg : String)
  | unsupportedAny
  | unknownLength
  | unexpectedEof
  | invalidBool (byte : UInt8)
  | invalidChar (codepoint : UInt32)
  | invalidOptionTag (tag : UInt32)
  | utf8 (octets : List UInt8)
  deriving DecidableEq, Repr

/-! ## Buffers -/

/-- Types that can receive CDR-serialized bytes. -/
class CdrBuffer (B : Type) where
  /-- Append bytes to the buffer. -/
  extendFromSlice : B → List UInt8 → B
  /-- Append a single byte. -/
  push : B → UInt8 → B
  /-- Current length of buffered data. -/
  len : B → ℕ
  /-- Clear the buffer for reuse. -/
  clear : B → B

/-- `Vec<u8>` as a buffer. -/
instance instCdrBufferList : CdrBuffer (List UInt8) where
  extendFromSlice buffer data := buffer ++ data
  push buffer byte := buffer ++ [byte]
  len buffer := buffer.length
  clear _ := []

/-- A buffer that holds exactly what it was given. -/
class LawfulCdrBuffer (B : Type) [CdrBuffer B] where
  /-- The bytes the buffer stands for. -/
  bytes : B → List UInt8
  bytes_extendFromSlice : ∀ (buffer : B) (data : List UInt8),
    bytes (CdrBuffer.extendFromSlice buffer data) = bytes buffer ++ data
  bytes_push : ∀ (buffer : B) (byte : UInt8),
    bytes (CdrBuffer.push buffer byte) = bytes buffer ++ [byte]
  len_eq : ∀ buffer : B, CdrBuffer.len buffer = (bytes buffer).length
  bytes_clear : ∀ buffer : B, bytes (CdrBuffer.clear buffer) = []

instance instLawfulCdrBufferList : LawfulCdrBuffer (List UInt8) where
  bytes buffer := buffer
  bytes_extendFromSlice _ _ := rfl
  bytes_push _ _ := rfl
  len_eq _ := rfl
  bytes_clear _ := rfl

/-! ## Layouts -/

/-- A word of `width` octets, aligned to its width. -/
def wordLayout (order : ByteOrder) (width value : ℕ) : Layout UInt8 :=
  Layout.align 0 width * Layout.raw (order.encode width value)

/-- A word is laid out as what is left of it in its width. -/
theorem wordLayout_mod (order : ByteOrder) (width value : ℕ) :
    wordLayout order width (value % 256 ^ width) = wordLayout order width value := by
  rw [wordLayout, ByteOrder.encode_mod, wordLayout]

/-- The UTF-8 octets of a string. -/
def utf8Bytes (s : String) : List UInt8 := s.toByteArray.data.toList

theorem utf8Bytes_append (s t : String) : utf8Bytes (s ++ t) = utf8Bytes s ++ utf8Bytes t := by
  simp [utf8Bytes]

/-- The octets of a text are read back as the text. -/
theorem fromUTF8_utf8Bytes (s : String) :
    String.fromUTF8? ⟨(utf8Bytes s).toArray⟩ = some s := by
  have same : (⟨(utf8Bytes s).toArray⟩ : ByteArray) = s.toByteArray := by simp [utf8Bytes]
  rw [same, String.fromUTF8?, dif_pos s.isValidUTF8]
  rfl

theorem utf8Bytes_injective : Function.Injective utf8Bytes := by
  intro s s' same
  rw [← Option.some_inj, ← fromUTF8_utf8Bytes, same, fromUTF8_utf8Bytes]

/-- A string: its length with the terminator, its octets, the terminator. -/
def stringLayout (order : ByteOrder) (s : String) : Layout UInt8 :=
  wordLayout order 4 ((utf8Bytes s).length + 1) * Layout.raw (utf8Bytes s ++ [0])

/-- A byte sequence: its length and its octets. -/
def bytesLayout (order : ByteOrder) (octets : List UInt8) : Layout UInt8 :=
  wordLayout order 4 octets.length * Layout.raw octets

/-! ## The writer -/

/-- Low-level CDR writer with alignment handling. -/
structure CdrWriter (order : ByteOrder) (B : Type) where
  buffer : B
  startOffset : ℕ

namespace CdrWriter

variable {order : ByteOrder} {B : Type} [CdrBuffer B]

/-- Create a new writer for the given buffer. -/
def new (buffer : B) : CdrWriter order B :=
  { buffer, startOffset := CdrBuffer.len buffer }

/-- Current position relative to start. -/
def position (w : CdrWriter order B) : ℕ :=
  CdrBuffer.len w.buffer - w.startOffset

def extendFromSlice (w : CdrWriter order B) (data : List UInt8) : CdrWriter order B :=
  { w with buffer := CdrBuffer.extendFromSlice w.buffer data }

def push (w : CdrWriter order B) (byte : UInt8) : CdrWriter order B :=
  { w with buffer := CdrBuffer.push w.buffer byte }

/-- The eight zero octets padding is sliced from. -/
def zeros : List UInt8 := List.replicate 8 0

/-- Add padding bytes for alignment. -/
def align (w : CdrWriter order B) (alignment : ℕ) : CdrWriter order B :=
  let modulo := w.position % alignment
  if modulo ≠ 0 then
    let padding := alignment - modulo
    w.extendFromSlice (zeros.take padding)
  else w

/-- `&ZEROS[..padding]` is out of range: only an alignment above 8 can get here. -/
def alignPanics (w : CdrWriter order B) (alignment : ℕ) : Bool :=
  w.position % alignment ≠ 0 && 8 < alignment - w.position % alignment

/-- Align to the word's width and write its octets. -/
def writeWord (width value : ℕ) (w : CdrWriter order B) : CdrWriter order B :=
  (w.align width).extendFromSlice (order.encode width value)

def writeBool (v : Bool) (w : CdrWriter order B) : CdrWriter order B :=
  w.push (if v then 1 else 0)

def writeI8 (v : Int8) (w : CdrWriter order B) : CdrWriter order B := w.push v.toUInt8
def writeU8 (v : UInt8) (w : CdrWriter order B) : CdrWriter order B := w.push v

def writeI16 (v : Int16) : CdrWriter order B → CdrWriter order B := writeWord 2 v.toUInt16.toNat
def writeU16 (v : UInt16) : CdrWriter order B → CdrWriter order B := writeWord 2 v.toNat
def writeI32 (v : Int32) : CdrWriter order B → CdrWriter order B := writeWord 4 v.toUInt32.toNat
def writeU32 (v : UInt32) : CdrWriter order B → CdrWriter order B := writeWord 4 v.toNat
def writeI64 (v : Int64) : CdrWriter order B → CdrWriter order B := writeWord 8 v.toUInt64.toNat
def writeU64 (v : UInt64) : CdrWriter order B → CdrWriter order B := writeWord 8 v.toNat
def writeF32 (bits : UInt32) : CdrWriter order B → CdrWriter order B := writeWord 4 bits.toNat
def writeF64 (bits : UInt64) : CdrWriter order B → CdrWriter order B := writeWord 8 bits.toNat

/-- Write a CDR string (length-prefixed with null terminator). -/
def writeString (s : String) (w : CdrWriter order B) : CdrWriter order B :=
  let byteCount := UInt32.ofNat (utf8Bytes s).length + 1
  ((w.writeU32 byteCount).extendFromSlice (utf8Bytes s)).push 0

/-- Write raw bytes with length prefix (for sequences of u8). -/
def writeBytes (bytes : List UInt8) (w : CdrWriter order B) : CdrWriter order B :=
  (w.writeU32 (UInt32.ofNat bytes.length)).extendFromSlice bytes

/-- Write a sequence length prefix. -/
def writeSequenceLength (len : ℕ) (w : CdrWriter order B) : CdrWriter order B :=
  w.writeU32 (UInt32.ofNat len)

end CdrWriter

/-! ## The reader -/

/-- Low-level CDR reader with alignment handling: the input and the position in
it.  The byte order is a phantom index, as in the source. -/
abbrev CdrReader (_order : ByteOrder) : Type := Cursor UInt8

/-- An operation on `&mut CdrReader` that returns `Result`. -/
abbrev ReadM (order : ByteOrder) : Type → Type := EStateM Error (CdrReader order)

namespace CdrReader

variable {order : ByteOrder}

/-- Create a new reader for the given input bytes. -/
def new (input : List UInt8) : CdrReader order := { input, position := 0 }

/-- Remaining bytes available. -/
def remaining (r : CdrReader order) : ℕ := r.input.length - r.position

/-- Align to the given boundary. -/
def align (alignment : ℕ) : ReadM order Unit := do
  let r ← get
  let modulo := r.position % alignment
  if modulo ≠ 0 then
    let padding := alignment - modulo
    if @remaining order r < padding then throw .unexpectedEof
    set { r with position := r.position + padding }

/-- Read raw bytes without alignment. -/
def readBytes (count : ℕ) : ReadM order (List UInt8) := do
  let r ← get
  if @remaining order r < count then throw .unexpectedEof
  set { r with position := r.position + count }
  return (r.input.drop r.position).take count

/-- The single octet behind `read_bytes(1)?[0]`. -/
def readByte : ReadM order UInt8 := do
  let bytes ← readBytes 1
  return bytes.headD 0

/-- Align to the word's width and read its octets. -/
def readWord (width : ℕ) : ReadM order ℕ := do
  align width
  let bytes ← readBytes width
  return order.decode bytes

def readBool : ReadM order Bool := do
  let byte ← readByte
  match byte with
  | 0 => return false
  | 1 => return true
  | x => throw (.invalidBool x)

def readI8 : ReadM order Int8 := do return (← readByte).toInt8
def readU8 : ReadM order UInt8 := readByte

def readI16 : ReadM order Int16 := do return (UInt16.ofNat (← readWord 2)).toInt16
def readU16 : ReadM order UInt16 := do return UInt16.ofNat (← readWord 2)
def readI32 : ReadM order Int32 := do return (UInt32.ofNat (← readWord 4)).toInt32
def readU32 : ReadM order UInt32 := do return UInt32.ofNat (← readWord 4)
def readI64 : ReadM order Int64 := do return (UInt64.ofNat (← readWord 8)).toInt64
def readU64 : ReadM order UInt64 := do return UInt64.ofNat (← readWord 8)
def readF32 : ReadM order UInt32 := do return UInt32.ofNat (← readWord 4)
def readF64 : ReadM order UInt64 := do return UInt64.ofNat (← readWord 8)

/-- `from_utf8` on a slice. -/
def fromUtf8 (octets : List UInt8) : ReadM order String :=
  match String.fromUTF8? ⟨octets.toArray⟩ with
  | some s => pure s
  | none => throw (.utf8 octets)

/-- Read a CDR string (length-prefixed with null terminator). -/
def readString : ReadM order String := do
  let len := (← readU32).toNat
  if len = 0 then return ""
  let bytes ← readBytes len
  -- Remove null terminator if present
  let strBytes := if bytes.getLast? = some 0 then bytes.take (bytes.length - 1) else bytes
  fromUtf8 strBytes

/-- Read a CDR string as a borrowed slice; the body is that of `read_string`, up to
the copy. -/
def readStr : ReadM order String := do
  let len := (← readU32).toNat
  if len = 0 then return ""
  let bytes ← readBytes len
  let strBytes := if bytes.getLast? = some 0 then bytes.take (bytes.length - 1) else bytes
  fromUtf8 strBytes

/-- The sanity limit of `read_sequence_length`. -/
def maxSequenceLength : ℕ := 100000000

/-- Read a sequence length prefix. -/
def readSequenceLength : ReadM order ℕ := do
  let len := (← readU32).toNat
  if maxSequenceLength < len then
    throw (.custom (s!"Sequence length {len} exceeds maximum allowed ({maxSequenceLength}). " ++
      "Possible schema mismatch or corrupted data."))
  return len

/-- Read raw bytes with length prefix. -/
def readByteSequence : ReadM order (List UInt8) := do
  let len := (← readU32).toNat
  readBytes len

end CdrReader

/-! ## What the writer appends -/

namespace CdrWriter

section Lawful

variable {order : ByteOrder} {B : Type} [CdrBuffer B] [LawfulCdrBuffer B]

/-- The writer as a sink: positions count from `start_offset`. -/
def sink (order : ByteOrder) (B : Type) [CdrBuffer B] [LawfulCdrBuffer B] :
    Sink (CdrWriter order B) UInt8 where
  contents w := LawfulCdrBuffer.bytes w.buffer
  origin w := w.startOffset

theorem position_eq (w : CdrWriter order B) : w.position = (sink order B).position w := by
  simp [position, Sink.position, sink, LawfulCdrBuffer.len_eq]

theorem valid_new (buffer : B) : (sink order B).Valid (new buffer) := by
  simp [Sink.Valid, sink, new, LawfulCdrBuffer.len_eq]

theorem position_new (buffer : B) : (sink order B).position (new buffer) = 0 := by
  simp [Sink.position, sink, new, LawfulCdrBuffer.len_eq]

theorem appends_extendFromSlice (data : List UInt8) :
    Appends (sink order B) (fun w => w.extendFromSlice data) (Layout.raw data) :=
  fun w _ => ⟨LawfulCdrBuffer.bytes_extendFromSlice w.buffer data, rfl⟩

theorem appends_push (byte : UInt8) :
    Appends (sink order B) (fun w => w.push byte) (Layout.raw [byte]) :=
  fun w _ => ⟨LawfulCdrBuffer.bytes_push w.buffer byte, rfl⟩

/-- Up to alignment 8 the slice of `ZEROS` is in range, and `align` pads. -/
theorem appends_align {alignment : ℕ} (small : alignment ≤ 8) :
    Appends (sink order B) (fun w => w.align alignment) (Layout.align 0 alignment) := by
  intro w _
  have short : alignment - (sink order B).position w % alignment ≤ 8 := by omega
  simp only [align, position_eq, Layout.place_align, Layout.padding]
  by_cases aligned : (sink order B).position w % alignment = 0
  · simp [aligned]
  · simp only [ne_eq, aligned, not_false_eq_true, if_true, if_false]
    have slice : zeros.take (alignment - (sink order B).position w % alignment) =
        List.replicate (alignment - (sink order B).position w % alignment) 0 := by
      rw [zeros, List.take_replicate, Nat.min_eq_left short]
    rw [slice]
    exact ⟨LawfulCdrBuffer.bytes_extendFromSlice w.buffer _, rfl⟩

theorem appends_writeWord {width : ℕ} (small : width ≤ 8) (value : ℕ) :
    Appends (sink order B) (writeWord width value) (wordLayout order width value) :=
  (appends_align small).comp (appends_extendFromSlice _)

theorem appends_writeU32 (value : UInt32) :
    Appends (sink order B) (writeU32 value) (wordLayout order 4 value.toNat) :=
  appends_writeWord (by decide) _

/-- A length is cast to the prefix word, and what does not fit is lost. -/
theorem appends_writeSequenceLength (len : ℕ) :
    Appends (sink order B) (writeSequenceLength len) (wordLayout order 4 len) := by
  have word : (UInt32.ofNat len).toNat = len % 256 ^ 4 := UInt32.toNat_ofNat'
  have prefixed := @appends_writeU32 order B _ _ (UInt32.ofNat len)
  rwa [word, wordLayout_mod] at prefixed

theorem appends_writeBytes (bytes : List UInt8) :
    Appends (sink order B) (writeBytes bytes) (bytesLayout order bytes) :=
  (appends_writeSequenceLength bytes.length).comp (appends_extendFromSlice bytes)

theorem appends_writeString (s : String) :
    Appends (sink order B) (writeString s) (stringLayout order s) := by
  have count : (UInt32.ofNat (utf8Bytes s).length + 1).toNat =
      ((utf8Bytes s).length + 1) % 256 ^ 4 := by
    rw [UInt32.toNat_add, UInt32.toNat_ofNat']
    exact Nat.mod_add_mod _ _ _
  have prefixed := @appends_writeU32 order B _ _
    (UInt32.ofNat (utf8Bytes s).length + 1)
  rw [count, wordLayout_mod] at prefixed
  have body := (@appends_extendFromSlice order B _ _ (utf8Bytes s)).comp
    (appends_push 0)
  exact prefixed.comp body

end Lawful

end CdrWriter

/-! ## What the reader reads -/

namespace CdrReader

variable {order : ByteOrder}

/-- `align` moves to the next multiple, if there is input that far. -/
theorem run_align (alignment pos : ℕ) (input : List UInt8) :
    (align alignment : ReadM order Unit).run ⟨input, pos⟩ =
      if input.length - pos < Layout.padding alignment pos then .error .unexpectedEof ⟨input, pos⟩
      else .ok () ⟨input, pos + Layout.padding alignment pos⟩ := by
  simp only [align, remaining, Layout.padding, EStateM.run_bind, EStateM.run_get]
  by_cases aligned : pos % alignment = 0
  · simp [aligned]
  · by_cases short : input.length - pos < alignment - pos % alignment
    · simp [aligned, short]
    · simp [aligned, short]

/-- `read_bytes` takes exactly the octets in front of it. -/
theorem run_readBytes (count pos : ℕ) (input : List UInt8) :
    (readBytes count : ReadM order (List UInt8)).run ⟨input, pos⟩ =
      if input.length - pos < count then .error .unexpectedEof ⟨input, pos⟩
      else .ok ((input.drop pos).take count) ⟨input, pos + count⟩ := by
  simp only [readBytes, remaining, EStateM.run_bind, EStateM.run_get]
  by_cases short : input.length - pos < count
  · simp [short]
  · simp only [short, if_false, EStateM.run_bind, EStateM.run_set, EStateM.run_pure]

theorem reads_align {alignment : ℕ} :
    Reads (align alignment : ReadM order Unit) (Layout.align 0 alignment) () := by
  intro before after
  have enough : ¬ (before ++ (Layout.align 0 alignment).place before.length ++ after).length -
      before.length < Layout.padding alignment before.length := by
    simp only [Layout.place_align, List.length_append, List.length_replicate]
    omega
  rw [run_align, if_neg enough, Layout.place_align, List.length_replicate]

theorem reads_readBytes (octets : List UInt8) :
    Reads (readBytes octets.length : ReadM order (List UInt8)) (Layout.raw octets) octets := by
  intro before after
  have rest : ((before ++ octets ++ after).drop before.length).take octets.length = octets := by
    rw [List.append_assoc, List.drop_left, List.take_left]
  have enough : ¬ (before ++ octets ++ after).length - before.length < octets.length := by
    simp only [List.length_append]
    omega
  rw [Layout.place_raw, run_readBytes, if_neg enough, rest]

theorem reads_readByte (byte : UInt8) :
    Reads (readByte : ReadM order UInt8) (Layout.raw [byte]) byte :=
  (reads_readBytes [byte]).bind_pure (Reads.pure byte)

theorem reads_readWord {width value : ℕ} (fits : value < 256 ^ width) :
    Reads (readWord width : ReadM order ℕ) (wordLayout order width value) value := by
  have octets := @reads_readBytes order (order.encode width value)
  rw [ByteOrder.length_encode] at octets
  have decoded := Reads.pure (ε := Error) (β := UInt8) (order.decode (order.encode width value))
  rw [ByteOrder.decode_encode_of_lt order fits] at decoded
  refine reads_align.bind (octets.bind_pure ?_)
  simpa [ByteOrder.decode_encode_of_lt order fits] using decoded

theorem reads_readBool (v : Bool) :
    Reads (readBool : ReadM order Bool) (Layout.raw [if v then 1 else 0]) v := by
  refine (reads_readByte _).bind_pure ?_
  cases v <;> exact Reads.pure _

theorem reads_readI8 (v : Int8) :
    Reads (readI8 : ReadM order Int8) (Layout.raw [v.toUInt8]) v :=
  (reads_readByte _).bind_pure (by simpa using Reads.pure v.toUInt8.toInt8)

theorem reads_readU16 (v : UInt16) :
    Reads (readU16 : ReadM order UInt16) (wordLayout order 2 v.toNat) v :=
  (reads_readWord v.toNat_lt).bind_pure (by simpa using Reads.pure (UInt16.ofNat v.toNat))

theorem reads_readI16 (v : Int16) :
    Reads (readI16 : ReadM order Int16) (wordLayout order 2 v.toUInt16.toNat) v :=
  (reads_readWord v.toUInt16.toNat_lt).bind_pure
    (by simpa using Reads.pure (UInt16.ofNat v.toUInt16.toNat).toInt16)

theorem reads_readU32 (v : UInt32) :
    Reads (readU32 : ReadM order UInt32) (wordLayout order 4 v.toNat) v :=
  (reads_readWord v.toNat_lt).bind_pure (by simpa using Reads.pure (UInt32.ofNat v.toNat))

theorem reads_readI32 (v : Int32) :
    Reads (readI32 : ReadM order Int32) (wordLayout order 4 v.toUInt32.toNat) v :=
  (reads_readWord v.toUInt32.toNat_lt).bind_pure
    (by simpa using Reads.pure (UInt32.ofNat v.toUInt32.toNat).toInt32)

theorem reads_readU64 (v : UInt64) :
    Reads (readU64 : ReadM order UInt64) (wordLayout order 8 v.toNat) v :=
  (reads_readWord v.toNat_lt).bind_pure (by simpa using Reads.pure (UInt64.ofNat v.toNat))

theorem reads_readI64 (v : Int64) :
    Reads (readI64 : ReadM order Int64) (wordLayout order 8 v.toUInt64.toNat) v :=
  (reads_readWord v.toUInt64.toNat_lt).bind_pure
    (by simpa using Reads.pure (UInt64.ofNat v.toUInt64.toNat).toInt64)

/-- A length below `2^32` survives the trip through the prefix word. -/
theorem reads_lengthWord {len : ℕ} (fits : len < 2 ^ 32) :
    ∃ word : UInt32, word.toNat = len ∧
      Reads (readU32 : ReadM order UInt32) (wordLayout order 4 len) word := by
  have word : (UInt32.ofNat len).toNat = len := UInt32.toNat_ofNat_of_lt' fits
  have reads := @reads_readU32 order (UInt32.ofNat len)
  rw [word] at reads
  exact ⟨_, word, reads⟩

/-- A sequence length within the limit passes the sanity check. -/
theorem reads_readSequenceLength {len : ℕ} (within : len ≤ maxSequenceLength) :
    Reads (readSequenceLength : ReadM order ℕ) (wordLayout order 4 len) len := by
  obtain ⟨word, rfl, reads⟩ :=
    @reads_lengthWord order _ (lt_of_le_of_lt within (by decide) : len < 2 ^ 32)
  refine reads.bind_pure ?_
  simp only [if_neg (Nat.not_lt.mpr within)]
  exact Reads.pure _

theorem reads_readByteSequence {octets : List UInt8} (fits : octets.length < 2 ^ 32) :
    Reads (readByteSequence : ReadM order (List UInt8)) (bytesLayout order octets) octets := by
  obtain ⟨word, count, reads⟩ := @reads_lengthWord order _ fits
  refine reads.bind ?_
  rw [count]
  exact reads_readBytes octets

theorem fromUtf8_utf8Bytes (s : String) :
    (fromUtf8 (utf8Bytes s) : ReadM order String) = pure s := by
  simp only [fromUtf8, fromUTF8_utf8Bytes]

/-- The terminator written behind the string is the one that is stripped, also
when the string itself ends in a NUL character. -/
theorem reads_readString {s : String} (fits : (utf8Bytes s).length < 2 ^ 32 - 1) :
    Reads (readString : ReadM order String) (stringLayout order s) s := by
  have stripped : (if (utf8Bytes s ++ [0]).getLast? = some 0 then
      (utf8Bytes s ++ [0]).take ((utf8Bytes s ++ [0]).length - 1) else utf8Bytes s ++ [0]) =
      utf8Bytes s := by
    simp
  obtain ⟨word, count, reads⟩ := @reads_lengthWord order _
    (by omega : (utf8Bytes s).length + 1 < 2 ^ 32)
  have octets := @reads_readBytes order (utf8Bytes s ++ [0])
  rw [List.length_append, List.length_singleton] at octets
  refine reads.bind ?_
  simp only [count, Nat.add_eq_zero_iff, one_ne_zero, and_false, if_false]
  refine octets.bind_pure ?_
  rw [stripped, fromUtf8_utf8Bytes]
  exact Reads.pure s

/-- The borrowed form of `readString` reads the same. -/
theorem reads_readStr {s : String} (fits : (utf8Bytes s).length < 2 ^ 32 - 1) :
    Reads (readStr : ReadM order String) (stringLayout order s) s :=
  reads_readString fits

/-! ### What a successful read returns -/

section Results

variable {r r' : CdrReader order}

theorem length_of_run_readBytes {count : ℕ} {octets : List UInt8}
    (h : (readBytes count : ReadM order (List UInt8)).run r = .ok octets r') :
    octets.length = count := by
  simp only [readBytes, EStateM.run_bind, EStateM.run_get] at h
  split at h
  · cases h
  · next enough =>
    simp only [EStateM.run_bind, EStateM.run_set, EStateM.run_pure] at h
    cases h
    unfold remaining at enough
    rw [List.length_take, List.length_drop]
    omega

/-- A byte sequence is as long as its length word says. -/
theorem run_readByteSequence_eq_ok {octets : List UInt8}
    (h : (readByteSequence : ReadM order (List UInt8)).run r = .ok octets r') :
    ∃ word middle, (readU32 : ReadM order UInt32).run r = .ok word middle ∧
      (readBytes word.toNat : ReadM order (List UInt8)).run middle = .ok octets r' ∧
      octets.length = word.toNat := by
  obtain ⟨word, middle, first, last⟩ := run_bind_eq_ok h
  exact ⟨word, middle, first, last, length_of_run_readBytes last⟩

/-- An octet sequence that is read fits its length word. -/
theorem fits_of_run_readByteSequence {octets : List UInt8}
    (h : (readByteSequence : ReadM order (List UInt8)).run r = .ok octets r') :
    octets.length < 2 ^ 32 := by
  obtain ⟨word, middle, -, -, len⟩ := run_readByteSequence_eq_ok h
  rw [len]
  exact word.toNat_lt

theorem run_readSequenceLength_eq_ok {len : ℕ}
    (h : (readSequenceLength : ReadM order ℕ).run r = .ok len r') :
    (∃ word, (readU32 : ReadM order UInt32).run r = .ok word r' ∧ len = word.toNat) ∧
      len ≤ maxSequenceLength := by
  obtain ⟨word, middle, first, last⟩ := run_bind_eq_ok h
  simp only at last
  split at last
  · cases last
  · next within =>
    cases last
    exact ⟨⟨word, first, rfl⟩, Nat.not_lt.mp within⟩

theorem utf8Bytes_of_run_fromUtf8 {octets : List UInt8} {s : String}
    (h : (fromUtf8 octets : ReadM order String).run r = .ok s r') :
    utf8Bytes s = octets := by
  unfold fromUtf8 at h
  split at h
  · next decoded =>
    cases h
    unfold String.fromUTF8? at decoded
    split at decoded
    · cases decoded
      rfl
    · cases decoded
  · cases h

/-- A string is empty behind a zero length word, and else the octets that follow, less the
terminator. -/
theorem run_readString_eq_ok {s : String}
    (h : (readString : ReadM order String).run r = .ok s r') :
    ∃ word middle, (readU32 : ReadM order UInt32).run r = .ok word middle ∧
      (word.toNat = 0 ∧ s = "" ∨
        ∃ octets, (readBytes word.toNat : ReadM order (List UInt8)).run middle =
            .ok octets r' ∧
          utf8Bytes s =
            if octets.getLast? = some 0 then octets.take (octets.length - 1) else octets) := by
  obtain ⟨word, middle, first, last⟩ := run_bind_eq_ok h
  refine ⟨word, middle, first, ?_⟩
  simp only at last
  split at last
  · next zero =>
    cases last
    exact .inl ⟨zero, rfl⟩
  · obtain ⟨octets, behind, bytes, last⟩ := run_bind_eq_ok last
    have same : behind = r' := by
      simp only [fromUtf8] at last
      split at last
      · cases last
        rfl
      · cases last
    subst same
    exact .inr ⟨octets, bytes, utf8Bytes_of_run_fromUtf8 last⟩

end Results

/-! ### What it does not consume does not matter -/

theorem local_align (alignment : ℕ) : Local (align alignment : ReadM order Unit) := by
  intro input pos value after inside succeeded
  rw [run_align] at succeeded
  split at succeeded
  · cases succeeded
  · next enough =>
    cases succeeded
    refine ⟨_, rfl, by omega, fun more => ?_⟩
    rw [run_align, if_neg (by rw [List.length_append]; omega)]

theorem local_readBytes (count : ℕ) : Local (readBytes count : ReadM order (List UInt8)) := by
  intro input pos value after inside succeeded
  rw [run_readBytes] at succeeded
  split at succeeded
  · cases succeeded
  · next enough =>
    cases succeeded
    have within : count ≤ (input.drop pos).length := by
      rw [List.length_drop]
      omega
    refine ⟨_, rfl, by omega, fun more => ?_⟩
    rw [run_readBytes, if_neg (by rw [List.length_append]; omega),
      List.drop_append_of_le_length inside, List.take_append_of_le_length within]

theorem local_readByte : Local (readByte : ReadM order UInt8) :=
  (local_readBytes 1).bind fun _ => .pure _

theorem local_readWord (width : ℕ) : Local (readWord width : ReadM order ℕ) :=
  (local_align width).bind fun _ => (local_readBytes width).bind fun _ => .pure _

theorem local_readBool : Local (readBool : ReadM order Bool) := by
  refine local_readByte.bind fun byte => ?_
  split
  · exact .pure _
  · exact .pure _
  · exact .throw _

theorem local_readU32 : Local (readU32 : ReadM order UInt32) :=
  (local_readWord 4).bind fun _ => .pure _

theorem local_fromUtf8 (octets : List UInt8) : Local (fromUtf8 octets : ReadM order String) := by
  unfold fromUtf8
  split
  · exact .pure _
  · exact .throw _

theorem local_readString : Local (readString : ReadM order String) := by
  refine local_readU32.bind fun len => ?_
  dsimp only
  split
  · exact .pure _
  · exact (local_readBytes _).bind fun bytes => local_fromUtf8 _

theorem local_readSequenceLength : Local (readSequenceLength : ReadM order ℕ) := by
  refine local_readU32.bind fun len => ?_
  dsimp only
  split
  · exact Local.throw _
  · exact .pure _

theorem local_readByteSequence : Local (readByteSequence : ReadM order (List UInt8)) :=
  local_readU32.bind fun _ => local_readBytes _

end CdrReader

end RosZ.Cdr
