import RosZ.Lib.Checked
import RosZ.Lib.Machine
import RosZ.Cdr.Primitives

/-!
# The bounds of `CdrReader`

The operations of `CdrReader` with what can panic in them written out: the subtraction of
`remaining`, the slices, the index and the `unwrap`s (namespace `Checked`).  Each of them does what
its model in `Primitives` does, and does not panic (`guarded_run`), and each success has consumed
padding and the octets of the value (`consumes_run`).

A `ReaderOp` is a call of an operation, and the machine `reader` takes calls in any order, also
behind calls that have failed.

Sums of positions are natural numbers: they do not exceed the length of the input
(`staysInBounds_of_reachable`), and so they fit `usize`.
-/

namespace RosZ.Cdr

open Wire Transition

/-- An operation on `&mut CdrReader` that returns `Result`, and may panic. -/
abbrev CheckedM (order : ByteOrder) : Type → Type := EStateM (Fault Error) (CdrReader order)

namespace CdrReader

variable {order : ByteOrder}

/-! ## The operations -/

namespace Checked

/-- Remaining bytes available. -/
def remaining : CheckedM order ℕ := do
  let r ← get
  checkedSub r.input.length r.position

/-- Align to the given boundary. -/
def align (alignment : ℕ) : CheckedM order Unit := do
  let r ← get
  let modulo ← checkedMod r.position alignment
  if modulo ≠ 0 then
    let padding ← checkedSub alignment modulo
    if (← remaining) < padding then throw (.error .unexpectedEof)
    set { r with position := r.position + padding }

/-- Read raw bytes without alignment. -/
def readBytes (count : ℕ) : CheckedM order (List UInt8) := do
  let r ← get
  if (← remaining) < count then throw (.error .unexpectedEof)
  let bytes ← slice r.input r.position (r.position + count)
  set { r with position := r.position + count }
  return bytes

/-- `read_bytes(1)?[0]`. -/
def readByte : CheckedM order UInt8 := do
  firstOf (← readBytes 1)

/-- Read a word of `byteorder` from a slice, and unwrap it: a slice that is too short is an
error. -/
def unwrapWord (width : ℕ) (bytes : List UInt8) : CheckedM order ℕ :=
  if bytes.length < width then throw .panic else pure (order.decode (bytes.take width))

/-- Align to the word's width and read its octets. -/
def readWord (width : ℕ) : CheckedM order ℕ := do
  align width
  unwrapWord width (← readBytes width)

def readBool : CheckedM order Bool := do
  let byte ← readByte
  match byte with
  | 0 => return false
  | 1 => return true
  | x => throw (.error (.invalidBool x))

def readI8 : CheckedM order Int8 := do return (← readByte).toInt8
def readU8 : CheckedM order UInt8 := readByte

def readI16 : CheckedM order Int16 := do return (UInt16.ofNat (← readWord 2)).toInt16
def readU16 : CheckedM order UInt16 := do return UInt16.ofNat (← readWord 2)
def readI32 : CheckedM order Int32 := do return (UInt32.ofNat (← readWord 4)).toInt32
def readU32 : CheckedM order UInt32 := do return UInt32.ofNat (← readWord 4)
def readI64 : CheckedM order Int64 := do return (UInt64.ofNat (← readWord 8)).toInt64
def readU64 : CheckedM order UInt64 := do return UInt64.ofNat (← readWord 8)
def readF32 : CheckedM order UInt32 := do return UInt32.ofNat (← readWord 4)
def readF64 : CheckedM order UInt64 := do return UInt64.ofNat (← readWord 8)

/-- `bytes[..bytes.len() - 1]` behind a terminator. -/
def withoutTerminator (bytes : List UInt8) : CheckedM order (List UInt8) := do
  if bytes.getLast? = some 0 then
    let stop ← checkedSub bytes.length 1
    slice bytes 0 stop
  else
    return bytes

/-- `from_utf8` on a slice. -/
def fromUtf8 (octets : List UInt8) : CheckedM order String :=
  match String.fromUTF8? ⟨octets.toArray⟩ with
  | some s => pure s
  | none => throw (.error (.utf8 octets))

/-- Read a CDR string (length-prefixed with null terminator). -/
def readString : CheckedM order String := do
  let len := (← readU32).toNat
  if len = 0 then return ""
  let bytes ← readBytes len
  -- Remove null terminator if present
  let strBytes ← withoutTerminator bytes
  fromUtf8 strBytes

/-- Read a CDR string as a borrowed slice; the body is that of `read_string`, up to
the copy. -/
def readStr : CheckedM order String := do
  let len := (← readU32).toNat
  if len = 0 then return ""
  let bytes ← readBytes len
  let strBytes ← withoutTerminator bytes
  fromUtf8 strBytes

/-- Read a sequence length prefix. -/
def readSequenceLength : CheckedM order ℕ := do
  let len := (← readU32).toNat
  if maxSequenceLength < len then
    throw (.error (.custom
      (s!"Sequence length {len} exceeds maximum allowed ({maxSequenceLength}). " ++
        "Possible schema mismatch or corrupted data.")))
  return len

/-- Read raw bytes with length prefix. -/
def readByteSequence : CheckedM order (List UInt8) := do
  let len := (← readU32).toNat
  readBytes len

end Checked

/-! ## Safety -/

namespace Checked

/-- Within the input, the subtraction of `remaining` is in range. -/
theorem run_remaining {input : List UInt8} {pos : ℕ} (inside : pos ≤ input.length) :
    (remaining : CheckedM order ℕ).run ⟨input, pos⟩ = .ok (input.length - pos) ⟨input, pos⟩ := by
  simp only [remaining, EStateM.run_bind, EStateM.run_get, checkedSub_of_le inside,
    EStateM.run_pure]

theorem run_align {alignment pos : ℕ} {input : List UInt8} (positive : 0 < alignment)
    (inside : pos ≤ input.length) :
    (align alignment : CheckedM order Unit).run ⟨input, pos⟩ =
      if input.length - pos < Layout.padding alignment pos then
        .error (.error .unexpectedEof) ⟨input, pos⟩
      else .ok () ⟨input, pos + Layout.padding alignment pos⟩ := by
  have below := Nat.mod_lt pos positive
  simp only [align, Layout.padding, EStateM.run_bind, EStateM.run_get,
    checkedMod_of_pos positive, EStateM.run_pure]
  by_cases aligned : pos % alignment = 0
  · simp [aligned]
  · simp only [ne_eq, aligned, not_false_eq_true, if_true, if_false, EStateM.run_bind,
      checkedSub_of_le below.le, EStateM.run_pure, run_remaining inside]
    by_cases short : input.length - pos < alignment - pos % alignment
    · simp [short]
    · simp [short]

/-- Behind the check, the slice of `read_bytes` is in range. -/
theorem run_readBytes {count pos : ℕ} {input : List UInt8} (inside : pos ≤ input.length) :
    (readBytes count : CheckedM order (List UInt8)).run ⟨input, pos⟩ =
      if input.length - pos < count then .error (.error .unexpectedEof) ⟨input, pos⟩
      else .ok ((input.drop pos).take count) ⟨input, pos + count⟩ := by
  simp only [readBytes, EStateM.run_bind, EStateM.run_get, run_remaining inside]
  by_cases short : input.length - pos < count
  · simp [short]
  · have cut : pos + count ≤ input.length := by omega
    simp only [short, if_false, EStateM.run_bind, EStateM.run_pure, EStateM.run_set,
      slice_of_le (Nat.le_add_right pos count) cut, Nat.add_sub_cancel_left]

end Checked

theorem guarded_align {alignment : ℕ} (positive : 0 < alignment) :
    Guarded (Checked.align alignment : CheckedM order Unit) (@align order alignment) := by
  intro input pos inside
  rw [run_align, Checked.run_align positive inside]
  by_cases short : input.length - pos < Layout.padding alignment pos
  · rw [if_pos short, if_pos short]
    exact ⟨pos, le_rfl, inside, .inr ⟨_, rfl, rfl⟩⟩
  · rw [if_neg short, if_neg short]
    exact ⟨_, Nat.le_add_right _ _, by omega, .inl ⟨_, rfl, rfl⟩⟩

theorem guarded_readBytes (count : ℕ) :
    Guarded (Checked.readBytes count : CheckedM order (List UInt8)) (@readBytes order count) := by
  intro input pos inside
  rw [run_readBytes, Checked.run_readBytes inside]
  by_cases short : input.length - pos < count
  · rw [if_pos short, if_pos short]
    exact ⟨pos, le_rfl, inside, .inr ⟨_, rfl, rfl⟩⟩
  · rw [if_neg short, if_neg short]
    exact ⟨_, Nat.le_add_right _ _, by omega, .inl ⟨_, rfl, rfl⟩⟩

/-- The index is in range: one octet has been read. -/
theorem guarded_readByte : Guarded (Checked.readByte : CheckedM order UInt8) (@readByte order) := by
  refine (guarded_readBytes 1).bind_of (fun _ _ _ ran => length_of_run_readBytes ran) ?_
  intro bytes single
  obtain ⟨byte, rfl⟩ := List.length_eq_one_iff.mp single
  exact Guarded.pure byte

/-- The `unwrap` does not fail: the slice is as long as the word. -/
theorem guarded_readWord {width : ℕ} (positive : 0 < width) :
    Guarded (Checked.readWord width : CheckedM order ℕ) (@readWord order width) := by
  refine (guarded_align positive).bind fun _ => ?_
  refine (guarded_readBytes width).bind_of (fun _ _ _ ran => length_of_run_readBytes ran) ?_
  intro bytes full
  have enough : ¬ bytes.length < width := by omega
  rw [Checked.unwrapWord, if_neg enough, ← full, List.take_length]
  exact Guarded.pure _

theorem guarded_readBool : Guarded (Checked.readBool : CheckedM order Bool) (@readBool order) := by
  refine guarded_readByte.bind fun byte => ?_
  by_cases zero : byte = 0
  · subst zero
    exact Guarded.pure false
  by_cases one : byte = 1
  · subst one
    exact Guarded.pure true
  -- Both readers refuse the byte.
  refine (congrArg₂ Guarded ?_ ?_).mpr (Guarded.throw (Error.invalidBool byte))
  all_goals
    split
    · exact absurd rfl zero
    · exact absurd rfl one
    · rfl

theorem guarded_readU32 : Guarded (Checked.readU32 : CheckedM order UInt32) (@readU32 order) :=
  (guarded_readWord (by decide)).bind fun _ => Guarded.pure _

/-- Behind a terminator there is an octet to cut off. -/
theorem withoutTerminator_eq (bytes : List UInt8) :
    (Checked.withoutTerminator bytes : CheckedM order (List UInt8)) =
      pure (if bytes.getLast? = some 0 then bytes.take (bytes.length - 1) else bytes) := by
  unfold Checked.withoutTerminator
  by_cases ends : bytes.getLast? = some 0
  · have some : 1 ≤ bytes.length := by
      cases bytes with
      | nil => cases ends
      | cons _ _ => exact Nat.succ_pos _
    rw [if_pos ends, if_pos ends, checkedSub_of_le some, pure_bind,
      slice_of_le (Nat.zero_le _) (Nat.sub_le _ _), List.drop_zero, Nat.sub_zero]
  · rw [if_neg ends, if_neg ends]

theorem guarded_fromUtf8 (octets : List UInt8) :
    Guarded (Checked.fromUtf8 octets : CheckedM order String) (@fromUtf8 order octets) := by
  unfold Checked.fromUtf8 fromUtf8
  cases String.fromUTF8? ⟨octets.toArray⟩ with
  | some s => exact Guarded.pure s
  | none => exact Guarded.throw _

theorem guarded_readString :
    Guarded (Checked.readString : CheckedM order String) (@readString order) := by
  refine guarded_readU32.bind fun len => ?_
  dsimp only
  split
  · exact Guarded.pure ""
  · refine (guarded_readBytes _).bind fun bytes => ?_
    rw [withoutTerminator_eq, pure_bind]
    exact guarded_fromUtf8 _

theorem guarded_readSequenceLength :
    Guarded (Checked.readSequenceLength : CheckedM order ℕ) (@readSequenceLength order) := by
  refine guarded_readU32.bind fun len => ?_
  dsimp only
  split
  · exact Guarded.throw _
  · exact Guarded.pure _

theorem guarded_readByteSequence :
    Guarded (Checked.readByteSequence : CheckedM order (List UInt8)) (@readByteSequence order) :=
  guarded_readU32.bind fun _ => guarded_readBytes _

/-! ## What is consumed -/

theorem consumes_align (alignment : ℕ) :
    Consumes (align alignment : ReadM order Unit) alignment fun _ octets => octets = [] := by
  intro input pos value after inside succeeded
  rw [run_align] at succeeded
  split at succeeded
  · cases succeeded
  · next enough =>
    cases succeeded
    exact ⟨[], rfl, List.nil_prefix, rfl, by simp only [List.length_nil]; omega⟩

theorem consumes_readBytes (count : ℕ) :
    Consumes (readBytes count : ReadM order (List UInt8)) 1 fun bytes octets =>
      octets = bytes ∧ bytes.length = count := by
  intro input pos bytes after inside succeeded
  have full := length_of_run_readBytes succeeded
  rw [run_readBytes] at succeeded
  split at succeeded
  · cases succeeded
  · next enough =>
    cases succeeded
    rw [Layout.padding_one, Nat.add_zero]
    refine ⟨_, ⟨rfl, full⟩, List.take_prefix _ _, ?_, ?_⟩
    · rw [full]
    · rw [full]
      omega

theorem consumes_readByte :
    Consumes (readByte : ReadM order UInt8) 1 fun byte octets => octets = [byte] := by
  refine (consumes_readBytes 1).map ?_
  rintro bytes octets ⟨rfl, single⟩
  obtain ⟨byte, rfl⟩ := List.length_eq_one_iff.mp single
  rfl

theorem consumes_readWord (width : ℕ) :
    Consumes (readWord width : ReadM order ℕ) width fun value octets =>
      octets = order.encode width value := by
  refine (consumes_align width).bind (fun _ value octets => octets = order.encode width value)
    (fun _ => (consumes_readBytes width).map ?_) ?_
  · rintro bytes octets ⟨rfl, full⟩
    rw [← full, order.encode_decode]
  · rintro _ value _ octets rfl code
    exact code

/-- A word is read as a number of its width. -/
theorem consumes_word {α : Type} (width : ℕ) (of : ℕ → α) (word : α → ℕ)
    (fits : ∀ value, word (of value) = value % 256 ^ width) :
    Consumes (do return of (← readWord width) : ReadM order α) width fun v octets =>
      octets = order.encode width (word v) := by
  refine (consumes_readWord width).map ?_
  rintro value octets rfl
  rw [fits, order.encode_mod]

theorem consumes_readU32 :
    Consumes (readU32 : ReadM order UInt32) 4 fun v octets => octets = order.encode 4 v.toNat :=
  consumes_word 4 _ UInt32.toNat fun _ => UInt32.toNat_ofNat'

theorem consumes_readBool :
    Consumes (readBool : ReadM order Bool) 1 fun v octets => octets = [if v then 1 else 0] := by
  refine consumes_readByte.bind
    (fun byte v octets => byte = (if v then 1 else 0) ∧ octets = []) ?_ ?_
  · intro byte
    split
    · exact .of_nothing ⟨rfl, rfl⟩
    · exact .of_nothing ⟨rfl, rfl⟩
    · exact .of_throw _
  · rintro byte v _ _ rfl ⟨rfl, rfl⟩
    rfl

theorem consumes_fromUtf8 (bytes : List UInt8) :
    Consumes (fromUtf8 bytes : ReadM order String) 1 fun s octets =>
      utf8Bytes s = bytes ∧ octets = [] := by
  intro input pos s after inside succeeded
  have text := utf8Bytes_of_run_fromUtf8 succeeded
  have stays : after = ⟨input, pos⟩ := by
    unfold fromUtf8 at succeeded
    split at succeeded
    · cases succeeded
      rfl
    · cases succeeded
  subst stays
  refine ⟨[], ⟨text, rfl⟩, List.nil_prefix, ?_, ?_⟩
  · simp
  · simpa using inside

/-- The octets that are read as a string: a zero length word; or a length word and the text, with
a terminator or without one. -/
inductive StringOctets (order : ByteOrder) (s : String) : List UInt8 → Prop
  | zero (empty : s = "") : StringOctets order s (order.encode 4 0)
  | terminated : StringOctets order s
      (order.encode 4 ((utf8Bytes s).length + 1) ++ (utf8Bytes s ++ [0]))
  | bare (nonempty : s ≠ "") (ends : (utf8Bytes s).getLast? ≠ some 0) : StringOctets order s
      (order.encode 4 (utf8Bytes s).length ++ utf8Bytes s)

/-- A text is what is left of its octets without the terminator. -/
theorem stringOctets_of {s : String} {bytes : List UInt8} (nonempty : bytes ≠ [])
    (text : utf8Bytes s =
      if bytes.getLast? = some 0 then bytes.take (bytes.length - 1) else bytes) :
    StringOctets order s (order.encode 4 bytes.length ++ bytes) := by
  by_cases ends : bytes.getLast? = some 0
  · rw [if_pos ends] at text
    have whole : bytes = utf8Bytes s ++ [0] := by
      obtain ⟨front, rfl⟩ := List.getLast?_eq_some_iff.mp ends
      rw [text]
      simp
    rw [whole, List.length_append, List.length_singleton]
    exact .terminated
  · rw [if_neg ends] at text
    rw [← text] at nonempty ends ⊢
    refine .bare ?_ ends
    rintro rfl
    exact nonempty rfl

theorem consumes_readString :
    Consumes (readString : ReadM order String) 4 (StringOctets order) := by
  refine consumes_readU32.bind (fun len s octets => len.toNat = 0 ∧ s = "" ∧ octets = [] ∨
    octets ≠ [] ∧ octets.length = len.toNat ∧ utf8Bytes s =
      if octets.getLast? = some 0 then octets.take (octets.length - 1) else octets) ?_ ?_
  · intro len
    dsimp only
    split
    · next zero => exact .of_nothing (.inl ⟨zero, rfl, rfl⟩)
    · next positive =>
      refine (consumes_readBytes len.toNat).bind (fun bytes s octets => utf8Bytes s =
        (if bytes.getLast? = some 0 then bytes.take (bytes.length - 1) else bytes) ∧ octets = [])
        (fun bytes => consumes_fromUtf8 _) ?_
      rintro bytes s octets _ ⟨rfl, full⟩ ⟨text, rfl⟩
      rw [List.append_nil]
      refine .inr ⟨?_, full, text⟩
      rintro rfl
      exact positive full.symm
  · rintro len s _ octets rfl (⟨zero, empty, rfl⟩ | ⟨nonempty, full, text⟩)
    · rw [zero, List.append_nil]
      exact .zero empty
    · rw [← full]
      exact stringOctets_of nonempty text

theorem consumes_readSequenceLength :
    Consumes (readSequenceLength : ReadM order ℕ) 4 fun len octets =>
      octets = order.encode 4 len ∧ len ≤ maxSequenceLength := by
  refine consumes_readU32.bind
    (fun word len octets => len = word.toNat ∧ len ≤ maxSequenceLength ∧ octets = []) ?_ ?_
  · intro word
    dsimp only
    split
    · exact .of_throw _
    · next within => exact .of_nothing ⟨rfl, Nat.not_lt.mp within, rfl⟩
  · rintro word len _ _ rfl ⟨rfl, within, rfl⟩
    exact ⟨List.append_nil _, within⟩

theorem consumes_readByteSequence :
    Consumes (readByteSequence : ReadM order (List UInt8)) 4 fun bytes octets =>
      octets = order.encode 4 bytes.length ++ bytes := by
  refine consumes_readU32.bind _ (fun word => consumes_readBytes word.toNat) ?_
  rintro word bytes _ _ rfl ⟨rfl, full⟩
  rw [full]

/-! ## Calls -/

/-- A call of an operation.  An alignment is a power of two up to 8. -/
inductive ReaderOp where
  | align (exponent : Fin 4)
  | readBytes (count : ℕ)
  | readBool
  | readI8
  | readU8
  | readI16
  | readU16
  | readI32
  | readU32
  | readI64
  | readU64
  | readF32
  | readF64
  | readString
  | readStr
  | readSequenceLength
  | readByteSequence
  deriving DecidableEq, Repr

namespace ReaderOp

/-- What the operation returns. -/
abbrev Value : ReaderOp → Type
  | .align _ => Unit
  | .readBytes _ => List UInt8
  | .readBool => Bool
  | .readI8 => Int8
  | .readU8 => UInt8
  | .readI16 => Int16
  | .readU16 => UInt16
  | .readI32 => Int32
  | .readU32 => UInt32
  | .readI64 => Int64
  | .readU64 => UInt64
  | .readF32 => UInt32
  | .readF64 => UInt64
  | .readString => String
  | .readStr => String
  | .readSequenceLength => ℕ
  | .readByteSequence => List UInt8

/-- The operation as `Primitives` has it. -/
def run (order : ByteOrder) : (op : ReaderOp) → ReadM order op.Value
  | .align exponent => CdrReader.align (2 ^ exponent.val)
  | .readBytes count => CdrReader.readBytes count
  | .readBool => CdrReader.readBool
  | .readI8 => CdrReader.readI8
  | .readU8 => CdrReader.readU8
  | .readI16 => CdrReader.readI16
  | .readU16 => CdrReader.readU16
  | .readI32 => CdrReader.readI32
  | .readU32 => CdrReader.readU32
  | .readI64 => CdrReader.readI64
  | .readU64 => CdrReader.readU64
  | .readF32 => CdrReader.readF32
  | .readF64 => CdrReader.readF64
  | .readString => CdrReader.readString
  | .readStr => CdrReader.readStr
  | .readSequenceLength => CdrReader.readSequenceLength
  | .readByteSequence => CdrReader.readByteSequence

/-- The operation with its panics. -/
def checked (order : ByteOrder) : (op : ReaderOp) → CheckedM order op.Value
  | .align exponent => Checked.align (2 ^ exponent.val)
  | .readBytes count => Checked.readBytes count
  | .readBool => Checked.readBool
  | .readI8 => Checked.readI8
  | .readU8 => Checked.readU8
  | .readI16 => Checked.readI16
  | .readU16 => Checked.readU16
  | .readI32 => Checked.readI32
  | .readU32 => Checked.readU32
  | .readI64 => Checked.readI64
  | .readU64 => Checked.readU64
  | .readF32 => Checked.readF32
  | .readF64 => Checked.readF64
  | .readString => Checked.readString
  | .readStr => Checked.readStr
  | .readSequenceLength => Checked.readSequenceLength
  | .readByteSequence => Checked.readByteSequence

/-- The alignment of what the operation reads. -/
def alignment : ReaderOp → ℕ
  | .align exponent => 2 ^ exponent.val
  | .readI16 | .readU16 => 2
  | .readI32 | .readU32 | .readF32 => 4
  | .readI64 | .readU64 | .readF64 => 8
  | .readString | .readStr | .readSequenceLength | .readByteSequence => 4
  | .readBytes _ | .readBool | .readI8 | .readU8 => 1

/-- The octets of a value, as the operation reads it. -/
def Encodes (order : ByteOrder) : (op : ReaderOp) → op.Value → List UInt8 → Prop
  | .align _, _, octets => octets = []
  | .readBytes count, bytes, octets => octets = bytes ∧ bytes.length = count
  | .readBool, v, octets => octets = [if v then 1 else 0]
  | .readI8, v, octets => octets = [v.toUInt8]
  | .readU8, v, octets => octets = [v]
  | .readI16, v, octets => octets = order.encode 2 v.toUInt16.toNat
  | .readU16, v, octets => octets = order.encode 2 v.toNat
  | .readI32, v, octets => octets = order.encode 4 v.toUInt32.toNat
  | .readU32, v, octets => octets = order.encode 4 v.toNat
  | .readI64, v, octets => octets = order.encode 8 v.toUInt64.toNat
  | .readU64, v, octets => octets = order.encode 8 v.toNat
  | .readF32, bits, octets => octets = order.encode 4 bits.toNat
  | .readF64, bits, octets => octets = order.encode 8 bits.toNat
  | .readString, s, octets => StringOctets order s octets
  | .readStr, s, octets => StringOctets order s octets
  | .readSequenceLength, len, octets => octets = order.encode 4 len ∧ len ≤ maxSequenceLength
  | .readByteSequence, bytes, octets => octets = order.encode 4 bytes.length ++ bytes

end ReaderOp

/-- No operation panics within the input, and each does what its model does. -/
theorem guarded_run (op : ReaderOp) : Guarded (op.checked order) (op.run order) := by
  cases op with
  | align exponent => exact guarded_align (Nat.two_pow_pos exponent.val)
  | readBytes count => exact guarded_readBytes count
  | readBool => exact guarded_readBool
  | readI8 => exact guarded_readByte.bind fun _ => Guarded.pure _
  | readU8 => exact guarded_readByte
  | readI16 => exact (guarded_readWord (by decide)).bind fun _ => Guarded.pure _
  | readU16 => exact (guarded_readWord (by decide)).bind fun _ => Guarded.pure _
  | readI32 => exact (guarded_readWord (by decide)).bind fun _ => Guarded.pure _
  | readU32 => exact guarded_readU32
  | readI64 => exact (guarded_readWord (by decide)).bind fun _ => Guarded.pure _
  | readU64 => exact (guarded_readWord (by decide)).bind fun _ => Guarded.pure _
  | readF32 => exact guarded_readU32
  | readF64 => exact (guarded_readWord (by decide)).bind fun _ => Guarded.pure _
  | readString => exact guarded_readString
  | readStr => exact guarded_readString
  | readSequenceLength => exact guarded_readSequenceLength
  | readByteSequence => exact guarded_readByteSequence

/-- Each operation consumes the octets of its value. -/
theorem consumes_run (op : ReaderOp) :
    Consumes (op.run order) op.alignment (op.Encodes order) := by
  cases op with
  | align exponent => exact consumes_align _
  | readBytes count => exact consumes_readBytes count
  | readBool => exact consumes_readBool
  | readI8 =>
      refine consumes_readByte.map ?_
      rintro byte _ rfl
      rfl
  | readU8 => exact consumes_readByte
  | readI16 =>
      exact consumes_word 2 _ (fun v : Int16 => v.toUInt16.toNat) fun _ => UInt16.toNat_ofNat'
  | readU16 => exact consumes_word 2 _ UInt16.toNat fun _ => UInt16.toNat_ofNat'
  | readI32 =>
      exact consumes_word 4 _ (fun v : Int32 => v.toUInt32.toNat) fun _ => UInt32.toNat_ofNat'
  | readU32 => exact consumes_readU32
  | readI64 =>
      exact consumes_word 8 _ (fun v : Int64 => v.toUInt64.toNat) fun _ => UInt64.toNat_ofNat'
  | readU64 => exact consumes_word 8 _ UInt64.toNat fun _ => UInt64.toNat_ofNat'
  | readF32 => exact consumes_readU32
  | readF64 => exact consumes_word 8 _ UInt64.toNat fun _ => UInt64.toNat_ofNat'
  | readString => exact consumes_readString
  | readStr => exact consumes_readString
  | readSequenceLength => exact consumes_readSequenceLength
  | readByteSequence => exact consumes_readByteSequence

/-! ## Runs -/

/-- Calls in any order on a reader of `input`.  A call that fails leaves a reader on which the next
one is made, and one that panics does not return.  Observed is the position behind each call. -/
def reader (order : ByteOrder) (input : List UInt8) : Machine (CdrReader order) ReaderOp ℕ where
  init := CdrReader.new input
  step r op :=
    match (op.checked order).run r with
    | .ok _ r' => some (r', [r'.position])
    | .error (.error _) r' => some (r', [r'.position])
    | .error .panic _ => none

/-- **A call stays in bounds**: it succeeds and has moved over the padding and the octets of its
value, which stand in the input, or it fails with an error and has not moved back; it does not
panic. -/
def StaysInBounds (order : ByteOrder) (op : ReaderOp) (r : CdrReader order) : Prop :=
  (∃ value octets, op.Encodes order value octets ∧
    octets <+: r.input.drop (r.position + Layout.padding op.alignment r.position) ∧
    r.position + Layout.padding op.alignment r.position + octets.length ≤ r.input.length ∧
    (op.checked order).run r = .ok value ⟨r.input,
      r.position + Layout.padding op.alignment r.position + octets.length⟩) ∨
  ∃ e pos', r.position ≤ pos' ∧ pos' ≤ r.input.length ∧
    (op.checked order).run r = .error (.error e) ⟨r.input, pos'⟩

theorem staysInBounds (op : ReaderOp) {r : CdrReader order} (inside : r.position ≤ r.input.length) :
    StaysInBounds order op r := by
  obtain ⟨input, pos⟩ := r
  obtain ⟨pos', forward, within, ⟨value, ran, same⟩ | ⟨e, -, same⟩⟩ :=
    guarded_run op input pos inside
  · obtain ⟨octets, code, found, moved, bound⟩ := consumes_run op input pos value _ inside ran
    refine .inl ⟨value, octets, code, found, bound, ?_⟩
    rw [same, moved]
  · exact .inr ⟨e, pos', forward, within, same⟩

/-- A call on a reader within its input is a step, forward and within the input. -/
theorem StaysInBounds.step {op : ReaderOp} {r : CdrReader order} (bounds : StaysInBounds order op r)
    (input : List UInt8) :
    ∃ r', (reader order input).step r op = some (r', [r'.position]) ∧ r'.input = r.input ∧
      r.position ≤ r'.position ∧ r'.position ≤ r'.input.length := by
  rcases bounds with ⟨value, octets, -, -, bound, ran⟩ | ⟨e, pos', forward, within, ran⟩
  · refine ⟨⟨r.input, r.position + Layout.padding op.alignment r.position + octets.length⟩,
      by simp only [reader, ran], rfl, ?_, bound⟩
    exact (Nat.le_add_right _ _).trans (Nat.le_add_right _ _)
  · exact ⟨⟨r.input, pos'⟩, by simp only [reader, ran], rfl, forward, within⟩

section Runs

variable {input : List UInt8} {c c' : Config (CdrReader order) ℕ}

theorem inside_of_reachable (reached : (reader order input).Reachable Machine.anyStep c) :
    c.state.input = input ∧ c.state.position ≤ input.length := by
  refine reached.invariant (P := fun c => c.state.input = input ∧ c.state.position ≤ input.length)
    ⟨rfl, Nat.zero_le _⟩ ?_
  rintro c op c' ⟨same, inside⟩ - moved
  obtain ⟨observed, stepped, -⟩ := Machine.next_eq_some moved
  rw [← same] at inside
  obtain ⟨r', ran, kept, -, within⟩ := (staysInBounds op inside).step input
  rw [ran] at stepped
  obtain ⟨rfl, rfl⟩ := Prod.mk.inj (Option.some.inj stepped)
  rw [kept, same] at within
  exact ⟨kept.trans same, within⟩

/-- The position does not move back in a run. -/
theorem position_le_of_runs (reached : (reader order input).Reachable Machine.anyStep c)
    (run : (reader order input).Runs Machine.anyStep c c') :
    c.state.position ≤ c'.state.position := by
  refine (run.induct (P := fun d => (reader order input).Reachable Machine.anyStep d ∧
    c.state.position ≤ d.state.position) ⟨reached, le_rfl⟩ ?_).2
  rintro d op d' ⟨there, forward⟩ - moved
  refine ⟨there.step trivial moved, forward.trans ?_⟩
  obtain ⟨same, inside⟩ := inside_of_reachable there
  obtain ⟨observed, stepped, -⟩ := Machine.next_eq_some moved
  rw [← same] at inside
  obtain ⟨r', ran, -, onward, -⟩ := (staysInBounds op inside).step input
  rw [ran] at stepped
  obtain ⟨rfl, rfl⟩ := Prod.mk.inj (Option.some.inj stepped)
  exact onward

/-- **`CdrReader` stays in bounds**, for every input and behind every sequence of calls: the
position is within the input and does not decrease, every call returns without a panic and has
consumed padding and the octets of its value where it succeeds, and `read_string` and `read_str`
succeed alike. -/
theorem staysInBounds_of_reachable
    (reached : (reader order input).Reachable Machine.anyStep c) :
    c.state.input = input ∧ c.state.position ≤ input.length ∧
      (∀ op, StaysInBounds order op c.state ∧ ∃ c', (reader order input).next c op = some c') ∧
      (∀ c', (reader order input).Runs Machine.anyStep c c' →
        c.state.position ≤ c'.state.position) ∧
      ∀ s r', (Checked.readString : CheckedM order String).run c.state = .ok s r' ↔
        (Checked.readStr : CheckedM order String).run c.state = .ok s r' := by
  obtain ⟨same, inside⟩ := inside_of_reachable reached
  refine ⟨same, inside, fun op => ?_, fun c' run => position_le_of_runs reached run,
    fun s r' => Iff.rfl⟩
  rw [← same] at inside
  have bounds := staysInBounds op inside
  obtain ⟨r', ran, -⟩ := bounds.step input
  exact ⟨bounds, _, by rw [Machine.next, ran]; rfl⟩

/-- A string that claims more octets than there are, and a byte behind the failure. -/
theorem staysInBounds_of_reachable_hostile :
    ∃ c, (reader .littleEndian [1, 255, 255, 255, 255, 255, 255, 255, 7]).Reachable
        Machine.anyStep c ∧ c.trace = [1, 8, 9, 9] ∧
      ∀ op, StaysInBounds .littleEndian op c.state := by
  obtain ⟨c, reached, seen⟩ := (reader .littleEndian
    [1, 255, 255, 255, 255, 255, 255, 255, 7]).exists_of_schedule Machine.anyStep
    [.readBool, .readString, .readU8, .readU64] (fun c => c.trace) [1, 8, 9, 9] (by decide +kernel)
  exact ⟨c, reached, seen, fun op => ((staysInBounds_of_reachable reached).2.2.1 op).1⟩

end Runs

end CdrReader

end RosZ.Cdr
