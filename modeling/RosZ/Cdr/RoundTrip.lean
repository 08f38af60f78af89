import RosZ.Cdr.Serde

/-!
# The serde round trip

`SerdeValue.layout` is the CDR encoding of a value stated once, without a writer
and without a reader.  The serializer emits it (`emits_serialize`), for every
lawful buffer, and the deserializer of the value's type reads it back
(`reads_deserialize`).

Both proofs are one structural induction over the value, and each case is a rule
of `RosZ.Lib.Layout` applied to the primitive's lemma: alignment never reappears.

## Limits

`SerdeValue.withinLimits` collects what the format can carry: 32-bit length
prefixes, a limit on element counts, and no 128-bit integers, which the
deserializer does not know.  Writing needs no limit on the counts, whatever becomes
of their prefix; reading needs the sanity limit of `read_sequence_length`.
-/

namespace RosZ.Cdr

open Wire

/-! ## Types and limits -/

mutual

/-- `v` is a value of type `t`. -/
def hasType : SerdeType → SerdeValue → Bool
  | .bool, .bool _ => true
  | .i8, .i8 _ => true
  | .i16, .i16 _ => true
  | .i32, .i32 _ => true
  | .i64, .i64 _ => true
  | .i128, .i128 _ => true
  | .u8, .u8 _ => true
  | .u16, .u16 _ => true
  | .u32, .u32 _ => true
  | .u64, .u64 _ => true
  | .u128, .u128 _ => true
  | .f32, .f32 _ => true
  | .f64, .f64 _ => true
  | .char, .char _ => true
  | .str, .str _ => true
  | .bytes, .bytes _ => true
  | .option _, .none => true
  | .option inner, .some v => hasType inner v
  | .unit, .unit => true
  | .unitStruct, .unitStruct => true
  | .newtypeStruct inner, .newtypeStruct v => hasType inner v
  | .seq element, .seq elements => allHaveType element elements
  | .map key value, .map entries => entriesHaveType key value entries
  | .tuple ts, .tuple elements => haveTypes ts elements
  | .tupleStruct ts, .tupleStruct fields => haveTypes ts fields
  | .struct ts, .struct fields => haveTypes ts fields
  | .enum variants, .unitVariant index =>
      match variants[index.toNat]? with
      | some .unit => true
      | _ => false
  | .enum variants, .newtypeVariant index v =>
      match variants[index.toNat]? with
      | some (.newtype inner) => hasType inner v
      | _ => false
  | .enum variants, .tupleVariant index fields =>
      match variants[index.toNat]? with
      | some (.tuple ts) => haveTypes ts fields
      | _ => false
  | .enum variants, .structVariant index fields =>
      match variants[index.toNat]? with
      | some (.struct ts) => haveTypes ts fields
      | _ => false
  | _, _ => false
termination_by structural _ v => v

/-- Every element has the one type of a sequence. -/
def allHaveType : SerdeType → List SerdeValue → Bool
  | _, [] => true
  | t, v :: rest => hasType t v && allHaveType t rest
termination_by structural _ vs => vs

/-- Every key and every value has its type. -/
def entriesHaveType : SerdeType → SerdeType → List (SerdeValue × SerdeValue) → Bool
  | _, _, [] => true
  | key, value, (k, v) :: rest =>
      hasType key k && hasType value v && entriesHaveType key value rest
termination_by structural _ _ entries => entries

/-- The components have the listed types, one each. -/
def haveTypes : List SerdeType → List SerdeValue → Bool
  | [], [] => true
  | t :: ts, v :: vs => hasType t v && haveTypes ts vs
  | _, _ => false
termination_by structural _ vs => vs

end

mutual

/-- The value is one the format can carry, with at most `limit` entries in each
sequence and map. -/
def SerdeValue.withinLimits (limit : ℕ) : SerdeValue → Bool
  | .i128 _ => false
  | .u128 _ => false
  | .str v => (utf8Bytes v).length < 2 ^ 32 - 1
  | .bytes v => v.length < 2 ^ 32
  | .some v => v.withinLimits limit
  | .newtypeStruct v => v.withinLimits limit
  | .seq elements => elements.length ≤ limit && allWithinLimits limit elements
  | .map entries => entries.length ≤ limit && entriesWithinLimits limit entries
  | .tuple elements => allWithinLimits limit elements
  | .tupleStruct fields => allWithinLimits limit fields
  | .struct fields => allWithinLimits limit fields
  | .newtypeVariant _ v => v.withinLimits limit
  | .tupleVariant _ fields => allWithinLimits limit fields
  | .structVariant _ fields => allWithinLimits limit fields
  | _ => true

def allWithinLimits (limit : ℕ) : List SerdeValue → Bool
  | [] => true
  | v :: rest => v.withinLimits limit && allWithinLimits limit rest

def entriesWithinLimits (limit : ℕ) : List (SerdeValue × SerdeValue) → Bool
  | [] => true
  | (k, v) :: rest =>
      k.withinLimits limit && v.withinLimits limit && entriesWithinLimits limit rest

end

/-! ## The encoding -/

mutual

/-- The CDR encoding of a value, as a function of the offset at which it starts. -/
def SerdeValue.layout (order : ByteOrder) : SerdeValue → Layout UInt8
  | .bool v => Layout.raw [if v then 1 else 0]
  | .i8 v => Layout.raw [v.toUInt8]
  | .i16 v => wordLayout order 2 v.toUInt16.toNat
  | .i32 v => wordLayout order 4 v.toUInt32.toNat
  | .i64 v => wordLayout order 8 v.toUInt64.toNat
  | .u8 v => Layout.raw [v]
  | .u16 v => wordLayout order 2 v.toNat
  | .u32 v => wordLayout order 4 v.toNat
  | .u64 v => wordLayout order 8 v.toNat
  | .i128 v => wordLayout order 16 v.toNat
  | .u128 v => wordLayout order 16 v.toNat
  | .f32 bits => wordLayout order 4 bits.toNat
  | .f64 bits => wordLayout order 8 bits.toNat
  | .char v => wordLayout order 4 v.val.toNat
  | .str v => stringLayout order v
  | .bytes v => bytesLayout order v
  | .none => wordLayout order 4 0
  | .some v => wordLayout order 4 1 * v.layout order
  | .unit => 1
  | .unitStruct => 1
  | .newtypeStruct v => v.layout order
  | .seq elements => wordLayout order 4 elements.length * elementsLayout order elements
  | .map entries => wordLayout order 4 entries.length * entriesLayout order entries
  | .tuple elements => elementsLayout order elements
  | .tupleStruct fields => elementsLayout order fields
  | .struct fields => elementsLayout order fields
  | .unitVariant index => wordLayout order 4 index.toNat
  | .newtypeVariant index v => wordLayout order 4 index.toNat * v.layout order
  | .tupleVariant index fields =>
      wordLayout order 4 index.toNat * elementsLayout order fields
  | .structVariant index fields =>
      wordLayout order 4 index.toNat * elementsLayout order fields

/-- Components one after the other. -/
def elementsLayout (order : ByteOrder) : List SerdeValue → Layout UInt8
  | [] => 1
  | v :: rest => v.layout order * elementsLayout order rest

/-- Keys and values in turn. -/
def entriesLayout (order : ByteOrder) : List (SerdeValue × SerdeValue) → Layout UInt8
  | [] => 1
  | (k, v) :: rest => k.layout order * v.layout order * entriesLayout order rest

end

/-! ## The serializer emits the encoding -/

section Emission

open CdrSerializer CdrWriter

variable {order : ByteOrder} {B : Type} [CdrBuffer B] [LawfulCdrBuffer B] {limit : ℕ}

theorem emits_serializeU32 (v : UInt32) :
    Emits (sink order B) (serializeU32 v) (wordLayout order 4 v.toNat) :=
  (appends_writeU32 v).emits

theorem emits_serializeSeq (count : ℕ) :
    Emits (sink order B) (serializeSeq (some count)) (wordLayout order 4 count) :=
  (appends_writeSequenceLength count).emits

theorem emits_serializeMap (count : ℕ) :
    Emits (sink order B) (serializeMap (some count)) (wordLayout order 4 count) :=
  (appends_writeSequenceLength count).emits

mutual

/-- **The serializer succeeds on every value within the limits**, and appends
exactly its encoding. -/
theorem emits_serialize : ∀ v : SerdeValue,
    v.withinLimits limit = true → Emits (sink order B) (serialize v) (v.layout order)
  | .bool _, _ => (appends_push _).emits
  | .i8 _, _ => (appends_push _).emits
  | .i16 _, _ => (appends_writeWord (by decide) _).emits
  | .i32 _, _ => (appends_writeWord (by decide) _).emits
  | .i64 _, _ => (appends_writeWord (by decide) _).emits
  | .i128 _, limits => by cases limits
  | .u8 _, _ => (appends_push _).emits
  | .u16 _, _ => (appends_writeWord (by decide) _).emits
  | .u32 _, _ => (appends_writeWord (by decide) _).emits
  | .u64 _, _ => (appends_writeWord (by decide) _).emits
  | .u128 _, limits => by cases limits
  | .f32 _, _ => (appends_writeWord (by decide) _).emits
  | .f64 _, _ => (appends_writeWord (by decide) _).emits
  | .char _, _ => emits_serializeU32 _
  | .str v, _ => (appends_writeString v).emits
  | .bytes v, _ => (appends_writeBytes v).emits
  | .none, _ => emits_serializeU32 0
  | .some v, limits => (emits_serializeU32 1).bind (emits_serialize v limits)
  | .unit, _ => Emits.nothing
  | .unitStruct, _ => Emits.nothing
  | .newtypeStruct v, limits => emits_serialize v limits
  | .seq elements, limits => by
      rw [SerdeValue.withinLimits, Bool.and_eq_true, decide_eq_true_eq] at limits
      exact (emits_serializeSeq elements.length).bind
        (emits_serializeElements elements limits.2)
  | .map entries, limits => by
      rw [SerdeValue.withinLimits, Bool.and_eq_true, decide_eq_true_eq] at limits
      exact (emits_serializeMap entries.length).bind
        (emits_serializeEntries entries limits.2)
  | .tuple elements, limits => emits_serializeElements elements limits
  | .tupleStruct fields, limits => emits_serializeElements fields limits
  | .struct fields, limits => emits_serializeElements fields limits
  | .unitVariant _, _ => emits_serializeU32 _
  | .newtypeVariant _ v, limits => (emits_serializeU32 _).bind (emits_serialize v limits)
  | .tupleVariant _ fields, limits =>
      (emits_serializeU32 _).bind (emits_serializeElements fields limits)
  | .structVariant _ fields, limits =>
      (emits_serializeU32 _).bind (emits_serializeElements fields limits)
termination_by structural v => v

theorem emits_serializeElements : ∀ vs : List SerdeValue,
    allWithinLimits limit vs = true →
    Emits (sink order B) (serializeElements vs) (elementsLayout order vs)
  | [], _ => Emits.nothing
  | v :: rest, limits => by
      rw [allWithinLimits, Bool.and_eq_true] at limits
      exact (emits_serialize v limits.1).bind (emits_serializeElements rest limits.2)
termination_by structural vs => vs

theorem emits_serializeEntries : ∀ entries : List (SerdeValue × SerdeValue),
    entriesWithinLimits limit entries = true →
    Emits (sink order B) (serializeEntries entries) (entriesLayout order entries)
  | [], _ => Emits.nothing
  | (k, v) :: rest, limits => by
      rw [entriesWithinLimits, Bool.and_eq_true, Bool.and_eq_true] at limits
      exact ((emits_serialize k limits.1.1).bind (emits_serialize v limits.1.2)).bind
        (emits_serializeEntries rest limits.2)
termination_by structural entries => entries

end

/-- A fresh writer starts at position `0`, so what it adds is the encoding there. -/
theorem serialize_new {v : SerdeValue}
    (limits : v.withinLimits limit = true) (buffer : B) :
    ∃ w : CdrWriter order B, serialize v (new buffer) = .ok w ∧
      LawfulCdrBuffer.bytes w.buffer =
        LawfulCdrBuffer.bytes buffer ++ (v.layout order).place 0 := by
  obtain ⟨w, done, grown, -⟩ := emits_serialize v limits (new buffer) (valid_new buffer)
  rw [position_new] at grown
  exact ⟨w, done, grown⟩

end Emission

theorem toVec_eq (order : ByteOrder) {limit : ℕ} {v : SerdeValue}
    (limits : v.withinLimits limit = true) :
    toVec order v = .ok ((v.layout order).place 0) := by
  obtain ⟨w, done, grown⟩ := @serialize_new order _ _ _ _ _ limits ([] : List UInt8)
  have buffer : w.buffer = (v.layout order).place 0 := grown
  simp only [toVec, done]
  exact congrArg Except.ok buffer

/-! ## The deserializer reads the encoding -/

section Reading

open CdrReader CdrDeserializer

variable {order : ByteOrder}

theorem reads_deserializeChar (c : Char) :
    Reads (deserializeChar : ReadM order Char) (wordLayout order 4 c.val.toNat) c := by
  refine (reads_readU32 c.val).bind_pure ?_
  have valid : charFromU32 c.val = some c := dif_pos c.valid
  simp only [valid]
  exact Reads.pure c

/-- Aligning before the tag is aligning for the tag. -/
theorem reads_enumTag (tag : UInt32) :
    Reads (enumTag : ReadM order UInt32) (wordLayout order 4 tag.toNat) tag := by
  have reads : Reads (enumTag : ReadM order UInt32)
      (Layout.align 0 4 * wordLayout order 4 tag.toNat) tag :=
    reads_align.bind (reads_readU32 tag)
  rwa [wordLayout, ← mul_assoc, Layout.align_mul_align 0 (by decide)] at reads

/-- The variant that is found is the one the tag indexes. -/
theorem deserializeVariant_eq (tag : UInt32) (count : ℕ) :
    ∀ (variants : List VariantType) (index : ℕ) {variant : VariantType},
      variants[index]? = some variant →
      (deserializeVariant tag count variants index : ReadM order SerdeValue) =
        deserializeContent tag variant
  | [], _, _, found => by simp at found
  | _ :: _, 0, _, found => by
      rw [List.getElem?_cons_zero, Option.some.injEq] at found
      rw [← found, deserializeVariant]
  | _ :: rest, index + 1, _, found => by
      rw [List.getElem?_cons_succ] at found
      rw [deserializeVariant]
      exact deserializeVariant_eq tag count rest index found

/-- Reading an enum is reading its tag and then the content of that variant. -/
theorem reads_enum {variants : List VariantType} {tag : UInt32} {variant : VariantType}
    {content : Layout UInt8} {v : SerdeValue} (found : variants[tag.toNat]? = some variant)
    (reads : Reads (deserializeContent tag variant : ReadM order SerdeValue) content v) :
    Reads (deserialize (.enum variants) : ReadM order SerdeValue)
      (wordLayout order 4 tag.toNat * content) v := by
  rw [deserialize]
  refine (reads_enumTag tag).bind ?_
  rwa [deserializeVariant_eq tag _ variants _ found]

/-! ### The variant of a value of an enum -/

section Variants

variable {variants : List VariantType} {index : UInt32}

theorem unit_of_hasType (typed : hasType (.enum variants) (.unitVariant index) = true) :
    variants[index.toNat]? = some .unit := by
  rw [hasType] at typed
  split at typed
  · assumption
  · cases typed

theorem newtype_of_hasType {v : SerdeValue}
    (typed : hasType (.enum variants) (.newtypeVariant index v) = true) :
    ∃ inner, variants[index.toNat]? = some (.newtype inner) ∧ hasType inner v = true := by
  rw [hasType] at typed
  split at typed
  · next inner found => exact ⟨inner, found, typed⟩
  · cases typed

theorem tuple_of_hasType {fields : List SerdeValue}
    (typed : hasType (.enum variants) (.tupleVariant index fields) = true) :
    ∃ ts, variants[index.toNat]? = some (.tuple ts) ∧ haveTypes ts fields = true := by
  rw [hasType] at typed
  split at typed
  · next ts found => exact ⟨ts, found, typed⟩
  · cases typed

theorem struct_of_hasType {fields : List SerdeValue}
    (typed : hasType (.enum variants) (.structVariant index fields) = true) :
    ∃ ts, variants[index.toNat]? = some (.struct ts) ∧ haveTypes ts fields = true := by
  rw [hasType] at typed
  split at typed
  · next ts found => exact ⟨ts, found, typed⟩
  · cases typed

end Variants

mutual

/-- **The deserializer of a type reads the encoding of each of its values.** -/
theorem reads_deserialize : ∀ (v : SerdeValue) (t : SerdeType), hasType t v = true →
    v.withinLimits maxSequenceLength = true →
    Reads (deserialize t : ReadM order SerdeValue) (v.layout order) v
  | .bool v, .bool, _, _ => (reads_readBool v).bind_pure (Reads.pure _)
  | .i8 v, .i8, _, _ => (reads_readI8 v).bind_pure (Reads.pure _)
  | .i16 v, .i16, _, _ => (reads_readI16 v).bind_pure (Reads.pure _)
  | .i32 v, .i32, _, _ => (reads_readI32 v).bind_pure (Reads.pure _)
  | .i64 v, .i64, _, _ => (reads_readI64 v).bind_pure (Reads.pure _)
  | .u8 v, .u8, _, _ => (reads_readByte v).bind_pure (Reads.pure _)
  | .u16 v, .u16, _, _ => (reads_readU16 v).bind_pure (Reads.pure _)
  | .u32 v, .u32, _, _ => (reads_readU32 v).bind_pure (Reads.pure _)
  | .u64 v, .u64, _, _ => (reads_readU64 v).bind_pure (Reads.pure _)
  | .f32 bits, .f32, _, _ => (reads_readU32 bits).bind_pure (Reads.pure _)
  | .f64 bits, .f64, _, _ => (reads_readU64 bits).bind_pure (Reads.pure _)
  | .char c, .char, _, _ => (reads_deserializeChar c).bind_pure (Reads.pure _)
  | .str _, .str, _, limits =>
      (reads_readStr (of_decide_eq_true limits)).bind_pure (Reads.pure _)
  | .bytes _, .bytes, _, limits =>
      (reads_readByteSequence (of_decide_eq_true limits)).bind_pure (Reads.pure _)
  | .none, .option _, _, _ => (reads_readU32 0).bind_pure (Reads.pure _)
  | .some v, .option inner, typed, limits =>
      (reads_readU32 1).bind ((reads_deserialize v inner typed limits).bind_pure (Reads.pure _))
  | .unit, .unit, _, _ => Reads.pure _
  | .unitStruct, .unitStruct, _, _ => Reads.pure _
  | .newtypeStruct v, .newtypeStruct inner, typed, limits =>
      (reads_deserialize v inner typed limits).bind_pure (Reads.pure _)
  | .seq elements, .seq element, typed, limits => by
      rw [SerdeValue.withinLimits, Bool.and_eq_true, decide_eq_true_eq] at limits
      exact (reads_readSequenceLength limits.1).bind
        ((reads_elements elements element typed limits.2).bind_pure (Reads.pure _))
  | .map entries, .map key value, typed, limits => by
      rw [SerdeValue.withinLimits, Bool.and_eq_true, decide_eq_true_eq] at limits
      exact (reads_readSequenceLength limits.1).bind
        ((reads_entries entries key value typed limits.2).bind_pure (Reads.pure _))
  | .tuple elements, .tuple ts, typed, limits =>
      (reads_deserializeFields elements ts typed limits).bind_pure (Reads.pure _)
  | .tupleStruct fields, .tupleStruct ts, typed, limits =>
      (reads_deserializeFields fields ts typed limits).bind_pure (Reads.pure _)
  | .struct fields, .struct ts, typed, limits =>
      (reads_deserializeFields fields ts typed limits).bind_pure (Reads.pure _)
  | .unitVariant index, .enum variants, typed, _ => by
      have found := unit_of_hasType typed
      have reads : Reads (deserialize (.enum variants) : ReadM order SerdeValue) _
          (.unitVariant index) := reads_enum found (Reads.pure _)
      rwa [mul_one] at reads
  | .newtypeVariant index v, .enum variants, typed, limits => by
      obtain ⟨inner, found, content⟩ := newtype_of_hasType typed
      exact reads_enum found ((reads_deserialize v inner content limits).bind_pure (Reads.pure _))
  | .tupleVariant index fields, .enum variants, typed, limits => by
      obtain ⟨ts, found, content⟩ := tuple_of_hasType typed
      exact reads_enum found
        ((reads_deserializeFields fields ts content limits).bind_pure (Reads.pure _))
  | .structVariant index fields, .enum variants, typed, limits => by
      obtain ⟨ts, found, content⟩ := struct_of_hasType typed
      exact reads_enum found
        ((reads_deserializeFields fields ts content limits).bind_pure (Reads.pure _))
termination_by structural v => v

/-- The elements of a sequence are read by one counted loop. -/
theorem reads_elements : ∀ (vs : List SerdeValue) (t : SerdeType), allHaveType t vs = true →
    allWithinLimits maxSequenceLength vs = true →
    Reads (readMany (deserialize t) vs.length : ReadM order (List SerdeValue))
      (elementsLayout order vs) vs
  | [], _, _, _ => Reads.pure _
  | v :: rest, t, typed, limits => by
      rw [allHaveType, Bool.and_eq_true] at typed
      rw [allWithinLimits, Bool.and_eq_true] at limits
      exact (reads_deserialize v t typed.1 limits.1).readMany_succ
        (reads_elements rest t typed.2 limits.2)
termination_by structural vs => vs

theorem reads_entries : ∀ (entries : List (SerdeValue × SerdeValue)) (key value : SerdeType),
    entriesHaveType key value entries = true →
    entriesWithinLimits maxSequenceLength entries = true →
    Reads (readMany (do return (← deserialize key, ← deserialize value)) entries.length :
        ReadM order (List (SerdeValue × SerdeValue)))
      (entriesLayout order entries) entries
  | [], _, _, _, _ => Reads.pure _
  | (k, v) :: rest, key, value, typed, limits => by
      rw [entriesHaveType, Bool.and_eq_true, Bool.and_eq_true] at typed
      rw [entriesWithinLimits, Bool.and_eq_true, Bool.and_eq_true] at limits
      have entry : Reads (do return (← deserialize key, ← deserialize value) :
          ReadM order (SerdeValue × SerdeValue)) (k.layout order * v.layout order) (k, v) :=
        (reads_deserialize k key typed.1.1 limits.1.1).bind
          ((reads_deserialize v value typed.1.2 limits.1.2).bind_pure (Reads.pure (k, v)))
      exact entry.readMany_succ (reads_entries rest key value typed.2 limits.2)
termination_by structural entries => entries

/-- The components of a fixed-length type are read one by one. -/
theorem reads_deserializeFields : ∀ (vs : List SerdeValue) (ts : List SerdeType),
    haveTypes ts vs = true → allWithinLimits maxSequenceLength vs = true →
    Reads (deserializeFields ts : ReadM order (List SerdeValue)) (elementsLayout order vs) vs
  | [], [], _, _ => Reads.pure _
  | v :: vs, t :: ts, typed, limits => by
      rw [haveTypes, Bool.and_eq_true] at typed
      rw [allWithinLimits, Bool.and_eq_true] at limits
      exact (reads_deserialize v t typed.1 limits.1).bind
        ((reads_deserializeFields vs ts typed.2 limits.2).bind_pure (Reads.pure _))
termination_by structural vs => vs

end

end Reading

/-! ## The round trip -/

/-- **Serde CDR round trip.**  In either byte order every value of every type is
decoded from its encoding, and the decoder consumes the encoding exactly. -/
theorem fromBytes_toVec (order : ByteOrder) (t : SerdeType) (v : SerdeValue)
    (typed : hasType t v = true) (limits : v.withinLimits CdrReader.maxSequenceLength = true) :
    ∃ encoded, toVec order v = .ok encoded ∧
      fromBytes order t encoded = .ok (v, encoded.length) := by
  refine ⟨_, toVec_eq order limits, ?_⟩
  have reads := @reads_deserialize order v t typed limits [] []
  rw [List.nil_append, List.append_nil, List.length_nil] at reads
  simp only [fromBytes, CdrReader.new, reads, Nat.zero_add]

theorem fromBytes_toVec_record :
    ∃ encoded, toVec .bigEndian (.struct [.u8 7, .str "ab", .seq [.some (.u32 9), .none],
        .map [(.u16 1, .bool true)], .structVariant 1 [.f64 0, .char 'x']]) = .ok encoded ∧
      fromBytes .bigEndian (.struct [.u8, .str, .seq (.option .u32), .map .u16 .bool,
        .enum [.unit, .struct [.f64, .char]]]) encoded =
          .ok (.struct [.u8 7, .str "ab", .seq [.some (.u32 9), .none],
            .map [(.u16 1, .bool true)], .structVariant 1 [.f64 0, .char 'x']],
            encoded.length) :=
  fromBytes_toVec .bigEndian _ _ (by decide +kernel) (by decide +kernel)

end RosZ.Cdr
