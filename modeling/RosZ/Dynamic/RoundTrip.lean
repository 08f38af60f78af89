import RosZ.Cdr.RoundTrip
import RosZ.Dynamic.Serialization

/-!
# The dynamic round trip and the static encoder

The dynamic encoder writes what the serde serializer writes for the generated
struct.  `staticValue` is that struct's serde value, so the encoding of a dynamic
value is not stated again: it is the `layout` of its static value.

* `emits_serializeValue` — the dynamic encoder emits that layout;
* `reads_deserializeValue` — the dynamic decoder reads it, up to the `bytes` form
  of octet sequences;
* `Generated` — every serde value a generated struct may present for a dynamic
  value, octet sequences being either a sequence of `u8` or a `ZBuf`.

The only place where the representations differ is an octet sequence, and
`layout_seq_u8` says that the two forms occupy the same octets.
-/

namespace RosZ.Dynamic

open RosZ.Cdr Wire

/-! ## The static value -/

mutual

/-- The serde value of the generated type for a dynamic value. -/
def staticValue : FieldType → DynamicValue → SerdeValue
  | .bool, .bool v => .bool v
  | .int8, .int8 v => .i8 v
  | .int16, .int16 v => .i16 v
  | .int32, .int32 v => .i32 v
  | .int64, .int64 v => .i64 v
  | .uint8, .uint8 v => .u8 v
  | .uint16, .uint16 v => .u16 v
  | .uint32, .uint32 v => .u32 v
  | .uint64, .uint64 v => .u64 v
  | .float32, .float32 bits => .f32 bits
  | .float64, .float64 bits => .f64 bits
  | .string, .string v => .str v
  | .boundedString _, .string v => .str v
  | .array inner _, .array vs => .tuple (staticAll inner vs)
  | .sequence _, .bytes v => .bytes v
  | .sequence inner, .array vs => .seq (staticAll inner vs)
  | .boundedSequence inner _, .array vs => .seq (staticAll inner vs)
  | .message schema, .message m => .struct (staticMessage schema m)
  | _, _ => .unit
termination_by structural _ v => v

def staticAll : FieldType → List DynamicValue → List SerdeValue
  | _, [] => []
  | inner, v :: rest => staticValue inner v :: staticAll inner rest
termination_by structural _ vs => vs

def staticFields : List FieldSchema → List DynamicValue → List SerdeValue
  | field :: fields, v :: rest => staticValue field.fieldType v :: staticFields fields rest
  | _, _ => []
termination_by structural _ vs => vs

/-- The fields of the generated struct. -/
def staticMessage : MessageSchema → DynamicMessage → List SerdeValue
  | schema, ⟨_, values⟩ => staticFields schema.fields values
termination_by structural _ m => m

end

@[simp] theorem length_staticAll (inner : FieldType) (vs : List DynamicValue) :
    (staticAll inner vs).length = vs.length := by
  induction vs with
  | nil => simp [staticAll]
  | cons v rest ih => simp [staticAll, ih]

/-! ## Octet sequences -/

/-- A sequence of `u8` and a byte buffer occupy the same octets. -/
theorem layout_seq_u8 (order : ByteOrder) (octets : List UInt8) :
    (SerdeValue.seq (octets.map .u8)).layout order = (SerdeValue.bytes octets).layout order := by
  have elements : elementsLayout order (octets.map .u8) = Layout.raw octets := by
    induction octets with
    | nil => rfl
    | cons octet rest ih =>
        rw [List.map_cons, elementsLayout, SerdeValue.layout, ih, ← Layout.raw_append,
          List.singleton_append]
  rw [SerdeValue.layout, SerdeValue.layout, elements, List.length_map, bytesLayout]

theorem staticAll_uint8 {vs : List DynamicValue} (fits : AllRepresentable .uint8 vs) :
    staticAll .uint8 vs = (vs.map DynamicValue.octet).map .u8 := by
  induction vs with
  | nil => simp [staticAll]
  | cons v rest ih =>
      rw [AllRepresentable] at fits
      obtain ⟨head, tail⟩ := fits
      cases v with
      | uint8 octet => rw [staticAll, staticValue, ih tail]; rfl
      | _ => simp [Representable] at head

/-! ## The encoder emits the static layout -/

section Emission

open CdrWriter

/-- A count in front of a body. -/
theorem emits_counted (count : ℕ)
    {write : Writer → Except DynamicError Writer} {layout : Layout UInt8}
    (body : Emits (sink .littleEndian (List UInt8)) write layout) :
    Emits (sink .littleEndian (List UInt8)) (fun w => write (w.writeSequenceLength count))
      (wordLayout .littleEndian 4 count * layout) :=
  (appends_writeSequenceLength count).emits.bind body

mutual

/-- **The dynamic encoder succeeds on every representable value**, and appends what
the static value of its type occupies. -/
theorem emits_serializeValue : ∀ (v : DynamicValue) (ft : FieldType), Representable ft v →
    Emits (sink .littleEndian (List UInt8)) (serializeValue v ft)
      ((staticValue ft v).layout .littleEndian)
  | .bool _, .bool, _ => (appends_push _).emits
  | .int8 _, .int8, _ => (appends_push _).emits
  | .int16 _, .int16, _ => (appends_writeWord (by decide) _).emits
  | .int32 _, .int32, _ => (appends_writeWord (by decide) _).emits
  | .int64 _, .int64, _ => (appends_writeWord (by decide) _).emits
  | .uint8 _, .uint8, _ => (appends_push _).emits
  | .uint16 _, .uint16, _ => (appends_writeWord (by decide) _).emits
  | .uint32 _, .uint32, _ => (appends_writeWord (by decide) _).emits
  | .uint64 _, .uint64, _ => (appends_writeWord (by decide) _).emits
  | .float32 _, .float32, _ => (appends_writeWord (by decide) _).emits
  | .float64 _, .float64, _ => (appends_writeWord (by decide) _).emits
  | .string v, .string, _ => (appends_writeString v).emits
  | .string v, .boundedString _, _ => (appends_writeString v).emits
  | .bytes v, .sequence _, fits => by
      obtain ⟨rfl, -⟩ := fits
      exact (appends_writeBytes v).emits
  | .array vs, .array inner _, fits => emits_serializeAll vs inner fits.2
  | .array vs, .sequence inner, fits => by
      rw [staticValue, SerdeValue.layout, length_staticAll]
      exact emits_counted vs.length (emits_serializeAll vs inner fits.2)
  | .array vs, .boundedSequence inner _, fits => by
      rw [staticValue, SerdeValue.layout, length_staticAll]
      exact emits_counted vs.length (emits_serializeAll vs inner fits.2)
  | .message m, .message schema, fits => by
      obtain ⟨rfl, fields⟩ := fits
      exact emits_serializeMessage m fields
termination_by structural v => v

theorem emits_serializeAll : ∀ (vs : List DynamicValue) (inner : FieldType),
    AllRepresentable inner vs →
    Emits (sink .littleEndian (List UInt8)) (serializeAll vs inner)
      (elementsLayout .littleEndian (staticAll inner vs))
  | [], _, _ => Emits.nothing
  | v :: rest, inner, fits => by
      rw [AllRepresentable] at fits
      exact (emits_serializeValue v inner fits.1).bind
        (emits_serializeAll rest inner fits.2)
termination_by structural vs => vs

theorem emits_serializeFields : ∀ (vs : List DynamicValue) (fields : List FieldSchema),
    FieldsRepresentable fields vs →
    Emits (sink .littleEndian (List UInt8)) (serializeFields vs fields)
      (elementsLayout .littleEndian (staticFields fields vs))
  | [], [], _ => Emits.nothing
  | v :: rest, field :: fields, fits => by
      rw [FieldsRepresentable] at fits
      exact (emits_serializeValue v field.fieldType fits.1).bind
        (emits_serializeFields rest fields fits.2)
termination_by structural vs => vs

theorem emits_serializeMessage : ∀ m : DynamicMessage, MessageRepresentable m.schema m →
    Emits (sink .littleEndian (List UInt8)) (serializeMessage m)
      (elementsLayout .littleEndian (staticMessage m.schema m))
  | ⟨schema, values⟩, fits => emits_serializeFields values schema.fields fits
termination_by structural m => m

end

end Emission

/-! ## The decoder reads the static layout -/

section Reading

open CdrReader

theorem reads_mapCdrErr {α : Type} {read : ReadM .littleEndian α} {layout : Layout UInt8}
    {value : α} (reads : Reads read layout value) : Reads (mapCdrErr read) layout value :=
  reads.adaptExcept _

theorem deserializeValue_sequence {inner : FieldType} (octets : inner ≠ .uint8) :
    deserializeValue (.sequence inner) = do
      let len ← mapCdrErr readSequenceLength
      return .array (← readMany (deserializeValue inner) len) := by
  cases inner <;> first | rfl | exact absurd rfl octets

/-- A bounded sequence is read as an unbounded one. -/
theorem deserializeValue_bounded (inner : FieldType) (max : ℕ) :
    deserializeValue (.boundedSequence inner max) = deserializeValue (.sequence inner) := by
  cases inner <;> rfl

theorem canonical_sequence {inner : FieldType} {vs : List DynamicValue}
    (octets : inner ≠ .uint8) :
    (DynamicValue.array vs).canonical (.sequence inner) = .array (canonicalAll inner vs) := by
  cases inner <;> first | rfl | exact absurd rfl octets

theorem canonical_bounded (v : DynamicValue) (inner : FieldType) (max : ℕ) :
    v.canonical (.boundedSequence inner max) = v.canonical (.sequence inner) := by
  cases v <;> cases inner <;> rfl

/-- An octet sequence is read in bulk, whichever form it was given in. -/
theorem reads_octets {vs : List DynamicValue} (short : vs.length < 2 ^ 32)
    (fits : AllRepresentable .uint8 vs) :
    Reads (mapCdrErr readByteSequence)
      ((SerdeValue.seq (staticAll .uint8 vs)).layout .littleEndian)
      (vs.map DynamicValue.octet) := by
  have count : (vs.map DynamicValue.octet).length < 2 ^ 32 := by
    rw [List.length_map]
    exact short
  rw [staticAll_uint8 fits, layout_seq_u8]
  exact reads_mapCdrErr (reads_readByteSequence count)

/-- A counted loop behind its length prefix. -/
theorem reads_counted {vs : List DynamicValue} {inner : FieldType}
    {values : List DynamicValue} (within : vs.length ≤ maxSequenceLength)
    (body : Reads (readMany (deserializeValue inner) vs.length)
      (elementsLayout .littleEndian (staticAll inner vs)) values) :
    Reads (do let len ← mapCdrErr readSequenceLength
              return DynamicValue.array (← readMany (deserializeValue inner) len))
      ((SerdeValue.seq (staticAll inner vs)).layout .littleEndian) (.array values) := by
  rw [SerdeValue.layout, length_staticAll]
  exact (reads_mapCdrErr (reads_readSequenceLength within)).bind (body.bind_pure (Reads.pure _))

/-- A sequence is read once its elements are. -/
theorem reads_sequence {vs : List DynamicValue} {inner : FieldType}
    (fits : Countable inner vs.length ∧ AllRepresentable inner vs)
    (body : Reads (readMany (deserializeValue inner) vs.length)
      (elementsLayout .littleEndian (staticAll inner vs)) (canonicalAll inner vs)) :
    Reads (deserializeValue (.sequence inner))
      ((SerdeValue.seq (staticAll inner vs)).layout .littleEndian)
      ((DynamicValue.array vs).canonical (.sequence inner)) := by
  obtain ⟨count, elements⟩ := fits
  by_cases octets : inner = .uint8
  · subst octets
    exact (reads_octets count elements).bind_pure (Reads.pure _)
  · rw [deserializeValue_sequence octets, canonical_sequence octets]
    exact reads_counted (count.within octets) body

mutual

/-- **The dynamic decoder reads back every representable value**, octet sequences in
their `bytes` form. -/
theorem reads_deserializeValue : ∀ (v : DynamicValue) (ft : FieldType), Representable ft v →
    Reads (deserializeValue ft) ((staticValue ft v).layout .littleEndian) (v.canonical ft)
  | .bool v, .bool, _ => (reads_mapCdrErr (reads_readBool v)).bind_pure (Reads.pure _)
  | .int8 v, .int8, _ => (reads_mapCdrErr (reads_readI8 v)).bind_pure (Reads.pure _)
  | .int16 v, .int16, _ => (reads_mapCdrErr (reads_readI16 v)).bind_pure (Reads.pure _)
  | .int32 v, .int32, _ => (reads_mapCdrErr (reads_readI32 v)).bind_pure (Reads.pure _)
  | .int64 v, .int64, _ => (reads_mapCdrErr (reads_readI64 v)).bind_pure (Reads.pure _)
  | .uint8 v, .uint8, _ => (reads_mapCdrErr (reads_readByte v)).bind_pure (Reads.pure _)
  | .uint16 v, .uint16, _ => (reads_mapCdrErr (reads_readU16 v)).bind_pure (Reads.pure _)
  | .uint32 v, .uint32, _ => (reads_mapCdrErr (reads_readU32 v)).bind_pure (Reads.pure _)
  | .uint64 v, .uint64, _ => (reads_mapCdrErr (reads_readU64 v)).bind_pure (Reads.pure _)
  | .float32 bits, .float32, _ => (reads_mapCdrErr (reads_readU32 bits)).bind_pure (Reads.pure _)
  | .float64 bits, .float64, _ => (reads_mapCdrErr (reads_readU64 bits)).bind_pure (Reads.pure _)
  | .string _, .string, fits =>
      (reads_mapCdrErr (reads_readString fits)).bind_pure (Reads.pure _)
  | .string _, .boundedString _, fits =>
      (reads_mapCdrErr (reads_readString fits)).bind_pure (Reads.pure _)
  | .bytes _, .sequence _, fits => by
      obtain ⟨rfl, short⟩ := fits
      exact (reads_mapCdrErr (reads_readByteSequence short)).bind_pure (Reads.pure _)
  | .array vs, .array inner len, fits => by
      obtain ⟨rfl, elements⟩ := fits
      exact (reads_all vs inner elements).bind_pure (Reads.pure _)
  | .array vs, .sequence inner, fits => reads_sequence fits (reads_all vs inner fits.2)
  | .array vs, .boundedSequence inner max, fits => by
      rw [deserializeValue_bounded, canonical_bounded]
      exact reads_sequence fits (reads_all vs inner fits.2)
  | .message m, .message schema, fits => by
      obtain ⟨rfl, fields⟩ := fits
      exact (reads_deserializeMessage m fields).bind_pure (Reads.pure _)
termination_by structural v => v

theorem reads_all : ∀ (vs : List DynamicValue) (inner : FieldType), AllRepresentable inner vs →
    Reads (readMany (deserializeValue inner) vs.length)
      (elementsLayout .littleEndian (staticAll inner vs)) (canonicalAll inner vs)
  | [], _, _ => Reads.pure _
  | v :: rest, inner, fits => by
      rw [AllRepresentable] at fits
      exact (reads_deserializeValue v inner fits.1).readMany_succ
        (reads_all rest inner fits.2)
termination_by structural vs => vs

theorem reads_deserializeFields : ∀ (vs : List DynamicValue) (fields : List FieldSchema),
    FieldsRepresentable fields vs →
    Reads (deserializeFields fields)
      (elementsLayout .littleEndian (staticFields fields vs)) (canonicalFields fields vs)
  | [], [], _ => Reads.pure _
  | v :: rest, ⟨_, fieldType, _⟩ :: fields, fits => by
      rw [FieldsRepresentable] at fits
      exact (reads_deserializeValue v fieldType fits.1).bind
        ((reads_deserializeFields rest fields fits.2).bind_pure (Reads.pure _))
termination_by structural vs => vs

theorem reads_deserializeMessage : ∀ m : DynamicMessage, MessageRepresentable m.schema m →
    Reads (deserializeMessage m.schema)
      (elementsLayout .littleEndian (staticMessage m.schema m)) (canonicalMessage m.schema m)
  | ⟨⟨_, _, _, fields, _⟩, values⟩, fits =>
      (reads_deserializeFields values fields fits).bind_pure (Reads.pure _)
termination_by structural m => m

end

end Reading

/-! ## The round trip -/

/-- The payload of a representable message is what its static struct occupies at
offset `0`, behind the encapsulation header. -/
theorem serializeCdr_eq {msg : DynamicMessage} (fits : MessageRepresentable msg.schema msg) :
    serializeCdr msg = .ok (cdrHeaderLe ++
      (elementsLayout .littleEndian (staticMessage msg.schema msg)).place 0) := by
  obtain ⟨w, done, grown, -⟩ := emits_serializeMessage msg fits
    (CdrWriter.new cdrHeaderLe) (CdrWriter.valid_new cdrHeaderLe)
  rw [CdrWriter.position_new] at grown
  have buffer : w.buffer = cdrHeaderLe ++
      (elementsLayout .littleEndian (staticMessage msg.schema msg)).place 0 := grown
  simp only [serializeCdr, done]
  exact congrArg Except.ok buffer

/-- A payload is accepted when its header is and the message decoder reads what follows. -/
theorem deserializeCdr_eq_ok_iff {data : List UInt8} {schema : MessageSchema}
    {msg : DynamicMessage} :
    deserializeCdr data schema = .ok msg ↔
      4 ≤ data.length ∧ data.take 2 = [0x00, 0x01] ∧
        ∃ r, (deserializeMessage schema).run (CdrReader.new (data.drop 4)) = .ok msg r := by
  unfold deserializeCdr
  by_cases long : data.length < 4
  · simp only [if_pos long, reduceCtorEq, false_iff, not_and]
    omega
  · by_cases header : data.take 2 ≠ [0x00, 0x01]
    · simp only [if_neg long, if_pos header, reduceCtorEq, header, false_and, and_false]
    · rw [if_neg long, if_neg header]
      cases (deserializeMessage schema).run (CdrReader.new (data.drop 4)) with
      | ok decoded r => simp [Nat.not_lt.mp long, not_not.mp header]
      | error e r => simp

/-- The encoding of a representable message decodes. -/
theorem decodes_serializeCdr {msg : DynamicMessage}
    (fits : MessageRepresentable msg.schema msg) :
    ∃ data, serializeCdr msg = .ok data ∧
      deserializeCdr data msg.schema = .ok msg.canonical := by
  refine ⟨_, serializeCdr_eq fits, ?_⟩
  have reads := reads_deserializeMessage msg fits [] []
  rw [List.nil_append, List.append_nil, List.length_nil] at reads
  simp [deserializeCdr, cdrHeaderLe, CdrReader.new, reads, DynamicMessage.canonical]

/-- **Dynamic CDR round trip.**  Every conforming message is encoded, and the
encoding decodes under the same schema to the same values, octet sequences in
their `bytes` form. -/
theorem deserializeCdr_serializeCdr (msg : DynamicMessage) (conforms : msg.Conforming) :
    ∃ data, serializeCdr msg = .ok data ∧
      deserializeCdr data msg.schema = .ok msg.canonical :=
  decodes_serializeCdr conforms.representable

/-- A nested schema whose fields keep the alignment changing. -/
def stampSchema : MessageSchema where
  typeName := "demo_msgs/msg/Stamp"
  package := "demo_msgs"
  name := "Stamp"
  fields := [⟨"valid", .bool, none⟩, ⟨"nanosec", .uint64, none⟩]

/-- A message with a string, both kinds of octet sequence and an array of nested
messages. -/
def scan : DynamicMessage where
  schema :=
    { typeName := "demo_msgs/msg/Scan"
      package := "demo_msgs"
      name := "Scan"
      fields := [⟨"frame_id", .string, none⟩, ⟨"raw", .sequence .uint8, none⟩,
        ⟨"mask", .boundedSequence .uint8 4, none⟩,
        ⟨"stamps", .array (.message stampSchema) 2, none⟩,
        ⟨"ranges", .sequence .float32, none⟩] }
  values := [.string "map", .bytes [1, 2, 3], .array [.uint8 4, .uint8 5],
    .array [.message ⟨stampSchema, [.bool true, .uint64 6]⟩,
      .message ⟨stampSchema, [.bool false, .uint64 7]⟩],
    .array [.float32 8]]

theorem scan_conforming : scan.Conforming := by
  have short : (utf8Bytes "map").length < 4294967295 := by decide +kernel
  simp [DynamicMessage.Conforming, scan, stampSchema, MessageConforms, FieldsConform, Conforms,
    AllConform, CdrReader.maxSequenceLength, short]

theorem deserializeCdr_serializeCdr_scan :
    ∃ data, serializeCdr scan = .ok data ∧ deserializeCdr data scan.schema = .ok scan.canonical :=
  deserializeCdr_serializeCdr scan scan_conforming

end RosZ.Dynamic
