import RosZ.Dynamic.Messages
import RosZ.Dynamic.Reread

/-!
# Encodings that mean the message

The setters of a dynamic message accept any value, so the encoder is the only check.  What it
does check is `Encodable`: that each value it comes to is of the variant its field type calls
for.  It does not look at the length of a fixed array, at the number of values of a message,
at the bounds of strings and sequences, or at the schema a nested message carries.

`faithful_iff` says which messages are encoded as what they are: those that are either refused
or representable and within their bounds.
-/

namespace RosZ.Dynamic

open RosZ.Cdr Wire CdrReader

/-! ## What the encoder checks -/

mutual

/-- Every value the encoder comes to has the variant its field type calls for. -/
def Encodable : FieldType → DynamicValue → Prop
  | .bool, .bool _ => True
  | .int8, .int8 _ => True
  | .int16, .int16 _ => True
  | .int32, .int32 _ => True
  | .int64, .int64 _ => True
  | .uint8, .uint8 _ => True
  | .uint16, .uint16 _ => True
  | .uint32, .uint32 _ => True
  | .uint64, .uint64 _ => True
  | .float32, .float32 _ => True
  | .float64, .float64 _ => True
  | .string, .string _ => True
  | .boundedString _, .string _ => True
  | .sequence inner, .bytes _ => inner = .uint8
  | .array inner _, .array vs => AllEncodable inner vs
  | .sequence inner, .array vs => AllEncodable inner vs
  | .boundedSequence inner _, .array vs => AllEncodable inner vs
  -- whatever schema it carries
  | .message _, .message m => m.Encodable
  | _, _ => False
termination_by structural _ v => v

def AllEncodable : FieldType → List DynamicValue → Prop
  | _, [] => True
  | inner, v :: rest => Encodable inner v ∧ AllEncodable inner rest
termination_by structural _ vs => vs

/-- The values that have a field. -/
def FieldsEncodable : List FieldSchema → List DynamicValue → Prop
  | field :: fields, v :: rest => Encodable field.fieldType v ∧ FieldsEncodable fields rest
  | _, _ => True
termination_by structural _ vs => vs

def DynamicMessage.Encodable : DynamicMessage → Prop
  | ⟨schema, values⟩ => FieldsEncodable schema.fields values
termination_by structural m => m

end

mutual

theorem encodable_of_serialize : ∀ (v : DynamicValue) (ft : FieldType) {w w' : Writer},
    serializeValue v ft w = .ok w' → Encodable ft v
  | .bool _, .bool, _, _, _ => trivial
  | .int8 _, .int8, _, _, _ => trivial
  | .int16 _, .int16, _, _, _ => trivial
  | .int32 _, .int32, _, _, _ => trivial
  | .int64 _, .int64, _, _, _ => trivial
  | .uint8 _, .uint8, _, _, _ => trivial
  | .uint16 _, .uint16, _, _, _ => trivial
  | .uint32 _, .uint32, _, _, _ => trivial
  | .uint64 _, .uint64, _, _, _ => trivial
  | .float32 _, .float32, _, _, _ => trivial
  | .float64 _, .float64, _, _, _ => trivial
  | .string _, .string, _, _, _ => trivial
  | .string _, .boundedString _, _, _, _ => trivial
  | .bytes _, .sequence .uint8, _, _, _ => rfl
  | .array vs, .array inner _, _, _, h => allEncodable_of_serialize vs inner h
  | .array vs, .sequence inner, _, _, h => allEncodable_of_serialize vs inner h
  | .array vs, .boundedSequence inner _, _, _, h => allEncodable_of_serialize vs inner h
  | .message m, .message _, _, _, h => messageEncodable_of_serialize m h
termination_by structural v => v

theorem allEncodable_of_serialize : ∀ (vs : List DynamicValue) (inner : FieldType)
    {w w' : Writer}, serializeAll vs inner w = .ok w' → AllEncodable inner vs
  | [], _, _, _, _ => trivial
  | v :: rest, inner, _, _, h => by
      obtain ⟨middle, first, last⟩ := Fallible.bind_eq_ok_iff.mp h
      exact ⟨encodable_of_serialize v inner first, allEncodable_of_serialize rest inner last⟩
termination_by structural vs => vs

theorem fieldsEncodable_of_serialize : ∀ (vs : List DynamicValue) (fields : List FieldSchema)
    {w w' : Writer}, serializeFields vs fields w = .ok w' → FieldsEncodable fields vs
  | [], [], _, _, _ => trivial
  | [], _ :: _, _, _, _ => trivial
  | _ :: _, [], _, _, _ => trivial
  | v :: rest, field :: fields, _, _, h => by
      obtain ⟨middle, first, last⟩ := Fallible.bind_eq_ok_iff.mp h
      exact ⟨encodable_of_serialize v field.fieldType first,
        fieldsEncodable_of_serialize rest fields last⟩
termination_by structural vs => vs

theorem messageEncodable_of_serialize : ∀ (m : DynamicMessage) {w w' : Writer},
    serializeMessage m w = .ok w' → m.Encodable
  | ⟨schema, values⟩, _, _, h => fieldsEncodable_of_serialize values schema.fields h
termination_by structural m => m

end

mutual

theorem serializes_of_encodable : ∀ (v : DynamicValue) (ft : FieldType), Encodable ft v →
    ∀ w, ∃ w', serializeValue v ft w = .ok w'
  | .bool _, .bool, _, _ => ⟨_, rfl⟩
  | .int8 _, .int8, _, _ => ⟨_, rfl⟩
  | .int16 _, .int16, _, _ => ⟨_, rfl⟩
  | .int32 _, .int32, _, _ => ⟨_, rfl⟩
  | .int64 _, .int64, _, _ => ⟨_, rfl⟩
  | .uint8 _, .uint8, _, _ => ⟨_, rfl⟩
  | .uint16 _, .uint16, _, _ => ⟨_, rfl⟩
  | .uint32 _, .uint32, _, _ => ⟨_, rfl⟩
  | .uint64 _, .uint64, _, _ => ⟨_, rfl⟩
  | .float32 _, .float32, _, _ => ⟨_, rfl⟩
  | .float64 _, .float64, _, _ => ⟨_, rfl⟩
  | .string _, .string, _, _ => ⟨_, rfl⟩
  | .string _, .boundedString _, _, _ => ⟨_, rfl⟩
  | .bytes v, .sequence inner, accepted, w => by
      obtain rfl : inner = .uint8 := accepted
      exact ⟨_, rfl⟩
  | .array vs, .array inner _, accepted, _ => serializesAll_of_encodable vs inner accepted _
  | .array vs, .sequence inner, accepted, _ => serializesAll_of_encodable vs inner accepted _
  | .array vs, .boundedSequence inner _, accepted, _ =>
      serializesAll_of_encodable vs inner accepted _
  | .message m, .message _, accepted, _ => serializesMessage_of_encodable m accepted _
termination_by structural v => v

theorem serializesAll_of_encodable : ∀ (vs : List DynamicValue) (inner : FieldType),
    AllEncodable inner vs → ∀ w, ∃ w', serializeAll vs inner w = .ok w'
  | [], _, _, w => ⟨w, rfl⟩
  | v :: rest, inner, accepted, w => by
      obtain ⟨middle, first⟩ := serializes_of_encodable v inner accepted.1 w
      obtain ⟨w', last⟩ := serializesAll_of_encodable rest inner accepted.2 middle
      exact ⟨w', Fallible.bind_eq_ok_iff.mpr ⟨middle, first, last⟩⟩
termination_by structural vs => vs

theorem serializesFields_of_encodable : ∀ (vs : List DynamicValue) (fields : List FieldSchema),
    FieldsEncodable fields vs → ∀ w, ∃ w', serializeFields vs fields w = .ok w'
  | [], [], _, w => ⟨w, rfl⟩
  | [], _ :: _, _, w => ⟨w, rfl⟩
  | _ :: _, [], _, w => ⟨w, rfl⟩
  | v :: rest, field :: fields, accepted, w => by
      obtain ⟨middle, first⟩ := serializes_of_encodable v field.fieldType accepted.1 w
      obtain ⟨w', last⟩ := serializesFields_of_encodable rest fields accepted.2 middle
      exact ⟨w', Fallible.bind_eq_ok_iff.mpr ⟨middle, first, last⟩⟩
termination_by structural vs => vs

theorem serializesMessage_of_encodable : ∀ m : DynamicMessage, m.Encodable →
    ∀ w, ∃ w', serializeMessage m w = .ok w'
  | ⟨schema, values⟩, accepted, w =>
      serializesFields_of_encodable values schema.fields accepted w
termination_by structural m => m

end

/-- The encoder checks the variants, and nothing else. -/
theorem exists_serializeCdr_iff {msg : DynamicMessage} :
    (∃ data, serializeCdr msg = .ok data) ↔ msg.Encodable := by
  constructor
  · rintro ⟨data, encoded⟩
    obtain ⟨w, wrote, -⟩ := Fallible.bind_eq_ok_iff.mp encoded
    exact messageEncodable_of_serialize msg wrote
  · intro accepted
    obtain ⟨w, wrote⟩ := serializesMessage_of_encodable msg accepted (CdrWriter.new cdrHeaderLe)
    exact ⟨w.buffer, Fallible.bind_eq_ok_iff.mpr ⟨w, wrote, rfl⟩⟩

/-! ## What it should check -/

mutual

/-- No bounded string has more octets, and no bounded sequence more elements, than its type
admits. -/
def WithinBounds : FieldType → DynamicValue → Prop
  | .boundedString max, .string v => (utf8Bytes v).length ≤ max
  | .boundedSequence inner max, .array vs => vs.length ≤ max ∧ AllWithinBounds inner vs
  | .array inner _, .array vs => AllWithinBounds inner vs
  | .sequence inner, .array vs => AllWithinBounds inner vs
  | .message schema, .message m => MessageWithinBounds schema m
  | _, _ => True
termination_by structural _ v => v

def AllWithinBounds : FieldType → List DynamicValue → Prop
  | _, [] => True
  | inner, v :: rest => WithinBounds inner v ∧ AllWithinBounds inner rest
termination_by structural _ vs => vs

def FieldsWithinBounds : List FieldSchema → List DynamicValue → Prop
  | field :: fields, v :: rest =>
      WithinBounds field.fieldType v ∧ FieldsWithinBounds fields rest
  | _, _ => True
termination_by structural _ vs => vs

def MessageWithinBounds : MessageSchema → DynamicMessage → Prop
  | schema, ⟨_, values⟩ => FieldsWithinBounds schema.fields values
termination_by structural _ m => m

end

/-- If the message is encoded, then as what it is: the encoding decodes under its schema to the
same values, with octets in either form, and these are within their bounds. -/
def Faithful (msg : DynamicMessage) : Prop :=
  ∀ data, serializeCdr msg = .ok data →
    (∃ back, deserializeCdr data msg.schema = .ok back ∧ back.packed = msg.packed) ∧
      MessageWithinBounds msg.schema msg

/-! ## The decoded values -/

theorem map_octet {vs : List DynamicValue} (fits : AllRepresentable .uint8 vs) :
    vs = (vs.map DynamicValue.octet).map .uint8 := by
  induction vs with
  | nil => rfl
  | cons v rest ih =>
      obtain ⟨head, tail⟩ := fits
      cases v with
      | uint8 octet =>
          rw [List.map_cons, List.map_cons, ← ih tail]
          rfl
      | _ => cases head

/-- Octets are packed alike in either form. -/
theorem packed_octets {vs : List DynamicValue} (fits : AllRepresentable .uint8 vs) :
    (DynamicValue.bytes (vs.map DynamicValue.octet)).packed = (DynamicValue.array vs).packed := by
  have found : uint8s? vs = some (vs.map DynamicValue.octet) :=
    uint8s?_eq_some_iff.mpr (map_octet fits)
  rw [DynamicValue.packed.eq_1, found]
  rfl

/-- A sequence has the content of its canonical form once its elements have. -/
theorem packed_sequence {vs : List DynamicValue} {inner : FieldType}
    (fits : AllRepresentable inner vs)
    (elements : packedAll (canonicalAll inner vs) = packedAll vs) :
    ((DynamicValue.array vs).canonical (.sequence inner)).packed =
      (DynamicValue.array vs).packed := by
  by_cases octets : inner = .uint8
  · subst octets
    exact packed_octets fits
  · rw [canonical_sequence octets]
    exact packed_array_eq_iff.mpr elements

mutual

/-- The canonical form has the same content. -/
theorem packed_canonical : ∀ (v : DynamicValue) (ft : FieldType), Representable ft v →
    (v.canonical ft).packed = v.packed
  | .bool _, .bool, _ => rfl
  | .int8 _, .int8, _ => rfl
  | .int16 _, .int16, _ => rfl
  | .int32 _, .int32, _ => rfl
  | .int64 _, .int64, _ => rfl
  | .uint8 _, .uint8, _ => rfl
  | .uint16 _, .uint16, _ => rfl
  | .uint32 _, .uint32, _ => rfl
  | .uint64 _, .uint64, _ => rfl
  | .float32 _, .float32, _ => rfl
  | .float64 _, .float64, _ => rfl
  | .string _, .string, _ => rfl
  | .string _, .boundedString _, _ => rfl
  | .bytes _, .sequence _, fits => by
      obtain ⟨rfl, -⟩ := fits
      rfl
  | .array vs, .array inner _, fits =>
      packed_array_eq_iff.mpr (packedAll_canonical vs inner fits.2)
  | .array vs, .sequence inner, fits =>
      packed_sequence fits.2 (packedAll_canonical vs inner fits.2)
  | .array vs, .boundedSequence inner _, fits => by
      rw [canonical_bounded]
      exact packed_sequence fits.2 (packedAll_canonical vs inner fits.2)
  | .message m, .message schema, fits =>
      congrArg DynamicValue.message (packedMessage_canonical m schema fits.2)
termination_by structural v => v

theorem packedAll_canonical : ∀ (vs : List DynamicValue) (inner : FieldType),
    AllRepresentable inner vs → packedAll (canonicalAll inner vs) = packedAll vs
  | [], _, _ => rfl
  | v :: rest, inner, fits =>
      congrArg₂ List.cons (packed_canonical v inner fits.1) (packedAll_canonical rest inner fits.2)
termination_by structural vs => vs

theorem packedFields_canonical : ∀ (vs : List DynamicValue) (fields : List FieldSchema),
    FieldsRepresentable fields vs → packedAll (canonicalFields fields vs) = packedAll vs
  | [], [], _ => rfl
  | v :: rest, field :: fields, fits =>
      congrArg₂ List.cons (packed_canonical v field.fieldType fits.1)
        (packedFields_canonical rest fields fits.2)
termination_by structural vs => vs

theorem packedMessage_canonical : ∀ (m : DynamicMessage) (schema : MessageSchema),
    MessageRepresentable schema m → (canonicalMessage schema m).packed = m.packed
  | ⟨own, values⟩, schema, fits =>
      congrArg (DynamicMessage.mk own) (packedFields_canonical values schema.fields fits)
termination_by structural m => m

end

/-! ## Which messages are encoded as what they are -/

/-- **When the encoder can be trusted.**  A message is encoded as what it is, or refused,
exactly when it is refused or is representable and within its bounds. -/
theorem faithful_iff (msg : DynamicMessage) :
    Faithful msg ↔ (msg.Encodable →
      MessageRepresentable msg.schema msg ∧ MessageWithinBounds msg.schema msg) := by
  constructor
  · intro faithful accepted
    obtain ⟨data, encoded⟩ := exists_serializeCdr_iff.mpr accepted
    obtain ⟨⟨back, decoded, same⟩, bounds⟩ := faithful data encoded
    exact ⟨messageRepresentable_of_decodes encoded decoded same, bounds⟩
  · intro checked data encoded
    obtain ⟨fits, bounds⟩ := checked (exists_serializeCdr_iff.mp ⟨data, encoded⟩)
    obtain ⟨data', encoded', decoded⟩ := decodes_serializeCdr fits
    obtain rfl : data = data' := Except.ok.inj (encoded.symm.trans encoded')
    exact ⟨⟨msg.canonical, decoded, packedMessage_canonical msg msg.schema fits⟩, bounds⟩

/-- Two samples and a count. -/
def samplesSchema : MessageSchema where
  typeName := "demo_msgs/msg/Samples"
  package := "demo_msgs"
  name := "Samples"
  fields := [⟨"samples", .array .uint8 2, none⟩, ⟨"count", .uint8, none⟩]

/-- A new message whose array of two is set to three samples is encoded, and the receiver
takes the third for the count. -/
theorem unfaithful_samples :
    ∃ msg, (DynamicMessage.setDynamic "samples" (.array [.uint8 1, .uint8 2, .uint8 3])).run
        (newMessage samplesSchema) = .ok () msg ∧
      serializeCdr msg = .ok [0, 1, 0, 0, 1, 2, 3, 0] ∧
      deserializeCdr [0, 1, 0, 0, 1, 2, 3, 0] msg.schema =
        .ok ⟨samplesSchema, [.array [.uint8 1, .uint8 2], .uint8 3]⟩ ∧
      ¬ Faithful msg := by
  have split : Text.fields '.' "samples" = ["samples"] := by decide +kernel
  refine ⟨⟨samplesSchema, [.array [.uint8 1, .uint8 2, .uint8 3], .uint8 0]⟩, ?_, rfl, rfl, ?_⟩
  · rw [DynamicMessage.setDynamic, split]
    rfl
  · intro faithful
    obtain ⟨⟨back, decoded, same⟩, -⟩ := faithful [0, 1, 0, 0, 1, 2, 3, 0] rfl
    cases decoded
    cases same

end RosZ.Dynamic
