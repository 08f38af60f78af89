import RosZ.Dynamic.RoundTrip

/-!
# Dynamic and generated messages agree on the wire

`Generated` relates a dynamic value to every serde value the generated type may
present for it.  Most types leave no choice; an octet sequence may be a `Vec<u8>`
(a sequence of `u8`) or a `ZBuf`, which serializes as a byte buffer, and the
choice may differ from field to field.

Whatever the choices, the encoding is that of `staticValue`, hence the payload the
dynamic encoder writes.
-/

namespace RosZ.Dynamic

open RosZ.Cdr Wire

mutual

/-- The generated type for the field type presents `v` as `s`. -/
inductive Generated : FieldType → DynamicValue → SerdeValue → Prop
  | bool (v : Bool) : Generated .bool (.bool v) (.bool v)
  | int8 (v : Int8) : Generated .int8 (.int8 v) (.i8 v)
  | int16 (v : Int16) : Generated .int16 (.int16 v) (.i16 v)
  | int32 (v : Int32) : Generated .int32 (.int32 v) (.i32 v)
  | int64 (v : Int64) : Generated .int64 (.int64 v) (.i64 v)
  | uint8 (v : UInt8) : Generated .uint8 (.uint8 v) (.u8 v)
  | uint16 (v : UInt16) : Generated .uint16 (.uint16 v) (.u16 v)
  | uint32 (v : UInt32) : Generated .uint32 (.uint32 v) (.u32 v)
  | uint64 (v : UInt64) : Generated .uint64 (.uint64 v) (.u64 v)
  | float32 (bits : UInt32) : Generated .float32 (.float32 bits) (.f32 bits)
  | float64 (bits : UInt64) : Generated .float64 (.float64 bits) (.f64 bits)
  | string (v : String) : Generated .string (.string v) (.str v)
  | boundedString (max : ℕ) (v : String) : Generated (.boundedString max) (.string v) (.str v)
  /-- `[T; N]` is a tuple. -/
  | array {inner : FieldType} {len : ℕ} {vs : List DynamicValue} {ss : List SerdeValue} :
      GeneratedAll inner vs ss → Generated (.array inner len) (.array vs) (.tuple ss)
  /-- `Vec<T>` is a sequence. -/
  | sequence {inner : FieldType} {vs : List DynamicValue} {ss : List SerdeValue} :
      GeneratedAll inner vs ss → Generated (.sequence inner) (.array vs) (.seq ss)
  | boundedSequence {inner : FieldType} {max : ℕ} {vs : List DynamicValue}
      {ss : List SerdeValue} :
      GeneratedAll inner vs ss → Generated (.boundedSequence inner max) (.array vs) (.seq ss)
  /-- The octets as `Vec<u8>`. -/
  | octets (v : List UInt8) : Generated (.sequence .uint8) (.bytes v) (.seq (v.map .u8))
  /-- The octets as `ZBuf`. -/
  | zbuf (v : List UInt8) : Generated (.sequence .uint8) (.bytes v) (.bytes v)
  | zbufOfArray (v : List UInt8) :
      Generated (.sequence .uint8) (.array (v.map .uint8)) (.bytes v)
  | boundedZbuf (max : ℕ) (v : List UInt8) :
      Generated (.boundedSequence .uint8 max) (.array (v.map .uint8)) (.bytes v)
  | message {m : DynamicMessage} {ss : List SerdeValue} :
      GeneratedFields m.schema.fields m.values ss →
        Generated (.message m.schema) (.message m) (.struct ss)

inductive GeneratedAll : FieldType → List DynamicValue → List SerdeValue → Prop
  | nil (inner : FieldType) : GeneratedAll inner [] []
  | cons {inner : FieldType} {v : DynamicValue} {vs : List DynamicValue} {s : SerdeValue}
      {ss : List SerdeValue} :
      Generated inner v s → GeneratedAll inner vs ss → GeneratedAll inner (v :: vs) (s :: ss)

inductive GeneratedFields : List FieldSchema → List DynamicValue → List SerdeValue → Prop
  | nil : GeneratedFields [] [] []
  | cons {field : FieldSchema} {fields : List FieldSchema} {v : DynamicValue}
      {vs : List DynamicValue} {s : SerdeValue} {ss : List SerdeValue} :
      Generated field.fieldType v s → GeneratedFields fields vs ss →
        GeneratedFields (field :: fields) (v :: vs) (s :: ss)

end

/-! ## The generated value exists -/

mutual

theorem generated_staticValue : ∀ (v : DynamicValue) (ft : FieldType), Conforms ft v →
    Generated ft v (staticValue ft v)
  | .bool v, .bool, _ => .bool v
  | .int8 v, .int8, _ => .int8 v
  | .int16 v, .int16, _ => .int16 v
  | .int32 v, .int32, _ => .int32 v
  | .int64 v, .int64, _ => .int64 v
  | .uint8 v, .uint8, _ => .uint8 v
  | .uint16 v, .uint16, _ => .uint16 v
  | .uint32 v, .uint32, _ => .uint32 v
  | .uint64 v, .uint64, _ => .uint64 v
  | .float32 bits, .float32, _ => .float32 bits
  | .float64 bits, .float64, _ => .float64 bits
  | .string v, .string, _ => .string v
  | .string v, .boundedString max, _ => .boundedString max v
  | .bytes v, .sequence _, conforms => by
      obtain ⟨rfl, -⟩ := conforms
      exact .zbuf v
  | .array vs, .array inner _, conforms => .array (generated_staticAll vs inner conforms.2)
  | .array vs, .sequence inner, conforms => .sequence (generated_staticAll vs inner conforms.2)
  | .array vs, .boundedSequence inner _, conforms =>
      .boundedSequence (generated_staticAll vs inner conforms.2)
  | .message m, .message schema, conforms => by
      obtain ⟨rfl, fields⟩ := conforms
      exact .message (generated_staticMessage m fields)
termination_by structural v => v

theorem generated_staticAll : ∀ (vs : List DynamicValue) (inner : FieldType),
    AllConform inner vs → GeneratedAll inner vs (staticAll inner vs)
  | [], inner, _ => .nil inner
  | v :: rest, inner, conforms => by
      rw [AllConform] at conforms
      exact .cons (generated_staticValue v inner conforms.1)
        (generated_staticAll rest inner conforms.2)
termination_by structural vs => vs

theorem generated_staticFields : ∀ (vs : List DynamicValue) (fields : List FieldSchema),
    FieldsConform fields vs → GeneratedFields fields vs (staticFields fields vs)
  | [], [], _ => .nil
  | v :: rest, field :: fields, conforms => by
      rw [FieldsConform] at conforms
      exact .cons (generated_staticValue v field.fieldType conforms.1)
        (generated_staticFields rest fields conforms.2)
termination_by structural vs => vs

theorem generated_staticMessage : ∀ m : DynamicMessage, MessageConforms m.schema m →
    GeneratedFields m.schema.fields m.values (staticMessage m.schema m)
  | ⟨schema, values⟩, conforms => generated_staticFields values schema.fields conforms
termination_by structural m => m

end

/-! ## Every generated value has the encoding of the static value -/

/-- Element counts that a 32-bit prefix can hold. -/
def prefixLimit : ℕ := 2 ^ 32 - 1

theorem within_prefixLimit {count : ℕ} (within : count ≤ CdrReader.maxSequenceLength) :
    count ≤ prefixLimit :=
  le_trans within (by decide)

theorem allWithinLimits_u8 (limit : ℕ) (octets : List UInt8) :
    allWithinLimits limit (octets.map .u8) = true := by
  induction octets with
  | nil => rfl
  | cons octet rest ih => rw [List.map_cons, allWithinLimits, ih]; rfl

theorem layout_staticAll_uint8 (order : ByteOrder) (octets : List UInt8) :
    (SerdeValue.seq (staticAll .uint8 (octets.map .uint8))).layout order =
      (SerdeValue.bytes octets).layout order := by
  rw [← layout_seq_u8]
  congr 2
  induction octets with
  | nil => simp [staticAll]
  | cons octet rest ih => rw [List.map_cons, List.map_cons, staticAll, ih, staticValue]

theorem GeneratedAll.length_eq {inner : FieldType} : ∀ {vs : List DynamicValue}
    {ss : List SerdeValue}, GeneratedAll inner vs ss → ss.length = vs.length
  | _, _, .nil _ => rfl
  | _, _, .cons _ tail => congrArg Nat.succ tail.length_eq

mutual

/-- A generated value occupies what the static value occupies, and within the
limits of the format. -/
theorem Generated.layout_eq (order : ByteOrder) {ft : FieldType} {v : DynamicValue}
    {s : SerdeValue} : Generated ft v s → Conforms ft v →
    s.layout order = (staticValue ft v).layout order ∧ s.withinLimits prefixLimit = true
  | .bool _, _ => ⟨rfl, rfl⟩
  | .int8 _, _ => ⟨rfl, rfl⟩
  | .int16 _, _ => ⟨rfl, rfl⟩
  | .int32 _, _ => ⟨rfl, rfl⟩
  | .int64 _, _ => ⟨rfl, rfl⟩
  | .uint8 _, _ => ⟨rfl, rfl⟩
  | .uint16 _, _ => ⟨rfl, rfl⟩
  | .uint32 _, _ => ⟨rfl, rfl⟩
  | .uint64 _, _ => ⟨rfl, rfl⟩
  | .float32 _, _ => ⟨rfl, rfl⟩
  | .float64 _, _ => ⟨rfl, rfl⟩
  | .string _, conforms => ⟨rfl, decide_eq_true conforms⟩
  | .boundedString _ _, conforms => ⟨rfl, decide_eq_true conforms⟩
  | .array all, conforms => all.layout_eq order conforms.2
  | .sequence all, conforms => by
      obtain ⟨same, limits⟩ := all.layout_eq order conforms.2
      have count := all.length_eq
      rw [staticValue, SerdeValue.layout, SerdeValue.layout, same, length_staticAll, count,
        SerdeValue.withinLimits, limits, count]
      exact ⟨rfl, by simpa using within_prefixLimit conforms.1⟩
  | .boundedSequence all, conforms => by
      obtain ⟨same, limits⟩ := all.layout_eq order conforms.2
      have count := all.length_eq
      rw [staticValue, SerdeValue.layout, SerdeValue.layout, same, length_staticAll, count,
        SerdeValue.withinLimits, limits, count]
      exact ⟨rfl, by simpa using within_prefixLimit conforms.1⟩
  | .octets v, conforms => by
      have fits : v.length ≤ prefixLimit := Nat.le_sub_one_of_lt conforms.2
      rw [layout_seq_u8, SerdeValue.withinLimits, allWithinLimits_u8, List.length_map]
      exact ⟨rfl, by simpa using fits⟩
  | .zbuf _, conforms => ⟨rfl, decide_eq_true conforms.2⟩
  | .zbufOfArray v, conforms => by
      have fits : v.length < 2 ^ 32 :=
        Nat.lt_of_le_pred (by decide) (within_prefixLimit (by simpa using conforms.1))
      exact ⟨(layout_staticAll_uint8 order v).symm, decide_eq_true fits⟩
  | .boundedZbuf _ v, conforms => by
      have fits : v.length < 2 ^ 32 :=
        Nat.lt_of_le_pred (by decide) (within_prefixLimit (by simpa using conforms.1))
      exact ⟨(layout_staticAll_uint8 order v).symm, decide_eq_true fits⟩
  | .message (m := m) fields, conforms => by
      obtain ⟨schema, values⟩ := m
      exact fields.layout_eq order conforms.2

theorem GeneratedAll.layout_eq (order : ByteOrder) {inner : FieldType}
    {vs : List DynamicValue} {ss : List SerdeValue} : GeneratedAll inner vs ss →
    AllConform inner vs →
    elementsLayout order ss = elementsLayout order (staticAll inner vs) ∧
      allWithinLimits prefixLimit ss = true
  | .nil _, _ => ⟨rfl, rfl⟩
  | .cons head tail, conforms => by
      rw [AllConform] at conforms
      obtain ⟨sameHead, headLimits⟩ := head.layout_eq order conforms.1
      obtain ⟨sameTail, tailLimits⟩ := tail.layout_eq order conforms.2
      rw [elementsLayout, staticAll, elementsLayout, sameHead, sameTail, allWithinLimits,
        headLimits, tailLimits]
      exact ⟨rfl, rfl⟩

theorem GeneratedFields.layout_eq (order : ByteOrder) {fields : List FieldSchema}
    {vs : List DynamicValue} {ss : List SerdeValue} : GeneratedFields fields vs ss →
    FieldsConform fields vs →
    elementsLayout order ss = elementsLayout order (staticFields fields vs) ∧
      allWithinLimits prefixLimit ss = true
  | .nil, _ => ⟨rfl, rfl⟩
  | .cons head tail, conforms => by
      rw [FieldsConform] at conforms
      obtain ⟨sameHead, headLimits⟩ := head.layout_eq order conforms.1
      obtain ⟨sameTail, tailLimits⟩ := tail.layout_eq order conforms.2
      rw [elementsLayout, staticFields, elementsLayout, sameHead, sameTail, allWithinLimits,
        headLimits, tailLimits]
      exact ⟨rfl, rfl⟩

end

/-- **Static and dynamic encoders agree.**  A conforming message has a generated
value, and whichever generated value is serialized, the bytes are the payload
behind the header of the dynamic encoding. -/
theorem toVec_eq_payload (msg : DynamicMessage) (conforms : msg.Conforming) :
    (∃ s, Generated (.message msg.schema) (.message msg) s) ∧
      ∃ payload, serializeCdr msg = .ok (cdrHeaderLe ++ payload) ∧
        ∀ s, Generated (.message msg.schema) (.message msg) s →
          toVec .littleEndian s = .ok payload := by
  have conforming : Conforms (.message msg.schema) (.message msg) := ⟨rfl, conforms⟩
  refine ⟨⟨_, generated_staticValue _ _ conforming⟩, _, serializeCdr_eq conforms.representable, ?_⟩
  intro s generated
  obtain ⟨same, limits⟩ := generated.layout_eq .littleEndian conforming
  rw [toVec_eq .littleEndian limits, same]
  rfl

theorem toVec_eq_payload_scan :
    (∃ s, Generated (.message scan.schema) (.message scan) s) ∧
      ∃ payload, serializeCdr scan = .ok (cdrHeaderLe ++ payload) ∧
        ∀ s, Generated (.message scan.schema) (.message scan) s →
          toVec .littleEndian s = .ok payload :=
  toVec_eq_payload scan scan_conforming

end RosZ.Dynamic
