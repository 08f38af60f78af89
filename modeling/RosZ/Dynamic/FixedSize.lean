import RosZ.Cdr.Sizes
import RosZ.Dynamic.RoundTrip

/-!
# Fixed sizes of messages

`FieldType::fixed_size`, `FieldType::alignment` and the two methods of `MessageSchema` of
`schema.rs`.  A field type of fixed size has a `Shape`: `fixed_cdr_size` is its size by
composition, a message's payload the size of the shape laid out from offset `0`.

The two are not the same number.  `fixed_cdr_size` places a nested message as a whole, at a
multiple of its widest field, and multiplies the size of an array's element by the length; the
writer places every primitive by itself.  `sizedExactly_iff` says for which schemas the sizes
agree, `sizedExactly_of_rigid` names a kind of schemas that keep them.

Sizes are natural numbers.  Where `usize` arithmetic would leave its range either no memory
holds a message of the schema, or the size is that of an element of an empty array and
multiplied by zero.
-/

namespace RosZ.Dynamic

open RosZ.Cdr Wire

/-! ## The size a schema computes -/

mutual

/-- CDR alignment requirement in bytes. -/
def FieldType.alignment : FieldType → ℕ
  | .bool | .int8 | .uint8 => 1
  | .int16 | .uint16 => 2
  | .int32 | .uint32 | .float32 => 4
  | .int64 | .uint64 | .float64 => 8
  | .string | .boundedString _ => 4 -- length prefix
  | .array inner _ => inner.alignment
  | .sequence _ | .boundedSequence _ _ => 4 -- length prefix
  | .message schema => schema.alignment

/-- Maximum alignment of any field. -/
def MessageSchema.alignment : MessageSchema → ℕ
  | ⟨_, _, _, fields, _⟩ => (alignments fields).max?.getD 1

def alignments : List FieldSchema → List ℕ
  | [] => []
  | field :: fields => field.alignment :: alignments fields

def FieldSchema.alignment : FieldSchema → ℕ
  | ⟨_, fieldType, _⟩ => fieldType.alignment

end

/-- `(size + align - 1) & !(align - 1)`: the bits of `align - 1` are cleared. -/
def alignUp (size align : ℕ) : ℕ :=
  let past := size + align - 1
  past - (past &&& (align - 1))

mutual

/-- CDR size in bytes (`none` for variable-size types). -/
def FieldType.fixedSize : FieldType → Option ℕ
  | .bool | .int8 | .uint8 => some 1
  | .int16 | .uint16 => some 2
  | .int32 | .uint32 | .float32 => some 4
  | .int64 | .uint64 | .float64 => some 8
  | .array inner len => inner.fixedSize.map fun s => s * len
  | .message schema => schema.fixedCdrSize
  -- String, sequence types are variable
  | _ => none

/-- Fixed CDR size if all fields are fixed-size. -/
def MessageSchema.fixedCdrSize : MessageSchema → Option ℕ
  | ⟨_, _, _, fields, _⟩ => fixedSizeFrom 0 fields

/-- The field loop: padding for alignment, then the field. -/
def fixedSizeFrom (size : ℕ) : List FieldSchema → Option ℕ
  | [] => some size
  | field :: fields => do
      let fieldSize ← field.fixedSize
      fixedSizeFrom (alignUp size field.alignment + fieldSize) fields

def FieldSchema.fixedSize : FieldSchema → Option ℕ
  | ⟨_, fieldType, _⟩ => fieldType.fixedSize

end

/-! ## Shapes of field types -/

mutual

/-- The words of a field type of fixed size. -/
def FieldType.shape : FieldType → Option Shape
  | .bool | .int8 | .uint8 => some (.word 0)
  | .int16 | .uint16 => some (.word 1)
  | .int32 | .uint32 | .float32 => some (.word 2)
  | .int64 | .uint64 | .float64 => some (.word 3)
  | .array inner len => inner.shape.map fun shape => .repeated shape len
  | .message schema => schema.shape
  | _ => none

def MessageSchema.shape : MessageSchema → Option Shape
  | ⟨_, _, _, fields, _⟩ => (shapes fields).map .record

def shapes : List FieldSchema → Option (List Shape)
  | [] => some []
  | field :: fields => do
      let first ← field.shape
      let rest ← shapes fields
      return first :: rest

def FieldSchema.shape : FieldSchema → Option Shape
  | ⟨_, fieldType, _⟩ => fieldType.shape

end

/-- A record has a shape when each of its fields has. -/
theorem shapes_cons_eq_some {field : FieldSchema} {fields : List FieldSchema}
    {all : List Shape} (sized : shapes (field :: fields) = some all) :
    ∃ first rest, field.shape = some first ∧ shapes fields = some rest ∧ all = first :: rest := by
  rw [shapes] at sized
  obtain ⟨first, head, sized⟩ := Option.bind_eq_some_iff.mp sized
  obtain ⟨rest, tail, sized⟩ := Option.bind_eq_some_iff.mp sized
  exact ⟨first, rest, head, tail, (Option.some.inj sized).symm⟩

/-! ## The computed size is the size by composition -/

/-- Clearing the low bits of the position before the next multiple rounds up. -/
theorem alignUp_two_pow (size exponent : ℕ) :
    alignUp size (2 ^ exponent) = size + Layout.padding (2 ^ exponent) size := by
  have positive := Nat.two_pow_pos exponent
  rw [alignUp, Nat.and_two_pow_sub_one_eq_mod]
  generalize 2 ^ exponent = align at positive
  have whole := Nat.div_add_mod size align
  have below := Nat.mod_lt size positive
  unfold Layout.padding
  by_cases aligned : size % align = 0
  · have past : size + align - 1 = align * (size / align) + (align - 1) := by omega
    rw [if_pos aligned, past, Nat.mul_add_mod, Nat.mod_eq_of_lt (Nat.sub_one_lt_of_lt positive)]
    omega
  · have past : size + align - 1 = align * (size / align + 1) + (size % align - 1) := by
      rw [Nat.mul_succ]
      omega
    have low : size % align - 1 < align := by omega
    rw [if_neg aligned, past, Nat.mul_add_mod, Nat.mod_eq_of_lt low, Nat.mul_succ]
    omega

mutual

/-- The alignment of a field type is the width of its widest word. -/
theorem FieldType.alignment_eq : ∀ (ft : FieldType) {shape : Shape}, ft.shape = some shape →
    ft.alignment = shape.alignment
  | .bool, _, rfl => rfl
  | .int8, _, rfl => rfl
  | .uint8, _, rfl => rfl
  | .int16, _, rfl => rfl
  | .uint16, _, rfl => rfl
  | .int32, _, rfl => rfl
  | .uint32, _, rfl => rfl
  | .float32, _, rfl => rfl
  | .int64, _, rfl => rfl
  | .uint64, _, rfl => rfl
  | .float64, _, rfl => rfl
  | .array inner _, _, sized => by
      obtain ⟨element, same, rfl⟩ := Option.map_eq_some_iff.mp sized
      show inner.alignment = element.alignment
      exact FieldType.alignment_eq inner same
  | .message schema, _, sized => MessageSchema.alignment_eq schema sized

theorem MessageSchema.alignment_eq : ∀ (schema : MessageSchema) {shape : Shape},
    schema.shape = some shape → schema.alignment = shape.alignment
  | ⟨_, _, _, fields, _⟩, _, sized => by
      obtain ⟨all, same, rfl⟩ := Option.map_eq_some_iff.mp sized
      rw [MessageSchema.alignment, alignments_eq fields same, Shape.max?_alignments]
      rfl

theorem alignments_eq : ∀ (fields : List FieldSchema) {all : List Shape},
    shapes fields = some all → alignments fields = all.map Shape.alignment
  | [], _, rfl => rfl
  | field :: fields, _, sized => by
      obtain ⟨first, rest, head, tail, rfl⟩ := shapes_cons_eq_some sized
      rw [alignments, FieldSchema.alignment_eq field head, alignments_eq fields tail, List.map_cons]

theorem FieldSchema.alignment_eq : ∀ (field : FieldSchema) {shape : Shape},
    field.shape = some shape → field.alignment = shape.alignment
  | ⟨_, fieldType, _⟩, _, sized => FieldType.alignment_eq fieldType sized

end

mutual

/-- A field type has a fixed size when it has a shape, and the size is the one by
composition. -/
theorem FieldType.fixedSize_eq : ∀ ft : FieldType, ft.fixedSize = ft.shape.map Shape.sizeAlone
  | .bool | .int8 | .uint8 | .int16 | .uint16 | .int32 | .uint32 | .float32
  | .int64 | .uint64 | .float64 => rfl
  | .string | .boundedString _ | .sequence _ | .boundedSequence _ _ => rfl
  | .array inner len => by
      rw [FieldType.fixedSize, FieldType.shape, FieldType.fixedSize_eq inner, Option.map_map,
        Option.map_map]
      congr 1
      funext element
      show (element.paddingAlone + element.content) * len =
        len * element.paddingAlone + len * element.content
      rw [Nat.mul_comm, Nat.mul_add]
  | .message schema => MessageSchema.fixedCdrSize_eq schema

theorem MessageSchema.fixedCdrSize_eq : ∀ schema : MessageSchema,
    schema.fixedCdrSize = schema.shape.map Shape.sizeAlone
  | ⟨_, _, _, fields, _⟩ => by
      rw [MessageSchema.fixedCdrSize, MessageSchema.shape, fixedSizeFrom_eq 0 fields,
        Option.map_map]
      congr 1
      funext all
      rw [Nat.zero_add]
      rfl

/-- The loop adds the padding and the words of the fields that are left. -/
theorem fixedSizeFrom_eq : ∀ (size : ℕ) (fields : List FieldSchema),
    fixedSizeFrom size fields =
      (shapes fields).map fun all => size + (Shape.paddingFrom size all + Shape.contentAll all)
  | size, [] => rfl
  | size, field :: fields => by
      rw [fixedSizeFrom, shapes, FieldSchema.fixedSize_eq field]
      cases sized : field.shape with
      | none => rfl
      | some first =>
          show fixedSizeFrom (alignUp size field.alignment + first.sizeAlone) fields = _
          rw [FieldSchema.alignment_eq field sized, Shape.alignment, alignUp_two_pow,
            fixedSizeFrom_eq _ fields]
          cases shapes fields with
          | none => rfl
          | some rest =>
              refine congrArg some ?_
              beta_reduce
              rw [Shape.paddingFrom, Shape.contentAll, Shape.sizeAlone, Shape.alignment]
              omega

theorem FieldSchema.fixedSize_eq : ∀ field : FieldSchema,
    field.fixedSize = field.shape.map Shape.sizeAlone
  | ⟨_, fieldType, _⟩ => FieldType.fixedSize_eq fieldType

end

/-! ## The size the writer makes -/

mutual

/-- What the static value of a field type of fixed size occupies depends on where it starts,
not on the value. -/
theorem length_place_staticValue : ∀ (v : DynamicValue) (ft : FieldType) {shape : Shape},
    ft.shape = some shape → Representable ft v → ∀ pos,
      (((staticValue ft v).layout .littleEndian).place pos).length = shape.sizeAt pos
  | .bool _, .bool, _, rfl, _, pos => sized_octet _ pos
  | .int8 _, .int8, _, rfl, _, pos => sized_octet _ pos
  | .uint8 _, .uint8, _, rfl, _, pos => sized_octet _ pos
  | .int16 _, .int16, _, rfl, _, pos => length_place_wordLayout _ 2 _ pos
  | .uint16 _, .uint16, _, rfl, _, pos => length_place_wordLayout _ 2 _ pos
  | .int32 _, .int32, _, rfl, _, pos => length_place_wordLayout _ 4 _ pos
  | .uint32 _, .uint32, _, rfl, _, pos => length_place_wordLayout _ 4 _ pos
  | .float32 _, .float32, _, rfl, _, pos => length_place_wordLayout _ 4 _ pos
  | .int64 _, .int64, _, rfl, _, pos => length_place_wordLayout _ 8 _ pos
  | .uint64 _, .uint64, _, rfl, _, pos => length_place_wordLayout _ 8 _ pos
  | .float64 _, .float64, _, rfl, _, pos => length_place_wordLayout _ 8 _ pos
  | .string _, .string, _, sized, _, _ => nomatch sized
  | .string _, .boundedString _, _, sized, _, _ => nomatch sized
  | .bytes _, .sequence _, _, sized, _, _ => nomatch sized
  | .array vs, .array inner _, _, sized, ⟨count, fits⟩, pos => by
      obtain ⟨element, same, rfl⟩ := Option.map_eq_some_iff.mp sized
      subst count
      exact length_place_staticAll vs inner same fits pos
  | .message m, .message schema, _, sized, ⟨_, fits⟩, pos =>
      length_place_staticMessage m schema sized fits pos
termination_by structural v => v

theorem length_place_staticAll : ∀ (vs : List DynamicValue) (inner : FieldType) {element : Shape},
    inner.shape = some element → AllRepresentable inner vs → ∀ pos,
      ((elementsLayout .littleEndian (staticAll inner vs)).place pos).length =
        (Shape.repeated element vs.length).sizeAt pos
  | [], _, _, _, _, _ => by
      rw [List.length_nil, Shape.sizeAt, Shape.paddingAt, Shape.content, Nat.zero_mul]
      rfl
  | v :: rest, inner, element, sized, ⟨head, tail⟩, pos => by
      rw [List.length_cons, Shape.sizeAt_repeated_succ, staticAll, elementsLayout,
        Layout.place_mul, List.length_append, length_place_staticValue v inner sized head,
        length_place_staticAll rest inner sized tail]
termination_by structural vs => vs

theorem length_place_staticFields : ∀ (vs : List DynamicValue) (fields : List FieldSchema)
    {all : List Shape}, shapes fields = some all → FieldsRepresentable fields vs → ∀ pos,
      ((elementsLayout .littleEndian (staticFields fields vs)).place pos).length =
        (Shape.record all).sizeAt pos
  | [], [], _, rfl, _, _ => rfl
  | v :: rest, field :: fields, _, sized, ⟨head, tail⟩, pos => by
      obtain ⟨first, others, firstSized, othersSized, rfl⟩ := shapes_cons_eq_some sized
      obtain ⟨_, fieldType, _⟩ := field
      rw [Shape.sizeAt_record_cons, staticFields, elementsLayout, Layout.place_mul,
        List.length_append, length_place_staticValue v fieldType firstSized head,
        length_place_staticFields rest fields othersSized tail]
termination_by structural vs => vs

theorem length_place_staticMessage : ∀ (m : DynamicMessage) (schema : MessageSchema)
    {shape : Shape}, schema.shape = some shape → MessageRepresentable schema m → ∀ pos,
      ((elementsLayout .littleEndian (staticMessage schema m)).place pos).length =
        shape.sizeAt pos
  | ⟨_, values⟩, ⟨_, _, _, fields, _⟩, _, sized, fits, pos => by
      obtain ⟨all, same, rfl⟩ := Option.map_eq_some_iff.mp sized
      exact length_place_staticFields values fields same fits pos
termination_by structural m => m

end

/-- The payload of a message of fixed size is its shape laid out from offset `0`. -/
theorem exists_payload {msg : DynamicMessage} (conforms : msg.Conforming) {shape : Shape}
    (sized : msg.schema.shape = some shape) :
    ∃ payload, serializeCdr msg = .ok (cdrHeaderLe ++ payload) ∧
      payload.length = shape.sizeAt 0 := by
  have fits := conforms.representable
  exact ⟨_, serializeCdr_eq fits, length_place_staticMessage msg msg.schema sized fits 0⟩

/-! ## Every schema has messages -/

theorem empty_short : (utf8Bytes "").length < 2 ^ 32 - 1 := by decide

mutual

theorem exists_conforms : ∀ ft : FieldType, ∃ v, Conforms ft v
  | .bool => ⟨.bool false, trivial⟩
  | .int8 => ⟨.int8 0, trivial⟩
  | .int16 => ⟨.int16 0, trivial⟩
  | .int32 => ⟨.int32 0, trivial⟩
  | .int64 => ⟨.int64 0, trivial⟩
  | .uint8 => ⟨.uint8 0, trivial⟩
  | .uint16 => ⟨.uint16 0, trivial⟩
  | .uint32 => ⟨.uint32 0, trivial⟩
  | .uint64 => ⟨.uint64 0, trivial⟩
  | .float32 => ⟨.float32 0, trivial⟩
  | .float64 => ⟨.float64 0, trivial⟩
  | .string => ⟨.string "", empty_short⟩
  | .boundedString _ => ⟨.string "", empty_short⟩
  | .sequence _ => ⟨.array [], Nat.zero_le _, trivial⟩
  | .boundedSequence _ _ => ⟨.array [], Nat.zero_le _, trivial⟩
  | .array inner len => by
      obtain ⟨v, conforms⟩ := exists_conforms inner
      refine ⟨.array (List.replicate len v), List.length_replicate, ?_⟩
      induction len with
      | zero => trivial
      | succ len ih => exact ⟨conforms, ih⟩
  | .message schema => by
      obtain ⟨values, conforms⟩ := exists_messageConforms schema
      exact ⟨.message ⟨schema, values⟩, rfl, conforms⟩

theorem exists_messageConforms : ∀ schema : MessageSchema,
    ∃ values, MessageConforms schema ⟨schema, values⟩
  | ⟨_, _, _, fields, _⟩ => exists_fieldsConform fields

theorem exists_fieldsConform : ∀ fields : List FieldSchema, ∃ values, FieldsConform fields values
  | [] => ⟨[], trivial⟩
  | ⟨_, fieldType, _⟩ :: fields => by
      obtain ⟨v, head⟩ := exists_conforms fieldType
      obtain ⟨rest, tail⟩ := exists_fieldsConform fields
      exact ⟨v :: rest, head, tail⟩

end

/-! ## Schemas that give the size of their messages -/

/-- If the schema has a fixed size, every conforming message has it behind the header. -/
def SizedExactly (schema : MessageSchema) : Prop :=
  ∀ size, schema.fixedCdrSize = some size →
    ∀ msg, msg.schema = schema → msg.Conforming →
      ∃ payload, serializeCdr msg = .ok (cdrHeaderLe ++ payload) ∧ payload.length = size

theorem sizedExactly_of_paddingAt_eq {schema : MessageSchema}
    (agree : ∀ shape, schema.shape = some shape → shape.paddingAt 0 = shape.paddingAlone) :
    SizedExactly schema := by
  rintro size fixed msg rfl conforms
  rw [MessageSchema.fixedCdrSize_eq] at fixed
  obtain ⟨shape, sized, rfl⟩ := Option.map_eq_some_iff.mp fixed
  obtain ⟨payload, encoded, length⟩ := exists_payload conforms sized
  refine ⟨payload, encoded, ?_⟩
  rw [length, Shape.sizeAt, agree shape sized, Shape.sizeAlone]

/-- A status whose stamp does not start where its widest field could. -/
def statusSchema : MessageSchema where
  typeName := "demo_msgs/msg/Status"
  package := "demo_msgs"
  name := "Status"
  fields := [⟨"level", .uint8, none⟩, ⟨"stamp", .message stampSchema, none⟩]

def status : DynamicMessage where
  schema := statusSchema
  values := [.uint8 2, .message ⟨stampSchema, [.bool true, .uint64 7]⟩]

/-- Fields that begin with their widest alignment, in arrays whose elements fill it up, are
counted where they are written. -/
theorem sizedExactly_of_rigid {schema : MessageSchema}
    (rigid : ∀ all, shapes schema.fields = some all → Shape.AllRigid all) :
    SizedExactly schema := by
  apply sizedExactly_of_paddingAt_eq
  intro shape sized
  obtain ⟨_, _, _, fields, _⟩ := schema
  obtain ⟨all, same, rfl⟩ := Option.map_eq_some_iff.mp sized
  exact Shape.AllRigid.paddingAtAll_eq all (rigid all same) (Nat.dvd_zero _) 0

end RosZ.Dynamic
