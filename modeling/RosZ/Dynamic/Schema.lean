import RosZ.Cdr.Primitives

/-!
# Dynamic schemas and values

The runtime representation of ROS 2 types and messages: `schema.rs`, `value.rs`
and `message.rs` of `ros-z/src/dynamic`.

A schema names its nested schemas, a field may carry a default value, and a
message carries its schema, so the five types are one mutual declaration.  `Arc`
and `Box` leave no trace.  Floats are bit patterns.

## Conformance

`Conforms` says that a value is one its field type calls for: the right variant,
one value per field, fixed arrays of the fixed length, nested messages with the
schema of their field, and lengths the 32-bit prefixes and the reader's sanity
limit admit.  Bounds of bounded strings and sequences play no role in it.

`DynamicValue.canonical` is the value up to the one identification the decoder
makes: a sequence of octets comes back as `bytes`.
-/

namespace RosZ.Dynamic

open RosZ.Cdr

mutual

/-- ROS 2 field types for dynamic messages. -/
inductive FieldType where
  | bool | int8 | int16 | int32 | int64 | uint8 | uint16 | uint32 | uint64
  | float32 | float64 | string
  /-- Bounded string: `string<=N` -/
  | boundedString (max : ℕ)
  /-- Nested message type -/
  | message (schema : MessageSchema)
  /-- Fixed-size array: `T[N]` -/
  | array (inner : FieldType) (len : ℕ)
  /-- Unbounded sequence: `sequence<T>` -/
  | sequence (inner : FieldType)
  /-- Bounded sequence: `sequence<T, N>` -/
  | boundedSequence (inner : FieldType) (max : ℕ)

/-- Schema for a single message field. -/
structure FieldSchema where
  name : String
  fieldType : FieldType
  /-- Optional default value -/
  defaultValue : Option DynamicValue := none

/-- Complete schema for a ROS 2 message type. -/
structure MessageSchema where
  /-- Full type name: "geometry_msgs/msg/Twist" -/
  typeName : String
  /-- Package name: "geometry_msgs" -/
  package : String
  /-- Message name: "Twist" -/
  name : String
  /-- Ordered list of fields -/
  fields : List FieldSchema
  /-- RIHS01 type hash for compatibility checking -/
  typeHash : Option String := none

/-- Runtime representation of any ROS 2 value. -/
inductive DynamicValue where
  | bool (v : Bool)
  | int8 (v : Int8)
  | int16 (v : Int16)
  | int32 (v : Int32)
  | int64 (v : Int64)
  | uint8 (v : UInt8)
  | uint16 (v : UInt16)
  | uint32 (v : UInt32)
  | uint64 (v : UInt64)
  | float32 (bits : UInt32)
  | float64 (bits : UInt64)
  | string (v : String)
  /-- Optimized byte array (for `uint8[]` / `byte[]`) -/
  | bytes (v : List UInt8)
  /-- Nested message -/
  | message (v : DynamicMessage)
  /-- Collections (homogeneous) -/
  | array (v : List DynamicValue)

/-- A ROS 2 message with runtime-determined type. -/
structure DynamicMessage where
  schema : MessageSchema
  values : List DynamicValue

end

/-- Create a message from pre-computed values. -/
def DynamicMessage.fromValues (schema : MessageSchema) (values : List DynamicValue) :
    DynamicMessage :=
  { schema, values }

/-! ## Conformance -/

mutual

/-- `value` is one that `fieldType` calls for, within the lengths the format can
carry. -/
def Conforms : FieldType → DynamicValue → Prop
  | .bool, .bool _ => True
  | .int8, .int8 _ => True
  | .int16, .int16 _ => True
  | .int32, .int32 _ => True
  | .int64, .int64 _ => True
  | .uint8, .uint8 _ => True
  | .uint16, .uint16 _ => True
  | .uint32, .uint32 _ => True
  | .uint64, .uint64 _ => True
  | .float32, .float32 _ => True
  | .float64, .float64 _ => True
  | .string, .string v => (utf8Bytes v).length < 2 ^ 32 - 1
  | .boundedString _, .string v => (utf8Bytes v).length < 2 ^ 32 - 1
  | .array inner len, .array vs => vs.length = len ∧ AllConform inner vs
  | .sequence inner, .bytes v => inner = .uint8 ∧ v.length < 2 ^ 32
  | .sequence inner, .array vs =>
      vs.length ≤ CdrReader.maxSequenceLength ∧ AllConform inner vs
  | .boundedSequence inner _, .array vs =>
      vs.length ≤ CdrReader.maxSequenceLength ∧ AllConform inner vs
  | .message schema, .message m => m.schema = schema ∧ MessageConforms schema m
  | _, _ => False
termination_by structural _ v => v

/-- Every element conforms to the element type. -/
def AllConform : FieldType → List DynamicValue → Prop
  | _, [] => True
  | inner, v :: rest => Conforms inner v ∧ AllConform inner rest
termination_by structural _ vs => vs

/-- One conforming value for each field. -/
def FieldsConform : List FieldSchema → List DynamicValue → Prop
  | [], [] => True
  | field :: fields, v :: rest => Conforms field.fieldType v ∧ FieldsConform fields rest
  | _, _ => False
termination_by structural _ vs => vs

/-- The message's values conform to the fields of `schema`. -/
def MessageConforms : MessageSchema → DynamicMessage → Prop
  | schema, ⟨_, values⟩ => FieldsConform schema.fields values
termination_by structural _ m => m

end

/-- The message conforms to the schema it carries. -/
def DynamicMessage.Conforming (msg : DynamicMessage) : Prop :=
  MessageConforms msg.schema msg

/-! ## What the format can carry -/

/-- A count the reader takes: octets are read in bulk, other elements one by one and
within its sanity limit. -/
def Countable : FieldType → ℕ → Prop
  | .uint8, count => count < 2 ^ 32
  | _, count => count ≤ CdrReader.maxSequenceLength

theorem countable_of_le {inner : FieldType} {count : ℕ}
    (within : count ≤ CdrReader.maxSequenceLength) : Countable inner count := by
  cases inner with
  | uint8 => exact lt_of_le_of_lt within (by decide)
  | _ => exact within

theorem Countable.within {inner : FieldType} (elements : inner ≠ .uint8) {count : ℕ}
    (countable : Countable inner count) : count ≤ CdrReader.maxSequenceLength := by
  cases inner with
  | uint8 => exact absurd rfl elements
  | _ => exact countable

mutual

/-- `value` is one that `fieldType` calls for, within the lengths an encoding of it can
have.  Conforming values are; octets given as an array may be more than the sanity
limit. -/
def Representable : FieldType → DynamicValue → Prop
  | .bool, .bool _ => True
  | .int8, .int8 _ => True
  | .int16, .int16 _ => True
  | .int32, .int32 _ => True
  | .int64, .int64 _ => True
  | .uint8, .uint8 _ => True
  | .uint16, .uint16 _ => True
  | .uint32, .uint32 _ => True
  | .uint64, .uint64 _ => True
  | .float32, .float32 _ => True
  | .float64, .float64 _ => True
  | .string, .string v => (utf8Bytes v).length < 2 ^ 32 - 1
  | .boundedString _, .string v => (utf8Bytes v).length < 2 ^ 32 - 1
  | .array inner len, .array vs => vs.length = len ∧ AllRepresentable inner vs
  | .sequence inner, .bytes v => inner = .uint8 ∧ v.length < 2 ^ 32
  | .sequence inner, .array vs => Countable inner vs.length ∧ AllRepresentable inner vs
  | .boundedSequence inner _, .array vs =>
      Countable inner vs.length ∧ AllRepresentable inner vs
  | .message schema, .message m => m.schema = schema ∧ MessageRepresentable schema m
  | _, _ => False
termination_by structural _ v => v

def AllRepresentable : FieldType → List DynamicValue → Prop
  | _, [] => True
  | inner, v :: rest => Representable inner v ∧ AllRepresentable inner rest
termination_by structural _ vs => vs

def FieldsRepresentable : List FieldSchema → List DynamicValue → Prop
  | [], [] => True
  | field :: fields, v :: rest =>
      Representable field.fieldType v ∧ FieldsRepresentable fields rest
  | _, _ => False
termination_by structural _ vs => vs

def MessageRepresentable : MessageSchema → DynamicMessage → Prop
  | schema, ⟨_, values⟩ => FieldsRepresentable schema.fields values
termination_by structural _ m => m

end

mutual

theorem Conforms.representable : ∀ (v : DynamicValue) (ft : FieldType),
    Conforms ft v → Representable ft v
  | .bool _, .bool, _ => trivial
  | .int8 _, .int8, _ => trivial
  | .int16 _, .int16, _ => trivial
  | .int32 _, .int32, _ => trivial
  | .int64 _, .int64, _ => trivial
  | .uint8 _, .uint8, _ => trivial
  | .uint16 _, .uint16, _ => trivial
  | .uint32 _, .uint32, _ => trivial
  | .uint64 _, .uint64, _ => trivial
  | .float32 _, .float32, _ => trivial
  | .float64 _, .float64, _ => trivial
  | .string _, .string, conforms => conforms
  | .string _, .boundedString _, conforms => conforms
  | .bytes _, .sequence _, conforms => conforms
  | .array vs, .array inner _, conforms =>
      ⟨conforms.1, AllConform.representable vs inner conforms.2⟩
  | .array vs, .sequence inner, conforms =>
      ⟨countable_of_le conforms.1, AllConform.representable vs inner conforms.2⟩
  | .array vs, .boundedSequence inner _, conforms =>
      ⟨countable_of_le conforms.1, AllConform.representable vs inner conforms.2⟩
  | .message m, .message schema, conforms =>
      ⟨conforms.1, MessageConforms.representable m schema conforms.2⟩
termination_by structural v => v

theorem AllConform.representable : ∀ (vs : List DynamicValue) (inner : FieldType),
    AllConform inner vs → AllRepresentable inner vs
  | [], _, _ => trivial
  | v :: rest, inner, conforms =>
      ⟨Conforms.representable v inner conforms.1, AllConform.representable rest inner conforms.2⟩
termination_by structural vs => vs

theorem FieldsConform.representable : ∀ (vs : List DynamicValue) (fields : List FieldSchema),
    FieldsConform fields vs → FieldsRepresentable fields vs
  | [], [], _ => trivial
  | v :: rest, field :: fields, conforms =>
      ⟨Conforms.representable v field.fieldType conforms.1,
        FieldsConform.representable rest fields conforms.2⟩
termination_by structural vs => vs

theorem MessageConforms.representable : ∀ (m : DynamicMessage) (schema : MessageSchema),
    MessageConforms schema m → MessageRepresentable schema m
  | ⟨_, values⟩, schema, conforms => FieldsConform.representable values schema.fields conforms
termination_by structural m => m

end

theorem DynamicMessage.Conforming.representable {msg : DynamicMessage}
    (conforms : msg.Conforming) : MessageRepresentable msg.schema msg :=
  MessageConforms.representable msg msg.schema conforms

/-! ## Octet sequences -/

/-- The octet of a `uint8` value. -/
def DynamicValue.octet : DynamicValue → UInt8
  | .uint8 v => v
  | _ => 0

mutual

/-- The value with every octet sequence in its `bytes` form. -/
def DynamicValue.canonical : FieldType → DynamicValue → DynamicValue
  | .array inner _, .array vs => .array (canonicalAll inner vs)
  | .sequence .uint8, .array vs => .bytes (vs.map DynamicValue.octet)
  | .boundedSequence .uint8 _, .array vs => .bytes (vs.map DynamicValue.octet)
  | .sequence inner, .array vs => .array (canonicalAll inner vs)
  | .boundedSequence inner _, .array vs => .array (canonicalAll inner vs)
  | .message schema, .message m => .message (canonicalMessage schema m)
  | _, v => v
termination_by structural _ v => v

def canonicalAll : FieldType → List DynamicValue → List DynamicValue
  | _, [] => []
  | inner, v :: rest => v.canonical inner :: canonicalAll inner rest
termination_by structural _ vs => vs

def canonicalFields : List FieldSchema → List DynamicValue → List DynamicValue
  | field :: fields, v :: rest => v.canonical field.fieldType :: canonicalFields fields rest
  | _, _ => []
termination_by structural _ vs => vs

def canonicalMessage : MessageSchema → DynamicMessage → DynamicMessage
  | schema, ⟨own, values⟩ => ⟨own, canonicalFields schema.fields values⟩
termination_by structural _ m => m

end

/-- The message with every octet sequence in its `bytes` form. -/
def DynamicMessage.canonical (msg : DynamicMessage) : DynamicMessage :=
  canonicalMessage msg.schema msg

end RosZ.Dynamic
