import Mathlib.Data.List.Basic

/-!
# Type descriptions

`ros-z-schema/src/type_id.rs` and `type_description.rs`: the description of a message
type that is serialised and hashed to its RIHS01 type hash.

`TypeIds` is one row of the `TypeId` constants, the four ids of one base type: `INT8`,
`INT8_ARRAY`, `INT8_BOUNDED_SEQUENCE` and `INT8_UNBOUNDED_SEQUENCE` are the entries of
`TypeId.int8`.
-/

namespace RosZ.Schema

/-- The type ids of one base type: alone, in a fixed array and in a bounded or
unbounded sequence. -/
structure TypeIds where
  single : UInt8
  array : UInt8
  boundedSequence : UInt8
  unboundedSequence : UInt8

namespace TypeId

def nestedType : TypeIds := ⟨1, 49, 97, 145⟩
def int8 : TypeIds := ⟨2, 50, 98, 146⟩
/-- uint8/byte/char -/
def uint8 : TypeIds := ⟨3, 51, 99, 147⟩
def int16 : TypeIds := ⟨4, 52, 100, 148⟩
def uint16 : TypeIds := ⟨5, 53, 101, 149⟩
def int32 : TypeIds := ⟨6, 54, 102, 150⟩
def uint32 : TypeIds := ⟨7, 55, 103, 151⟩
def int64 : TypeIds := ⟨8, 56, 104, 152⟩
def uint64 : TypeIds := ⟨9, 57, 105, 153⟩
def float32 : TypeIds := ⟨10, 58, 106, 154⟩
def float64 : TypeIds := ⟨11, 59, 107, 155⟩
def bool : TypeIds := ⟨15, 63, 111, 159⟩
def string : TypeIds := ⟨17, 65, 113, 161⟩
/-- string with max length (single) -/
def boundedString : UInt8 := 21

/-- Offset to convert single type to fixed array -/
def arrayOffset : UInt8 := 48
/-- Offset to convert single type to bounded sequence -/
def boundedSequenceOffset : UInt8 := 96
/-- Offset to convert single type to unbounded sequence -/
def unboundedSequenceOffset : UInt8 := 144

/-- Check if a type ID is an array (fixed size). -/
def isArray (typeId : UInt8) : Bool := typeId ≥ 49 && typeId ≤ 65

/-- Check if a type ID is a bounded sequence. -/
def isBoundedSequence (typeId : UInt8) : Bool := typeId ≥ 97 && typeId ≤ 113

/-- Check if a type ID is an unbounded sequence. -/
def isUnboundedSequence (typeId : UInt8) : Bool := typeId ≥ 145 && typeId ≤ 161

/-- Get the base type ID (strip array/sequence modifier). -/
def baseType (typeId : UInt8) : UInt8 :=
  if isUnboundedSequence typeId then typeId - unboundedSequenceOffset
  else if isBoundedSequence typeId then typeId - boundedSequenceOffset
  else if isArray typeId then typeId - arrayOffset
  else typeId

end TypeId

/-- Field type description with type ID. -/
structure FieldTypeDescription where
  /-- Type ID (1-166, see `TypeId` constants) -/
  typeId : UInt8
  /-- Array/sequence capacity (0 for single values and unbounded sequences) -/
  capacity : ℕ
  /-- String capacity for bounded strings (0 otherwise) -/
  stringCapacity : ℕ
  /-- Nested type name (empty for primitives) -/
  nestedTypeName : String
deriving DecidableEq

namespace FieldTypeDescription

/-- Create a primitive type description. -/
def primitive (typeId : UInt8) : FieldTypeDescription := ⟨typeId, 0, 0, ""⟩

/-- Create a nested type description. -/
def nested (typeId : UInt8) (nestedTypeName : String) : FieldTypeDescription :=
  ⟨typeId, 0, 0, nestedTypeName⟩

/-- Create an array type description. -/
def array (typeId : UInt8) (capacity : ℕ) : FieldTypeDescription := ⟨typeId, capacity, 0, ""⟩

/-- Create a nested array type description. -/
def nestedArray (typeId : UInt8) (capacity : ℕ) (nestedTypeName : String) :
    FieldTypeDescription :=
  ⟨typeId, capacity, 0, nestedTypeName⟩

end FieldTypeDescription

/-- Field description in a type. -/
structure FieldDescription where
  name : String
  fieldType : FieldTypeDescription
  /-- Default value (empty string for RIHS01 hash computation) -/
  defaultValue : String
deriving DecidableEq

/-- Type description for a single message type. -/
@[ext] structure TypeDescription where
  /-- Fully qualified type name (e.g., "std_msgs/msg/String") -/
  typeName : String
  fields : List FieldDescription
deriving DecidableEq

/-- The type names that the fields of a description refer to. -/
def TypeDescription.nestedTypeNames (desc : TypeDescription) : List String :=
  (desc.fields.map (·.fieldType.nestedTypeName)).filter (· ≠ "")

/-- The main type and all referenced (nested) type descriptions. -/
structure TypeDescriptionMsg where
  typeDescription : TypeDescription
  referencedTypeDescriptions : List TypeDescription
deriving DecidableEq

/-- Every type name that occurs in a description message. -/
def TypeDescriptionMsg.nestedTypeNames (msg : TypeDescriptionMsg) : List String :=
  msg.typeDescription.nestedTypeNames ++
    msg.referencedTypeDescriptions.flatMap TypeDescription.nestedTypeNames

end RosZ.Schema
