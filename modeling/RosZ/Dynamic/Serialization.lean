import RosZ.Dynamic.Schema

/-!
# CDR serialization of dynamic messages

`serialization/cdr.rs`: the schema-driven encoder and decoder over the CDR
primitives.  The encoder recurses over the value, the decoder over the field
type.

Errors keep the data their text is made of: a type mismatch the value and the
field type it formats, a reader error the CDR error it prints.
-/

namespace RosZ.Dynamic

open RosZ.Cdr Wire

/-- Errors of the encoder and the decoder. -/
inductive DynamicError where
  /-- "Type mismatch: cannot serialize {value} as {field_type}" -/
  | serializationError (value : DynamicValue) (fieldType : FieldType)
  /-- "CDR data too short for header" -/
  | headerTooShort
  /-- "Expected CDR_LE encapsulation ([0, 1]), found {found}" -/
  | representationIdentifier (found : List UInt8)
  /-- A CDR error, mapped by `map_cdr_err`. -/
  | deserializationError (e : Error)

/-- CDR encapsulation header for little-endian encoding. -/
def cdrHeaderLe : List UInt8 := [0x00, 0x01, 0x00, 0x00]

/-! ## The encoder -/

/-- `CdrWriter<LittleEndian>` on a `Vec<u8>`. -/
abbrev Writer : Type := CdrWriter .littleEndian (List UInt8)

mutual

def serializeValue : DynamicValue → FieldType → Writer → Except DynamicError Writer
  | .bool v, .bool, w => .ok (w.writeBool v)
  | .int8 v, .int8, w => .ok (w.writeI8 v)
  | .int16 v, .int16, w => .ok (w.writeI16 v)
  | .int32 v, .int32, w => .ok (w.writeI32 v)
  | .int64 v, .int64, w => .ok (w.writeI64 v)
  | .uint8 v, .uint8, w => .ok (w.writeU8 v)
  | .uint16 v, .uint16, w => .ok (w.writeU16 v)
  | .uint32 v, .uint32, w => .ok (w.writeU32 v)
  | .uint64 v, .uint64, w => .ok (w.writeU64 v)
  | .float32 bits, .float32, w => .ok (w.writeF32 bits)
  | .float64 bits, .float64, w => .ok (w.writeF64 bits)
  | .string v, .string, w => .ok (w.writeString v)
  | .string v, .boundedString _, w => .ok (w.writeString v)
  -- Fixed-size array (no length prefix)
  | .array vs, .array inner _, w => serializeAll vs inner w
  -- Sequence (with length prefix)
  | .array vs, .sequence inner, w => serializeAll vs inner (w.writeSequenceLength vs.length)
  -- Bounded sequence (with length prefix)
  | .array vs, .boundedSequence inner _, w =>
      serializeAll vs inner (w.writeSequenceLength vs.length)
  -- Optimized byte array
  | .bytes v, .sequence .uint8, w => .ok (w.writeBytes v)
  -- Nested message
  | .message nested, .message _, w => serializeMessage nested w
  | value, fieldType, _ => .error (.serializationError value fieldType)
termination_by structural v => v

/-- The element loop of arrays and sequences. -/
def serializeAll : List DynamicValue → FieldType → Writer → Except DynamicError Writer
  | [], _, w => .ok w
  | v :: rest, inner, w => serializeValue v inner w >>= serializeAll rest inner
termination_by structural vs => vs

/-- The field loop: fields zipped with values, so the shorter of the two ends it. -/
def serializeFields : List DynamicValue → List FieldSchema → Writer → Except DynamicError Writer
  | v :: rest, field :: fields, w =>
      serializeValue v field.fieldType w >>= serializeFields rest fields
  | _, _, w => .ok w
termination_by structural vs => vs

def serializeMessage : DynamicMessage → Writer → Except DynamicError Writer
  | ⟨schema, values⟩, w => serializeFields values schema.fields w
termination_by structural m => m

end

/-- Serialize a dynamic message to CDR bytes. -/
def serializeCdr (msg : DynamicMessage) : Except DynamicError (List UInt8) := do
  let w ← serializeMessage msg (CdrWriter.new cdrHeaderLe)
  return w.buffer

/-! ## The decoder -/

/-- An operation on `&mut CdrReader<LittleEndian>` with dynamic errors. -/
abbrev DecodeM : Type → Type := EStateM DynamicError (CdrReader .littleEndian)

/-- `.map_err(map_cdr_err)` -/
def mapCdrErr {α : Type} (read : ReadM .littleEndian α) : DecodeM α :=
  EStateM.adaptExcept .deserializationError read

open CdrReader in
mutual

def deserializeValue : FieldType → DecodeM DynamicValue
  | .bool => do return .bool (← mapCdrErr readBool)
  | .int8 => do return .int8 (← mapCdrErr readI8)
  | .int16 => do return .int16 (← mapCdrErr readI16)
  | .int32 => do return .int32 (← mapCdrErr readI32)
  | .int64 => do return .int64 (← mapCdrErr readI64)
  | .uint8 => do return .uint8 (← mapCdrErr readU8)
  | .uint16 => do return .uint16 (← mapCdrErr readU16)
  | .uint32 => do return .uint32 (← mapCdrErr readU32)
  | .uint64 => do return .uint64 (← mapCdrErr readU64)
  | .float32 => do return .float32 (← mapCdrErr readF32)
  | .float64 => do return .float64 (← mapCdrErr readF64)
  | .string => do return .string (← mapCdrErr readString)
  | .boundedString _ => do return .string (← mapCdrErr readString)
  -- Fixed-size array
  | .array inner len => do return .array (← readMany (deserializeValue inner) len)
  -- Sequence, with byte arrays read in bulk
  | .sequence .uint8 => do return .bytes (← mapCdrErr readByteSequence)
  | .sequence inner => do
      let len ← mapCdrErr readSequenceLength
      return .array (← readMany (deserializeValue inner) len)
  -- Bounded sequence: same handling as unbounded sequence for deserialization
  | .boundedSequence .uint8 _ => do return .bytes (← mapCdrErr readByteSequence)
  | .boundedSequence inner _ => do
      let len ← mapCdrErr readSequenceLength
      return .array (← readMany (deserializeValue inner) len)
  -- Nested message
  | .message schema => do return .message (← deserializeMessage schema)

/-- The field loop: one value for each field, in order. -/
def deserializeFields : List FieldSchema → DecodeM (List DynamicValue)
  | [] => return []
  | field :: fields => do
      let value ← deserializeField field
      let values ← deserializeFields fields
      return value :: values

def deserializeField : FieldSchema → DecodeM DynamicValue
  | ⟨_, fieldType, _⟩ => deserializeValue fieldType

def deserializeMessage : MessageSchema → DecodeM DynamicMessage
  | ⟨typeName, package, name, fields, typeHash⟩ => do
      let values ← deserializeFields fields
      return DynamicMessage.fromValues ⟨typeName, package, name, fields, typeHash⟩ values

end

/-- Deserialize a dynamic message from CDR bytes. -/
def deserializeCdr (data : List UInt8) (schema : MessageSchema) :
    Except DynamicError DynamicMessage :=
  if data.length < 4 then .error .headerTooShort
  else if data.take 2 ≠ [0x00, 0x01] then .error (.representationIdentifier (data.take 2))
  else
    match (deserializeMessage schema).run (@CdrReader.new .littleEndian (data.drop 4)) with
    | .ok msg _ => .ok msg
    | .error e _ => .error e

end RosZ.Dynamic
