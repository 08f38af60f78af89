import RosZ.Cdr.Primitives

/-!
# The serde serializer and deserializer

`CdrSerializer` (`serializer.rs`) and `CdrDeserializer` (`deserializer.rs`) on
the serde data model.

* `SerdeValue` is a value as its `Serialize` implementation presents it: one
  constructor per serializer method, without the names and lengths CDR ignores.
* `SerdeType` is a type as its `Deserialize` implementation asks for it.  CDR is
  not self-describing, so decoding is directed by the type.
* `serialize` drives the serializer methods the way derived implementations do,
  `deserialize` the deserializer methods and their visitors.

A map is the list of its entries in the order in which they are visited.  Both
`SequenceHelper` counters (`element_counter` up to `expected_count`) are one
counter running down in `readMany`.
-/

namespace RosZ.Cdr

open Wire

/-! ## The data model -/

/-- A value of the serde data model. -/
inductive SerdeValue where
  | bool (v : Bool)
  | i8 (v : Int8)
  | i16 (v : Int16)
  | i32 (v : Int32)
  | i64 (v : Int64)
  | i128 (v : BitVec 128)
  | u8 (v : UInt8)
  | u16 (v : UInt16)
  | u32 (v : UInt32)
  | u64 (v : UInt64)
  | u128 (v : BitVec 128)
  | f32 (bits : UInt32)
  | f64 (bits : UInt64)
  | char (v : Char)
  | str (v : String)
  | bytes (v : List UInt8)
  | none
  | some (v : SerdeValue)
  | unit
  | unitStruct
  | newtypeStruct (v : SerdeValue)
  | seq (elements : List SerdeValue)
  | map (entries : List (SerdeValue × SerdeValue))
  | tuple (elements : List SerdeValue)
  | tupleStruct (fields : List SerdeValue)
  | struct (fields : List SerdeValue)
  | unitVariant (index : UInt32)
  | newtypeVariant (index : UInt32) (v : SerdeValue)
  | tupleVariant (index : UInt32) (fields : List SerdeValue)
  | structVariant (index : UInt32) (fields : List SerdeValue)

mutual

/-- A type of the serde data model, as a `Deserialize` implementation drives the
deserializer. -/
inductive SerdeType where
  | bool | i8 | i16 | i32 | i64 | i128 | u8 | u16 | u32 | u64 | u128 | f32 | f64
  | char | str | bytes
  | option (inner : SerdeType)
  | unit
  | unitStruct
  | newtypeStruct (inner : SerdeType)
  | seq (element : SerdeType)
  | map (key value : SerdeType)
  | tuple (elements : List SerdeType)
  | tupleStruct (fields : List SerdeType)
  | struct (fields : List SerdeType)
  | enum (variants : List VariantType)

/-- The shape of one enum variant. -/
inductive VariantType where
  | unit
  | newtype (inner : SerdeType)
  | tuple (fields : List SerdeType)
  | struct (fields : List SerdeType)

end

/-! ## The serializer -/

/-- How a serializer call ends without `Ok`: it returns an error or it panics. -/
inductive Abort where
  | err (e : Error)
  | panic
  deriving DecidableEq, Repr

namespace CdrSerializer

variable {order : ByteOrder} {B : Type} [CdrBuffer B]

def serializeU32 (v : UInt32) (w : CdrWriter order B) : Except Abort (CdrWriter order B) :=
  .ok (w.writeU32 v)

/-- `align(16)` slices up to 15 octets out of the eight zeros. -/
def serializeU128 (v : BitVec 128) (w : CdrWriter order B) :
    Except Abort (CdrWriter order B) :=
  if w.alignPanics 16 then .error .panic
  else .ok ((w.align 16).extendFromSlice (order.encode 16 v.toNat))

def serializeSeq (len : Option ℕ) (w : CdrWriter order B) : Except Abort (CdrWriter order B) :=
  match len with
  | .none => .error (.err .unknownLength)
  | .some elemCount => .ok (w.writeSequenceLength elemCount)

def serializeMap (len : Option ℕ) (w : CdrWriter order B) : Except Abort (CdrWriter order B) :=
  match len with
  | .none => .error (.err .unknownLength)
  | .some elemCount => .ok (w.writeSequenceLength elemCount)

mutual

/-- `value.serialize(&mut serializer)`. -/
def serialize : SerdeValue → CdrWriter order B → Except Abort (CdrWriter order B)
  | .bool v, w => .ok (w.writeBool v)
  | .i8 v, w => .ok (w.writeI8 v)
  | .i16 v, w => .ok (w.writeI16 v)
  | .i32 v, w => .ok (w.writeI32 v)
  | .i64 v, w => .ok (w.writeI64 v)
  -- the serializer has no `serialize_i128`: this is serde's default method
  | .i128 _, _ => .error (.err (.custom "i128 is not supported"))
  | .u8 v, w => .ok (w.writeU8 v)
  | .u16 v, w => .ok (w.writeU16 v)
  | .u32 v, w => serializeU32 v w
  | .u64 v, w => .ok (w.writeU64 v)
  | .u128 v, w => serializeU128 v w
  | .f32 bits, w => .ok (w.writeF32 bits)
  | .f64 bits, w => .ok (w.writeF64 bits)
  | .char v, w => serializeU32 v.val w
  | .str v, w => .ok (w.writeString v)
  | .bytes v, w => .ok (w.writeBytes v)
  | .none, w => serializeU32 0 w
  | .some v, w => serializeU32 1 w >>= serialize v
  | .unit, w => .ok w
  | .unitStruct, w => .ok w
  | .newtypeStruct v, w => serialize v w
  | .seq elements, w => serializeSeq (.some elements.length) w >>= serializeElements elements
  | .map entries, w => serializeMap (.some entries.length) w >>= serializeEntries entries
  | .tuple elements, w => serializeElements elements w
  | .tupleStruct fields, w => serializeElements fields w
  | .struct fields, w => serializeElements fields w
  | .unitVariant index, w => serializeU32 index w
  | .newtypeVariant index v, w => serializeU32 index w >>= serialize v
  | .tupleVariant index fields, w => serializeU32 index w >>= serializeElements fields
  | .structVariant index fields, w => serializeU32 index w >>= serializeElements fields
termination_by structural v => v

/-- `serialize_element` / `serialize_field` for each component, then `end`. -/
def serializeElements : List SerdeValue → CdrWriter order B → Except Abort (CdrWriter order B)
  | [], w => .ok w
  | v :: rest, w => serialize v w >>= serializeElements rest
termination_by structural vs => vs

/-- `serialize_key` and `serialize_value` for each entry, then `end`. -/
def serializeEntries : List (SerdeValue × SerdeValue) → CdrWriter order B →
    Except Abort (CdrWriter order B)
  | [], w => .ok w
  | (key, value) :: rest, w => serialize key w >>= serialize value >>= serializeEntries rest
termination_by structural entries => entries

end

end CdrSerializer

/-- Serialize to a new `Vec<u8>`. -/
def toVec (order : ByteOrder) (value : SerdeValue) : Except Abort (List UInt8) := do
  let w ← CdrSerializer.serialize value (@CdrWriter.new order _ _ ([] : List UInt8))
  return w.buffer

/-- Serialize to any buffer, whose old contents are discarded. -/
def toBuffer {B : Type} [CdrBuffer B] (order : ByteOrder) (value : SerdeValue) (buffer : B) :
    Except Abort B := do
  let w ← CdrSerializer.serialize value (@CdrWriter.new order _ _ (CdrBuffer.clear buffer))
  return w.buffer

/-! ## The deserializer -/

namespace CdrDeserializer

open CdrReader

variable {order : ByteOrder}

/-- `char::from_u32`. -/
def charFromU32 (codepoint : UInt32) : Option Char :=
  if h : codepoint.isValidChar then .some ⟨codepoint, h⟩ else .none

def deserializeChar : ReadM order Char := do
  let codepoint ← readU32
  match charFromU32 codepoint with
  | .some c => return c
  | .none => throw (.invalidChar codepoint)

/-- `EnumAccess::variant_seed` after `deserialize_enum`: align, then the tag. -/
def enumTag : ReadM order UInt32 := do
  align 4
  readU32

mutual

/-- `T::deserialize(&mut deserializer)`. -/
def deserialize : SerdeType → ReadM order SerdeValue
  | .bool => do return .bool (← readBool)
  | .i8 => do return .i8 (← readI8)
  | .i16 => do return .i16 (← readI16)
  | .i32 => do return .i32 (← readI32)
  | .i64 => do return .i64 (← readI64)
  -- serde's default methods: the deserializer has none for 128-bit integers
  | .i128 => throw (.custom "i128 is not supported")
  | .u8 => do return .u8 (← readU8)
  | .u16 => do return .u16 (← readU16)
  | .u32 => do return .u32 (← readU32)
  | .u64 => do return .u64 (← readU64)
  | .u128 => throw (.custom "u128 is not supported")
  | .f32 => do return .f32 (← readF32)
  | .f64 => do return .f64 (← readF64)
  | .char => do return .char (← deserializeChar)
  | .str => do return .str (← readStr)
  | .bytes => do return .bytes (← readByteSequence)
  | .option inner => do
      let tag ← readU32
      if tag = 0 then return .none
      else if tag = 1 then return .some (← deserialize inner)
      else throw (.invalidOptionTag tag)
  | .unit => return .unit
  | .unitStruct => return .unitStruct
  | .newtypeStruct inner => do return .newtypeStruct (← deserialize inner)
  | .seq element => do
      let count ← readSequenceLength
      return .seq (← readMany (deserialize element) count)
  | .map key value => do
      let count ← readSequenceLength
      return .map (← readMany (do return (← deserialize key, ← deserialize value)) count)
  | .tuple elements => do return .tuple (← deserializeFields elements)
  | .tupleStruct fields => do return .tupleStruct (← deserializeFields fields)
  | .struct fields => do return .struct (← deserializeFields fields)
  | .enum variants => do
      let tag ← enumTag
      deserializeVariant tag variants.length variants tag.toNat

/-- The visitor of a fixed-length type asks for its components in turn. -/
def deserializeFields : List SerdeType → ReadM order (List SerdeValue)
  | [] => return []
  | t :: rest => do
      let v ← deserialize t
      let vs ← deserializeFields rest
      return v :: vs

/-- Find the variant with the given index and read its content. -/
def deserializeVariant (tag : UInt32) (count : ℕ) :
    List VariantType → ℕ → ReadM order SerdeValue
  | [], _ => throw (.custom
      s!"invalid value: integer `{tag.toNat}`, expected variant index 0 <= i < {count}")
  | variant :: _, 0 => deserializeContent tag variant
  | _ :: rest, n + 1 => deserializeVariant tag count rest n

/-- The `VariantAccess` methods. -/
def deserializeContent (tag : UInt32) : VariantType → ReadM order SerdeValue
  | .unit => return .unitVariant tag
  | .newtype inner => do return .newtypeVariant tag (← deserialize inner)
  | .tuple fields => do return .tupleVariant tag (← deserializeFields fields)
  | .struct fields => do return .structVariant tag (← deserializeFields fields)

end

end CdrDeserializer

/-- Deserialize a value of the given type; also the number of bytes consumed. -/
def fromBytes (order : ByteOrder) (t : SerdeType) (input : List UInt8) :
    Except Error (SerdeValue × ℕ) :=
  match (@CdrDeserializer.deserialize order t).run (@CdrReader.new order input) with
  | .ok value reader => .ok (value, reader.position)
  | .error e _ => .error e

end RosZ.Cdr
