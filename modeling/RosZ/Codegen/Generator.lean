import RosZ.Cdr.Sizes
import RosZ.Codegen.Hashing

/-!
# Generated messages

`generator/rust.rs`, as far as the size estimate of a message goes: the Rust types of its fields
and the body of `estimated_cdr_size`, one `Statement` for each field.  What is generated is data
here, and `run` is its meaning.

* A `Value` is a value of a generated type.  A struct knows its name, as its static type does,
  and `Value.serde` is how the derived `Serialize` presents it.
* `Definitions` are the fields of the messages that were resolved, by package and name.

Sizes are natural numbers, since no value in memory has a size out of the range of `usize`.
-/

namespace RosZ.Codegen.Generator

open RosZ.Cdr

/-! ## Types -/

/-- The type of a generated field. -/
inductive RustType where
  | bool | u8 | i8 | u16 | i16 | u32 | i32 | u64 | i64 | f32 | f64
  | string
  | zbuf
  | message (package name : String)
  | vec (element : RustType)
  | array (element : RustType) (length : ℕ)

/-- Generate base type tokens. -/
def generateBaseTypeTokens (fieldType : FieldType) (sourcePackage : String) : RustType :=
  match fieldType.baseType with
  | "bool" => .bool
  | "byte" | "uint8" => .u8
  | "char" | "int8" => .i8
  | "uint16" => .u16
  | "int16" => .i16
  | "uint32" => .u32
  | "int32" => .i32
  | "uint64" => .u64
  | "int64" => .i64
  | "float32" => .f32
  | "float64" => .f64
  | "string" => .string
  | custom => .message (fieldType.packageIn sourcePackage) custom

/-- Generate Rust type tokens for a field type. -/
def generateFieldTypeTokens (fieldType : FieldType) (sourcePackage : String) : RustType :=
  let base := generateBaseTypeTokens fieldType sourcePackage
  match fieldType.array with
  | .single => base
  | .fixed n => .array base n
  | .unbounded =>
      if fieldType.baseType = "uint8" ∨ fieldType.baseType = "byte" then .zbuf else .vec base
  | .bounded _ => .vec base

/-! ## Values -/

/-- A value of a generated type. -/
inductive Value where
  | bool (v : Bool)
  | u8 (v : UInt8)
  | i8 (v : Int8)
  | u16 (v : UInt16)
  | i16 (v : Int16)
  | u32 (v : UInt32)
  | i32 (v : Int32)
  | u64 (v : UInt64)
  | i64 (v : Int64)
  | f32 (bits : UInt32)
  | f64 (bits : UInt64)
  | string (v : String)
  | zbuf (v : ZBuf)
  | vec (elements : List Value)
  | array (elements : List Value)
  | message (package name : String) (fields : List Value)

/-- `.len()`. -/
def Value.len : Value → ℕ
  | .string v => (utf8Bytes v).length
  | .zbuf v => v.contiguous.length
  | .vec elements => elements.length
  | .array elements => elements.length
  | _ => 0

/-- What a loop over a value visits. -/
def Value.elements : Value → List Value
  | .vec elements => elements
  | .array elements => elements
  | _ => []

mutual

/-- What the value presents to a serializer: an array is a tuple, also a big one. -/
def Value.serde : Value → SerdeValue
  | .bool v => .bool v
  | .u8 v => .u8 v
  | .i8 v => .i8 v
  | .u16 v => .u16 v
  | .i16 v => .i16 v
  | .u32 v => .u32 v
  | .i32 v => .i32 v
  | .u64 v => .u64 v
  | .i64 v => .i64 v
  | .f32 bits => .f32 bits
  | .f64 bits => .f64 bits
  | .string v => .str v
  | .zbuf v => .bytes v.contiguous
  | .vec elements => .seq (serdeAll elements)
  | .array elements => .tuple (serdeAll elements)
  | .message _ _ fields => .struct (serdeAll fields)

def serdeAll : List Value → List SerdeValue
  | [] => []
  | v :: rest => v.serde :: serdeAll rest

end

/-- The fields of the messages there are, by package and name. -/
abbrev Definitions : Type := String → String → Option (List Field)

/-- The types of the fields of a struct. -/
def fieldTypes (sourcePackage : String) (fields : List Field) : List RustType :=
  fields.map fun field => generateFieldTypeTokens field.fieldType sourcePackage

mutual

/-- `v` is a value of the type. -/
def hasType (definitions : Definitions) : RustType → Value → Bool
  | .bool, .bool _ => true
  | .u8, .u8 _ => true
  | .i8, .i8 _ => true
  | .u16, .u16 _ => true
  | .i16, .i16 _ => true
  | .u32, .u32 _ => true
  | .i32, .i32 _ => true
  | .u64, .u64 _ => true
  | .i64, .i64 _ => true
  | .f32, .f32 _ => true
  | .f64, .f64 _ => true
  | .string, .string _ => true
  | .zbuf, .zbuf _ => true
  | .vec element, .vec elements => allHaveType definitions element elements
  | .array element length, .array elements =>
      elements.length == length && allHaveType definitions element elements
  | .message package name, .message package' name' values =>
      package = package' && name = name' &&
        match definitions package name with
        | some fields => haveTypes definitions (fieldTypes package fields) values
        | none => false
  | _, _ => false
termination_by structural _ v => v

def allHaveType (definitions : Definitions) : RustType → List Value → Bool
  | _, [] => true
  | type, v :: rest => hasType definitions type v && allHaveType definitions type rest
termination_by structural _ vs => vs

/-- The fields have the listed types, one each. -/
def haveTypes (definitions : Definitions) : List RustType → List Value → Bool
  | [], [] => true
  | type :: types, v :: rest => hasType definitions type v && haveTypes definitions types rest
  | _, _ => false
termination_by structural _ vs => vs

end

/-! ## The estimate -/

/-- What is generated for a field of a message. -/
inductive Statement where
  /-- `size += n;` -/
  | add (n : ℕ)
  /-- `size += n + (self.field.len() * factor);` -/
  | addLen (n factor : ℕ)
  /-- `size += n; for s in &self.field { size += 4 + s.len(); }` -/
  | eachString (n : ℕ)
  /-- `size += SizeEstimation::estimated_cdr_size(&self.field);` -/
  | nested
  /-- `size += n; for item in &self.field { size += SizeEstimation::estimated_cdr_size(item); }` -/
  | eachNested (n : ℕ)

/-- Check if a field uses ZBuf (uint8[] or byte[]). -/
def isZbufField (field : Field) : Bool :=
  match field.fieldType.baseType, field.fieldType.array with
  | "uint8", .unbounded | "byte", .unbounded => true
  | _, _ => false

/-- Check if a type is a primitive. -/
def isPrimitiveType (baseType : String) : Bool :=
  baseType ∈ ["bool", "byte", "uint8", "int8", "char", "uint16", "int16", "wchar", "uint32",
    "int32", "float32", "uint64", "int64", "float64"]

/-- Get the size in bytes of a primitive type. -/
def getPrimitiveSize : String → Except String ℕ
  | "bool" | "byte" | "uint8" | "int8" | "char" => .ok 1
  | "uint16" | "int16" | "wchar" => .ok 2
  | "uint32" | "int32" | "float32" => .ok 4
  | "uint64" | "int64" | "float64" => .ok 8
  | baseType => .error s!"Unknown primitive type: {baseType}"

/-- Generate size calculation expression for a single field. -/
def generateFieldSizeExpr (field : Field) : Except String Statement :=
  if isZbufField field then
    .ok (.addLen 4 1)
  else if field.fieldType.baseType = "string" then
    match field.fieldType.array with
    | .single => .ok (.addLen 4 1)
    | .unbounded | .bounded _ => .ok (.eachString 4)
    | .fixed _ => .ok (.eachString 0)
  else if isPrimitiveType field.fieldType.baseType then do
    let elemSize ← getPrimitiveSize field.fieldType.baseType
    match field.fieldType.array with
    | .single => return .add elemSize
    | .unbounded | .bounded _ => return .addLen 4 elemSize
    | .fixed n => return .add (n * elemSize)
  else
    -- anything not primitive or string
    match field.fieldType.array with
    | .single => .ok .nested
    | .unbounded | .bounded _ => .ok (.eachNested 4)
    | .fixed _ => .ok (.eachNested 0)

/-- The body of the `estimated_cdr_size` of a message. -/
def generateSizeEstimationImpl (fields : List Field) : Except String (List Statement) :=
  fields.mapM generateFieldSizeExpr

/-- The body generated for a message, if there is such a message. -/
def body (definitions : Definitions) (package name : String) : Option (List Statement) :=
  (definitions package name).bind fun fields => (generateSizeEstimationImpl fields).toOption

mutual

/-- What a statement adds to `size`. -/
def run (definitions : Definitions) : Statement → Value → ℕ
  | .add n, _ => n
  | .addLen n factor, v => n + v.len * factor
  | .eachString n, v => n + (v.elements.map fun s => 4 + s.len).sum
  | .nested, .message package name fields =>
      match body definitions package name with
      | some statements => runAll definitions statements fields + 16  -- alignment padding
      | none => 0
  | .eachNested n, .vec elements => n + runEach definitions elements
  | .eachNested n, .array elements => n + runEach definitions elements
  | _, _ => 0
termination_by structural _ v => v

/-- The statements of a body, on the fields of a struct. -/
def runAll (definitions : Definitions) : List Statement → List Value → ℕ
  | statement :: statements, v :: rest =>
      run definitions statement v + runAll definitions statements rest
  | _, _ => 0
termination_by structural _ vs => vs

/-- The estimates of some structs. -/
def runEach (definitions : Definitions) : List Value → ℕ
  | [] => 0
  | v :: rest => run definitions .nested v + runEach definitions rest
termination_by structural vs => vs

end

/-- `SizeEstimation::estimated_cdr_size` of a message. -/
def estimatedCdrSize (definitions : Definitions) (message : Value) : ℕ :=
  run definitions .nested message

/-- Get an accurate estimate of the serialized CDR size. -/
def estimatedSerializedSize (definitions : Definitions) (message : Value) : ℕ :=
  4 + estimatedCdrSize definitions message  -- 4 for CDR header

end RosZ.Codegen.Generator
