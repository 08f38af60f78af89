import RosZ.Codegen.Generator

/-!
# The size estimate

`estimated_serialized_size` against the octets that are written.  Field by field the estimate
counts the words of the encoding, but not the octet behind each string (`Value.unforeseen`), and
it has 16 octets in reserve for each message (`Value.spare`): `run_add` is the balance of the two.
Padding is counted nowhere, so that the reserve has to cover it as well (`covers_iff`).

A message type called `wchar` is taken for a primitive of two octets, whatever its fields are.
-/

namespace RosZ.Codegen.Generator

open RosZ.Cdr Wire

/-! ## What is counted for a field -/

/-- A type whose values are counted as so many octets. -/
inductive Primitive : RustType → ℕ → Prop
  | bool : Primitive .bool 1
  | u8 : Primitive .u8 1
  | i8 : Primitive .i8 1
  | u16 : Primitive .u16 2
  | i16 : Primitive .i16 2
  | u32 : Primitive .u32 4
  | i32 : Primitive .i32 4
  | u64 : Primitive .u64 8
  | i64 : Primitive .i64 8
  | f32 : Primitive .f32 4
  | f64 : Primitive .f64 8
  | wchar (package : String) : Primitive (.message package "wchar") 2

/-- The statements for the types of fields. -/
inductive Counted : RustType → Statement → Prop
  | zbuf : Counted .zbuf (.addLen 4 1)
  | string : Counted .string (.addLen 4 1)
  | strings : Counted (.vec .string) (.eachString 4)
  | stringArray (n : ℕ) : Counted (.array .string n) (.eachString 0)
  | primitive {type : RustType} {size : ℕ} : Primitive type size → Counted type (.add size)
  | primitives {type : RustType} {size : ℕ} :
      Primitive type size → Counted (.vec type) (.addLen 4 size)
  | primitiveArray {type : RustType} {size : ℕ} (n : ℕ) :
      Primitive type size → Counted (.array type n) (.add (n * size))
  | nested {package name : String} : name ≠ "wchar" → Counted (.message package name) .nested
  | nesteds {package name : String} :
      name ≠ "wchar" → Counted (.vec (.message package name)) (.eachNested 4)
  | nestedArray {package name : String} (n : ℕ) :
      name ≠ "wchar" → Counted (.array (.message package name) n) (.eachNested 0)

section Fields

variable {fieldType : FieldType}

theorem exists_primitive (primitive : isPrimitiveType fieldType.baseType = true)
    (package : String) : ∃ size, getPrimitiveSize fieldType.baseType = .ok size ∧
      Primitive (generateBaseTypeTokens fieldType package) size := by
  obtain ⟨baseType, _, _, _⟩ := fieldType
  simp only [isPrimitiveType, decide_eq_true_eq, List.mem_cons, List.not_mem_nil, or_false]
    at primitive
  rcases primitive with rfl | rfl | rfl | rfl | rfl | rfl | rfl | rfl | rfl | rfl | rfl | rfl |
    rfl | rfl
  · exact ⟨1, rfl, .bool⟩
  · exact ⟨1, rfl, .u8⟩
  · exact ⟨1, rfl, .u8⟩
  · exact ⟨1, rfl, .i8⟩
  · exact ⟨1, rfl, .i8⟩
  · exact ⟨2, rfl, .u16⟩
  · exact ⟨2, rfl, .i16⟩
  · exact ⟨2, rfl, .wchar _⟩
  · exact ⟨4, rfl, .u32⟩
  · exact ⟨4, rfl, .i32⟩
  · exact ⟨4, rfl, .f32⟩
  · exact ⟨8, rfl, .u64⟩
  · exact ⟨8, rfl, .i64⟩
  · exact ⟨8, rfl, .f64⟩

theorem message_of_not_primitive (notString : fieldType.baseType ≠ "string")
    (notPrimitive : ¬ isPrimitiveType fieldType.baseType = true) (package : String) :
    generateBaseTypeTokens fieldType package =
      .message (fieldType.packageIn package) fieldType.baseType ∧ fieldType.baseType ≠ "wchar" := by
  simp only [isPrimitiveType, decide_eq_true_eq, List.mem_cons, List.not_mem_nil, or_false, not_or]
    at notPrimitive
  refine ⟨?_, notPrimitive.2.2.2.2.2.2.2.1⟩
  unfold generateBaseTypeTokens
  split
  all_goals simp_all

theorem string_base (isString : fieldType.baseType = "string") (package : String) :
    generateBaseTypeTokens fieldType package = .string := by
  rw [generateBaseTypeTokens, isString]
  rfl

end Fields

theorem isZbufField_iff {field : Field} : isZbufField field = true ↔
    (field.fieldType.baseType = "uint8" ∨ field.fieldType.baseType = "byte") ∧
      field.fieldType.array = .unbounded := by
  unfold isZbufField
  split
  · next isUint8 array => exact iff_of_true rfl ⟨.inl isUint8, array⟩
  · next isByte array => exact iff_of_true rfl ⟨.inr isByte, array⟩
  · next notUint8 notByte =>
      refine iff_of_false Bool.false_ne_true ?_
      rintro ⟨isUint8 | isByte, array⟩
      · exact notUint8 isUint8 array
      · exact notByte isByte array

/-- The type of a field without octets of its own kind. -/
theorem generateFieldTypeTokens_eq {field : Field} (notZbuf : ¬ isZbufField field = true)
    (package : String) : generateFieldTypeTokens field.fieldType package =
      match field.fieldType.array with
      | .single => generateBaseTypeTokens field.fieldType package
      | .fixed n => .array (generateBaseTypeTokens field.fieldType package) n
      | .unbounded | .bounded _ => .vec (generateBaseTypeTokens field.fieldType package) := by
  rw [isZbufField_iff, not_and] at notZbuf
  unfold generateFieldTypeTokens
  rcases array : field.fieldType.array with _ | n | n | _
  · rfl
  · rfl
  · rfl
  · exact if_neg fun octets => notZbuf octets array

/-- Every field has a statement, which goes with its type. -/
theorem exists_statement (package : String) (field : Field) :
    ∃ statement, generateFieldSizeExpr field = .ok statement ∧
      Counted (generateFieldTypeTokens field.fieldType package) statement := by
  unfold generateFieldSizeExpr
  by_cases zbuf : isZbufField field = true
  · obtain ⟨octets, array⟩ := isZbufField_iff.mp zbuf
    rw [if_pos zbuf, generateFieldTypeTokens, array]
    dsimp only
    rw [if_pos octets]
    exact ⟨_, rfl, .zbuf⟩
  · rw [if_neg zbuf, generateFieldTypeTokens_eq zbuf]
    by_cases isString : field.fieldType.baseType = "string"
    · rw [if_pos isString, string_base isString]
      rcases field.fieldType.array with _ | n | n | _
      · exact ⟨_, rfl, .string⟩
      · exact ⟨_, rfl, .stringArray n⟩
      · exact ⟨_, rfl, .strings⟩
      · exact ⟨_, rfl, .strings⟩
    · rw [if_neg isString]
      by_cases primitive : isPrimitiveType field.fieldType.baseType = true
      · obtain ⟨size, known, ofType⟩ := exists_primitive primitive package
        rw [if_pos primitive, known]
        rcases field.fieldType.array with _ | n | n | _
        · exact ⟨_, rfl, .primitive ofType⟩
        · exact ⟨_, rfl, .primitiveArray n ofType⟩
        · exact ⟨_, rfl, .primitives ofType⟩
        · exact ⟨_, rfl, .primitives ofType⟩
      · obtain ⟨message, plain⟩ := message_of_not_primitive isString primitive package
        rw [if_neg primitive, message]
        rcases field.fieldType.array with _ | n | n | _
        · exact ⟨_, rfl, .nested plain⟩
        · exact ⟨_, rfl, .nestedArray n plain⟩
        · exact ⟨_, rfl, .nesteds plain⟩
        · exact ⟨_, rfl, .nesteds plain⟩

/-- The body generated for some fields goes with their types. -/
theorem exists_body (package : String) (fields : List Field) :
    ∃ statements, generateSizeEstimationImpl fields = .ok statements ∧
      List.Forall₂ Counted (fieldTypes package fields) statements := by
  induction fields with
  | nil => exact ⟨[], rfl, .nil⟩
  | cons field fields ih =>
      obtain ⟨statement, generated, counted⟩ := exists_statement package field
      obtain ⟨statements, others, rest⟩ := ih
      refine ⟨statement :: statements, ?_, .cons counted rest⟩
      have later : fields.mapM generateFieldSizeExpr = .ok statements := others
      rw [generateSizeEstimationImpl, List.mapM_cons, generated, later]
      rfl

/-! ## The balance -/

mutual

/-- The octets that are not counted, padding apart: one behind each string, and those of a message
that is taken for a primitive. -/
def Value.unforeseen : Value → ℕ
  | .string _ => 1
  | .vec elements => unforeseenAll elements
  | .array elements => unforeseenAll elements
  | .message _ name fields =>
      if name = "wchar" then Shape.contentAll (shapesOf (serdeAll fields)) else unforeseenAll fields
  | _ => 0

def unforeseenAll : List Value → ℕ
  | [] => 0
  | v :: rest => v.unforeseen + unforeseenAll rest

end

mutual

/-- What is counted beyond the octets there are: 16 for each message, and 2 for one that is taken
for a primitive. -/
def Value.spare : Value → ℕ
  | .vec elements => spareAll elements
  | .array elements => spareAll elements
  | .message _ name fields => if name = "wchar" then 2 else spareAll fields + 16
  | _ => 0

def spareAll : List Value → ℕ
  | [] => 0
  | v :: rest => v.spare + spareAll rest

end

/-- The octets of a value without padding. -/
def Value.content (v : Value) : ℕ := v.serde.shape.content

def contentAll (vs : List Value) : ℕ := Shape.contentAll (shapesOf (serdeAll vs))

theorem contentAll_cons (v : Value) (vs : List Value) :
    contentAll (v :: vs) = v.content + contentAll vs := rfl

theorem content_octets (count : ℕ) : (octetsShape count).content = count := Nat.mul_one count

theorem content_vec (elements : List Value) :
    (Value.vec elements).content = 4 + contentAll elements := rfl

section Balance

variable {definitions : Definitions}

theorem exists_fields_of_hasType {package package' name name' : String} {values : List Value}
    (typed : hasType definitions (.message package name) (.message package' name' values) = true) :
    (package = package' ∧ name = name') ∧ ∃ fields, definitions package name = some fields ∧
      haveTypes definitions (fieldTypes package fields) values = true := by
  rw [hasType, Bool.and_eq_true, Bool.and_eq_true, decide_eq_true_eq, decide_eq_true_eq] at typed
  refine ⟨typed.1, ?_⟩
  rcases known : definitions package name with _ | fields
  · rw [known] at typed
    cases typed.2
  · rw [known] at typed
    exact ⟨fields, rfl, typed.2⟩

/-- A value of a type that is counted as a primitive. -/
theorem primitive_balance {type : RustType} {size : ℕ} (primitive : Primitive type size) {v : Value}
    (typed : hasType definitions type v = true) :
    size + v.unforeseen = v.content + v.spare := by
  cases primitive with
  | wchar package =>
      cases v with
      | message package' name fields =>
          have same : name = "wchar" := (exists_fields_of_hasType typed).1.2.symm
          rw [Value.unforeseen, Value.spare, if_pos same, if_pos same]
          exact Nat.add_comm _ _
      | _ => cases typed
  | _ =>
      cases v with
      | _ => first | rfl | cases typed

/-- The elements of a list of primitives. -/
theorem primitives_balance {type : RustType} {size : ℕ} (primitive : Primitive type size)
    {vs : List Value} (typed : allHaveType definitions type vs = true) :
    vs.length * size + unforeseenAll vs = contentAll vs + spareAll vs := by
  induction vs with
  | nil =>
      rw [List.length_nil, Nat.zero_mul]
      rfl
  | cons v vs ih =>
      rw [allHaveType, Bool.and_eq_true] at typed
      have first := primitive_balance primitive typed.1
      have others := ih typed.2
      rw [List.length_cons, Nat.succ_mul, unforeseenAll, contentAll_cons, spareAll]
      omega

/-- A string has one octet more than is counted. -/
theorem content_string (s : String) :
    (Value.string s).content = 4 + ((utf8Bytes s).length + 1) := by
  show 4 + ((octetsShape ((utf8Bytes s).length + 1)).content + 0) = _
  rw [content_octets, Nat.add_zero]

theorem strings_balance {vs : List Value} (typed : allHaveType definitions .string vs = true) :
    (vs.map fun s => 4 + s.len).sum + unforeseenAll vs = contentAll vs + spareAll vs := by
  induction vs with
  | nil => rfl
  | cons v vs ih =>
      rw [allHaveType, Bool.and_eq_true] at typed
      have others := ih typed.2
      cases v with
      | string s =>
          show 4 + (utf8Bytes s).length + (vs.map fun s => 4 + s.len).sum + (1 + unforeseenAll vs) =
            (Value.string s).content + contentAll vs + (0 + spareAll vs)
          rw [content_string]
          omega
      | _ => cases typed.1

/-- A message is counted by the statements for its fields. -/
theorem run_message {package package' name name' : String} {values : List Value}
    (typed : hasType definitions (.message package name) (.message package' name' values) = true) :
    ∃ statements, (∃ types, List.Forall₂ Counted types statements ∧
      haveTypes definitions types values = true) ∧
      run definitions .nested (.message package' name' values) =
        runAll definitions statements values + 16 := by
  obtain ⟨⟨rfl, rfl⟩, fields, known, fieldsTyped⟩ := exists_fields_of_hasType typed
  obtain ⟨statements, generated, counted⟩ := exists_body package fields
  refine ⟨statements, ⟨_, counted, fieldsTyped⟩, ?_⟩
  have ofName : body definitions package name = some statements := by
    rw [body, known, Option.bind_some, generated]
    rfl
  rw [run, ofName]

mutual

/-- **What a statement counts**, and what it does not. -/
theorem run_add : ∀ (v : Value) {type : RustType} {statement : Statement},
    Counted type statement → hasType definitions type v = true →
      run definitions statement v + v.unforeseen = v.content + v.spare
  | .vec elements, _, _, counted, typed => by
      cases counted with
      | strings =>
          have balance := strings_balance typed
          show 4 + (elements.map fun s => 4 + s.len).sum + unforeseenAll elements =
            (Value.vec elements).content + spareAll elements
          rw [content_vec]
          omega
      | primitive ofType => exact primitive_balance ofType typed
      | @primitives _ size ofType =>
          have balance := primitives_balance ofType typed
          show 4 + elements.length * size + unforeseenAll elements =
            (Value.vec elements).content + spareAll elements
          rw [content_vec]
          omega
      | nesteds plain =>
          have balance := runEach_add elements plain typed
          show 4 + runEach definitions elements + unforeseenAll elements =
            (Value.vec elements).content + spareAll elements
          rw [content_vec]
          omega
      | _ => cases typed
  | .array elements, _, _, counted, typed => by
      cases counted with
      | stringArray n =>
          rw [hasType, Bool.and_eq_true] at typed
          have balance := strings_balance typed.2
          show 0 + (elements.map fun s => 4 + s.len).sum + unforeseenAll elements =
            contentAll elements + spareAll elements
          omega
      | primitive ofType => exact primitive_balance ofType typed
      | @primitiveArray _ size n ofType =>
          rw [hasType, Bool.and_eq_true, beq_iff_eq] at typed
          obtain ⟨rfl, each⟩ := typed
          exact primitives_balance ofType each
      | nestedArray n plain =>
          rw [hasType, Bool.and_eq_true] at typed
          have balance := runEach_add elements plain typed.2
          show 0 + runEach definitions elements + unforeseenAll elements =
            contentAll elements + spareAll elements
          omega
      | _ => cases typed
  | .message package name fields, _, _, counted, typed => by
      cases counted with
      | primitive ofType => exact primitive_balance ofType typed
      | nested plain =>
          obtain ⟨rfl, rfl⟩ := (exists_fields_of_hasType typed).1
          obtain ⟨statements, ⟨types, goes, fieldsTyped⟩, total⟩ := run_message typed
          have balance := runAll_add fields goes fieldsTyped
          rw [total, Value.unforeseen, Value.spare, if_neg plain, if_neg plain]
          show _ = contentAll fields + _
          omega
      | _ => cases typed
  | .string s, _, _, counted, typed => by
      cases counted with
      | string =>
          show 4 + (utf8Bytes s).length * 1 + 1 = (Value.string s).content + 0
          rw [content_string]
          omega
      | primitive ofType => exact primitive_balance ofType typed
      | _ => cases typed
  | .zbuf buffer, _, _, counted, typed => by
      cases counted with
      | zbuf =>
          show 4 + buffer.contiguous.length * 1 + 0 =
            4 + ((octetsShape buffer.contiguous.length).content + 0) + 0
          rw [content_octets]
          omega
      | primitive ofType => exact primitive_balance ofType typed
      | _ => cases typed
  | .bool _, _, _, counted, typed | .u8 _, _, _, counted, typed | .i8 _, _, _, counted, typed
  | .u16 _, _, _, counted, typed | .i16 _, _, _, counted, typed | .u32 _, _, _, counted, typed
  | .i32 _, _, _, counted, typed | .u64 _, _, _, counted, typed | .i64 _, _, _, counted, typed
  | .f32 _, _, _, counted, typed | .f64 _, _, _, counted, typed => by
      cases counted with
      | primitive ofType => exact primitive_balance ofType typed
      | _ => cases typed
termination_by structural v => v

/-- The statements of a body, on the fields of a struct. -/
theorem runAll_add : ∀ (vs : List Value) {types : List RustType} {statements : List Statement},
    List.Forall₂ Counted types statements → haveTypes definitions types vs = true →
      runAll definitions statements vs + unforeseenAll vs = contentAll vs + spareAll vs
  | [], _, _, .nil, _ => rfl
  | v :: rest, _, _, .cons counted others, typed => by
      rw [haveTypes, Bool.and_eq_true] at typed
      have first := run_add v counted typed.1
      have further := runAll_add rest others typed.2
      rw [runAll, unforeseenAll, contentAll_cons, spareAll]
      omega
termination_by structural vs => vs

/-- The estimates of some structs. -/
theorem runEach_add : ∀ (vs : List Value) {package name : String}, name ≠ "wchar" →
    allHaveType definitions (.message package name) vs = true →
      runEach definitions vs + unforeseenAll vs = contentAll vs + spareAll vs
  | [], _, _, _, _ => rfl
  | v :: rest, _, _, plain, typed => by
      rw [allHaveType, Bool.and_eq_true] at typed
      have first := run_add v (.nested plain) typed.1
      have further := runEach_add rest plain typed.2
      rw [runEach, unforeseenAll, contentAll_cons, spareAll]
      omega
termination_by structural vs => vs

end

end Balance

/-! ## The bound -/

section Bound

open CdrWriter CdrSerializer

variable {order : ByteOrder} {definitions : Definitions} {package name : String}
  {values : List Value}

theorem emits_scalar {v : SerdeValue} (limits : v.withinLimits 0 = true) :
    Emits (sink order (List UInt8)) (serialize v) (v.layout order) := emits_serialize v limits

mutual

/-- The serializer writes every value of a generated type, whatever its lengths are. -/
theorem emits_serde : ∀ v : Value,
    Emits (sink order (List UInt8)) (serialize v.serde) (v.serde.layout order)
  | .bool v => emits_scalar (v := .bool v) rfl
  | .u8 v => emits_scalar (v := .u8 v) rfl
  | .i8 v => emits_scalar (v := .i8 v) rfl
  | .u16 v => emits_scalar (v := .u16 v) rfl
  | .i16 v => emits_scalar (v := .i16 v) rfl
  | .u32 v => emits_scalar (v := .u32 v) rfl
  | .i32 v => emits_scalar (v := .i32 v) rfl
  | .u64 v => emits_scalar (v := .u64 v) rfl
  | .i64 v => emits_scalar (v := .i64 v) rfl
  | .f32 bits => emits_scalar (v := .f32 bits) rfl
  | .f64 bits => emits_scalar (v := .f64 bits) rfl
  | .string v => (appends_writeString v).emits
  | .zbuf v => (appends_writeBytes v.contiguous).emits
  | .vec elements => (emits_serializeSeq _).bind (emits_serdeAll elements)
  | .array elements => emits_serdeAll elements
  | .message _ _ fields => emits_serdeAll fields
termination_by structural v => v

theorem emits_serdeAll : ∀ vs : List Value,
    Emits (sink order (List UInt8)) (serializeElements (serdeAll vs))
      (elementsLayout order (serdeAll vs))
  | [] => Emits.nothing
  | v :: rest => (emits_serde v).bind (emits_serdeAll rest)
termination_by structural vs => vs

end

theorem exists_payload (order : ByteOrder) (v : Value) :
    ∃ payload, toVec order v.serde = .ok payload := by
  obtain ⟨w, done, -⟩ := emits_serde v (new ([] : List UInt8) : CdrWriter order _) (valid_new [])
  refine ⟨w.buffer, ?_⟩
  rw [toVec, done]
  rfl

/-- The estimate is an upper bound on the header and the payload. -/
def Covers (definitions : Definitions) (order : ByteOrder) (message : Value) : Prop :=
  ∃ payload, toVec order message.serde = .ok payload ∧
    4 + payload.length ≤ estimatedSerializedSize definitions message

/-- **The estimate covers a message** exactly when the reserve of 16 octets for each message in it
covers the padding and the octets that are not counted. -/
theorem covers_iff
    (typed : hasType definitions (.message package name) (.message package name values) = true)
    (order : ByteOrder) : Covers definitions order (.message package name values) ↔
      (Value.message package name values).serde.shape.paddingAt 0 + unforeseenAll values ≤
        spareAll values + 16 := by
  obtain ⟨payload, written⟩ := exists_payload order (.message package name values)
  have length := length_of_toVec written
  obtain ⟨statements, ⟨types, counted, fieldsTyped⟩, total⟩ := run_message typed
  have balance := runAll_add values counted fieldsTyped
  have content : (Value.message package name values).serde.shape.content = contentAll values := rfl
  have only : Covers definitions order (.message package name values) ↔
      4 + payload.length ≤ estimatedSerializedSize definitions (.message package name values) := by
    constructor
    · rintro ⟨payload', written', enough⟩
      rw [written, Except.ok.injEq] at written'
      rw [written']
      exact enough
    · exact fun enough => ⟨payload, written, enough⟩
  rw [only, estimatedSerializedSize, estimatedCdrSize, total, length, Shape.sizeAt, content]
  omega

end Bound

/-- A message with one field, `string[] names`. -/
def namesOnly : Definitions
  | "pkg", "Names" => some [⟨"names", ⟨"string", none, .unbounded, none⟩⟩]
  | _, _ => none

def names (count : ℕ) : Value :=
  .message "pkg" "Names" [.vec (List.replicate count (.string ""))]

theorem covers_iff_names : Covers namesOnly .littleEndian (names 2) ↔
    (names 2).serde.shape.paddingAt 0 + unforeseenAll [.vec (List.replicate 2 (.string ""))] ≤
      spareAll [.vec (List.replicate 2 (.string ""))] + 16 :=
  @covers_iff namesOnly "pkg" "Names" [.vec (List.replicate 2 (.string ""))] (by decide +kernel)
    .littleEndian

/-- Five empty strings take 45 octets with the header; 44 are estimated. -/
theorem fiveNames_not_covered :
    hasType namesOnly (.message "pkg" "Names") (names 5) = true ∧
      ¬ Covers namesOnly .littleEndian (names 5) := by
  refine ⟨by decide +kernel, ?_⟩
  rintro ⟨payload, written, enough⟩
  have length : (toVec .littleEndian (names 5).serde).map List.length = .ok 41 := by decide +kernel
  have estimate : estimatedSerializedSize namesOnly (names 5) = 44 := by decide +kernel
  rw [written] at length
  have payloadLength : payload.length = 41 := Except.ok.inj length
  omega

end RosZ.Codegen.Generator
