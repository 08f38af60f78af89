import RosZ.Codegen.Closure
import RosZ.Dynamic.TypeDescription
import RosZ.Lib.Fallible

/-!
# Schemas of parsed messages

`parsed_message_to_schema` of `dynamic/registry.rs`: the dynamic schema of a message
that the code generator's parser has read.

The types of nested fields come from a resolver function; `Looks` says that it is the
one that looks the other messages of a set up.  The schemas of a set then nest as the
messages do (`contained_iff`), and type names determine them (`coherent_schema`).

`FieldType` is the dynamic one here; that of the parser is `Codegen.FieldType`.
-/

namespace RosZ.Dynamic

open RosZ.Schema

/-! ## The conversion -/

/-- What the conversion of a parsed message fails with. -/
inductive SchemaError where
  | invalidTypeName (baseType : String)
  /-- "{package}/msg/{base_type}" -/
  | schemaNotFound (typeName : String)
  deriving DecidableEq, Repr

/-- The primitive types by name. -/
def primitiveType : String → Option FieldType
  | "bool" => some .bool
  | "int8" | "byte" => some .int8
  | "int16" => some .int16
  | "int32" => some .int32
  | "int64" => some .int64
  | "uint8" | "char" => some .uint8
  | "uint16" => some .uint16
  | "uint32" => some .uint32
  | "uint64" => some .uint64
  | "float32" => some .float32
  | "float64" => some .float64
  | "string" => some .string
  | _ => none

/-- `strip_prefix("string<=")` and `parse::<usize>()`. -/
def boundedStringLimit (baseType : String) : Option ℕ :=
  match List.dropPrefix? baseType.toList "string<=".toList with
  | some rest => Text.fromStrRadix 10 (2 ^ 64) (String.ofList rest)
  | none => none

/-- The resolver of nested types, by package and name. -/
abbrev SchemaResolver : Type := String → String → Option MessageSchema

def convertBaseType (baseType : String) (package : Option String) (resolver : SchemaResolver) :
    Except SchemaError FieldType :=
  match primitiveType baseType with
  | some primitive => .ok primitive
  | none =>
      -- Check for bounded string
      match boundedStringLimit baseType with
      | some maxLen => .ok (.boundedString maxLen)
      | none =>
          -- It's a message type - resolve it
          match package with
          | none => .error (.invalidTypeName baseType)
          | some pkg =>
              match resolver pkg baseType with
              | some schema => .ok (.message schema)
              | none => .error (.schemaNotFound (Names.join pkg ("msg/" ++ baseType)))

/-- A base type in the form its array specification asks for. -/
def wrapArray (array : Codegen.ArrayType) (baseType : FieldType) : FieldType :=
  match array with
  | .single => baseType
  | .fixed n => .array baseType n
  | .bounded n => .boundedSequence baseType n
  | .unbounded => .sequence baseType

def convertFieldType (resolver : SchemaResolver) (fieldType : Codegen.FieldType) :
    Except SchemaError FieldType := do
  let baseType ← convertBaseType fieldType.baseType fieldType.package resolver
  return wrapArray fieldType.array baseType

/-- The conversion of one field. -/
def convertField (resolver : SchemaResolver) (field : Codegen.Field) :
    Except SchemaError FieldSchema := do
  let fieldType ← convertFieldType resolver field.fieldType
  return { name := field.name, fieldType, defaultValue := none }

/-- Convert a ros-z-codegen `ParsedMessage` to a dynamic `MessageSchema`. -/
def parsedMessageToSchema (msg : Codegen.ParsedMessage) (resolver : SchemaResolver) :
    Except SchemaError MessageSchema := do
  let fields ← msg.fields.mapM (convertField resolver)
  return { typeName := Names.join msg.package ("msg/" ++ msg.name)
           package := msg.package
           name := msg.name
           fields
           typeHash := none }

/-- The resolver that looks up the schemas of the messages of a set. -/
def Looks (messages : List Codegen.ParsedMessage) (resolver : SchemaResolver) : Prop :=
  ∀ d ∈ messages, resolver d.package d.name = (parsedMessageToSchema d resolver).toOption

/-! ## What a conversion produces -/

theorem convertBaseType_cases {baseType : String} {package : Option String}
    {resolver : SchemaResolver} {t : FieldType}
    (converted : convertBaseType baseType package resolver = .ok t) :
    primitiveType baseType = some t ∨
    (primitiveType baseType = none ∧
      ∃ maxLen, boundedStringLimit baseType = some maxLen ∧ t = .boundedString maxLen) ∨
    (primitiveType baseType = none ∧ boundedStringLimit baseType = none ∧
      ∃ pkg schema, package = some pkg ∧ resolver pkg baseType = some schema ∧
        t = .message schema) := by
  unfold convertBaseType at converted
  rcases primitive : primitiveType baseType with _ | found
  · right
    rw [primitive] at converted
    rcases limit : boundedStringLimit baseType with _ | maxLen
    · right
      rw [limit] at converted
      rcases package with _ | pkg
      · cases converted
      · rcases found : resolver pkg baseType with _ | schema
        · simp [found] at converted
        · simp only [found, Except.ok.injEq] at converted
          exact ⟨rfl, rfl, pkg, schema, rfl, found, converted.symm⟩
    · left
      rw [limit] at converted
      exact ⟨rfl, maxLen, rfl, (Except.ok.inj converted).symm⟩
  · left
    rw [primitive] at converted
    exact congrArg some (Except.ok.inj converted)

/-- A field and the field schema it is converted to. -/
structure ConvertsField (resolver : SchemaResolver) (field : Codegen.Field)
    (converted : FieldSchema) (baseType : FieldType) : Prop where
  name : converted.name = field.name
  base : convertBaseType field.fieldType.baseType field.fieldType.package resolver = .ok baseType
  wrapped : converted.fieldType = wrapArray field.fieldType.array baseType

theorem convertField_eq_ok {resolver : SchemaResolver} {field : Codegen.Field}
    {converted : FieldSchema} (succeeded : convertField resolver field = .ok converted) :
    ∃ baseType, ConvertsField resolver field converted baseType := by
  obtain ⟨t, step, rest⟩ := Fallible.bind_eq_ok_iff.mp succeeded
  obtain ⟨baseType, base, wrapped⟩ := Fallible.bind_eq_ok_iff.mp step
  cases Except.ok.inj rest
  exact ⟨baseType, rfl, base, (Except.ok.inj wrapped).symm⟩

/-- A message and the schema it is converted to. -/
structure Converts (resolver : SchemaResolver) (msg : Codegen.ParsedMessage)
    (schema : MessageSchema) : Prop where
  typeName : schema.typeName = Names.join msg.package ("msg/" ++ msg.name)
  fields : msg.fields.mapM (convertField resolver) = .ok schema.fields

theorem converts_of_ok {resolver : SchemaResolver} {msg : Codegen.ParsedMessage}
    {schema : MessageSchema} (succeeded : parsedMessageToSchema msg resolver = .ok schema) :
    Converts resolver msg schema := by
  obtain ⟨fields, loop, rest⟩ := Fallible.bind_eq_ok_iff.mp succeeded
  cases Except.ok.inj rest
  exact ⟨rfl, loop⟩

/-- The innermost type of a primitive is none. -/
theorem innermost_primitiveType {baseType : String} {t : FieldType}
    (primitive : primitiveType baseType = some t) : t.innermost = none := by
  unfold primitiveType at primitive
  split at primitive <;> cases primitive <;> rfl

theorem innermost_wrapArray (array : Codegen.ArrayType) (baseType : FieldType) :
    (wrapArray array baseType).innermost = baseType.innermost := by
  rcases array with _ | _ | _ | _
  · rfl
  · rfl
  · rfl
  · rfl

/-! ## The schemas of a set of messages -/

/-- A field of the message is converted to a field of the other message's type. -/
def Uses (messages : List Codegen.ParsedMessage) (m d : Codegen.ParsedMessage) : Prop :=
  d ∈ messages ∧ ∃ field ∈ m.fields, primitiveType field.fieldType.baseType = none ∧
    boundedStringLimit field.fieldType.baseType = none ∧
    field.fieldType.package = some d.package ∧ field.fieldType.baseType = d.name

theorem Uses.mem_of_transGen {messages : List Codegen.ParsedMessage}
    {m d : Codegen.ParsedMessage} (uses : Relation.TransGen (Uses messages) m d) :
    d ∈ messages := by
  cases uses with
  | single last => exact last.1
  | tail _ last => exact last.1

/-- Primitives have the same names on both sides. -/
theorem primitiveType_isSome (baseType : String) :
    (primitiveType baseType).isSome = Codegen.isPrimitiveType baseType := by
  unfold primitiveType
  split
  case h_15 =>
    simp_all [Codegen.isPrimitiveType]
  all_goals decide

theorem primitiveType_eq_none_iff {baseType : String} :
    primitiveType baseType = none ↔ Codegen.isPrimitiveType baseType = false := by
  rw [← primitiveType_isSome, Option.isSome_eq_false_iff, Option.isNone_iff_eq_none]

section Set

variable {messages : List Codegen.ParsedMessage} {resolver : SchemaResolver}
  (set : Codegen.MessageSet messages) (looks : Looks messages resolver)

include set looks

/-- What a field of message type is converted to: the schema of a message of the set. -/
theorem resolves_message {m : Codegen.ParsedMessage} (member : m ∈ messages)
    {field : Codegen.Field} (among : field ∈ m.fields) {pkg : String}
    {nested : MessageSchema} (packaged : field.fieldType.package = some pkg)
    (found : resolver pkg field.fieldType.baseType = some nested) :
    ∃ d ∈ messages, d.package = pkg ∧ d.name = field.fieldType.baseType ∧
      parsedMessageToSchema d resolver = .ok nested := by
  have isNested : field.fieldType.isNested = true := by
    simp [Codegen.FieldType.isNested, packaged]
  obtain ⟨d, inSet, package, name⟩ := set.dependencies m member field among isNested
  have samePackage : d.package = pkg := by
    rw [package, Codegen.FieldType.packageIn, packaged, Option.getD_some]
  refine ⟨d, inSet, samePackage, name, ?_⟩
  rw [← samePackage, ← name, looks d inSet] at found
  exact Fallible.toOption_eq_some_iff.mp found

/-- The schemas nested in that of a message are those of the messages it uses. -/
theorem mem_children_iff {m : Codegen.ParsedMessage} (member : m ∈ messages)
    {schema : MessageSchema} (converts : Converts resolver m schema) {nested : MessageSchema} :
    nested ∈ schema.children ↔
      ∃ d, Uses messages m d ∧ parsedMessageToSchema d resolver = .ok nested := by
  constructor
  · intro child
    obtain ⟨converted, amongSchema, innermost⟩ := List.mem_filterMap.mp child
    obtain ⟨field, among, succeeded⟩ :=
      (Fallible.mem_results_iff converts.fields).mp amongSchema
    obtain ⟨baseType, conversion⟩ := convertField_eq_ok succeeded
    rw [conversion.wrapped, innermost_wrapArray] at innermost
    rcases convertBaseType_cases conversion.base with
      primitive | ⟨-, maxLen, -, rfl⟩ | ⟨primitive, limit, pkg, inner, packaged, found, rfl⟩
    · rw [innermost_primitiveType primitive] at innermost
      cases innermost
    · cases innermost
    · cases innermost
      obtain ⟨d, inSet, rfl, name, accepted⟩ :=
        resolves_message set looks member among packaged found
      exact ⟨d, ⟨inSet, field, among, primitive, limit, packaged, name.symm⟩, accepted⟩
  · rintro ⟨d, ⟨inSet, field, among, primitive, limit, packaged, name⟩, accepted⟩
    have found : resolver d.package d.name = some nested := by
      rw [looks d inSet]
      exact Fallible.toOption_eq_some_iff.mpr accepted
    have base : convertBaseType field.fieldType.baseType field.fieldType.package resolver =
        .ok (.message nested) := by
      unfold convertBaseType
      rw [primitive, limit, packaged, name]
      dsimp only
      rw [found]
    refine List.mem_filterMap.mpr ⟨⟨field.name, wrapArray field.fieldType.array (.message nested),
      none⟩, (Fallible.mem_results_iff converts.fields).mpr ⟨field, among, ?_⟩, ?_⟩
    · unfold convertField convertFieldType
      rw [base]
      rfl
    · exact innermost_wrapArray _ _

omit set in
/-- A message that is used by one with a schema has a schema. -/
theorem Uses.accepted {m d : Codegen.ParsedMessage}
    {schema : MessageSchema} (converts : Converts resolver m schema)
    (uses : Uses messages m d) : ∃ nested, parsedMessageToSchema d resolver = .ok nested := by
  obtain ⟨inSet, field, among, primitive, limit, packaged, name⟩ := uses
  obtain ⟨converted, -, succeeded⟩ := Fallible.exists_result converts.fields among
  obtain ⟨baseType, conversion⟩ := convertField_eq_ok succeeded
  rcases convertBaseType_cases conversion.base with
    isPrimitive | ⟨-, maxLen, isLimit, -⟩ | ⟨-, -, pkg, inner, packaged', found, -⟩
  · rw [primitive] at isPrimitive
    cases isPrimitive
  · rw [limit] at isLimit
    cases isLimit
  · obtain rfl : d.package = pkg := Option.some.inj (packaged.symm.trans packaged')
    rw [name, looks d inSet] at found
    exact ⟨inner, Fallible.toOption_eq_some_iff.mp found⟩

/-- Every message in use has its schema below that of the user. -/
theorem exists_contained {m d : Codegen.ParsedMessage} (member : m ∈ messages)
    {schema : MessageSchema} (accepted : parsedMessageToSchema m resolver = .ok schema)
    (uses : Relation.TransGen (Uses messages) m d) :
    ∃ inner, parsedMessageToSchema d resolver = .ok inner ∧
      ∃ child ∈ schema.children, child.Contains inner := by
  induction uses with
  | single step =>
      obtain ⟨inner, acceptedInner⟩ := step.accepted looks (converts_of_ok accepted)
      have child := (mem_children_iff set looks member (converts_of_ok accepted)).mpr
        ⟨_, step, acceptedInner⟩
      exact ⟨inner, acceptedInner, inner, child, Relation.ReflTransGen.refl⟩
  | tail path step ih =>
      obtain ⟨above, acceptedAbove, child, nested, contains⟩ := ih
      have converts := converts_of_ok acceptedAbove
      obtain ⟨inner, acceptedInner⟩ := step.accepted looks converts
      have below := (mem_children_iff set looks (Uses.mem_of_transGen path) converts).mpr
        ⟨_, step, acceptedInner⟩
      exact ⟨inner, acceptedInner, child, nested, contains.tail below⟩

/-- **Schemas nest as the messages do**: those below the schema of a message are the schemas
of the messages it uses, at any depth. -/
theorem contained_iff {m : Codegen.ParsedMessage} (member : m ∈ messages)
    {schema : MessageSchema} (accepted : parsedMessageToSchema m resolver = .ok schema)
    {inner : MessageSchema} :
    (∃ child ∈ schema.children, child.Contains inner) ↔
      ∃ d, Relation.TransGen (Uses messages) m d ∧
        parsedMessageToSchema d resolver = .ok inner := by
  constructor
  · rintro ⟨child, nested, contains⟩
    induction contains with
    | refl =>
        obtain ⟨d, uses, acceptedChild⟩ :=
          (mem_children_iff set looks member (converts_of_ok accepted)).mp nested
        exact ⟨d, Relation.TransGen.single uses, acceptedChild⟩
    | tail _ below ih =>
        obtain ⟨d, path, acceptedAbove⟩ := ih
        obtain ⟨e, uses, acceptedInner⟩ := (mem_children_iff set looks
          (Uses.mem_of_transGen path) (converts_of_ok acceptedAbove)).mp below
        exact ⟨e, path.tail uses, acceptedInner⟩
  · rintro ⟨d, uses, acceptedInner⟩
    obtain ⟨inner', accepted', contained⟩ := exists_contained set looks member accepted uses
    rw [acceptedInner, Except.ok.injEq] at accepted'
    rwa [accepted']

/-- Every schema in that of a message is the schema of a message of the set. -/
theorem message_of_contains {m : Codegen.ParsedMessage} (member : m ∈ messages)
    {schema : MessageSchema} (accepted : parsedMessageToSchema m resolver = .ok schema)
    {inner : MessageSchema} (contains : schema.Contains inner) :
    ∃ d ∈ messages, parsedMessageToSchema d resolver = .ok inner := by
  rcases Relation.ReflTransGen.cases_head contains with rfl | ⟨child, nested, below⟩
  · exact ⟨m, member, accepted⟩
  · obtain ⟨d, uses, acceptedInner⟩ :=
      (contained_iff set looks member accepted).mp ⟨child, nested, below⟩
    exact ⟨d, Uses.mem_of_transGen uses, acceptedInner⟩

/-- **Type names determine the schemas in that of a message.** -/
theorem coherent_schema {m : Codegen.ParsedMessage} (member : m ∈ messages)
    {schema : MessageSchema} (accepted : parsedMessageToSchema m resolver = .ok schema) :
    schema.Coherent := by
  intro a b containsA containsB name
  obtain ⟨d, inSetD, acceptedA⟩ := message_of_contains set looks member accepted containsA
  obtain ⟨e, inSetE, acceptedB⟩ := message_of_contains set looks member accepted containsB
  rw [(converts_of_ok acceptedA).typeName, (converts_of_ok acceptedB).typeName,
    Names.join_inj (set.plain d inSetD).1 (set.plain e inSetE).1,
    String.append_right_inj] at name
  have same := set.eq_of_name inSetD inSetE name.1 name.2
  rw [same, acceptedB, Except.ok.injEq] at acceptedA
  rw [acceptedA]

end Set

end RosZ.Dynamic
