import Mathlib.Data.List.Sort
import Mathlib.Logic.Relation
import RosZ.Dynamic.Schema
import RosZ.Lib.Text
import RosZ.Lib.Worklist
import RosZ.Schema.TypeDescription

/-!
# Type descriptions of dynamic schemas

`dynamic/type_description.rs`: the conversion of a `MessageSchema` to a
`TypeDescriptionMsg` and back, with the wire form of the type description service
(`dynamic/type_description_service.rs`) between them.

* A description is flat: one type id, one capacity, one string capacity and one
  nested name for a field, whose `FieldType` may nest to any depth.
* The functions that describe a schema return `Result` and never fail; their results
  are plain here.
* `usize` and `u64` are natural numbers, and a `HashMap` is the function that looks
  a name up in it.  The loop that resolves referenced types is `Worklist.run`.

## What the collection finds

`Gathers` is the specification of the recursion over nested types: what it appends
are the descriptions of nested schemas with pairwise different names, and every name
that an appended schema refers to has been visited.  For a schema in which type names
determine their schemas, `exists_describes` concludes that every type in it is
described.
-/

namespace RosZ.Dynamic

open RosZ.Schema

/-! ## From schemas to descriptions -/

/-- Get the base type ID for a field type (without array/sequence modifiers). -/
def getBaseTypeId : FieldType → UInt8
  | .bool => TypeId.bool.single
  | .int8 => TypeId.int8.single
  | .int16 => TypeId.int16.single
  | .int32 => TypeId.int32.single
  | .int64 => TypeId.int64.single
  | .uint8 => TypeId.uint8.single
  | .uint16 => TypeId.uint16.single
  | .uint32 => TypeId.uint32.single
  | .uint64 => TypeId.uint64.single
  | .float32 => TypeId.float32.single
  | .float64 => TypeId.float64.single
  | .string => TypeId.string.single
  | .boundedString _ => TypeId.string.single
  | .message _ => TypeId.nestedType.single
  -- For nested arrays/sequences, we get the innermost type
  | .array inner _ => getBaseTypeId inner
  | .sequence inner => getBaseTypeId inner
  | .boundedSequence inner _ => getBaseTypeId inner
termination_by structural t => t

/-- Convert a dynamic `FieldType` to a `FieldTypeDescription`. -/
def fieldTypeToDescription : FieldType → FieldTypeDescription
  | .bool => .primitive TypeId.bool.single
  | .int8 => .primitive TypeId.int8.single
  | .int16 => .primitive TypeId.int16.single
  | .int32 => .primitive TypeId.int32.single
  | .int64 => .primitive TypeId.int64.single
  | .uint8 => .primitive TypeId.uint8.single
  | .uint16 => .primitive TypeId.uint16.single
  | .uint32 => .primitive TypeId.uint32.single
  | .uint64 => .primitive TypeId.uint64.single
  | .float32 => .primitive TypeId.float32.single
  | .float64 => .primitive TypeId.float64.single
  | .string => .primitive TypeId.string.single
  -- Bounded string
  | .boundedString capacity =>
      { typeId := TypeId.string.single, capacity := 0, stringCapacity := capacity
        nestedTypeName := "" }
  -- Nested message (single)
  | .message schema => .nested TypeId.nestedType.single schema.typeName
  -- Fixed-size array
  | .array inner size =>
      let arrayTypeId := getBaseTypeId inner + TypeId.arrayOffset
      match inner with
      | .message schema => .nestedArray arrayTypeId size schema.typeName
      | _ => .array arrayTypeId size
  -- Unbounded sequence
  | .sequence inner =>
      let seqTypeId := getBaseTypeId inner + TypeId.unboundedSequenceOffset
      match inner with
      | .message schema => .nested seqTypeId schema.typeName
      | _ => .primitive seqTypeId
  -- Bounded sequence
  | .boundedSequence inner capacity =>
      let seqTypeId := getBaseTypeId inner + TypeId.boundedSequenceOffset
      match inner with
      | .message schema => .nestedArray seqTypeId capacity schema.typeName
      | _ => .array seqTypeId capacity

/-- Convert a `FieldSchema` to a `FieldDescription`. -/
def fieldSchemaToDescription (field : FieldSchema) : FieldDescription where
  name := field.name
  fieldType := fieldTypeToDescription field.fieldType
  defaultValue := ""

/-- Convert a schema to a single `TypeDescription` (without referenced types). -/
def toTypeDescription (schema : MessageSchema) : TypeDescription where
  typeName := schema.typeName
  fields := schema.fields.map fieldSchemaToDescription

/-- The two accumulators of the collection. -/
structure Collected where
  referenced : List TypeDescription
  /-- The keys of `visited`. -/
  visited : List String

mutual

/-- Collect all referenced (nested) type descriptions recursively. -/
def collectReferencedTypes : MessageSchema → Collected → Collected
  | ⟨_, _, _, fields, _⟩, collected => collectFields fields collected
termination_by structural schema => schema

/-- The loop over the fields of a schema. -/
def collectFields : List FieldSchema → Collected → Collected
  | [], collected => collected
  | field :: rest, collected => collectFields rest (collectField field collected)
termination_by structural fields => fields

def collectField : FieldSchema → Collected → Collected
  | ⟨_, fieldType, _⟩, collected => collectFieldTypeReferences fieldType collected
termination_by structural field => field

/-- Recursively collect references from a field type. -/
def collectFieldTypeReferences : FieldType → Collected → Collected
  | .message nestedSchema, collected =>
      if nestedSchema.typeName ∈ collected.visited then collected
      else
        -- First collect this type's nested references
        let collected := collectReferencedTypes nestedSchema
          { collected with visited := nestedSchema.typeName :: collected.visited }
        -- Then add this type's description
        { collected with
          referenced := collected.referenced ++ [toTypeDescription nestedSchema] }
  | .array inner _, collected => collectFieldTypeReferences inner collected
  | .sequence inner, collected => collectFieldTypeReferences inner collected
  | .boundedSequence inner _, collected => collectFieldTypeReferences inner collected
  -- Primitives have no references
  | _, collected => collected
termination_by structural fieldType => fieldType

end

/-- Convert a schema to a `TypeDescriptionMsg` (includes referenced types). -/
def toTypeDescriptionMsg (schema : MessageSchema) : TypeDescriptionMsg where
  typeDescription := toTypeDescription schema
  -- Sort referenced types alphabetically by type name (required for hash consistency)
  referencedTypeDescriptions :=
    (collectReferencedTypes schema ⟨[], []⟩).referenced.insertionSort
      fun a b => a.typeName ≤ b.typeName

/-! ## The wire form -/

/-- `type_description_interfaces/msg/FieldType` -/
structure WireFieldType where
  typeId : UInt8
  capacity : ℕ
  stringCapacity : ℕ
  nestedTypeName : String

/-- `type_description_interfaces/msg/Field` -/
structure WireField where
  name : String
  fieldType : WireFieldType
  defaultValue : String

/-- `type_description_interfaces/msg/IndividualTypeDescription` -/
structure WireIndividualTypeDescription where
  typeName : String
  fields : List WireField

/-- `type_description_interfaces/msg/TypeDescription` -/
structure WireTypeDescription where
  typeDescription : WireIndividualTypeDescription
  referencedTypeDescriptions : List WireIndividualTypeDescription

/-- Convert a `FieldDescription` to wire format. -/
def fieldToWire (fd : FieldDescription) : WireField where
  name := fd.name
  fieldType :=
    { typeId := fd.fieldType.typeId
      capacity := fd.fieldType.capacity
      stringCapacity := fd.fieldType.stringCapacity
      nestedTypeName := fd.fieldType.nestedTypeName }
  defaultValue := fd.defaultValue

/-- Convert an individual `TypeDescription` to wire format. -/
def individualToWire (td : TypeDescription) : WireIndividualTypeDescription where
  typeName := td.typeName
  fields := td.fields.map fieldToWire

/-- Convert a `MessageSchema` to wire format `TypeDescription`. -/
def schemaToWireTypeDescription (schema : MessageSchema) : WireTypeDescription :=
  let typeDescMsg := toTypeDescriptionMsg schema
  { typeDescription := individualToWire typeDescMsg.typeDescription
    referencedTypeDescriptions := typeDescMsg.referencedTypeDescriptions.map individualToWire }

/-- Convert a wire format `Field` to ros-z-schema `FieldDescription`. -/
def wireToSchemaField (wire : WireField) : FieldDescription where
  name := wire.name
  fieldType :=
    { typeId := wire.fieldType.typeId
      capacity := wire.fieldType.capacity
      stringCapacity := wire.fieldType.stringCapacity
      nestedTypeName := wire.fieldType.nestedTypeName }
  defaultValue := wire.defaultValue

/-- Convert a wire format `IndividualTypeDescription` to ros-z-schema. -/
def wireToSchemaIndividual (wire : WireIndividualTypeDescription) : TypeDescription where
  typeName := wire.typeName
  fields := wire.fields.map wireToSchemaField

/-- Convert from wire format `TypeDescription` to ros-z-schema `TypeDescriptionMsg`. -/
def wireToSchemaTypeDescription (wire : WireTypeDescription) : TypeDescriptionMsg where
  typeDescription := wireToSchemaIndividual wire.typeDescription
  referencedTypeDescriptions := wire.referencedTypeDescriptions.map wireToSchemaIndividual

/-! ## From descriptions to schemas -/

/-- What the conversion of a description fails with. -/
inductive TypeDescriptionError where
  | invalidTypeName (typeName : String)
  /-- "Referenced type not found: {}" -/
  | referencedTypeNotFound (nestedTypeName : String)
  /-- "Unknown type ID: {}" -/
  | unknownTypeId (baseTypeId : UInt8)
  /-- "Cannot resolve dependencies for types: {}" -/
  | cannotResolve (typeNames : List String)
  deriving DecidableEq, Repr

/-- `HashMap<String, Arc<MessageSchema>>` -/
abbrev TypeMap : Type := String → Option MessageSchema

/-- The base field type of a description. -/
def baseFieldType (ftd : FieldTypeDescription) (typeMap : TypeMap) :
    Except TypeDescriptionError FieldType :=
  match TypeId.baseType ftd.typeId with
  | 15 => .ok .bool
  | 2 => .ok .int8
  | 4 => .ok .int16
  | 6 => .ok .int32
  | 8 => .ok .int64
  | 3 => .ok .uint8
  | 5 => .ok .uint16
  | 7 => .ok .uint32
  | 9 => .ok .uint64
  | 10 => .ok .float32
  | 11 => .ok .float64
  | 17 => if ftd.stringCapacity > 0 then .ok (.boundedString ftd.stringCapacity) else .ok .string
  | 1 =>
      match typeMap ftd.nestedTypeName with
      | some schema => .ok (.message schema)
      | none => .error (.referencedTypeNotFound ftd.nestedTypeName)
  | baseTypeId => .error (.unknownTypeId baseTypeId)

/-- Convert a `FieldTypeDescription` back to a `FieldType`. -/
def fieldTypeDescriptionToType (ftd : FieldTypeDescription) (typeMap : TypeMap) :
    Except TypeDescriptionError FieldType := do
  let baseType ← baseFieldType ftd typeMap
  -- Apply array/sequence modifiers
  if TypeId.isArray ftd.typeId then return .array baseType ftd.capacity
  else if TypeId.isBoundedSequence ftd.typeId then return .boundedSequence baseType ftd.capacity
  else if TypeId.isUnboundedSequence ftd.typeId then return .sequence baseType
  else return baseType

/-- Convert a `FieldDescription` back to a `FieldSchema`. -/
def fieldDescriptionToSchema (typeMap : TypeMap) (fd : FieldDescription) :
    Except TypeDescriptionError FieldSchema := do
  let fieldType ← fieldTypeDescriptionToType fd.fieldType typeMap
  return { name := fd.name, fieldType, defaultValue := none }

/-- Create a partial `MessageSchema` without resolving nested types. -/
def typeDescriptionToSchemaPartial (td : TypeDescription) :
    Except TypeDescriptionError MessageSchema :=
  match Text.fields '/' td.typeName with
  | [package, _, name] =>
      .ok { typeName := td.typeName, package, name, fields := [], typeHash := none }
  | _ => .error (.invalidTypeName td.typeName)

/-- Create a full `MessageSchema` with resolved nested types. -/
def typeDescriptionToSchemaFull (td : TypeDescription) (typeMap : TypeMap) :
    Except TypeDescriptionError MessageSchema :=
  match Text.fields '/' td.typeName with
  | [package, _, name] => do
      let fields ← td.fields.mapM (fieldDescriptionToSchema typeMap)
      return { typeName := td.typeName, package, name, fields, typeHash := none }
  | _ => .error (.invalidTypeName td.typeName)

/-- Convert a `TypeDescriptionMsg` back to a `MessageSchema`. -/
def typeDescriptionMsgToSchema (msg : TypeDescriptionMsg) :
    Except TypeDescriptionError MessageSchema := do
  -- First pass: create all schemas without resolving nested types
  let _typeMap ← msg.referencedTypeDescriptions.mapM typeDescriptionToSchemaPartial
  -- Second pass: resolve nested types in dependency order, until all are resolved
  let remaining := msg.referencedTypeDescriptions
  match Worklist.run TypeDescription.typeName
      (fun td resolved => (typeDescriptionToSchemaFull td resolved).toOption)
      remaining.length remaining (fun _ => none) with
  | .ok resolvedMap => typeDescriptionToSchemaFull msg.typeDescription resolvedMap
  | .error stuck => .error (.cannotResolve (stuck.map TypeDescription.typeName))

/-! ## Schemas up to defaults and hashes -/

mutual

/-- The field type without default values and type hashes. -/
def FieldType.plain : FieldType → FieldType
  | .message schema => .message schema.plain
  | .array inner len => .array inner.plain len
  | .sequence inner => .sequence inner.plain
  | .boundedSequence inner max => .boundedSequence inner.plain max
  | t => t
termination_by structural t => t

def FieldSchema.plain : FieldSchema → FieldSchema
  | ⟨name, fieldType, _⟩ => ⟨name, fieldType.plain, none⟩
termination_by structural field => field

def plainFields : List FieldSchema → List FieldSchema
  | [] => []
  | field :: rest => field.plain :: plainFields rest
termination_by structural fields => fields

/-- The schema without default values and type hashes. -/
def MessageSchema.plain : MessageSchema → MessageSchema
  | ⟨typeName, package, name, fields, _⟩ => ⟨typeName, package, name, plainFields fields, none⟩
termination_by structural schema => schema

end

/-- The message type a field refers to, through any number of collections. -/
def FieldType.innermost : FieldType → Option MessageSchema
  | .message schema => some schema
  | .array inner _ => inner.innermost
  | .sequence inner => inner.innermost
  | .boundedSequence inner _ => inner.innermost
  | _ => none
termination_by structural t => t

/-- The message types the fields of a schema refer to. -/
def MessageSchema.children (schema : MessageSchema) : List MessageSchema :=
  schema.fields.filterMap fun field => field.fieldType.innermost

/-- `inner` occurs in `schema`, at any depth. -/
def MessageSchema.Contains (schema inner : MessageSchema) : Prop :=
  Relation.ReflTransGen (fun outer nested => nested ∈ outer.children) schema inner

/-- Equal type names mean equal schemas, defaults and hashes aside. -/
def MessageSchema.Coherent (schema : MessageSchema) : Prop :=
  ∀ a b, schema.Contains a → schema.Contains b → a.typeName = b.typeName → a.plain = b.plain

/-! ### Plain schemas -/

theorem plainFields_eq_map : ∀ fields : List FieldSchema,
    plainFields fields = fields.map FieldSchema.plain
  | [] => rfl
  | field :: rest => congrArg (field.plain :: ·) (plainFields_eq_map rest)

theorem MessageSchema.typeName_plain (schema : MessageSchema) :
    schema.plain.typeName = schema.typeName := by
  cases schema
  rfl

theorem MessageSchema.fields_plain (schema : MessageSchema) :
    schema.plain.fields = schema.fields.map FieldSchema.plain := by
  cases schema
  exact plainFields_eq_map _

theorem FieldSchema.fieldType_plain (field : FieldSchema) :
    field.plain.fieldType = field.fieldType.plain := by
  cases field
  rfl

theorem getBaseTypeId_plain : ∀ t : FieldType, getBaseTypeId t.plain = getBaseTypeId t
  | .array inner _ => getBaseTypeId_plain inner
  | .sequence inner => getBaseTypeId_plain inner
  | .boundedSequence inner _ => getBaseTypeId_plain inner
  | .message _ => rfl
  | .boundedString _ => rfl
  | .bool | .int8 | .int16 | .int32 | .int64 | .uint8 | .uint16 | .uint32 | .uint64
  | .float32 | .float64 | .string => rfl

/-- Defaults and hashes do not show in a description. -/
theorem fieldTypeToDescription_plain (t : FieldType) :
    fieldTypeToDescription t.plain = fieldTypeToDescription t := by
  cases t with
  | message schema => simp only [FieldType.plain, fieldTypeToDescription, schema.typeName_plain]
  | array inner | sequence inner | boundedSequence inner =>
      cases inner with
      | message schema =>
          simp only [FieldType.plain, fieldTypeToDescription, schema.typeName_plain,
            getBaseTypeId]
      | _ => simp only [FieldType.plain, fieldTypeToDescription, getBaseTypeId,
          getBaseTypeId_plain]
  | _ => rfl

theorem FieldType.innermost_plain : ∀ t : FieldType,
    t.plain.innermost = t.innermost.map MessageSchema.plain
  | .array inner _ => inner.innermost_plain
  | .sequence inner => inner.innermost_plain
  | .boundedSequence inner _ => inner.innermost_plain
  | .message _ => rfl
  | .boundedString _ => rfl
  | .bool | .int8 | .int16 | .int32 | .int64 | .uint8 | .uint16 | .uint32 | .uint64
  | .float32 | .float64 | .string => rfl

theorem toTypeDescription_plain (schema : MessageSchema) :
    toTypeDescription schema.plain = toTypeDescription schema := by
  unfold toTypeDescription
  rw [schema.typeName_plain, schema.fields_plain, List.map_map]
  congr 1
  apply List.map_congr_left
  rintro ⟨name, fieldType, default⟩ -
  exact congrArg (FieldDescription.mk name · "") (fieldTypeToDescription_plain fieldType)

theorem MessageSchema.children_plain (schema : MessageSchema) :
    schema.plain.children = schema.children.map MessageSchema.plain := by
  unfold MessageSchema.children
  rw [schema.fields_plain, List.filterMap_map, List.map_filterMap]
  congr 1
  funext field
  exact (congrArg FieldType.innermost field.fieldType_plain).trans
    field.fieldType.innermost_plain

/-- Schemas that agree up to defaults and hashes are described alike. -/
theorem toTypeDescription_congr {a b : MessageSchema} (same : a.plain = b.plain) :
    toTypeDescription a = toTypeDescription b := by
  rw [← toTypeDescription_plain a, same, toTypeDescription_plain]

/-- They refer to the same types, again up to defaults and hashes. -/
theorem exists_child_of_plain_eq {a b child : MessageSchema} (same : a.plain = b.plain)
    (nested : child ∈ b.children) : ∃ other ∈ a.children, other.plain = child.plain := by
  have image : child.plain ∈ a.plain.children := by
    rw [same, b.children_plain]
    exact List.mem_map_of_mem nested
  rwa [a.children_plain, List.mem_map] at image

theorem FieldType.sizeOf_innermost : ∀ (t : FieldType) {nested : MessageSchema},
    t.innermost = some nested → sizeOf nested < sizeOf t
  | .message schema, nested, found => by
      cases found
      simp
  | .array inner _, nested, found => by
      have below := inner.sizeOf_innermost found
      simp only [FieldType.array.sizeOf_spec]
      omega
  | .sequence inner, nested, found => by
      have below := inner.sizeOf_innermost found
      simp only [FieldType.sequence.sizeOf_spec]
      omega
  | .boundedSequence inner _, nested, found => by
      have below := inner.sizeOf_innermost found
      simp only [FieldType.boundedSequence.sizeOf_spec]
      omega

/-- A nested schema is smaller. -/
theorem MessageSchema.sizeOf_child {schema child : MessageSchema}
    (nested : child ∈ schema.children) : sizeOf child < sizeOf schema := by
  obtain ⟨field, member, found⟩ := List.mem_filterMap.mp nested
  have inType := field.fieldType.sizeOf_innermost found
  have inField : sizeOf field.fieldType < sizeOf field := by
    cases field
    simp only [FieldSchema.mk.sizeOf_spec]
    omega
  have inFields := List.sizeOf_lt_of_mem member
  have inSchema : sizeOf schema.fields < sizeOf schema := by
    cases schema
    simp only [MessageSchema.mk.sizeOf_spec]
    omega
  omega

/-! ## What the collection finds -/

/-- The collection over `roots` has appended the descriptions of `added`. -/
structure Gathers (roots : List MessageSchema) (before after : Collected)
    (added : List MessageSchema) : Prop where
  referenced : after.referenced = before.referenced ++ added.map toTypeDescription
  visited : ∀ n, n ∈ after.visited ↔ n ∈ before.visited ∨ ∃ a ∈ added, a.typeName = n
  distinct : (added.map MessageSchema.typeName).Nodup
  fresh : ∀ a ∈ added, a.typeName ∉ before.visited
  reached : ∀ a ∈ added, ∃ root ∈ roots, root.Contains a
  covered : ∀ root ∈ roots, root.typeName ∈ after.visited
  closed : ∀ a ∈ added, ∀ child ∈ a.children, child.typeName ∈ after.visited

namespace Gathers

/-- No roots, or roots that have all been visited. -/
theorem nothing {roots : List MessageSchema} {collected : Collected}
    (covered : ∀ root ∈ roots, root.typeName ∈ collected.visited) :
    Gathers roots collected collected [] where
  referenced := (List.append_nil _).symm
  visited n := by simp
  distinct := List.nodup_nil
  fresh := by simp
  reached := by simp
  covered := covered
  closed := by simp

/-- One collection after the other. -/
theorem append {roots roots' added added' : List MessageSchema}
    {before middle after : Collected} (first : Gathers roots before middle added)
    (second : Gathers roots' middle after added') :
    Gathers (roots ++ roots') before after (added ++ added') where
  referenced := by
    rw [second.referenced, first.referenced, List.map_append, List.append_assoc]
  visited n := by
    rw [second.visited, first.visited, or_assoc]
    simp only [List.mem_append, or_and_right, exists_or]
  distinct := by
    rw [List.map_append, List.nodup_append]
    refine ⟨first.distinct, second.distinct, fun n early m late same => ?_⟩
    obtain ⟨a, memberA, nameA⟩ := List.mem_map.mp early
    obtain ⟨b, memberB, nameB⟩ := List.mem_map.mp late
    apply second.fresh b memberB
    rw [first.visited]
    exact Or.inr ⟨a, memberA, by rw [nameA, nameB, same]⟩
  fresh := by
    intro a member
    rcases List.mem_append.mp member with early | late
    · exact first.fresh a early
    · intro old
      exact second.fresh a late ((first.visited _).mpr (Or.inl old))
  reached := by
    intro a member
    rcases List.mem_append.mp member with early | late
    · obtain ⟨root, among, contains⟩ := first.reached a early
      exact ⟨root, List.mem_append_left _ among, contains⟩
    · obtain ⟨root, among, contains⟩ := second.reached a late
      exact ⟨root, List.mem_append_right _ among, contains⟩
  covered := by
    intro root member
    rcases List.mem_append.mp member with early | late
    · exact (second.visited _).mpr (Or.inl (first.covered root early))
    · exact second.covered root late
  closed := by
    intro a member child nested
    rcases List.mem_append.mp member with early | late
    · exact (second.visited _).mpr (Or.inl (first.closed a early child nested))
    · exact second.closed a late child nested

/-- A type that is met for the first time: what its own fields refer to, then itself. -/
theorem visit {schema : MessageSchema} {added : List MessageSchema} {before after : Collected}
    (unknown : schema.typeName ∉ before.visited)
    (inside : Gathers schema.children
      { before with visited := schema.typeName :: before.visited } after added) :
    Gathers [schema] before
      { after with referenced := after.referenced ++ [toTypeDescription schema] }
      (added ++ [schema]) where
  referenced := by
    show after.referenced ++ _ = before.referenced ++ _
    rw [inside.referenced, List.map_append, List.append_assoc]
    rfl
  visited n := by
    show n ∈ after.visited ↔ _
    rw [inside.visited]
    simp only [List.mem_cons, List.mem_append, List.not_mem_nil, or_false, or_and_right,
      exists_or, exists_eq_left]
    rw [@eq_comm _ n, or_comm (a := schema.typeName = n), or_assoc,
      or_comm (a := schema.typeName = n)]
  distinct := by
    rw [List.map_append, List.nodup_append]
    refine ⟨inside.distinct, List.nodup_singleton _, fun n early m late same => ?_⟩
    obtain ⟨a, member, name⟩ := List.mem_map.mp early
    apply inside.fresh a member
    rw [List.map_singleton, List.mem_singleton] at late
    rw [name, same, late]
    exact List.mem_cons_self
  fresh := by
    intro a member
    rcases List.mem_append.mp member with early | late
    · exact fun old => inside.fresh a early (List.mem_cons_of_mem _ old)
    · rw [List.mem_singleton.mp late]
      exact unknown
  reached := by
    intro a member
    refine ⟨schema, List.mem_singleton_self _, ?_⟩
    rcases List.mem_append.mp member with early | late
    · obtain ⟨child, nested, contains⟩ := inside.reached a early
      exact Relation.ReflTransGen.head nested contains
    · rw [List.mem_singleton.mp late]
      exact Relation.ReflTransGen.refl
  covered := by
    intro root member
    rw [List.mem_singleton.mp member]
    exact (inside.visited _).mpr (Or.inl List.mem_cons_self)
  closed := by
    intro a member child nested
    rcases List.mem_append.mp member with early | late
    · exact inside.closed a early child nested
    · rw [List.mem_singleton.mp late] at nested
      exact inside.covered child nested

end Gathers

mutual

/-- **What collecting over a schema appends.** -/
theorem gathers_collectReferencedTypes : ∀ (schema : MessageSchema) (collected : Collected),
    ∃ added, Gathers schema.children collected (collectReferencedTypes schema collected) added
  | ⟨_, _, _, fields, _⟩, collected => gathers_collectFields fields collected
termination_by structural schema => schema

theorem gathers_collectFields : ∀ (fields : List FieldSchema) (collected : Collected),
    ∃ added, Gathers (fields.filterMap fun field => field.fieldType.innermost) collected
      (collectFields fields collected) added
  | [], collected => ⟨[], Gathers.nothing (by simp)⟩
  | field :: rest, collected => by
      obtain ⟨added, first⟩ := gathers_collectField field collected
      obtain ⟨added', second⟩ := gathers_collectFields rest (collectField field collected)
      have both := first.append second
      refine ⟨added ++ added', ?_⟩
      have roots : (field :: rest).filterMap (fun field => field.fieldType.innermost) =
          field.fieldType.innermost.toList ++
            rest.filterMap fun field => field.fieldType.innermost := by
        rw [List.filterMap_cons]
        rcases field.fieldType.innermost with _ | nested
        · rfl
        · rfl
      rw [roots]
      exact both
termination_by structural fields => fields

theorem gathers_collectField : ∀ (field : FieldSchema) (collected : Collected),
    ∃ added, Gathers field.fieldType.innermost.toList collected (collectField field collected)
      added
  | ⟨_, fieldType, _⟩, collected => gathers_collectFieldTypeReferences fieldType collected
termination_by structural field => field

theorem gathers_collectFieldTypeReferences : ∀ (t : FieldType) (collected : Collected),
    ∃ added, Gathers t.innermost.toList collected (collectFieldTypeReferences t collected) added
  | .message schema, collected => by
      unfold collectFieldTypeReferences
      by_cases known : schema.typeName ∈ collected.visited
      · rw [if_pos known]
        refine ⟨[], Gathers.nothing fun root member => ?_⟩
        rw [List.mem_singleton.mp member]
        exact known
      · rw [if_neg known]
        obtain ⟨added, inside⟩ := gathers_collectReferencedTypes schema
          { collected with visited := schema.typeName :: collected.visited }
        exact ⟨added ++ [schema], Gathers.visit known inside⟩
  | .array inner _, collected => gathers_collectFieldTypeReferences inner collected
  | .sequence inner, collected => gathers_collectFieldTypeReferences inner collected
  | .boundedSequence inner _, collected => gathers_collectFieldTypeReferences inner collected
  | .boundedString _, _ => ⟨[], Gathers.nothing (by simp [FieldType.innermost])⟩
  | .bool, _ | .int8, _ | .int16, _ | .int32, _ | .int64, _ | .uint8, _ | .uint16, _
  | .uint32, _ | .uint64, _ | .float32, _ | .float64, _ | .string, _ =>
      ⟨[], Gathers.nothing (by simp [FieldType.innermost])⟩
termination_by structural t => t

end

/-- The schemas described by the referenced types of a description message. -/
structure Describes (schema : MessageSchema) (referenced : List TypeDescription)
    (added : List MessageSchema) : Prop where
  mem_iff : ∀ td, td ∈ referenced ↔ ∃ a ∈ added, toTypeDescription a = td
  distinct : (referenced.map TypeDescription.typeName).Nodup
  nested : ∀ a ∈ added, ∃ child ∈ schema.children, child.Contains a
  complete : ∀ outer, schema.Contains outer → ∀ inner ∈ outer.children,
    ∃ a ∈ added, a.plain = inner.plain

theorem Describes.contains {schema : MessageSchema} {referenced : List TypeDescription}
    {added : List MessageSchema} (describes : Describes schema referenced added)
    {a : MessageSchema} (member : a ∈ added) : schema.Contains a := by
  obtain ⟨child, nested, contains⟩ := describes.nested a member
  exact Relation.ReflTransGen.head nested contains

/-- **Every type in a coherent schema is described, once.** -/
theorem exists_describes {schema : MessageSchema} (coherent : schema.Coherent) :
    ∃ added, Describes schema (toTypeDescriptionMsg schema).referencedTypeDescriptions added := by
  obtain ⟨added, gathers⟩ := gathers_collectReferencedTypes schema ⟨[], []⟩
  have appended : (collectReferencedTypes schema ⟨[], []⟩).referenced =
      added.map toTypeDescription := gathers.referenced
  have sorted : (toTypeDescriptionMsg schema).referencedTypeDescriptions.Perm
      (added.map toTypeDescription) := by
    rw [← appended]
    exact List.perm_insertionSort _ _
  have contained : ∀ a ∈ added, schema.Contains a := by
    intro a member
    obtain ⟨child, nested, contains⟩ := gathers.reached a member
    exact Relation.ReflTransGen.head nested contains
  -- a visited name is the name of an added schema, and names determine schemas
  have known : ∀ inner, schema.Contains inner →
      inner.typeName ∈ (collectReferencedTypes schema ⟨[], []⟩).visited →
      ∃ a ∈ added, a.plain = inner.plain := by
    intro inner contains visited
    rcases (gathers.visited _).mp visited with impossible | ⟨a, member, name⟩
    · cases impossible
    · exact ⟨a, member, coherent a inner (contained a member) contains name⟩
  -- by induction on the path to the type that refers to it
  have complete : ∀ outer, schema.Contains outer → ∀ inner ∈ outer.children,
      ∃ a ∈ added, a.plain = inner.plain := by
    intro outer contains
    induction contains with
    | refl =>
        intro inner nested
        exact known inner (Relation.ReflTransGen.single nested) (gathers.covered inner nested)
    | @tail above outer path below ih =>
        intro inner nested
        obtain ⟨a, member, same⟩ := ih outer below
        obtain ⟨child, among, sameChild⟩ := exists_child_of_plain_eq same nested
        have name : child.typeName = inner.typeName := by
          rw [← child.typeName_plain, sameChild, inner.typeName_plain]
        exact known inner ((Relation.ReflTransGen.tail path below).tail nested)
          (name ▸ gathers.closed a member child among)
  refine ⟨added, fun td => ?_, ?_, gathers.reached, complete⟩
  · rw [sorted.mem_iff, List.mem_map]
  · rw [(sorted.map _).nodup_iff, List.map_map]
    exact gathers.distinct

end RosZ.Dynamic
