import RosZ.Dynamic.TypeDescription
import RosZ.Lib.Fallible

/-!
# Schemas come back from their descriptions

`to_type_description_msg` through the wire form and `type_description_msg_to_schema`,
one after the other.

* A field type comes back exactly when it is flat and the type it refers to is known
  (`restores_iff`): no collection of a collection or of a bounded string, and no
  string bound of zero.
* Over the whole schema the argument is the fixpoint that `Worklist.run` has reached:
  the schema recorded under a name is what the description of that name is converted
  to with the schemas recorded now.

## Main result

`roundTrips_iff`: a schema in which type names determine their schemas comes back, up
to default values and hashes, exactly when every type in it is named as the builder
names types and every field is flat.
-/

namespace RosZ.Dynamic

open RosZ.Schema

/-! ## What can come back -/

/-- Builder for creating schemas programmatically. -/
structure MessageSchemaBuilder where
  typeName : String
  fields : List FieldSchema
  typeHash : Option String

/-- Build the message schema. -/
def MessageSchemaBuilder.build (builder : MessageSchemaBuilder) :
    Except TypeDescriptionError MessageSchema :=
  match Text.fields '/' builder.typeName with
  | [package, kind, name] =>
      if kind ≠ "msg" then .error (.invalidTypeName builder.typeName)
      else
        .ok { typeName := builder.typeName, package, name, fields := builder.fields
              typeHash := builder.typeHash }
  | _ => .error (.invalidTypeName builder.typeName)

/-- Package and name are those in a type name of three parts. -/
def MessageSchema.Named (schema : MessageSchema) : Prop :=
  ∃ kind, Text.fields '/' schema.typeName = [schema.package, kind, schema.name]

/-- The builder names its schemas properly. -/
theorem MessageSchemaBuilder.named_of_build {builder : MessageSchemaBuilder}
    {schema : MessageSchema} (built : builder.build = .ok schema) : schema.Named := by
  unfold MessageSchemaBuilder.build at built
  split at built
  case h_1 package kind name parts =>
    split at built
    · cases built
    · cases built
      exact ⟨kind, parts⟩
  case h_2 => cases built

/-- A type that a collection of the flat form can have as element. -/
def FieldType.isElement : FieldType → Bool
  | .boundedString _ => false
  | .array _ _ => false
  | .sequence _ => false
  | .boundedSequence _ _ => false
  | _ => true

/-- A type that the flat form can describe: a string bound is not zero, and a
collection has elements without bounds of their own. -/
def FieldType.flat : FieldType → Bool
  | .boundedString max => max ≠ 0
  | .array inner _ => inner.isElement
  | .sequence inner => inner.isElement
  | .boundedSequence inner _ => inner.isElement
  | _ => true

/-- Every type in the schema is properly named and has flat fields. -/
def MessageSchema.Describable (schema : MessageSchema) : Prop :=
  ∀ inner, schema.Contains inner →
    inner.Named ∧ ∀ field ∈ inner.fields, field.fieldType.flat = true

/-! ## One field there and back -/

/-- The map knows the type a field refers to, defaults and hashes aside. -/
def Knows (typeMap : TypeMap) (nested : MessageSchema) : Prop :=
  ∃ known, typeMap nested.typeName = some known ∧ known.plain = nested.plain

theorem FieldType.isElement_plain (t : FieldType) : t.plain.isElement = t.isElement := by
  cases t <;> rfl

/-- The base types that occur in a description. -/
def baseTypeIds : List UInt8 := [1, 2, 3, 4, 5, 6, 7, 8, 9, 10, 11, 15, 17]

theorem getBaseTypeId_mem : ∀ t : FieldType, getBaseTypeId t ∈ baseTypeIds
  | .bool | .int8 | .int16 | .int32 | .int64 | .uint8 | .uint16 | .uint32 | .uint64
  | .float32 | .float64 | .string => by decide
  | .boundedString _ => show TypeId.string.single ∈ baseTypeIds by decide
  | .message _ => show TypeId.nestedType.single ∈ baseTypeIds by decide
  | .array inner _ => getBaseTypeId_mem inner
  | .sequence inner => getBaseTypeId_mem inner
  | .boundedSequence inner _ => getBaseTypeId_mem inner

/-- The base type of a description without a string capacity is no collection and no
bounded string. -/
theorem isElement_of_baseFieldType {ftd : FieldTypeDescription} {typeMap : TypeMap}
    {base : FieldType} (unbounded : ftd.stringCapacity = 0)
    (restored : baseFieldType ftd typeMap = .ok base) : base.isElement = true := by
  unfold baseFieldType at restored
  split at restored
  case h_12 =>
    rw [if_neg (by omega)] at restored
    cases restored
    rfl
  case h_13 =>
    split at restored
    · cases restored
      rfl
    · cases restored
  case h_14 => cases restored
  all_goals
    cases restored
    rfl

/-- A primitive base type comes back. -/
theorem baseFieldType_primitive {ftd : FieldTypeDescription} {typeMap : TypeMap} {t : FieldType}
    (sameBase : TypeId.baseType ftd.typeId = getBaseTypeId t) (unbounded : ftd.stringCapacity = 0)
    (element : t.isElement = true) (primitive : t.innermost = none) :
    baseFieldType ftd typeMap = .ok t := by
  unfold baseFieldType
  rw [sameBase]
  cases t with
  | boundedString | array | sequence | boundedSequence => cases element
  | message => cases primitive
  | string =>
      show (if ftd.stringCapacity > 0 then _ else _) = _
      rw [if_neg (by omega)]
  | _ => rfl

/-- A nested base type is looked up. -/
theorem baseFieldType_nested {ftd : FieldTypeDescription}
    (sameBase : TypeId.baseType ftd.typeId = TypeId.nestedType.single) (typeMap : TypeMap) :
    baseFieldType ftd typeMap =
      match typeMap ftd.nestedTypeName with
      | some schema => .ok (.message schema)
      | none => .error (.referencedTypeNotFound ftd.nestedTypeName) := by
  unfold baseFieldType
  rw [sameBase]
  rfl

theorem baseFieldType_message {ftd : FieldTypeDescription} {typeMap : TypeMap}
    {nested : MessageSchema} (sameBase : TypeId.baseType ftd.typeId = TypeId.nestedType.single)
    (named : ftd.nestedTypeName = nested.typeName) :
    (∃ base, baseFieldType ftd typeMap = .ok base ∧ base.plain = .message nested.plain) ↔
      Knows typeMap nested := by
  unfold Knows
  rw [baseFieldType_nested sameBase, named]
  rcases typeMap nested.typeName with _ | known
  · simp
  · simp [FieldType.plain]

/-- The base type comes back when it is an element type whose schema is known. -/
theorem baseFieldType_iff {ftd : FieldTypeDescription} {typeMap : TypeMap} (t : FieldType)
    (sameBase : TypeId.baseType ftd.typeId = getBaseTypeId t) (unbounded : ftd.stringCapacity = 0)
    (named : ∀ nested, t = .message nested → ftd.nestedTypeName = nested.typeName) :
    (∃ base, baseFieldType ftd typeMap = .ok base ∧ base.plain = t.plain) ↔
      t.isElement = true ∧ ∀ nested, t.innermost = some nested → Knows typeMap nested := by
  rcases element : t.isElement with _ | _
  · constructor
    · rintro ⟨base, restored, same⟩
      have baseElement := isElement_of_baseFieldType unbounded restored
      rw [← FieldType.isElement_plain, same, FieldType.isElement_plain, element] at baseElement
      cases baseElement
    · rintro ⟨impossible, -⟩
      cases impossible
  · rw [and_iff_right rfl]
    rcases nests : t.innermost with _ | nested
    · have restored := @baseFieldType_primitive ftd typeMap t sameBase unbounded element nests
      constructor
      · rintro - nested impossible
        cases impossible
      · intro _
        exact ⟨t, restored, rfl⟩
    · have message : t = .message nested := by
        cases t with
        | message => exact congrArg _ (Option.some.inj nests)
        | array | sequence | boundedSequence => cases element
        | _ => cases nests
      subst message
      have lookup := @baseFieldType_message ftd typeMap nested sameBase (named nested rfl)
      constructor
      · rintro restored _ ⟨⟩
        exact lookup.mp restored
      · intro known
        exact lookup.mpr (known nested rfl)

/-- The array or sequence modifier of a description. -/
def modified (ftd : FieldTypeDescription) (base : FieldType) : FieldType :=
  if TypeId.isArray ftd.typeId then .array base ftd.capacity
  else if TypeId.isBoundedSequence ftd.typeId then .boundedSequence base ftd.capacity
  else if TypeId.isUnboundedSequence ftd.typeId then .sequence base
  else base

theorem fieldTypeDescriptionToType_iff {ftd : FieldTypeDescription} {typeMap : TypeMap}
    {t : FieldType} :
    fieldTypeDescriptionToType ftd typeMap = .ok t ↔
      ∃ base, baseFieldType ftd typeMap = .ok base ∧ modified ftd base = t := by
  unfold fieldTypeDescriptionToType
  rw [Fallible.bind_eq_ok_iff]
  refine exists_congr fun base => and_congr_right fun _ => ?_
  have modifiers : (if TypeId.isArray ftd.typeId then
        (pure (.array base ftd.capacity) : Except TypeDescriptionError FieldType)
      else if TypeId.isBoundedSequence ftd.typeId then pure (.boundedSequence base ftd.capacity)
      else if TypeId.isUnboundedSequence ftd.typeId then pure (.sequence base)
      else pure base) = .ok (modified ftd base) := by
    unfold modified
    split
    · rfl
    · split
      · rfl
      · split <;> rfl
  rw [modifiers, Except.ok.injEq]

/-- A described field type comes back as itself, defaults and hashes aside. -/
def Restores (typeMap : TypeMap) (t : FieldType) : Prop :=
  ∃ t', fieldTypeDescriptionToType (fieldTypeToDescription t) typeMap = .ok t' ∧
    t'.plain = t.plain

/-- The element of a collection comes back exactly when the collection does. -/
theorem restores_collection {typeMap : TypeMap} {t inner : FieldType}
    {wrap : FieldType → FieldType}
    (described : TypeId.baseType (fieldTypeToDescription t).typeId = getBaseTypeId inner)
    (unbounded : (fieldTypeToDescription t).stringCapacity = 0)
    (named : ∀ nested, inner = .message nested →
      (fieldTypeToDescription t).nestedTypeName = nested.typeName)
    (wrapped : ∀ base, modified (fieldTypeToDescription t) base = wrap base)
    (injective : ∀ base, (wrap base).plain = t.plain ↔ base.plain = inner.plain) :
    Restores typeMap t ↔
      inner.isElement = true ∧
        ∀ nested, inner.innermost = some nested → Knows typeMap nested := by
  rw [← baseFieldType_iff inner described unbounded named]
  unfold Restores
  constructor
  · rintro ⟨t', restored, same⟩
    obtain ⟨base, found, rfl⟩ := fieldTypeDescriptionToType_iff.mp restored
    rw [wrapped] at same
    exact ⟨base, found, (injective base).mp same⟩
  · rintro ⟨base, found, same⟩
    refine ⟨wrap base, ?_, (injective base).mpr same⟩
    exact fieldTypeDescriptionToType_iff.mpr ⟨base, found, wrapped base⟩

theorem arrayOffset_ids : ∀ id ∈ baseTypeIds,
    TypeId.baseType (id + TypeId.arrayOffset) = id ∧
      TypeId.isArray (id + TypeId.arrayOffset) = true :=
  List.forall_iff_forall_mem.mp (by decide)

theorem boundedSequenceOffset_ids : ∀ id ∈ baseTypeIds,
    TypeId.baseType (id + TypeId.boundedSequenceOffset) = id ∧
      TypeId.isArray (id + TypeId.boundedSequenceOffset) = false ∧
      TypeId.isBoundedSequence (id + TypeId.boundedSequenceOffset) = true :=
  List.forall_iff_forall_mem.mp (by decide)

theorem unboundedSequenceOffset_ids : ∀ id ∈ baseTypeIds,
    TypeId.baseType (id + TypeId.unboundedSequenceOffset) = id ∧
      TypeId.isArray (id + TypeId.unboundedSequenceOffset) = false ∧
      TypeId.isBoundedSequence (id + TypeId.unboundedSequenceOffset) = false ∧
      TypeId.isUnboundedSequence (id + TypeId.unboundedSequenceOffset) = true :=
  List.forall_iff_forall_mem.mp (by decide)

/-- **Which field types come back**: the flat ones whose message type is known. -/
theorem restores_iff (typeMap : TypeMap) (t : FieldType) :
    Restores typeMap t ↔
      t.flat = true ∧ ∀ nested, t.innermost = some nested → Knows typeMap nested := by
  cases t with
  | array inner size =>
      obtain ⟨sameBase, isArray⟩ := arrayOffset_ids _ (getBaseTypeId_mem inner)
      have id : (fieldTypeToDescription (.array inner size)).typeId =
          getBaseTypeId inner + TypeId.arrayOffset := by cases inner <;> rfl
      have capacity : (fieldTypeToDescription (.array inner size)).capacity = size := by
        cases inner <;> rfl
      refine @restores_collection typeMap _ inner (.array · size) (by rw [id, sameBase])
        (by cases inner <;> rfl) ?_ ?_ ?_
      · rintro nested rfl
        rfl
      · intro base
        rw [modified, id, if_pos isArray, capacity]
      · intro base
        simp [FieldType.plain]
  | sequence inner =>
      obtain ⟨sameBase, notArray, notBounded, isSequence⟩ :=
        unboundedSequenceOffset_ids _ (getBaseTypeId_mem inner)
      have id : (fieldTypeToDescription (.sequence inner)).typeId =
          getBaseTypeId inner + TypeId.unboundedSequenceOffset := by cases inner <;> rfl
      refine @restores_collection typeMap _ inner .sequence (by rw [id, sameBase])
        (by cases inner <;> rfl) ?_ ?_ ?_
      · rintro nested rfl
        rfl
      · intro base
        rw [modified, id, notArray, notBounded, isSequence]
        rfl
      · intro base
        simp [FieldType.plain]
  | boundedSequence inner max =>
      obtain ⟨sameBase, notArray, isBounded⟩ :=
        boundedSequenceOffset_ids _ (getBaseTypeId_mem inner)
      have id : (fieldTypeToDescription (.boundedSequence inner max)).typeId =
          getBaseTypeId inner + TypeId.boundedSequenceOffset := by cases inner <;> rfl
      have capacity : (fieldTypeToDescription (.boundedSequence inner max)).capacity = max := by
        cases inner <;> rfl
      refine @restores_collection typeMap _ inner (.boundedSequence · max)
        (by rw [id, sameBase]) (by cases inner <;> rfl) ?_ ?_ ?_
      · rintro nested rfl
        rfl
      · intro base
        rw [modified, id, notArray, isBounded, capacity]
        rfl
      · intro base
        simp [FieldType.plain]
  | boundedString max =>
      have restored : fieldTypeDescriptionToType (fieldTypeToDescription (.boundedString max))
          typeMap = .ok (if max > 0 then .boundedString max else .string) := by
        show (if max > 0 then Except.ok (FieldType.boundedString max) else .ok .string) >>= _ = _
        split <;> rfl
      unfold Restores
      rw [restored]
      rcases Nat.eq_zero_or_pos max with rfl | positive
      · simp [FieldType.plain, FieldType.flat]
      · simp [FieldType.plain, FieldType.flat, FieldType.innermost, positive, positive.ne']
  | _ =>
      -- a primitive or a message by itself: its description has no modifier
      refine @restores_collection typeMap _ _ (fun base => base) rfl rfl ?_ (fun _ => rfl)
        (fun _ => Iff.rfl)
      rintro nested ⟨⟩ <;> rfl

/-- The description of a flat field type names the message type it refers to. -/
theorem describes_nested {t : FieldType} {nested : MessageSchema} (flat : t.flat = true)
    (nests : t.innermost = some nested) :
    TypeId.baseType (fieldTypeToDescription t).typeId = TypeId.nestedType.single ∧
      (fieldTypeToDescription t).nestedTypeName = nested.typeName := by
  have element : ∀ inner : FieldType, inner.isElement = true → inner.innermost = some nested →
      inner = .message nested := by
    intro inner isElement found
    cases inner with
    | message => exact congrArg _ (Option.some.inj found)
    | array | sequence | boundedSequence => cases isElement
    | _ => cases found
  cases t with
  | message schema =>
      cases nests
      exact ⟨rfl, rfl⟩
  | array inner =>
      rw [element inner flat nests]
      exact ⟨(arrayOffset_ids _ (getBaseTypeId_mem _)).1, rfl⟩
  | sequence inner =>
      rw [element inner flat nests]
      exact ⟨(unboundedSequenceOffset_ids _ (getBaseTypeId_mem _)).1, rfl⟩
  | boundedSequence inner =>
      rw [element inner flat nests]
      exact ⟨(boundedSequenceOffset_ids _ (getBaseTypeId_mem _)).1, rfl⟩
  | _ => cases nests

/-- A flat field type is converted as soon as the name it refers to is recorded. -/
theorem converts_of_recorded {typeMap : TypeMap} {t : FieldType} (flat : t.flat = true)
    (recorded : ∀ nested, t.innermost = some nested →
      ∃ known, typeMap nested.typeName = some known) :
    ∃ t', fieldTypeDescriptionToType (fieldTypeToDescription t) typeMap = .ok t' := by
  rcases nests : t.innermost with _ | nested
  · have restores : Restores typeMap t := by
      refine (restores_iff typeMap t).mpr ⟨flat, fun nested found => ?_⟩
      rw [nests] at found
      cases found
    obtain ⟨t', converted, -⟩ := restores
    exact ⟨t', converted⟩
  · obtain ⟨known, lookup⟩ := recorded nested nests
    obtain ⟨sameBase, named⟩ := describes_nested flat nests
    have base : baseFieldType (fieldTypeToDescription t) typeMap = .ok (.message known) := by
      rw [baseFieldType_nested sameBase, named, lookup]
    exact ⟨_, fieldTypeDescriptionToType_iff.mpr ⟨_, base, rfl⟩⟩

/-! ## One schema there and back -/

/-- A field is converted when its type is. -/
theorem fieldDescriptionToSchema_iff {typeMap : TypeMap} {fd : FieldDescription}
    {field : FieldSchema} :
    fieldDescriptionToSchema typeMap fd = .ok field ↔
      ∃ t, fieldTypeDescriptionToType fd.fieldType typeMap = .ok t ∧
        ⟨fd.name, t, none⟩ = field := by
  unfold fieldDescriptionToSchema
  rw [Fallible.bind_eq_ok_iff]
  exact exists_congr fun t => and_congr_right fun _ => ⟨Except.ok.inj, congrArg Except.ok⟩

/-- The fields of a schema, converted from their descriptions. -/
theorem restoresFields_iff (typeMap : TypeMap) (fields : List FieldSchema) :
    (∃ fields', (fields.map fieldSchemaToDescription).mapM (fieldDescriptionToSchema typeMap) =
        .ok fields' ∧ fields'.map FieldSchema.plain = fields.map FieldSchema.plain) ↔
      ∀ field ∈ fields, Restores typeMap field.fieldType := by
  simp only [List.mapM_map]
  rw [Fallible.exists_mapM_iff]
  refine forall₂_congr fun field _ => ?_
  unfold Restores
  constructor
  · rintro ⟨field', converted, same⟩
    obtain ⟨t', restored, rfl⟩ := fieldDescriptionToSchema_iff.mp converted
    refine ⟨t', restored, ?_⟩
    rw [← field.fieldType_plain, ← same]
    rfl
  · rintro ⟨t', restored, same⟩
    refine ⟨_, fieldDescriptionToSchema_iff.mpr ⟨t', restored, rfl⟩, ?_⟩
    cases field
    exact congrArg (FieldSchema.mk _ · none) same

/-- A described schema comes back as itself, defaults and hashes aside. -/
def RestoresSchema (typeMap : TypeMap) (schema : MessageSchema) : Prop :=
  ∃ schema', typeDescriptionToSchemaFull (toTypeDescription schema) typeMap = .ok schema' ∧
    schema'.plain = schema.plain

/-- A conversion that succeeds has a name of three parts and converts every field. -/
theorem typeDescriptionToSchemaFull_iff {td : TypeDescription} {typeMap : TypeMap}
    {schema : MessageSchema} :
    typeDescriptionToSchemaFull td typeMap = .ok schema ↔
      ∃ package kind name fields, Text.fields '/' td.typeName = [package, kind, name] ∧
        td.fields.mapM (fieldDescriptionToSchema typeMap) = .ok fields ∧
        ⟨td.typeName, package, name, fields, none⟩ = schema := by
  unfold typeDescriptionToSchemaFull
  split
  case h_1 package kind name parts =>
    rw [Fallible.bind_eq_ok_iff]
    constructor
    · rintro ⟨fields, converted, same⟩
      exact ⟨package, kind, name, fields, parts, converted, Except.ok.inj same⟩
    · rintro ⟨package', kind', name', fields, parts', converted, rfl⟩
      rw [parts] at parts'
      cases parts'
      exact ⟨fields, converted, rfl⟩
  case h_2 other =>
    constructor
    · intro impossible
      cases impossible
    · rintro ⟨package, kind, name, fields, parts, -⟩
      exact absurd parts (other package kind name)

/-- **Which schemas come back**: the properly named ones with flat fields whose types
are known. -/
theorem restoresSchema_iff (typeMap : TypeMap) (schema : MessageSchema) :
    RestoresSchema typeMap schema ↔
      (schema.Named ∧ ∀ field ∈ schema.fields, field.fieldType.flat = true) ∧
        ∀ child ∈ schema.children, Knows typeMap child := by
  have fieldwise : (∀ field ∈ schema.fields, Restores typeMap field.fieldType) ↔
      (∀ field ∈ schema.fields, field.fieldType.flat = true) ∧
        ∀ child ∈ schema.children, Knows typeMap child := by
    simp only [restores_iff, MessageSchema.children, List.mem_filterMap]
    constructor
    · intro all
      refine ⟨fun field member => (all field member).1, ?_⟩
      rintro child ⟨field, member, nests⟩
      exact (all field member).2 child nests
    · rintro ⟨flat, known⟩ field member
      exact ⟨flat field member, fun nested nests => known nested ⟨field, member, nests⟩⟩
  rw [and_assoc, ← fieldwise, ← restoresFields_iff]
  unfold RestoresSchema MessageSchema.Named
  obtain ⟨typeName, package, name, fields, typeHash⟩ := schema
  constructor
  · rintro ⟨schema', converted, same⟩
    obtain ⟨package', kind, name', fields', parts, restored, rfl⟩ :=
      typeDescriptionToSchemaFull_iff.mp converted
    simp only [MessageSchema.plain, MessageSchema.mk.injEq, plainFields_eq_map] at same
    obtain ⟨-, rfl, rfl, sameFields, -⟩ := same
    exact ⟨⟨kind, parts⟩, fields', restored, sameFields⟩
  · rintro ⟨⟨kind, parts⟩, fields', restored, same⟩
    refine ⟨_, typeDescriptionToSchemaFull_iff.mpr
      ⟨package, kind, name, fields', parts, restored, rfl⟩, ?_⟩
    simp only [MessageSchema.plain, plainFields_eq_map]
    rw [same]
    rfl

/-- Only a nested base type looks at the map. -/
theorem baseFieldType_unread {ftd : FieldTypeDescription}
    (nested : TypeId.baseType ftd.typeId ≠ TypeId.nestedType.single) (typeMap typeMap' : TypeMap) :
    baseFieldType ftd typeMap = baseFieldType ftd typeMap' := by
  unfold baseFieldType
  revert nested
  generalize TypeId.baseType ftd.typeId = id
  intro nested
  split <;> first | rfl | exact absurd rfl nested

/-! ## More schemas never make a conversion fail -/

section Monotone

variable {typeMap typeMap' : TypeMap}

theorem baseFieldType_mono (grown : ∀ k b, typeMap k = some b → typeMap' k = some b)
    {ftd : FieldTypeDescription} {base : FieldType}
    (restored : baseFieldType ftd typeMap = .ok base) :
    baseFieldType ftd typeMap' = .ok base := by
  by_cases nested : TypeId.baseType ftd.typeId = TypeId.nestedType.single
  · rw [baseFieldType_nested nested] at restored ⊢
    rcases lookup : typeMap ftd.nestedTypeName with _ | known
    · rw [lookup] at restored
      cases restored
    · rw [lookup] at restored
      rw [grown _ known lookup]
      exact restored
  · rw [← restored]
    exact baseFieldType_unread nested _ _

theorem fieldDescriptionToSchema_mono (grown : ∀ k b, typeMap k = some b → typeMap' k = some b)
    {fd : FieldDescription} {field : FieldSchema}
    (converted : fieldDescriptionToSchema typeMap fd = .ok field) :
    fieldDescriptionToSchema typeMap' fd = .ok field := by
  obtain ⟨t, restored, same⟩ := fieldDescriptionToSchema_iff.mp converted
  obtain ⟨base, found, modifies⟩ := fieldTypeDescriptionToType_iff.mp restored
  refine fieldDescriptionToSchema_iff.mpr ⟨t, ?_, same⟩
  exact fieldTypeDescriptionToType_iff.mpr ⟨base, baseFieldType_mono grown found, modifies⟩

theorem monotonic_full : Worklist.Monotonic (fun (td : TypeDescription) (resolved : TypeMap) =>
    (typeDescriptionToSchemaFull td resolved).toOption) := by
  intro td typeMap typeMap' schema grown converted
  rw [Fallible.toOption_eq_some_iff] at converted ⊢
  obtain ⟨package, kind, name, fields, parts, restored, same⟩ :=
    typeDescriptionToSchemaFull_iff.mp converted
  refine typeDescriptionToSchemaFull_iff.mpr ⟨package, kind, name, fields, parts, ?_, same⟩
  rw [Fallible.mapM_eq_ok_iff] at restored ⊢
  exact restored.imp fun _ _ => fieldDescriptionToSchema_mono grown

end Monotone

/-! ## The whole description there and back -/

/-- The wire form loses nothing. -/
theorem wireToSchema_schemaToWire (schema : MessageSchema) :
    wireToSchemaTypeDescription (schemaToWireTypeDescription schema) =
      toTypeDescriptionMsg schema := by
  have individual : ∀ td, wireToSchemaIndividual (individualToWire td) = td := by
    rintro ⟨typeName, fields⟩
    simp only [individualToWire, wireToSchemaIndividual, List.map_map]
    congr 1
    exact List.map_id fields
  unfold schemaToWireTypeDescription wireToSchemaTypeDescription
  simp only [individual, List.map_map]
  congr 1
  rw [show wireToSchemaIndividual ∘ individualToWire = id from funext individual, List.map_id]
  rfl

/-- The schema comes back from its wire description, defaults and hashes aside. -/
def RoundTrips (schema : MessageSchema) : Prop :=
  ∃ restored, typeDescriptionMsgToSchema
      (wireToSchemaTypeDescription (schemaToWireTypeDescription schema)) = .ok restored ∧
    restored.plain = schema.plain

/-- The loop over the referenced types of a schema. -/
def resolveReferenced (schema : MessageSchema) : Except (List TypeDescription) TypeMap :=
  let remaining := (toTypeDescriptionMsg schema).referencedTypeDescriptions
  Worklist.run TypeDescription.typeName
    (fun td resolved => (typeDescriptionToSchemaFull td resolved).toOption)
    remaining.length remaining (fun _ => none)

/-- A round trip is a first pass, a finished loop and the conversion of the root. -/
theorem roundTrips_iff_exists (schema : MessageSchema) :
    RoundTrips schema ↔
      (∃ typeMap, (toTypeDescriptionMsg schema).referencedTypeDescriptions.mapM
        typeDescriptionToSchemaPartial = .ok typeMap) ∧
      ∃ resolved, resolveReferenced schema = .ok resolved ∧ RestoresSchema resolved schema := by
  unfold RoundTrips RestoresSchema typeDescriptionMsgToSchema
  rw [wireToSchema_schemaToWire]
  simp only [Fallible.bind_eq_ok_iff]
  rcases loop : resolveReferenced schema with stuck | resolved
  · unfold resolveReferenced at loop
    simp [loop]
  · have loop' := loop
    unfold resolveReferenced at loop'
    simp only [loop', Except.ok.injEq, exists_eq_left']
    constructor
    · rintro ⟨restored, ⟨typeMap, first, converted⟩, same⟩
      exact ⟨⟨typeMap, first⟩, restored, converted, same⟩
    · rintro ⟨⟨typeMap, first⟩, restored, converted, same⟩
      exact ⟨restored, ⟨typeMap, first, converted⟩, same⟩

/-- A name of three parts passes the first pass. -/
theorem typeDescriptionToSchemaPartial_of_parts {td : TypeDescription}
    {package kind name : String} (parts : Text.fields '/' td.typeName = [package, kind, name]) :
    typeDescriptionToSchemaPartial td = .ok ⟨td.typeName, package, name, [], none⟩ := by
  unfold typeDescriptionToSchemaPartial
  rw [parts]

section Resolution

variable {schema : MessageSchema} {added : List MessageSchema}

/-- The invariant of the loop over the referenced types. -/
abbrev Resolves (schema : MessageSchema) (remaining : List TypeDescription) (resolved : TypeMap) :
    Prop :=
  Worklist.Resolving TypeDescription.typeName
    (fun td resolved => (typeDescriptionToSchemaFull td resolved).toOption)
    (toTypeDescriptionMsg schema).referencedTypeDescriptions remaining resolved

/-- A finished loop has resolved every referenced type. -/
theorem resolves_of_resolveReferenced
    (describes : Describes schema (toTypeDescriptionMsg schema).referencedTypeDescriptions added)
    {resolved : TypeMap} (finished : resolveReferenced schema = .ok resolved) :
    Resolves schema [] resolved :=
  Worklist.resolving_of_run monotonic_full (Worklist.resolving_start describes.distinct) finished

/-- The schema recorded for a type is what its description is converted to. -/
theorem full_of_recorded (coherent : schema.Coherent)
    (describes : Describes schema (toTypeDescriptionMsg schema).referencedTypeDescriptions added)
    {resolved : TypeMap} (resolves : Resolves schema [] resolved) {inner known : MessageSchema}
    (contains : schema.Contains inner) (recorded : resolved inner.typeName = some known) :
    typeDescriptionToSchemaFull (toTypeDescription inner) resolved = .ok known := by
  obtain ⟨td, member, name, converted⟩ := resolves.origin _ _ recorded
  obtain ⟨a, among, rfl⟩ := (describes.mem_iff td).mp member
  have same := coherent a inner (describes.contains among) contains name
  rw [← toTypeDescription_congr same]
  exact Fallible.toOption_eq_some_iff.mp converted

/-- If the root comes back, so does every type in it. -/
theorem restoresSchema_of_root (coherent : schema.Coherent)
    (describes : Describes schema (toTypeDescriptionMsg schema).referencedTypeDescriptions added)
    {resolved : TypeMap} (resolves : Resolves schema [] resolved)
    (root : RestoresSchema resolved schema) {inner : MessageSchema}
    (contains : schema.Contains inner) : RestoresSchema resolved inner := by
  induction contains with
  | refl => exact root
  | @tail outer inner path nested ih =>
      obtain ⟨known, recorded, same⟩ := ((restoresSchema_iff resolved outer).mp ih).2 inner nested
      have contains : schema.Contains inner := Relation.ReflTransGen.tail path nested
      exact ⟨known, full_of_recorded coherent describes resolves contains recorded, same⟩

/-- A describable type is known once the loop has finished.  By induction on its size:
the types it refers to are smaller. -/
theorem knows_of_describable (coherent : schema.Coherent) (describable : schema.Describable)
    (describes : Describes schema (toTypeDescriptionMsg schema).referencedTypeDescriptions added)
    {resolved : TypeMap} (resolves : Resolves schema [] resolved) {outer : MessageSchema}
    (contains : schema.Contains outer) : ∀ child ∈ outer.children, Knows resolved child := by
  induction size : sizeOf outer using Nat.strong_induction_on generalizing outer with
  | _ size ih =>
      subst size
      intro child nested
      have within : schema.Contains child := Relation.ReflTransGen.tail contains nested
      have smaller := MessageSchema.sizeOf_child nested
      have restores : RestoresSchema resolved child :=
        (restoresSchema_iff resolved child).mpr
          ⟨describable child within, ih _ smaller within rfl⟩
      obtain ⟨restored, converted, same⟩ := restores
      obtain ⟨a, among, plainA⟩ := describes.complete outer contains child nested
      have member := (describes.mem_iff _).mpr ⟨a, among, toTypeDescription_congr plainA⟩
      rcases resolves.resolved _ member with impossible | ⟨known, recorded⟩
      · cases impossible
      · have found := full_of_recorded coherent describes resolves within recorded
        rw [converted] at found
        cases found
        exact ⟨restored, recorded, same⟩

/-- Among any referenced types that are left, one refers to none of them. -/
theorem exists_ready (describable : schema.Describable)
    (describes : Describes schema (toTypeDescriptionMsg schema).referencedTypeDescriptions added)
    (remaining : List TypeDescription) (some : remaining ≠ [])
    (within : ∀ td ∈ remaining,
      td ∈ (toTypeDescriptionMsg schema).referencedTypeDescriptions) :
    ∃ td ∈ remaining, ∀ resolved : TypeMap,
      (∀ other ∈ (toTypeDescriptionMsg schema).referencedTypeDescriptions,
        other ∈ remaining ∨ ∃ known, resolved other.typeName = .some known) →
      (typeDescriptionToSchemaFull td resolved).toOption ≠ none := by
  obtain ⟨first, isFirst⟩ := List.exists_mem_of_ne_nil remaining some
  obtain ⟨start, amongStart, describesStart⟩ := (describes.mem_iff first).mp (within first isFirst)
  -- a schema of least size among those whose description is left
  obtain ⟨a, ⟨among, left⟩, least⟩ :=
    (measure fun a : MessageSchema => sizeOf a.plain).wf.has_min
      {a | a ∈ added ∧ toTypeDescription a ∈ remaining}
      ⟨start, amongStart, describesStart ▸ isFirst⟩
  refine ⟨toTypeDescription a, left, ?_⟩
  intro resolved covers
  have contains := describes.contains among
  obtain ⟨⟨kind, parts⟩, flat⟩ := describable a contains
  have recorded : ∀ child ∈ a.children, ∃ known, resolved child.typeName = .some known := by
    intro child nested
    obtain ⟨b, amongB, same⟩ := describes.complete a contains child nested
    have smaller : sizeOf b.plain < sizeOf a.plain := by
      rw [same]
      apply MessageSchema.sizeOf_child
      rw [a.children_plain]
      exact List.mem_map_of_mem nested
    have name : b.typeName = child.typeName := by
      rw [← b.typeName_plain, same, child.typeName_plain]
    rcases covers _ ((describes.mem_iff _).mpr ⟨b, amongB, rfl⟩) with stillLeft | found
    · exact absurd smaller (least b ⟨amongB, stillLeft⟩)
    · exact name ▸ found
  have fieldwise : ∀ fd ∈ (toTypeDescription a).fields,
      ∃ field, fieldDescriptionToSchema resolved fd = .ok field := by
    intro fd member
    obtain ⟨field, isField, rfl⟩ := List.mem_map.mp member
    obtain ⟨t, restored⟩ := converts_of_recorded (flat field isField) fun nested nests =>
      recorded nested (List.mem_filterMap.mpr ⟨field, isField, nests⟩)
    exact ⟨_, fieldDescriptionToSchema_iff.mpr ⟨t, restored, rfl⟩⟩
  obtain ⟨fields, converted⟩ := Fallible.exists_mapM_ok fieldwise
  have named : Text.fields '/' (toTypeDescription a).typeName = [a.package, kind, a.name] := parts
  have full := typeDescriptionToSchemaFull_iff.mpr
    ⟨a.package, kind, a.name, fields, named, converted, rfl⟩
  intro failed
  rw [Fallible.toOption_eq_some_iff.mpr full] at failed
  cases failed

end Resolution

/-- **A coherent schema comes back from its description exactly when it is
describable.** -/
theorem roundTrips_iff {schema : MessageSchema} (coherent : schema.Coherent) :
    RoundTrips schema ↔ schema.Describable := by
  obtain ⟨added, describes⟩ := exists_describes coherent
  rw [roundTrips_iff_exists]
  constructor
  · rintro ⟨-, resolved, finished, root⟩ inner contains
    have resolves := resolves_of_resolveReferenced describes finished
    have restores := restoresSchema_of_root coherent describes resolves root contains
    exact ((restoresSchema_iff resolved inner).mp restores).1
  · intro describable
    have first : ∃ typeMap, (toTypeDescriptionMsg schema).referencedTypeDescriptions.mapM
        typeDescriptionToSchemaPartial = .ok typeMap := by
      apply Fallible.exists_mapM_ok
      intro td member
      obtain ⟨a, among, rfl⟩ := (describes.mem_iff td).mp member
      obtain ⟨⟨kind, parts⟩, -⟩ := describable a (describes.contains among)
      exact ⟨_, typeDescriptionToSchemaPartial_of_parts parts⟩
    obtain ⟨resolved, finished⟩ := Worklist.run_finishes monotonic_full
      (exists_ready describable describes) (Nat.le_refl _)
      (Worklist.resolving_start describes.distinct)
    have resolves := resolves_of_resolveReferenced describes finished
    refine ⟨first, resolved, finished, (restoresSchema_iff resolved schema).mpr ⟨?_, ?_⟩⟩
    · exact describable schema Relation.ReflTransGen.refl
    · exact knows_of_describable coherent describable describes resolves
        Relation.ReflTransGen.refl

/-- A pose track: a bounded sequence of points and a bounded string. -/
def trackBuilder (point : MessageSchema) : MessageSchemaBuilder where
  typeName := "test_msgs/msg/Track"
  fields := [⟨"points", .boundedSequence (.message point) 8, none⟩,
    ⟨"label", .boundedString 10, none⟩]
  typeHash := none

/-- A point, as built. -/
def pointSchema : MessageSchema :=
  ⟨"test_msgs/msg/Point", "test_msgs", "Point", [⟨"x", .float64, none⟩, ⟨"y", .float64, none⟩],
    none⟩

/-- A track, as built. -/
def trackSchema : MessageSchema :=
  ⟨"test_msgs/msg/Track", "test_msgs", "Track", (trackBuilder pointSchema).fields, none⟩

/-- A track and its points are all the types in a track. -/
theorem trackSchema_types {inner : MessageSchema} (contains : trackSchema.Contains inner) :
    inner = trackSchema ∨ inner = pointSchema := by
  induction contains with
  | refl => exact Or.inl rfl
  | tail _ nested ih =>
      rcases ih with rfl | rfl
      · exact Or.inr (List.mem_singleton.mp nested)
      · cases nested

theorem trackSchema_coherent : trackSchema.Coherent := by
  intro a b containsA containsB name
  rcases trackSchema_types containsA with rfl | rfl <;>
    rcases trackSchema_types containsB with rfl | rfl
  · rfl
  · exact absurd name (by decide)
  · exact absurd name (by decide)
  · rfl

theorem roundTrips_iff_track :
    (trackBuilder pointSchema).build = .ok trackSchema ∧ RoundTrips trackSchema := by
  have trackParts : Text.fields '/' "test_msgs/msg/Track" = ["test_msgs", "msg", "Track"] := by
    decide +kernel
  have pointParts : Text.fields '/' "test_msgs/msg/Point" = ["test_msgs", "msg", "Point"] := by
    decide +kernel
  have built : (trackBuilder pointSchema).build = .ok trackSchema := by
    simp only [MessageSchemaBuilder.build, trackBuilder, trackParts]
    rfl
  refine ⟨built, (roundTrips_iff trackSchema_coherent).mpr fun inner contains => ?_⟩
  rcases trackSchema_types contains with rfl | rfl
  · refine ⟨MessageSchemaBuilder.named_of_build built, ?_⟩
    simp [trackSchema, trackBuilder, FieldType.flat, FieldType.isElement]
  · refine ⟨⟨"msg", pointParts⟩, ?_⟩
    simp [pointSchema, FieldType.flat]

/-- Two rows of three numbers. -/
def gridSchema : MessageSchema :=
  ⟨"test_msgs/msg/Grid", "test_msgs", "Grid", [⟨"cells", .array (.array .int32 3) 2, none⟩], none⟩

/-- The grid comes back as two numbers. -/
theorem gridSchema_not_roundTrips :
    (MessageSchemaBuilder.mk "test_msgs/msg/Grid" gridSchema.fields none).build = .ok gridSchema ∧
      gridSchema.Coherent ∧
      typeDescriptionMsgToSchema (wireToSchemaTypeDescription
          (schemaToWireTypeDescription gridSchema)) =
        .ok { gridSchema with fields := [⟨"cells", .array .int32 2, none⟩] } ∧
      ¬ RoundTrips gridSchema := by
  have parts : Text.fields '/' "test_msgs/msg/Grid" = ["test_msgs", "msg", "Grid"] := by
    decide +kernel
  have restored : typeDescriptionMsgToSchema (wireToSchemaTypeDescription
      (schemaToWireTypeDescription gridSchema)) =
        .ok { gridSchema with fields := [⟨"cells", .array .int32 2, none⟩] } := by
    rw [wireToSchema_schemaToWire]
    show typeDescriptionToSchemaFull (toTypeDescription gridSchema) (fun _ => none) = _
    exact typeDescriptionToSchemaFull_iff.mpr ⟨_, _, _, _, parts, rfl, rfl⟩
  refine ⟨?_, ?_, restored, ?_⟩
  · simp only [MessageSchemaBuilder.build, parts]
    rfl
  · have only : ∀ inner, gridSchema.Contains inner → inner = gridSchema := by
      intro inner contains
      induction contains with
      | refl => rfl
      | tail _ nested ih =>
          rw [ih] at nested
          cases nested
    intro a b containsA containsB _
    rw [only a containsA, only b containsB]
  · rintro ⟨other, converted, same⟩
    rw [restored] at converted
    cases converted
    simp [MessageSchema.plain, gridSchema, plainFields, FieldSchema.plain, FieldType.plain] at same

end RosZ.Dynamic
