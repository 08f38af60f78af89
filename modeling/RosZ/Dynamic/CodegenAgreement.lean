import RosZ.Dynamic.ReferencedTypes
import RosZ.Dynamic.Registry

/-!
# The two descriptions of a message type

A message type is described twice: by the code generator, for typed endpoints
(`build_type_description_msg`), and by the dynamic side, from the schema of the parsed
message (`to_type_description_msg`).  `describesAlike_iff` says for which messages the two
descriptions are equal, so that both endpoints advertise the same type hash.

The two sides differ in

* the id of `byte`, which is `uint8` for the generator and `int8` for the schema;
* strings with a bound, which have an id of their own for the generator and lose their
  bound in the schema;
* messages without fields, where only the generator adds the placeholder field;
* types named like action components, which the generator stores under another name;
* types that are nested at depth two and are not also the type of a field of the message,
  which the generator does not reference.
-/

namespace RosZ.Dynamic

open RosZ.Schema
open RosZ.Codegen (ParsedMessage ResolvedMessage Resolver MessageSet Refers IsActionComponent
  isPrimitiveType getArrayCapacity)

/-! ## Field types -/

/-- The type of the field is the same base type on both sides. -/
structure SharedType (fieldType : Codegen.FieldType) : Prop where
  /-- A packaged type is a nested one for the generator, whatever its name. -/
  unpackaged : isPrimitiveType fieldType.baseType = true → fieldType.package = none
  noByte : fieldType.baseType ≠ "byte"
  noBound : fieldType.baseType = "string" → fieldType.stringBound = none
  /-- A type named like a bounded string is one for the schema only. -/
  noLimit : boundedStringLimit fieldType.baseType = none

instance (fieldType : Codegen.FieldType) : Decidable (SharedType fieldType) :=
  decidable_of_iff ((isPrimitiveType fieldType.baseType = true → fieldType.package = none) ∧
      fieldType.baseType ≠ "byte" ∧
      (fieldType.baseType = "string" → fieldType.stringBound = none) ∧
      boundedStringLimit fieldType.baseType = none)
    ⟨fun ⟨unpackaged, noByte, noBound, noLimit⟩ => ⟨unpackaged, noByte, noBound, noLimit⟩,
      fun ⟨unpackaged, noByte, noBound, noLimit⟩ => ⟨unpackaged, noByte, noBound, noLimit⟩⟩

/-- The primitives under the name the schema knows them by. -/
def schemaPrimitive (baseType : String) : String :=
  if baseType = "byte" then "int8" else baseType

/-- The schema's description of a primitive field. -/
theorem describe_primitive {fieldType : Codegen.FieldType} {t : FieldType}
    (primitive : primitiveType fieldType.baseType = some t) :
    ∃ ids, Codegen.primitiveTypeIds (schemaPrimitive fieldType.baseType) = some ids ∧
      fieldTypeToDescription (wrapArray fieldType.array t) =
        { typeId := fieldType.array.select ids
          capacity := getArrayCapacity fieldType
          stringCapacity := 0
          nestedTypeName := "" } := by
  obtain ⟨baseType, package, array, stringBound⟩ := fieldType
  dsimp only at primitive ⊢
  unfold primitiveType at primitive
  split at primitive
  case h_15 => cases primitive
  all_goals
    cases primitive
    rcases array with _ | _ | _ | _ <;> exact ⟨_, rfl, rfl⟩

/-- The schema's description of a field of message type. -/
theorem describe_message (fieldType : Codegen.FieldType) (nested : MessageSchema) :
    fieldTypeToDescription (wrapArray fieldType.array (.message nested)) =
      { typeId := fieldType.array.select TypeId.nestedType
        capacity := getArrayCapacity fieldType
        stringCapacity := 0
        nestedTypeName := nested.typeName } := by
  obtain ⟨baseType, package, array, stringBound⟩ := fieldType
  rcases array with _ | _ | _ | _ <;> rfl

theorem nestedTypeName_boundedString (array : Codegen.ArrayType) (maxLen : ℕ) :
    (fieldTypeToDescription (wrapArray array (.boundedString maxLen))).nestedTypeName = "" := by
  rcases array with _ | _ | _ | _ <;> rfl

theorem select_ne_nestedType {baseType : String} {ids : TypeIds}
    (primitive : Codegen.primitiveTypeIds baseType = some ids) (array : Codegen.ArrayType) :
    array.select ids ≠ array.select TypeId.nestedType := by
  unfold Codegen.primitiveTypeIds at primitive
  split at primitive
  case h_15 => cases primitive
  all_goals
    cases primitive
    rcases array with _ | _ | _ | _ <;> exact of_decide_eq_true rfl

theorem select_ne_boundedString {baseType : String} {ids : TypeIds}
    (primitive : Codegen.primitiveTypeIds baseType = some ids) (array : Codegen.ArrayType) :
    array.select ids ≠ TypeId.boundedString := by
  unfold Codegen.primitiveTypeIds at primitive
  split at primitive
  case h_15 => cases primitive
  all_goals
    cases primitive
    rcases array with _ | _ | _ | _ <;> exact of_decide_eq_true rfl

theorem select_int8_ne_uint8 (array : Codegen.ArrayType) :
    array.select TypeId.uint8 ≠ array.select TypeId.int8 := by
  rcases array with _ | _ | _ | _ <;> exact of_decide_eq_true rfl

theorem not_isNested {baseType : String} (primitive : isPrimitiveType baseType = true)
    (array : Codegen.ArrayType) (stringBound : Option ℕ) :
    Codegen.FieldType.isNested ⟨baseType, none, array, stringBound⟩ = false := by
  simp [Codegen.FieldType.isNested, primitive]

theorem typeIdOf_primitive {baseType : String} {array : Codegen.ArrayType}
    {stringBound : Option ℕ} {ids : TypeIds} (primitive : isPrimitiveType baseType = true)
    (unbounded : baseType = "string" → stringBound = none)
    (known : Codegen.primitiveTypeIds baseType = some ids) :
    Codegen.typeIdOf ⟨baseType, none, array, stringBound⟩ = array.select ids := by
  have noString : (stringBound.isSome && baseType == "string") = false := by
    by_cases string : baseType = "string"
    · simp [unbounded string]
    · simp [string]
  refine Codegen.typeIdOf_eq ?_
  unfold Codegen.getTypeId
  rw [not_isNested primitive]
  simp [noString, known]

/-- The id of a string with a bound is that of no array. -/
theorem typeIdOf_boundedString {array : Codegen.ArrayType} {stringBound : Option ℕ}
    (bound : stringBound ≠ none) :
    Codegen.typeIdOf ⟨"string", none, array, stringBound⟩ = TypeId.boundedString := by
  refine Codegen.typeIdOf_eq ?_
  unfold Codegen.getTypeId
  rw [not_isNested (by decide)]
  simp [Option.isSome_iff_ne_none.mpr bound]

/-- Both sides give a primitive the same id when it has no package, is no `byte` and no string
with a bound. -/
theorem typeIdOf_eq_iff {fieldType : Codegen.FieldType} {ids : TypeIds}
    (primitive : isPrimitiveType fieldType.baseType = true)
    (known : Codegen.primitiveTypeIds (schemaPrimitive fieldType.baseType) = some ids) :
    Codegen.typeIdOf fieldType = fieldType.array.select ids ↔
      fieldType.package = none ∧ fieldType.baseType ≠ "byte" ∧
        (fieldType.baseType = "string" → fieldType.stringBound = none) := by
  obtain ⟨baseType, package, array, stringBound⟩ := fieldType
  dsimp only at primitive known ⊢
  rcases package with _ | pkg
  · by_cases byte : baseType = "byte"
    · subst byte
      cases known
      rw [typeIdOf_primitive primitive (by simp) rfl]
      simp [select_int8_ne_uint8]
    · rw [schemaPrimitive, if_neg byte] at known
      by_cases unbounded : baseType = "string" → stringBound = none
      · exact iff_of_true (typeIdOf_primitive primitive unbounded known) ⟨rfl, byte, unbounded⟩
      · obtain ⟨rfl, bound⟩ := Classical.not_imp.mp unbounded
        rw [typeIdOf_boundedString bound]
        refine iff_of_false (select_ne_boundedString known array).symm ?_
        exact fun agree => unbounded agree.2.2
  · have id : Codegen.typeIdOf ⟨baseType, some pkg, array, stringBound⟩ =
        array.select TypeId.nestedType := rfl
    rw [id]
    simp [(select_ne_nestedType known array).symm]

/-- The type of a field as the generator describes it, with the string capacity and the name of
the nested type that go into the description. -/
def generated (fieldType : Codegen.FieldType) (stringCapacity : ℕ) (nestedTypeName : String) :
    FieldTypeDescription where
  typeId := Codegen.typeIdOf fieldType
  capacity := getArrayCapacity fieldType
  stringCapacity := stringCapacity
  nestedTypeName := if isPrimitiveType fieldType.baseType then "" else nestedTypeName

theorem boundedStringLimit_primitive {baseType : String}
    (primitive : isPrimitiveType baseType = true) :
    boundedStringLimit baseType = none := by
  unfold isPrimitiveType at primitive
  simp only [List.mem_cons, List.not_mem_nil, or_false, decide_eq_true_eq] at primitive
  rcases primitive with rfl | rfl | rfl | rfl | rfl | rfl | rfl | rfl | rfl | rfl | rfl | rfl |
    rfl | rfl <;> rfl

/-- **When the two sides describe a field alike.**  The schema has no string capacities, and
the name of the nested type has to be that of the message type. -/
theorem generated_eq_iff {resolver : SchemaResolver} {fieldType : Codegen.FieldType}
    {t : FieldType} {stringCapacity : ℕ} {nestedTypeName typeName : String}
    (converted : convertBaseType fieldType.baseType fieldType.package resolver = .ok t)
    (named : nestedTypeName ≠ "")
    (resolves : ∀ nested, t = .message nested → nested.typeName = typeName) :
    generated fieldType stringCapacity nestedTypeName =
        fieldTypeToDescription (wrapArray fieldType.array t) ↔
      SharedType fieldType ∧ stringCapacity = 0 ∧
        (isPrimitiveType fieldType.baseType = false → nestedTypeName = typeName) := by
  unfold generated
  rcases convertBaseType_cases converted with
    found | ⟨custom, maxLen, limit, rfl⟩ | ⟨custom, limit, pkg, nested, packaged, -, rfl⟩
  · have primitive : isPrimitiveType fieldType.baseType = true := by
      rw [← primitiveType_isSome, found, Option.isSome_some]
    obtain ⟨ids, known, described⟩ := describe_primitive found
    rw [described, FieldTypeDescription.mk.injEq, typeIdOf_eq_iff primitive known, if_pos primitive]
    constructor
    · rintro ⟨⟨unpackaged, noByte, noBound⟩, -, capacity, -⟩
      have noLimit := boundedStringLimit_primitive primitive
      refine ⟨⟨fun _ => unpackaged, noByte, noBound, noLimit⟩, capacity, ?_⟩
      rw [primitive]
      exact fun impossible => absurd impossible Bool.noConfusion
    · rintro ⟨shared, capacity, -⟩
      exact ⟨⟨shared.unpackaged primitive, shared.noByte, shared.noBound⟩, rfl, capacity, rfl⟩
  · rw [primitiveType_eq_none_iff] at custom
    constructor
    · intro same
      have name := congrArg FieldTypeDescription.nestedTypeName same
      simp only [custom, Bool.false_eq_true, if_false, nestedTypeName_boundedString] at name
      exact absurd name named
    · rintro ⟨shared, -, -⟩
      rw [shared.noLimit] at limit
      cases limit
  · rw [primitiveType_eq_none_iff] at custom
    have isNested : fieldType.isNested = true := Codegen.isNested_of_not_primitive custom
    have id : Codegen.typeIdOf fieldType = fieldType.array.select TypeId.nestedType := by
      refine Codegen.typeIdOf_eq ?_
      unfold Codegen.getTypeId
      rw [isNested, if_pos rfl]
    rw [describe_message, resolves nested rfl, FieldTypeDescription.mk.injEq, id, custom]
    constructor
    · rintro ⟨-, -, capacity, name⟩
      refine ⟨⟨?_, ?_, ?_, limit⟩, capacity, fun _ => name⟩
      · rw [custom]
        exact fun impossible => absurd impossible Bool.noConfusion
      · rintro byte
        rw [byte] at custom
        cases custom
      · rintro string
        rw [string] at custom
        cases custom
    · rintro ⟨-, capacity, name⟩
      exact ⟨rfl, rfl, capacity, name rfl⟩

/-- The string capacity in the root description of a field. -/
theorem rootField_eq (package : String) (field : Codegen.Field) :
    Codegen.rootField package field =
      { name := field.name
        fieldType := generated field.fieldType
          (if isPrimitiveType field.fieldType.baseType ∧ getArrayCapacity field.fieldType = 0 then
            field.fieldType.stringBound.getD 0 else 0)
          (Names.join (field.fieldType.packageIn package) ("msg/" ++ field.fieldType.baseType))
        defaultValue := "" } := by
  unfold Codegen.rootField generated
  rcases primitive : isPrimitiveType field.fieldType.baseType with _ | _
  · rw [Codegen.describeWithId_nested primitive]
    simp
  · rw [Codegen.describeWithId_primitive primitive]
    simp

/-- The type of the field is described alike where its message is the root: the type is
shared, and no string capacity is written. -/
def SharedField (fieldType : Codegen.FieldType) : Prop :=
  SharedType fieldType ∧ (isPrimitiveType fieldType.baseType = true →
    getArrayCapacity fieldType = 0 → fieldType.stringBound.getD 0 = 0)

instance (fieldType : Codegen.FieldType) : Decidable (SharedField fieldType) :=
  inferInstanceAs (Decidable (_ ∧ (_ → _ → _)))

/-! ## Types -/

section Set

variable {messages : List ParsedMessage} {resolver : SchemaResolver}
  (set : MessageSet messages) (looks : Looks messages resolver)

include set looks

/-- A field of message type has the name of the message type in its schema. -/
theorem typeName_of_message {m : ParsedMessage} (member : m ∈ messages)
    {field : Codegen.Field} (among : field ∈ m.fields) {nested : MessageSchema}
    (converted : convertBaseType field.fieldType.baseType field.fieldType.package resolver =
      .ok (.message nested)) :
    nested.typeName =
      Names.join (field.fieldType.packageIn m.package) ("msg/" ++ field.fieldType.baseType) := by
  rcases convertBaseType_cases converted with
    found | ⟨-, maxLen, -, impossible⟩ | ⟨-, -, pkg, schema, packaged, found, same⟩
  · have innermost := innermost_primitiveType found
    cases innermost
  · cases impossible
  · cases same
    obtain ⟨d, -, rfl, name, accepted⟩ :=
      resolves_message set looks member among packaged found
    rw [(converts_of_ok accepted).typeName, name, Codegen.FieldType.packageIn, packaged,
      Option.getD_some]

/-- **When the two sides describe a type alike**, for a generator's description with given
type name, string capacities and nested type names. -/
theorem describes_iff {m : ParsedMessage} (member : m ∈ messages) {schema : MessageSchema}
    (accepted : parsedMessageToSchema m resolver = .ok schema) (typeName : String)
    {describe : Codegen.Field → FieldDescription} {capacity : Codegen.Field → ℕ}
    {nestedName : Codegen.Field → String} (named : ∀ field, nestedName field ≠ "")
    (shape : ∀ field, describe field =
      { name := field.name
        fieldType := generated field.fieldType (capacity field) (nestedName field)
        defaultValue := "" }) :
    TypeDescription.mk typeName
        (if m.fields = [] then [Codegen.placeholderField] else m.fields.map describe) =
        toTypeDescription schema ↔
      typeName = Names.join m.package ("msg/" ++ m.name) ∧ m.fields ≠ [] ∧
        ∀ field ∈ m.fields, SharedType field.fieldType ∧ capacity field = 0 ∧
          (isPrimitiveType field.fieldType.baseType = false → nestedName field =
            Names.join (field.fieldType.packageIn m.package)
              ("msg/" ++ field.fieldType.baseType)) := by
  have converts := converts_of_ok accepted
  unfold toTypeDescription
  rw [TypeDescription.mk.injEq, converts.typeName]
  refine and_congr_right fun _ => ?_
  by_cases empty : m.fields = []
  · have noFields : schema.fields = [] := by
      have loop := converts.fields
      rw [empty] at loop
      exact (Except.ok.inj loop).symm
    simp [empty, noFields]
  · rw [if_neg empty, eq_comm, Fallible.map_results_eq_iff converts.fields]
    rw [and_iff_right empty]
    refine forall₂_congr fun field among => ?_
    obtain ⟨converted, -, succeeded⟩ := Fallible.exists_result converts.fields among
    obtain ⟨t, conversion⟩ := convertField_eq_ok succeeded
    have resolves : ∀ nested, t = .message nested → nested.typeName =
        Names.join (field.fieldType.packageIn m.package) ("msg/" ++ field.fieldType.baseType) := by
      rintro nested rfl
      exact typeName_of_message set looks member among conversion.base
    have described : fieldSchemaToDescription converted = describe field ↔
        generated field.fieldType (capacity field) (nestedName field) =
          fieldTypeToDescription (wrapArray field.fieldType.array t) := by
      unfold fieldSchemaToDescription
      rw [shape, conversion.name, conversion.wrapped]
      simp [eq_comm]
    rw [← generated_eq_iff conversion.base (named field) resolves, ← described]
    constructor
    · exact fun alike => alike converted succeeded
    · intro alike other succeeded'
      rw [succeeded, Except.ok.injEq] at succeeded'
      rwa [← succeeded']

/-- **When the root descriptions of a message are equal.** -/
theorem rootDescription_eq_iff {m : ParsedMessage} (member : m ∈ messages)
    {schema : MessageSchema} (accepted : parsedMessageToSchema m resolver = .ok schema) :
    Codegen.rootDescription m = toTypeDescription schema ↔
      m.fields ≠ [] ∧ ∀ field ∈ m.fields, SharedField field.fieldType := by
  have alike := describes_iff set looks member accepted
    (Names.join m.package ("msg/" ++ m.name))
    (fun field => Names.join_ne_empty (field.fieldType.packageIn m.package)
      ("msg/" ++ field.fieldType.baseType)) (rootField_eq m.package)
  unfold Codegen.rootDescription
  rw [alike]
  simp [SharedField]

/-- **When the description that is stored for a message is its schema's.** -/
theorem storedDescription_eq_iff {d : ParsedMessage} (member : d ∈ messages)
    {schema : MessageSchema} (accepted : parsedMessageToSchema d resolver = .ok schema) :
    Codegen.storedDescription d = toTypeDescription schema ↔
      ¬ IsActionComponent d.name ∧ d.fields ≠ [] ∧
        ∀ field ∈ d.fields, SharedType field.fieldType ∧ field.fieldType.stringBound.getD 0 = 0 ∧
          (isPrimitiveType field.fieldType.baseType = false →
            ¬ IsActionComponent field.fieldType.baseType) := by
  have named : ∀ field : Codegen.Field, Codegen.componentTypeName
      (field.fieldType.packageIn d.package) field.fieldType.baseType ≠ "" := by
    intro field
    obtain ⟨rest, joined, -⟩ := Codegen.componentTypeName_eq_join
      (field.fieldType.packageIn d.package) field.fieldType.baseType
    rw [joined]
    exact Names.join_ne_empty _ _
  have alike := describes_iff set looks member accepted
    (Codegen.componentTypeName d.package d.name) named
    (fun field => (rfl : Codegen.storedField d.package field = _))
  unfold Codegen.storedDescription
  rw [alike, Codegen.componentTypeName_eq_iff (set.plain d member).1]
  refine and_congr_right fun _ => and_congr_right fun _ => forall₂_congr fun field among => ?_
  refine and_congr_right fun _ => and_congr_right fun _ => imp_congr_right fun custom => ?_
  exact Codegen.componentTypeName_eq_iff (set.plain_packageIn member among custom)

omit set looks in
/-- Where the types of the fields are shared, both sides find the same nested types. -/
theorem uses_iff {m d : ParsedMessage} {schema : MessageSchema}
    (accepted : parsedMessageToSchema m resolver = .ok schema)
    (shared : ∀ field ∈ m.fields, SharedType field.fieldType) :
    Uses messages m d ↔ Refers messages m d := by
  constructor
  · rintro ⟨inSet, field, among, primitive, -, packaged, name⟩
    refine ⟨inSet, field, among, primitiveType_eq_none_iff.mp primitive, ?_, name.symm⟩
    rw [Codegen.FieldType.packageIn, packaged, Option.getD_some]
  · rintro ⟨inSet, field, among, custom, package, name⟩
    obtain ⟨converted, -, succeeded⟩ :=
      Fallible.exists_result (converts_of_ok accepted).fields among
    obtain ⟨t, conversion⟩ := convertField_eq_ok succeeded
    have primitive := primitiveType_eq_none_iff.mpr custom
    have limit := (shared field among).noLimit
    rcases convertBaseType_cases conversion.base with
      isPrimitive | ⟨-, maxLen, isLimit, -⟩ | ⟨-, -, pkg, nested, packaged, -, -⟩
    · rw [primitive] at isPrimitive
      cases isPrimitive
    · rw [limit] at isLimit
      cases isLimit
    · refine ⟨inSet, field, among, primitive, limit, ?_, name.symm⟩
      rw [package, Codegen.FieldType.packageIn, packaged, Option.getD_some]

/-- The types that the schema's description references are those in use, at any depth. -/
theorem mem_referenced_iff {m : ParsedMessage} (member : m ∈ messages) {schema : MessageSchema}
    (accepted : parsedMessageToSchema m resolver = .ok schema) {td : TypeDescription} :
    td ∈ (toTypeDescriptionMsg schema).referencedTypeDescriptions ↔
      ∃ d inner, Relation.TransGen (Uses messages) m d ∧
        parsedMessageToSchema d resolver = .ok inner ∧ toTypeDescription inner = td := by
  obtain ⟨added, describes⟩ := exists_describes (coherent_schema set looks member accepted)
  rw [describes.mem_iff]
  constructor
  · rintro ⟨a, among, rfl⟩
    obtain ⟨d, uses, acceptedA⟩ :=
      (contained_iff set looks member accepted).mp (describes.nested a among)
    exact ⟨d, a, uses, acceptedA, rfl⟩
  · rintro ⟨d, inner, uses, acceptedInner, rfl⟩
    obtain ⟨child, nested, contains⟩ :=
      (contained_iff set looks member accepted).mpr ⟨d, uses, acceptedInner⟩
    -- the schema that refers to the inner one
    have complete : ∃ a ∈ added, a.plain = inner.plain := by
      rcases Relation.ReflTransGen.cases_tail contains with rfl | ⟨outer, path, below⟩
      · exact describes.complete schema Relation.ReflTransGen.refl _ nested
      · exact describes.complete outer (Relation.ReflTransGen.head nested path) inner below
    obtain ⟨a, among, same⟩ := complete
    exact ⟨a, among, toTypeDescription_congr same⟩

end Set

/-! ## Descriptions -/

/-- The messages that both sides describe alike.  Every type nested in a type of the message is
the type of one of its own fields, no type is empty or named like an action component, and the
fields are described alike. -/
structure DescribesAlike (messages : List ParsedMessage) (m : ParsedMessage) : Prop where
  nonempty : m.fields ≠ []
  fields : ∀ field ∈ m.fields, SharedField field.fieldType
  direct : ∀ d e, Refers messages m d → Refers messages d e → Refers messages m e
  noComponent : ∀ d, Refers messages m d → ¬ IsActionComponent d.name
  nonemptyNested : ∀ d, Refers messages m d → d.fields ≠ []
  nestedFields : ∀ d, Refers messages m d → ∀ field ∈ d.fields,
    SharedType field.fieldType ∧ field.fieldType.stringBound.getD 0 = 0

section Message

variable {messages : List ParsedMessage} {resolver : SchemaResolver}
  (set : MessageSet messages) (looks : Looks messages resolver)
  {r : ResolvedMessage TypeDescriptionMsg} (member : r.parsed ∈ messages)
  (generator : Codegen.DirectDescription messages r)
  {schema : MessageSchema} (accepted : parsedMessageToSchema r.parsed resolver = .ok schema)

include set looks member generator accepted

/-- Where the referenced types are equal, a type in use is that of a field of the message, and
its stored description is that of its schema. -/
theorem stored_of_uses
    (same : r.typeHash.referencedTypeDescriptions =
      (toTypeDescriptionMsg schema).referencedTypeDescriptions)
    {d : ParsedMessage} {inner : MessageSchema}
    (uses : Relation.TransGen (Uses messages) r.parsed d)
    (acceptedInner : parsedMessageToSchema d resolver = .ok inner) :
    Refers messages r.parsed d ∧ Codegen.storedDescription d = toTypeDescription inner := by
  have entry : toTypeDescription inner ∈ r.typeHash.referencedTypeDescriptions := by
    rw [same]
    exact (mem_referenced_iff set looks member accepted).mpr ⟨d, inner, uses, acceptedInner, rfl⟩
  obtain ⟨d', refers, stored⟩ := generator.stored _ entry
  have inSet := Uses.mem_of_transGen uses
  have name : Codegen.componentTypeName d'.package d'.name =
      Names.join d.package ("msg/" ++ d.name) :=
    (congrArg TypeDescription.typeName stored).symm.trans (converts_of_ok acceptedInner).typeName
  obtain ⟨package, base, -⟩ := Codegen.componentTypeName_eq_msg (set.plain d' refers.1).1
    (set.plain d inSet).1 name
  obtain rfl := set.eq_of_name refers.1 inSet package base
  exact ⟨refers, stored.symm⟩

/-- Equal descriptions force the conditions of `DescribesAlike`. -/
theorem describesAlike_of_eq (same : r.typeHash = toTypeDescriptionMsg schema) :
    DescribesAlike messages r.parsed := by
  have referenced := congrArg TypeDescriptionMsg.referencedTypeDescriptions same
  have root : Codegen.rootDescription r.parsed = toTypeDescription schema := by
    rw [← generator.root, same]
    rfl
  obtain ⟨nonempty, fields⟩ := (rootDescription_eq_iff set looks member accepted).mp root
  -- a type of a field is in use, and its own fields are shared
  have stored : ∀ d, Refers messages r.parsed d → Uses messages r.parsed d ∧
      ∃ inner, parsedMessageToSchema d resolver = .ok inner ∧
        Codegen.storedDescription d = toTypeDescription inner := by
    intro d refers
    have uses := (uses_iff accepted fun field among => (fields field among).1).mpr refers
    obtain ⟨inner, acceptedInner⟩ := uses.accepted looks (converts_of_ok accepted)
    exact ⟨uses, inner, acceptedInner, (stored_of_uses set looks member generator accepted
      referenced (Relation.TransGen.single uses) acceptedInner).2⟩
  have nested : ∀ d, Refers messages r.parsed d → ¬ IsActionComponent d.name ∧ d.fields ≠ [] ∧
      ∀ field ∈ d.fields, SharedType field.fieldType ∧
        field.fieldType.stringBound.getD 0 = 0 := by
    intro d refers
    obtain ⟨-, inner, acceptedInner, equal⟩ := stored d refers
    obtain ⟨noComponent, nonemptyD, shared⟩ :=
      (storedDescription_eq_iff set looks refers.1 acceptedInner).mp equal
    exact ⟨noComponent, nonemptyD, fun field among =>
      ⟨(shared field among).1, (shared field among).2.1⟩⟩
  refine ⟨nonempty, fields, ?_, fun d refers => (nested d refers).1,
    fun d refers => (nested d refers).2.1, fun d refers => (nested d refers).2.2⟩
  intro d e refers below
  obtain ⟨uses, inner, acceptedInner, -⟩ := stored d refers
  have usesBelow := (uses_iff acceptedInner fun field among =>
    ((nested d refers).2.2 field among).1).mpr below
  obtain ⟨innermost, acceptedInnermost⟩ :=
    usesBelow.accepted looks (converts_of_ok acceptedInner)
  exact (stored_of_uses set looks member generator accepted referenced
    (Relation.TransGen.tail (Relation.TransGen.single uses) usesBelow) acceptedInnermost).1

omit generator in
/-- There the types in use are those of the fields. -/
theorem DescribesAlike.transGen_iff (alike : DescribesAlike messages r.parsed)
    {d : ParsedMessage} :
    Relation.TransGen (Uses messages) r.parsed d ↔ Refers messages r.parsed d := by
  have root := fun d => @uses_iff messages resolver r.parsed d schema accepted
    fun field among => (alike.fields field among).1
  constructor
  · intro uses
    induction uses with
    | single step => exact (root _).mp step
    | tail path step ih =>
        obtain ⟨inner, acceptedInner, -⟩ := exists_contained set looks member accepted path
        refine alike.direct _ _ ih ((uses_iff acceptedInner ?_).mp step)
        exact fun field among => (alike.nestedFields _ ih field among).1
  · exact fun refers => Relation.TransGen.single ((root d).mpr refers)

omit generator member accepted in
/-- And what is stored for them is the description of their schema. -/
theorem DescribesAlike.stored_eq (alike : DescribesAlike messages r.parsed)
    {d : ParsedMessage} (refers : Refers messages r.parsed d) {inner : MessageSchema}
    (acceptedInner : parsedMessageToSchema d resolver = .ok inner) :
    Codegen.storedDescription d = toTypeDescription inner := by
  refine (storedDescription_eq_iff set looks refers.1 acceptedInner).mpr
    ⟨alike.noComponent d refers, alike.nonemptyNested d refers, fun field among => ?_⟩
  obtain ⟨shared, bound⟩ := alike.nestedFields d refers field among
  refine ⟨shared, bound, fun custom => ?_⟩
  obtain ⟨e, below, -, name⟩ := set.exists_refers refers.1 among custom
  rw [← name]
  exact alike.noComponent e (alike.direct d e refers below)

/-- The conditions of `DescribesAlike` make the descriptions equal. -/
theorem eq_of_describesAlike (alike : DescribesAlike messages r.parsed)
    (sorted : r.typeHash.referencedTypeDescriptions.Pairwise fun a b => a.typeName < b.typeName) :
    r.typeHash = toTypeDescriptionMsg schema := by
  have root : r.typeHash.typeDescription = toTypeDescription schema := by
    rw [generator.root]
    exact (rootDescription_eq_iff set looks member accepted).mpr ⟨alike.nonempty, alike.fields⟩
  have acceptedOf : ∀ d, Refers messages r.parsed d →
      ∃ inner, parsedMessageToSchema d resolver = .ok inner := by
    intro d refers
    obtain ⟨inner, acceptedInner, -⟩ := exists_contained set looks member accepted
      ((alike.transGen_iff set looks member accepted).mpr refers)
    exact ⟨inner, acceptedInner⟩
  have members : ∀ td, td ∈ r.typeHash.referencedTypeDescriptions ↔
      td ∈ (toTypeDescriptionMsg schema).referencedTypeDescriptions := by
    intro td
    rw [mem_referenced_iff set looks member accepted]
    constructor
    · intro entry
      obtain ⟨d, refers, rfl⟩ := generator.stored td entry
      obtain ⟨inner, acceptedInner⟩ := acceptedOf d refers
      exact ⟨d, inner, (alike.transGen_iff set looks member accepted).mpr refers, acceptedInner,
        (alike.stored_eq set looks refers acceptedInner).symm⟩
    · rintro ⟨d, inner, uses, acceptedInner, rfl⟩
      have refers := (alike.transGen_iff set looks member accepted).mp uses
      rw [← alike.stored_eq set looks refers acceptedInner]
      refine generator.present d refers fun d' refers' name => ?_
      obtain ⟨inner', acceptedInner'⟩ := acceptedOf d' refers'
      rw [alike.stored_eq set looks refers acceptedInner,
        alike.stored_eq set looks refers' acceptedInner'] at name
      have joined := (converts_of_ok acceptedInner').typeName.symm.trans
        (name.trans (converts_of_ok acceptedInner).typeName)
      rw [Names.join_inj (set.plain d' refers'.1).1 (set.plain d refers.1).1,
        String.append_right_inj] at joined
      exact set.eq_of_name refers'.1 refers.1 joined.1 joined.2
  have : Std.Antisymm fun a b : TypeDescription => a.typeName < b.typeName :=
    ⟨fun a b below above => absurd below above.asymm⟩
  have : Std.Irrefl fun a b : TypeDescription => a.typeName < b.typeName :=
    ⟨fun a => lt_irrefl a.typeName⟩
  have referenced := sorted.eq_of_mem_iff
    (sorted_referenced (coherent_schema set looks member accepted)) members
  calc r.typeHash
      = ⟨r.typeHash.typeDescription, r.typeHash.referencedTypeDescriptions⟩ := rfl
    _ = toTypeDescriptionMsg schema := by
        rw [root, referenced]
        rfl

end Message

/-- **The generator and the dynamic side describe a message alike** exactly when every type
nested in it is the type of one of its own fields, none of them is empty or named like an action
component, and the fields hold no `byte` and no bounded string. -/
theorem describesAlike_iff (isHumble : Bool) {externalPackages : List String}
    {messages : List ParsedMessage} (set : MessageSet messages)
    (notExternal : ∀ m ∈ messages, m.package ∉ externalPackages)
    {self : Resolver TypeDescriptionMsg} {resolved : List (ResolvedMessage TypeDescriptionMsg)}
    (resolves : (Resolver.withExternalPackages isHumble externalPackages).resolveMessages id
      messages = .ok (self, resolved))
    {resolver : SchemaResolver} (looks : Looks messages resolver)
    {r : ResolvedMessage TypeDescriptionMsg} (member : r ∈ resolved) {schema : MessageSchema}
    (accepted : parsedMessageToSchema r.parsed resolver = .ok schema) :
    r.typeHash = toTypeDescriptionMsg schema ↔ DescribesAlike messages r.parsed := by
  obtain ⟨-, -, hashed⟩ := Resolver.resolveMessages_resolved set.distinct resolves
  obtain ⟨inSet, withDeps⟩ := hashed r member
  have generator := set.directDescription notExternal inSet withDeps
  constructor
  · exact describesAlike_of_eq set looks inSet generator accepted
  · intro alike
    exact eq_of_describesAlike set looks inSet generator accepted alike
      (set.sorted_referenced withDeps)

/-! ### A track of poses -/

def geoPoint : ParsedMessage :=
  ⟨"Point", "geo_msgs", [⟨"x", ⟨"float64", none, .single, none⟩⟩], "float64 x"⟩

def geoPose : ParsedMessage :=
  ⟨"Pose", "geo_msgs", [⟨"position", ⟨"Point", some "geo_msgs", .single, none⟩⟩],
    "geo_msgs/Point position"⟩

/-- A track names the type of the positions in its poses itself. -/
def geoTrack : ParsedMessage :=
  ⟨"Track", "geo_msgs", [⟨"poses", ⟨"Pose", some "geo_msgs", .unbounded, none⟩⟩,
    ⟨"origin", ⟨"Point", some "geo_msgs", .single, none⟩⟩],
    "geo_msgs/Pose[] poses\ngeo_msgs/Point origin"⟩

abbrev geoMessages : List ParsedMessage := [geoTrack, geoPose, geoPoint]

def geoPointSchema : MessageSchema :=
  ⟨"geo_msgs/msg/Point", "geo_msgs", "Point", [⟨"x", .float64, none⟩], none⟩

def geoPoseSchema : MessageSchema :=
  ⟨"geo_msgs/msg/Pose", "geo_msgs", "Pose", [⟨"position", .message geoPointSchema, none⟩], none⟩

def geoTrackSchema : MessageSchema :=
  ⟨"geo_msgs/msg/Track", "geo_msgs", "Track",
    [⟨"poses", .sequence (.message geoPoseSchema), none⟩,
      ⟨"origin", .message geoPointSchema, none⟩], none⟩

def geoResolver : SchemaResolver := fun pkg name =>
  if pkg = "geo_msgs" then
    match name with
    | "Point" => some geoPointSchema
    | "Pose" => some geoPoseSchema
    | "Track" => some geoTrackSchema
    | _ => none
  else none

theorem looks_geoResolver : Looks geoMessages geoResolver := by
  intro d member
  simp only [List.mem_cons, List.not_mem_nil, or_false] at member
  rcases member with rfl | rfl | rfl
  · rfl
  · rfl
  · rfl

theorem messageSet_geoMessages : MessageSet geoMessages :=
  ⟨by decide +kernel, by decide +kernel, by decide +kernel⟩

theorem describesAlike_geoTrack : DescribesAlike geoMessages geoTrack where
  nonempty := by decide +kernel
  fields := by decide +kernel
  direct := by
    have direct : ∀ d ∈ geoMessages, ∀ e ∈ geoMessages, Refers geoMessages geoTrack d →
        Refers geoMessages d e → Refers geoMessages geoTrack e := by decide +kernel
    exact fun d e refers below => direct d refers.1 e below.1 refers below
  noComponent := by
    have noComponent : ∀ d ∈ geoMessages, ¬ IsActionComponent d.name := by decide +kernel
    exact fun d refers => noComponent d refers.1
  nonemptyNested := by
    have nonempty : ∀ d ∈ geoMessages, d.fields ≠ [] := by decide +kernel
    exact fun d refers => nonempty d refers.1
  nestedFields := by
    have shared : ∀ d ∈ geoMessages, ∀ field ∈ d.fields,
        SharedType field.fieldType ∧ field.fieldType.stringBound.getD 0 = 0 := by
      decide +kernel
    exact fun d refers => shared d refers.1

/-- A track of poses is described alike by the generator and from its schema. -/
theorem describesAlike_iff_geoTrack :
    ∃ self resolved, (Resolver.withExternalPackages false ["std_msgs"]).resolveMessages id
        geoMessages = .ok (self, resolved) ∧
      ∃ r ∈ resolved, r.parsed = geoTrack ∧
        parsedMessageToSchema r.parsed geoResolver = .ok geoTrackSchema ∧
        r.typeHash = toTypeDescriptionMsg geoTrackSchema := by
  obtain ⟨⟨self, resolved⟩, resolves⟩ := Fallible.exists_of_isOk
    (show ((Resolver.withExternalPackages false ["std_msgs"]).resolveMessages id
      geoMessages).isOk = true by decide +kernel)
  have notExternal : ∀ m ∈ geoMessages, m.package ∉ ["std_msgs"] := by decide +kernel
  obtain ⟨all, -⟩ := messageSet_geoMessages.resolved_direct notExternal resolves
  obtain ⟨r, member, parsed⟩ := all geoTrack List.mem_cons_self
  have accepted : parsedMessageToSchema r.parsed geoResolver = .ok geoTrackSchema := by
    rw [parsed]
    rfl
  refine ⟨self, resolved, resolves, r, member, parsed, accepted, ?_⟩
  refine (describesAlike_iff false messageSet_geoMessages notExternal resolves
    looks_geoResolver member accepted).mpr ?_
  rw [parsed]
  exact describesAlike_geoTrack

/-- A message with one byte in it. -/
def rawSample : ParsedMessage :=
  ⟨"Sample", "raw_msgs", [⟨"data", ⟨"byte", none, .single, none⟩⟩], "byte data"⟩

def rawSampleSchema : MessageSchema :=
  ⟨"raw_msgs/msg/Sample", "raw_msgs", "Sample", [⟨"data", .int8, none⟩], none⟩

/-- The byte is an unsigned integer in the one description and a signed one in the other. -/
theorem rawSample_not_alike :
    MessageSet [rawSample] ∧ Codegen.Acyclic [rawSample] ∧
    ∃ self resolved, (Resolver.new false).resolveMessages id [rawSample] =
        .ok (self, resolved) ∧
      ∃ resolver, Looks [rawSample] resolver ∧
      ∃ r ∈ resolved, parsedMessageToSchema r.parsed resolver = .ok rawSampleSchema ∧
        r.typeHash ≠ toTypeDescriptionMsg rawSampleSchema := by
  have set : MessageSet [rawSample] := ⟨by decide +kernel, by decide +kernel, by decide +kernel⟩
  have looks : Looks [rawSample] fun _ _ => some rawSampleSchema := by
    intro d member
    rw [List.mem_singleton.mp member]
    rfl
  refine ⟨set, ?_, ?_⟩
  · refine Codegen.acyclic_of_rank (fun _ => 0) ?_
    decide +kernel
  · obtain ⟨⟨self, resolved⟩, resolves⟩ := Fallible.exists_of_isOk
      (show ((Resolver.new false).resolveMessages id [rawSample]).isOk = true by decide +kernel)
    obtain ⟨all, direct⟩ := set.resolved_direct (by simp) resolves
    obtain ⟨r, member, parsed⟩ := all rawSample List.mem_cons_self
    obtain ⟨inSet, generator⟩ := direct r member
    have accepted : parsedMessageToSchema r.parsed (fun _ _ => some rawSampleSchema) =
        .ok rawSampleSchema := by
      rw [parsed]
      rfl
    refine ⟨self, resolved, resolves, _, looks, r, member, accepted, fun same => ?_⟩
    have alike := describesAlike_of_eq set looks inSet generator accepted same
    rw [parsed] at alike
    exact absurd (alike.fields _ List.mem_cons_self).1.noByte (by decide)

end RosZ.Dynamic
