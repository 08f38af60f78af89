import RosZ.Lib.Fallible
import RosZ.Lib.KeyedMap
import RosZ.Lib.Names
import RosZ.Schema.TypeDescription

/-!
# Descriptions of parsed messages

The types of `ros-z-codegen/src/types.rs` that the resolver reads, and the part of
`hashing.rs` that turns a parsed message into the `TypeDescriptionMsg` its type hash
is computed from.

`BTreeMap` is `Std.TreeMap`: both compare strings by their code points.  `usize` and
`u64` are natural numbers here, since the code only copies them and compares them with
zero.

## What the collection of referenced types finds

`collectReferencedTypes` looks a nested type up under its full name, `package/msg/Type`,
in a map whose keys have the form `package/Type`.  With plain names the two never meet
(`collectReferencedTypes_eq`), so that `buildTypeDescriptionMsg` references the types of
the message's own fields and no others (`buildTypeDescriptionMsg_eq_ok`).
-/

namespace RosZ.Codegen

open RosZ.Schema

/-! ## Parsed messages -/

/-- Array type specification. -/
inductive ArrayType where
  | single
  | fixed (n : ℕ)
  | bounded (n : ℕ)
  | unbounded
deriving DecidableEq

/-- Field type with array information. -/
structure FieldType where
  baseType : String
  package : Option String
  array : ArrayType
  /-- For bounded strings (string<=N), the maximum length -/
  stringBound : Option ℕ
deriving DecidableEq

/-- Field in a message. -/
structure Field where
  name : String
  fieldType : FieldType
deriving DecidableEq

/-- Parsed message before dependency resolution. -/
structure ParsedMessage where
  name : String
  package : String
  fields : List Field
  source : String
deriving DecidableEq

/-- Get the key for a message (package/name). -/
def ParsedMessage.messageKey (msg : ParsedMessage) : String := Names.join msg.package msg.name

/-! ## Field types -/

/-- Check if a base type name is a ROS primitive. -/
def isPrimitiveType (baseType : String) : Bool :=
  baseType ∈ ["bool", "byte", "char", "uint8", "int8", "uint16", "int16", "uint32", "int32",
    "uint64", "int64", "float32", "float64", "string"]

/-- The package a field's type belongs to: without one of its own, that of the message. -/
def FieldType.packageIn (fieldType : FieldType) (sourcePackage : String) : String :=
  fieldType.package.getD sourcePackage

/-- The key under which a field's type is looked up among the resolved types. -/
def FieldType.depKey (fieldType : FieldType) (sourcePackage : String) : String :=
  Names.join (fieldType.packageIn sourcePackage) fieldType.baseType

/-- What `build_type_description_msg` fails with. -/
inductive HashError where
  /-- `Unsupported field type: {baseType} with array {array}` -/
  | unsupportedFieldType (baseType : String) (array : ArrayType)
  /-- The recursion over the referenced types does not end. -/
  | unboundedRecursion
deriving DecidableEq

/-- The id of a base type in the form its array specification asks for. -/
def ArrayType.select (array : ArrayType) (ids : TypeIds) : UInt8 :=
  match array with
  | .single => ids.single
  | .fixed _ => ids.array
  | .bounded _ => ids.boundedSequence
  | .unbounded => ids.unboundedSequence

/-- The ids of a primitive; 'char' is uint8 (unsigned) in ROS2, not int8 (signed). -/
def primitiveTypeIds : String → Option TypeIds
  | "int8" => some TypeId.int8
  | "uint8" | "byte" | "char" => some TypeId.uint8
  | "int16" => some TypeId.int16
  | "uint16" => some TypeId.uint16
  | "int32" => some TypeId.int32
  | "uint32" => some TypeId.uint32
  | "int64" => some TypeId.int64
  | "uint64" => some TypeId.uint64
  | "float32" => some TypeId.float32
  | "float64" => some TypeId.float64
  | "bool" => some TypeId.bool
  | "string" => some TypeId.string
  | _ => none

/-- Nested types are either explicitly packaged or not a primitive; `package = none` means
a same-package reference for custom types. -/
def FieldType.isNested (fieldType : FieldType) : Bool :=
  fieldType.package.isSome || !isPrimitiveType fieldType.baseType

/-- Get ROS2 type ID for a field type (1-166). -/
def getTypeId (fieldType : FieldType) : Except HashError UInt8 :=
  if fieldType.isNested then
    .ok (fieldType.array.select TypeId.nestedType)
  -- the array form of a bounded string is lost here
  else if fieldType.stringBound.isSome && fieldType.baseType == "string" then
    .ok TypeId.boundedString
  else
    match primitiveTypeIds fieldType.baseType with
    | some ids => .ok (fieldType.array.select ids)
    | none => .error (.unsupportedFieldType fieldType.baseType fieldType.array)

/-- Get array capacity for field type. -/
def getArrayCapacity (fieldType : FieldType) : ℕ :=
  match fieldType.array with
  | .fixed n | .bounded n => n
  | _ => 0

/-- Get nested type name with package context for same-package references. -/
def getNestedTypeNameWithContext (fieldType : FieldType) (sourcePackage : String) : String :=
  Names.join (fieldType.packageIn sourcePackage) ("msg/" ++ fieldType.baseType)

/-! ## The description of a message -/

/-- The description of a field's type once its id is known. -/
def describeWithId (package : String) (fieldType : FieldType) (typeId : UInt8) :
    FieldTypeDescription :=
  let capacity := getArrayCapacity fieldType
  let stringCapacity := fieldType.stringBound.getD 0
  let nestedTypeName :=
    if isPrimitiveType fieldType.baseType then ""
    else getNestedTypeNameWithContext fieldType package
  if nestedTypeName = "" then
    if capacity > 0 then .array typeId capacity
    else if stringCapacity > 0 then
      { typeId, capacity := 0, stringCapacity, nestedTypeName := "" }
    else .primitive typeId
  else if capacity > 0 then .nestedArray typeId capacity nestedTypeName
  else .nested typeId nestedTypeName

/-- Descriptions under the keys of their messages, or under their type names. -/
abbrev TypeDescriptions := Std.TreeMap String TypeDescription

/-- Recursively collect all referenced types.  The fuel bounds the depth of the recursion: in
a map without cycles no chain of lookups is longer than the number of its entries. -/
def collectReferencedTypes (allDeps : TypeDescriptions) :
    ℕ → TypeDescription → TypeDescriptions → Option TypeDescriptions
  | 0, _, _ => none
  | fuel + 1, typeDesc, collected =>
    typeDesc.fields.foldlM (fun collected field =>
      if field.fieldType.nestedTypeName = "" then some collected
      else
        match allDeps[field.fieldType.nestedTypeName]? with
        | none => some collected
        | some dep =>
          if collected.contains dep.typeName then some collected
          else do
            let collected ← collectReferencedTypes allDeps fuel dep collected
            some (collected.insert dep.typeName dep)) collected

/-- Collect the nested type reference of one field. -/
def collectField (package : String) (resolvedDeps : TypeDescriptions) (fieldType : FieldType)
    (referencedTypes : TypeDescriptions) : Except HashError TypeDescriptions :=
  if isPrimitiveType fieldType.baseType then .ok referencedTypes
  else
    match resolvedDeps[fieldType.depKey package]? with
    | none => .ok referencedTypes
    | some depDesc =>
      match collectReferencedTypes resolvedDeps (resolvedDeps.size + 1) depDesc
          referencedTypes with
      | none => .error .unboundedRecursion
      | some referencedTypes => .ok (referencedTypes.insert depDesc.typeName depDesc)

/-- The loop over the fields of a message. -/
def describeFields (package : String) (resolvedDeps : TypeDescriptions) :
    List Field → TypeDescriptions → Except HashError (List FieldDescription × TypeDescriptions)
  | [], referencedTypes => .ok ([], referencedTypes)
  | field :: rest, referencedTypes => do
    let typeId ← getTypeId field.fieldType
    let referencedTypes ← collectField package resolvedDeps field.fieldType referencedTypes
    let (fields, referencedTypes) ← describeFields package resolvedDeps rest referencedTypes
    .ok ({ name := field.name
           fieldType := describeWithId package field.fieldType typeId
           defaultValue := "" } :: fields, referencedTypes)

/-- ROS2 treats empty messages as having a single uint8 field. -/
def placeholderField : FieldDescription where
  name := "structure_needs_at_least_one_member"
  fieldType := .primitive TypeId.uint8.single
  defaultValue := ""

/-- Build TypeDescription message from parsed message. -/
def buildTypeDescriptionMsg (msg : ParsedMessage) (resolvedDeps : TypeDescriptions) :
    Except HashError TypeDescriptionMsg := do
  let typeName := Names.join msg.package ("msg/" ++ msg.name)
  let (fields, referencedTypes) ←
    if msg.fields = [] then .ok ([placeholderField], ∅)
    else describeFields msg.package resolvedDeps msg.fields ∅
  .ok { typeDescription := { typeName, fields }
        referencedTypeDescriptions := KeyedMap.valuesOf referencedTypes }

/-- Calculate RIHS01 hash for a message. -/
def calculateTypeHash {H : Type} (calculateHash : TypeDescriptionMsg → H) (msg : ParsedMessage)
    (resolvedDeps : TypeDescriptions) : Except HashError H := do
  let typeDescMsg ← buildTypeDescriptionMsg msg resolvedDeps
  .ok (calculateHash typeDescMsg)

/-! ## What a built description consists of -/

/-- The type id a description carries, with the default of `ResolvedMessage::type_description`. -/
def typeIdOf (fieldType : FieldType) : UInt8 := (getTypeId fieldType).toOption.getD 0

theorem typeIdOf_eq {fieldType : FieldType} {typeId : UInt8}
    (h : getTypeId fieldType = .ok typeId) : typeIdOf fieldType = typeId := by
  unfold typeIdOf
  rw [h]
  rfl

/-- The description of a field in the message that it is hashed for. -/
def rootField (package : String) (field : Field) : FieldDescription where
  name := field.name
  fieldType := describeWithId package field.fieldType (typeIdOf field.fieldType)
  defaultValue := ""

/-- The description of a message as the root of its own `TypeDescriptionMsg`. -/
def rootDescription (msg : ParsedMessage) : TypeDescription where
  typeName := Names.join msg.package ("msg/" ++ msg.name)
  fields := if msg.fields = [] then [placeholderField] else msg.fields.map (rootField msg.package)

/-- The resolved description that a field of a message refers to. -/
def fieldDep (package : String) (resolvedDeps : TypeDescriptions) (field : Field) :
    Option TypeDescription :=
  if isPrimitiveType field.fieldType.baseType then none
  else resolvedDeps[field.fieldType.depKey package]?

/-- No description in the map refers to another by the key of that one. -/
def NamesApart (deps : TypeDescriptions) : Prop :=
  ∀ (k : String) (desc : TypeDescription), deps[k]? = some desc →
    ∀ n ∈ desc.nestedTypeNames, deps[n]? = none

theorem mem_nestedTypeNames {desc : TypeDescription} {n : String} :
    n ∈ desc.nestedTypeNames ↔
      n ≠ "" ∧ ∃ field ∈ desc.fields, field.fieldType.nestedTypeName = n := by
  simp only [TypeDescription.nestedTypeNames, List.mem_filter, List.mem_map, decide_eq_true_eq]
  rw [and_comm]

/-- Nothing is collected when no nested type name is a key of the map. -/
theorem collectReferencedTypes_eq {allDeps : TypeDescriptions} {typeDesc : TypeDescription}
    (h : ∀ n ∈ typeDesc.nestedTypeNames, allDeps[n]? = none) (fuel : ℕ)
    (collected : TypeDescriptions) :
    collectReferencedTypes allDeps (fuel + 1) typeDesc collected = some collected := by
  unfold collectReferencedTypes
  have hfields : ∀ field ∈ typeDesc.fields, field.fieldType.nestedTypeName ≠ "" →
      allDeps[field.fieldType.nestedTypeName]? = none := by
    intro field hfield hne
    exact h _ (mem_nestedTypeNames.mpr ⟨hne, field, hfield, rfl⟩)
  -- every step of the loop leaves the collection as it is
  clear h
  generalize typeDesc.fields = fields at hfields ⊢
  induction fields with
  | nil => rfl
  | cons field rest ih =>
    rw [List.foldlM_cons]
    have hrest := ih fun f hf => hfields f (List.mem_cons_of_mem _ hf)
    by_cases hne : field.fieldType.nestedTypeName = ""
    · rw [if_pos hne]
      exact hrest
    · rw [if_neg hne, hfields field List.mem_cons_self hne]
      exact hrest

theorem collectField_eq {deps : TypeDescriptions} (h : NamesApart deps) (package : String)
    (field : Field) (referenced : TypeDescriptions) :
    collectField package deps field.fieldType referenced =
      .ok (KeyedMap.insertAll TypeDescription.typeName (fieldDep package deps field).toList
        referenced) := by
  unfold collectField fieldDep
  split
  · rfl
  · cases hdep : deps[field.fieldType.depKey package]? with
    | none => rfl
    | some dep =>
      dsimp only
      rw [collectReferencedTypes_eq (h _ _ hdep)]
      rfl

/-- The loop over the fields: all type ids exist, the descriptions follow the fields, and the
types of the fields have been inserted one after the other. -/
theorem describeFields_eq_ok {deps : TypeDescriptions} (h : NamesApart deps) {package : String}
    {fields : List Field} {referenced : TypeDescriptions}
    {described : List FieldDescription} {referenced' : TypeDescriptions}
    (hok : describeFields package deps fields referenced = .ok (described, referenced')) :
    described = fields.map (rootField package) ∧
      referenced' = KeyedMap.insertAll TypeDescription.typeName
        (fields.filterMap (fieldDep package deps)) referenced := by
  induction fields generalizing referenced described referenced' with
  | nil =>
    simp only [describeFields, Except.ok.injEq, Prod.mk.injEq] at hok
    obtain ⟨rfl, rfl⟩ := hok
    exact ⟨rfl, rfl⟩
  | cons field rest ih =>
    unfold describeFields at hok
    obtain ⟨typeId, hid, hok⟩ := Fallible.bind_eq_ok_iff.mp hok
    rw [collectField_eq h] at hok
    obtain ⟨collected, hcollected, hok⟩ := Fallible.bind_eq_ok_iff.mp hok
    obtain ⟨⟨restDescribed, restReferenced⟩, hrest, hok⟩ := Fallible.bind_eq_ok_iff.mp hok
    simp only [Except.ok.injEq, Prod.mk.injEq] at hcollected hok
    obtain ⟨rfl, rfl⟩ := hok
    obtain ⟨hd, hr⟩ := ih hrest
    constructor
    · rw [List.map_cons, ← hd, rootField, typeIdOf_eq hid]
    · rw [hr, ← hcollected]
      cases hdep : fieldDep package deps field with
      | none => simp [hdep, KeyedMap.insertAll]
      | some dep => simp [hdep, KeyedMap.insertAll]

/-- A description that is built has the message's own description at its root and references
the types of the message's own fields. -/
theorem buildTypeDescriptionMsg_eq_ok {msg : ParsedMessage} {deps : TypeDescriptions}
    (h : NamesApart deps) {desc : TypeDescriptionMsg}
    (hok : buildTypeDescriptionMsg msg deps = .ok desc) :
    desc = { typeDescription := rootDescription msg
             referencedTypeDescriptions := KeyedMap.valuesOf
               (KeyedMap.insertAll TypeDescription.typeName
                 (msg.fields.filterMap (fieldDep msg.package deps)) ∅) } := by
  unfold buildTypeDescriptionMsg at hok
  by_cases hempty : msg.fields = []
  · rw [if_pos hempty] at hok
    obtain ⟨⟨described, referenced⟩, hfields, hok⟩ := Fallible.bind_eq_ok_iff.mp hok
    simp only [Except.ok.injEq, Prod.mk.injEq] at hfields hok
    obtain ⟨rfl, rfl⟩ := hfields
    rw [← hok, rootDescription, if_pos hempty, hempty]
    rfl
  · rw [if_neg hempty] at hok
    obtain ⟨⟨described, referenced⟩, hfields, hok⟩ := Fallible.bind_eq_ok_iff.mp hok
    simp only [Except.ok.injEq] at hok
    obtain ⟨rfl, rfl⟩ := describeFields_eq_ok h hfields
    rw [← hok, rootDescription, if_neg hempty]

end RosZ.Codegen
