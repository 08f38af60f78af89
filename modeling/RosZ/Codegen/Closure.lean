import RosZ.Codegen.Resolver
import Mathlib.Logic.Relation

/-!
# Closed descriptions

A description message is closed when it references exactly the types in the transitive
closure of the nested types of its message, each once and as that type is described at the
root of its own description message, and when every type name in it names one of those.
`closedDescriptions_iff` says for which sets of messages the resolver hashes closed
descriptions only: those in which every message has, as the types of its own fields, all
the types nested in them, and in which the stored description of a nested type is its root
description.

The two descriptions of one message, `storedDescription` and `rootDescription`, differ in the
type names of action components and in the string bounds of arrays and of nested types
(`storedField_eq_rootField_iff`).
-/

namespace RosZ.Codegen

open RosZ.Schema Relation

/-! ## Names -/

/-- The name ends like that of a goal, result or feedback message. -/
def IsActionComponent (name : String) : Prop :=
  "Goal".toList <:+ name.toList ∨ "Result".toList <:+ name.toList ∨
    "Feedback".toList <:+ name.toList

instance (name : String) : Decidable (IsActionComponent name) :=
  inferInstanceAs (Decidable (_ ∨ _ ∨ _))

theorem componentTypeName_of_not {name : String} (h : ¬ IsActionComponent name)
    (package : String) :
    componentTypeName package name = Names.join package ("msg/" ++ name) := by
  unfold IsActionComponent at h
  push Not at h
  unfold componentTypeName
  rw [Names.stripEnd_eq_none.mpr h.1, Names.stripEnd_eq_none.mpr h.2.1,
    Names.stripEnd_eq_none.mpr h.2.2]

/-- An action component is stored under a name of its own, with the same separators in it. -/
theorem componentTypeName_of_isActionComponent {name : String} (h : IsActionComponent name)
    (package : String) :
    ∃ rest, componentTypeName package name = Names.join package ("action/" ++ rest) ∧
      Names.slashes rest = Names.slashes name := by
  unfold componentTypeName
  split
  · next base hgoal =>
    refine ⟨base ++ "_Goal", by rw [String.append_assoc], ?_⟩
    rw [Names.append_of_stripEnd hgoal, Names.slashes_append, Names.slashes_append]
    rfl
  · next hgoal =>
    split
    · next base hresult =>
      refine ⟨base ++ "_Result", by rw [String.append_assoc], ?_⟩
      rw [Names.append_of_stripEnd hresult, Names.slashes_append, Names.slashes_append]
      rfl
    · next hresult =>
      split
      · next base hfeedback =>
        refine ⟨base ++ "_Feedback", by rw [String.append_assoc], ?_⟩
        rw [Names.append_of_stripEnd hfeedback, Names.slashes_append, Names.slashes_append]
        rfl
      · next hfeedback =>
        rw [Names.stripEnd_eq_none] at hgoal hresult hfeedback
        rcases h with h | h | h
        · exact absurd h hgoal
        · exact absurd h hresult
        · exact absurd h hfeedback

/-- A stored type name adds two separators to those of its parts. -/
theorem slashes_componentTypeName (package name : String) :
    Names.slashes (componentTypeName package name) =
      Names.slashes package + Names.slashes name + 2 := by
  by_cases h : IsActionComponent name
  · obtain ⟨rest, hrest, hslashes⟩ := componentTypeName_of_isActionComponent h package
    rw [hrest, Names.slashes_join, Names.slashes_append, hslashes,
      show Names.slashes "action/" = 1 by decide]
    omega
  · rw [componentTypeName_of_not h, Names.slashes_join, Names.slashes_append,
      show Names.slashes "msg/" = 1 by decide]
    omega

/-- A stored type name has two separators at least. -/
theorem componentTypeName_eq_join (package name : String) :
    ∃ rest, componentTypeName package name = Names.join package rest ∧ ¬ Names.Plain rest := by
  by_cases h : IsActionComponent name
  · obtain ⟨rest, hrest, -⟩ := componentTypeName_of_isActionComponent h package
    exact ⟨_, hrest, by simp [Names.Plain, String.toList_append]⟩
  · exact ⟨_, componentTypeName_of_not h package, by simp [Names.Plain, String.toList_append]⟩

/-- A stored type name is a root type name only for the same message, and only when that is no
action component. -/
theorem componentTypeName_eq_msg {package name package' name' : String}
    (hp : Names.Plain package) (hp' : Names.Plain package')
    (h : componentTypeName package name = Names.join package' ("msg/" ++ name')) :
    package = package' ∧ name = name' ∧ ¬ IsActionComponent name := by
  by_cases hc : IsActionComponent name
  · obtain ⟨rest, hrest, -⟩ := componentTypeName_of_isActionComponent hc package
    rw [hrest, Names.join_inj hp hp'] at h
    have hlist := congrArg String.toList h.2
    simp [String.toList_append] at hlist
  · rw [componentTypeName_of_not hc, Names.join_inj hp hp', String.append_right_inj] at h
    exact ⟨h.1, h.2, hc⟩

/-- A message is stored under its root type name exactly when it is no action component. -/
theorem componentTypeName_eq_iff {package name : String} (hp : Names.Plain package) :
    componentTypeName package name = Names.join package ("msg/" ++ name) ↔
      ¬ IsActionComponent name :=
  ⟨fun h => (componentTypeName_eq_msg hp hp h).2.2, fun h => componentTypeName_of_not h _⟩

/-! ## The two descriptions of a message -/

/-- The string bound of a field survives in its root description: there is none, or the field
is neither an array nor of a nested type. -/
def KeepsStringBound (fieldType : FieldType) : Prop :=
  fieldType.stringBound.getD 0 = 0 ∨
    isPrimitiveType fieldType.baseType = true ∧ getArrayCapacity fieldType = 0

instance (fieldType : FieldType) : Decidable (KeepsStringBound fieldType) :=
  inferInstanceAs (Decidable (_ ∨ _ ∧ _))

theorem describeWithId_primitive {package : String} {fieldType : FieldType} {typeId : UInt8}
    (h : isPrimitiveType fieldType.baseType = true) :
    describeWithId package fieldType typeId =
      { typeId := typeId
        capacity := getArrayCapacity fieldType
        stringCapacity :=
          if getArrayCapacity fieldType = 0 then fieldType.stringBound.getD 0 else 0
        nestedTypeName := "" } := by
  unfold describeWithId
  simp only [h, if_true]
  by_cases hcap : getArrayCapacity fieldType = 0
  · by_cases hbound : fieldType.stringBound.getD 0 = 0
    · simp [hcap, hbound, FieldTypeDescription.primitive]
    · simp [hcap, Nat.pos_of_ne_zero hbound]
  · simp [hcap, Nat.pos_of_ne_zero hcap, FieldTypeDescription.array]

theorem describeWithId_nested {package : String} {fieldType : FieldType} {typeId : UInt8}
    (h : isPrimitiveType fieldType.baseType = false) :
    describeWithId package fieldType typeId =
      { typeId := typeId
        capacity := getArrayCapacity fieldType
        stringCapacity := 0
        nestedTypeName :=
          Names.join (fieldType.packageIn package) ("msg/" ++ fieldType.baseType) } := by
  unfold describeWithId
  simp only [h, Bool.false_eq_true, if_false, getNestedTypeNameWithContext, Names.join_ne_empty]
  by_cases hcap : getArrayCapacity fieldType = 0
  · simp [hcap, FieldTypeDescription.nested]
  · simp [Nat.pos_of_ne_zero hcap, FieldTypeDescription.nestedArray]

/-- The stored description of a field, with its cases named as those of the root description. -/
theorem storedField_fieldType (package : String) (field : Field) :
    (storedField package field).fieldType =
      { typeId := typeIdOf field.fieldType
        capacity := getArrayCapacity field.fieldType
        stringCapacity := field.fieldType.stringBound.getD 0
        nestedTypeName :=
          if isPrimitiveType field.fieldType.baseType then ""
          else componentTypeName (field.fieldType.packageIn package)
            field.fieldType.baseType } := rfl

/-- The two descriptions of a field agree exactly when its type is no action component and its
string bound survives. -/
theorem storedField_eq_rootField_iff {package : String} {field : Field}
    (hplain : isPrimitiveType field.fieldType.baseType = false →
      Names.Plain (field.fieldType.packageIn package)) :
    storedField package field = rootField package field ↔
      (isPrimitiveType field.fieldType.baseType = false →
        ¬ IsActionComponent field.fieldType.baseType) ∧
      KeepsStringBound field.fieldType := by
  have hfields : storedField package field = rootField package field ↔
      (storedField package field).fieldType = (rootField package field).fieldType := by
    unfold storedField rootField
    simp
  rw [hfields, storedField_fieldType]
  unfold KeepsStringBound rootField
  cases hprim : isPrimitiveType field.fieldType.baseType with
  | true =>
    rw [describeWithId_primitive hprim]
    by_cases hcap : getArrayCapacity field.fieldType = 0
    · simp [hcap]
    · simp [hcap]
  | false =>
    rw [describeWithId_nested hprim]
    simp [componentTypeName_eq_iff (hplain hprim), and_comm]

/-! ## Sets of messages -/

/-- A set of messages as it is found on disk: different keys, file and package names without
a slash, and every type that a field refers to in the set. -/
structure MessageSet (messages : List ParsedMessage) : Prop where
  distinct : (messages.map (·.messageKey)).Nodup
  plain : ∀ m ∈ messages, Names.Plain m.package ∧ Names.Plain m.name
  dependencies : ∀ m ∈ messages, ∀ field ∈ m.fields, field.fieldType.isNested = true →
    ∃ d ∈ messages, d.package = field.fieldType.packageIn m.package ∧
      d.name = field.fieldType.baseType

/-- Stored descriptions never refer to each other by key: a key of plain names has one
separator and a stored type name has two. -/
theorem namesApart_of_plain {messages : List ParsedMessage}
    (hplain : ∀ m ∈ messages, Names.Plain m.package ∧ Names.Plain m.name)
    {deps : TypeDescriptions} (hdeps : Resolver.DescribesSome messages deps) :
    NamesApart deps := by
  intro k desc hk n hn
  obtain ⟨m, hm, -, rfl⟩ := hdeps k desc hk
  cases hget : deps[n]? with
  | none => rfl
  | some other =>
    obtain ⟨d, hd, hkey, -⟩ := hdeps n other hget
    obtain ⟨hne, fieldDesc, hfieldDesc, rfl⟩ := mem_nestedTypeNames.mp hn
    simp only [storedDescription] at hfieldDesc
    split at hfieldDesc
    · rw [List.mem_singleton.mp hfieldDesc] at hne
      exact absurd rfl hne
    · obtain ⟨field, hfield, rfl⟩ := List.mem_map.mp hfieldDesc
      cases hprim : isPrimitiveType field.fieldType.baseType with
      | true => simp [storedField, hprim] at hne
      | false =>
        have hslashes := congrArg Names.slashes hkey
        simp only [storedField, hprim, Bool.false_eq_true, if_false, slashes_componentTypeName,
          ParsedMessage.messageKey, Names.slashes_join,
          Names.plain_iff_slashes.mp (hplain d hd).1,
          Names.plain_iff_slashes.mp (hplain d hd).2] at hslashes
        omega

/-- A field of the message has the other message as its type. -/
def Nests (messages : List ParsedMessage) (m d : ParsedMessage) : Prop :=
  d ∈ messages ∧ ∃ field ∈ m.fields, field.fieldType.isNested = true ∧
    d.package = field.fieldType.packageIn m.package ∧ d.name = field.fieldType.baseType

instance (messages : List ParsedMessage) (m d : ParsedMessage) :
    Decidable (Nests messages m d) :=
  inferInstanceAs (Decidable (_ ∈ _ ∧ ∃ _ ∈ _, _))

/-- Nesting as `build_type_description_msg` sees it, through types that are not named like a
primitive. -/
def Refers (messages : List ParsedMessage) (m d : ParsedMessage) : Prop :=
  d ∈ messages ∧ ∃ field ∈ m.fields, isPrimitiveType field.fieldType.baseType = false ∧
    d.package = field.fieldType.packageIn m.package ∧ d.name = field.fieldType.baseType

instance (messages : List ParsedMessage) (m d : ParsedMessage) :
    Decidable (Refers messages m d) :=
  inferInstanceAs (Decidable (_ ∈ _ ∧ ∃ _ ∈ _, _))

theorem isNested_of_not_primitive {fieldType : FieldType}
    (h : isPrimitiveType fieldType.baseType = false) : fieldType.isNested = true := by
  simp [FieldType.isNested, h]

theorem Refers.nests {messages : List ParsedMessage} {m d : ParsedMessage}
    (h : Refers messages m d) : Nests messages m d := by
  obtain ⟨hd, field, hfield, hprim, hpkg, hname⟩ := h
  exact ⟨hd, field, hfield, isNested_of_not_primitive hprim, hpkg, hname⟩

section Set

variable {messages : List ParsedMessage} (hset : MessageSet messages)

include hset

/-- Messages of the set are told apart by their package and name. -/
theorem MessageSet.eq_of_name {m d : ParsedMessage} (hm : m ∈ messages) (hd : d ∈ messages)
    (hpkg : m.package = d.package) (hname : m.name = d.name) : m = d := by
  refine List.inj_on_of_nodup_map hset.distinct hm hd ?_
  rw [ParsedMessage.messageKey, ParsedMessage.messageKey, hpkg, hname]

/-- A field that is not named like a primitive refers to a message of the set. -/
theorem MessageSet.exists_refers {m : ParsedMessage} (hm : m ∈ messages) {field : Field}
    (hfield : field ∈ m.fields) (hprim : isPrimitiveType field.fieldType.baseType = false) :
    ∃ d, Refers messages m d ∧ d.package = field.fieldType.packageIn m.package ∧
      d.name = field.fieldType.baseType := by
  obtain ⟨d, hd, hpkg, hname⟩ :=
    hset.dependencies m hm field hfield (isNested_of_not_primitive hprim)
  exact ⟨d, ⟨hd, field, hfield, hprim, hpkg, hname⟩, hpkg, hname⟩

theorem MessageSet.plain_packageIn {m : ParsedMessage} (hm : m ∈ messages) {field : Field}
    (hfield : field ∈ m.fields) (hprim : isPrimitiveType field.fieldType.baseType = false) :
    Names.Plain (field.fieldType.packageIn m.package) := by
  obtain ⟨d, hd, hpkg, -⟩ := hset.exists_refers hm hfield hprim
  rw [← hpkg]
  exact (hset.plain d hd.1).1

theorem MessageSet.namesApart {deps : TypeDescriptions}
    (hdeps : Resolver.DescribesSome messages deps) : NamesApart deps :=
  namesApart_of_plain hset.plain hdeps

/-- The descriptions that the fields of a message find are the stored ones of the types it
refers to. -/
theorem MessageSet.mem_fieldDeps {externalPackages : List String}
    (hext : ∀ m ∈ messages, m.package ∉ externalPackages) {deps : TypeDescriptions}
    (hsome : Resolver.DescribesSome messages deps) {m : ParsedMessage} (hm : m ∈ messages)
    (hdeps : Resolver.HasDeps externalPackages m deps) {desc : TypeDescription} :
    desc ∈ m.fields.filterMap (fieldDep m.package deps) ↔
      ∃ d, Refers messages m d ∧ desc = storedDescription d := by
  rw [List.mem_filterMap]
  constructor
  · rintro ⟨field, hfield, hdep⟩
    unfold fieldDep at hdep
    split at hdep
    · cases hdep
    · next hprim =>
      rw [Bool.not_eq_true] at hprim
      obtain ⟨d, hd, hkey, rfl⟩ := hsome _ _ hdep
      unfold FieldType.depKey ParsedMessage.messageKey at hkey
      rw [Names.join_inj (hset.plain_packageIn hm hfield hprim) (hset.plain d hd).1] at hkey
      exact ⟨d, ⟨hd, field, hfield, hprim, hkey.1.symm, hkey.2.symm⟩, rfl⟩
  · rintro ⟨d, ⟨hd, field, hfield, hprim, hpkg, hname⟩, rfl⟩
    have hkey : field.fieldType.depKey m.package = d.messageKey := by
      rw [FieldType.depKey, ParsedMessage.messageKey, hpkg, hname]
    have hmem : field.fieldType.depKey m.package ∈ deps :=
      (hdeps field hfield hprim).resolve_left (hpkg ▸ hext d hd)
    obtain ⟨desc, hdesc⟩ : ∃ desc, deps[field.fieldType.depKey m.package]? = some desc :=
      ⟨_, Std.TreeMap.getElem?_eq_some_getElem hmem⟩
    obtain ⟨d', hd', hkey', rfl⟩ := hsome _ _ hdesc
    have hsame : d' = d :=
      List.inj_on_of_nodup_map hset.distinct hd' hd (hkey'.symm.trans hkey)
    refine ⟨field, hfield, ?_⟩
    rw [fieldDep, hprim, if_neg Bool.false_ne_true, hdesc, hsame]

end Set

/-! ## Closed descriptions -/

/-- The description hashed for a message is closed: it has one entry for each type in the
transitive closure of the message's nested types and no others, each as that type is described
at the root of its own description, and every type name that occurs in it names an entry. -/
structure ClosedDescription (messages : List ParsedMessage)
    (resolved : List (ResolvedMessage TypeDescriptionMsg))
    (r : ResolvedMessage TypeDescriptionMsg) : Prop where
  unique : (r.typeHash.referencedTypeDescriptions.map (·.typeName)).Nodup
  entries : ∀ desc, desc ∈ r.typeHash.referencedTypeDescriptions ↔
    ∃ d ∈ resolved, TransGen (Nests messages) r.parsed d.parsed ∧
      desc = d.typeHash.typeDescription
  named : ∀ n ∈ r.typeHash.nestedTypeNames,
    ∃ desc ∈ r.typeHash.referencedTypeDescriptions, desc.typeName = n

/-- The sets of messages whose descriptions are closed.  Every type nested in a type of a
message is the type of one of the message's own fields, and the types of fields are not named
like primitives or like action components and lose no string bound. -/
structure DirectlyClosed (messages : List ParsedMessage) : Prop where
  custom : ∀ m ∈ messages, ∀ field ∈ m.fields, field.fieldType.isNested = true →
    isPrimitiveType field.fieldType.baseType = false
  direct : ∀ m ∈ messages, ∀ d e, Nests messages m d → Nests messages d e → Nests messages m e
  noComponent : ∀ m ∈ messages, ∀ d, Nests messages m d → ¬ IsActionComponent d.name
  bounds : ∀ m ∈ messages, ∀ d, Nests messages m d → ∀ field ∈ d.fields,
    KeepsStringBound field.fieldType

/-- What the description hashed for a message of the set consists of: its root is the message's
root description, and its entries are the stored descriptions of the types it refers to, where
a type gives way only to another of the same stored name. -/
structure DirectDescription (messages : List ParsedMessage)
    (r : ResolvedMessage TypeDescriptionMsg) : Prop where
  root : r.typeHash.typeDescription = rootDescription r.parsed
  unique : (r.typeHash.referencedTypeDescriptions.map (·.typeName)).Nodup
  stored : ∀ desc ∈ r.typeHash.referencedTypeDescriptions,
    ∃ d, Refers messages r.parsed d ∧ desc = storedDescription d
  present : ∀ d, Refers messages r.parsed d →
    (∀ d', Refers messages r.parsed d' →
      (storedDescription d').typeName = (storedDescription d).typeName → d' = d) →
    storedDescription d ∈ r.typeHash.referencedTypeDescriptions

/-- Every message that is hashed with its dependencies at hand gets such a description. -/
theorem MessageSet.directDescription {messages : List ParsedMessage} (hset : MessageSet messages)
    {externalPackages : List String} (hext : ∀ m ∈ messages, m.package ∉ externalPackages)
    {r : ResolvedMessage TypeDescriptionMsg} (hr : r.parsed ∈ messages)
    (hhashed : Resolver.HashedWithDeps messages externalPackages id r) :
    DirectDescription messages r := by
  obtain ⟨deps, desc, hsome, hdeps, hbuild, hhash⟩ := hhashed
  have hdesc := buildTypeDescriptionMsg_eq_ok (hset.namesApart hsome) hbuild
  rw [id_eq] at hhash
  have hmem : ∀ entry, entry ∈ r.parsed.fields.filterMap (fieldDep r.parsed.package deps) ↔
      ∃ d, Refers messages r.parsed d ∧ entry = storedDescription d :=
    fun entry => hset.mem_fieldDeps hext hsome hr hdeps
  rw [hdesc] at hhash
  refine ⟨by rw [hhash], ?_, ?_, ?_⟩
  · rw [hhash]
    exact (KeyedMap.keyed_insertAll _ (KeyedMap.keyed_empty _)).nodup_valuesOf
  · intro entry hentry
    rw [hhash] at hentry
    exact (hmem entry).mp (KeyedMap.mem_valuesOf_insertAll hentry)
  · intro d hd hinj
    rw [hhash]
    refine KeyedMap.valuesOf_insertAll_of_mem ?_ ((hmem _).mpr ⟨d, hd, rfl⟩)
    intro other hother hname
    obtain ⟨d', hd', rfl⟩ := (hmem other).mp hother
    rw [hinj d' hd' hname]

/-- The entries of such a description are in the order of their type names. -/
theorem MessageSet.sorted_referenced {messages : List ParsedMessage}
    (hset : MessageSet messages) {externalPackages : List String}
    {r : ResolvedMessage TypeDescriptionMsg}
    (hhashed : Resolver.HashedWithDeps messages externalPackages id r) :
    r.typeHash.referencedTypeDescriptions.Pairwise fun a b => a.typeName < b.typeName := by
  obtain ⟨deps, desc, hsome, -, hbuild, hhash⟩ := hhashed
  have hdesc := buildTypeDescriptionMsg_eq_ok (hset.namesApart hsome) hbuild
  rw [hhash, id_eq, hdesc]
  refine (KeyedMap.keyed_insertAll _ (KeyedMap.keyed_empty _)).sorted_valuesOf.imp ?_
  intro a b hlt
  exact compareOfLessAndEq_eq_lt.mp hlt

/-- The type names in a root description are the root names of the types referred to. -/
theorem MessageSet.refers_of_nestedTypeName {messages : List ParsedMessage}
    (hset : MessageSet messages) {m : ParsedMessage} (hm : m ∈ messages) {n : String}
    (hn : n ∈ (rootDescription m).nestedTypeNames) :
    ∃ d, Refers messages m d ∧ (rootDescription d).typeName = n := by
  obtain ⟨hne, fieldDesc, hfieldDesc, rfl⟩ := mem_nestedTypeNames.mp hn
  simp only [rootDescription] at hfieldDesc
  split at hfieldDesc
  · rw [List.mem_singleton.mp hfieldDesc] at hne
    exact absurd rfl hne
  · obtain ⟨field, hfield, rfl⟩ := List.mem_map.mp hfieldDesc
    cases hprim : isPrimitiveType field.fieldType.baseType with
    | true => simp [rootField, describeWithId_primitive hprim] at hne
    | false =>
      obtain ⟨d, hd, hpkg, hname⟩ := hset.exists_refers hm hfield hprim
      refine ⟨d, hd, ?_⟩
      simp only [rootField, describeWithId_nested hprim, rootDescription, hpkg, hname]

/-- The stored description of a type is its root description exactly when neither it nor a type
it refers to is named like an action component and its fields lose no string bound. -/
theorem MessageSet.storedDescription_eq_iff {messages : List ParsedMessage}
    (hset : MessageSet messages) {d : ParsedMessage} (hd : d ∈ messages) :
    storedDescription d = rootDescription d ↔
      ¬ IsActionComponent d.name ∧ (∀ e, Refers messages d e → ¬ IsActionComponent e.name) ∧
        ∀ field ∈ d.fields, KeepsStringBound field.fieldType := by
  have hfield : ∀ field ∈ d.fields,
      (storedField d.package field = rootField d.package field ↔
        (isPrimitiveType field.fieldType.baseType = false →
          ¬ IsActionComponent field.fieldType.baseType) ∧
        KeepsStringBound field.fieldType) :=
    fun field hf => storedField_eq_rootField_iff (hset.plain_packageIn hd hf)
  have hname : (storedDescription d).typeName = (rootDescription d).typeName ↔
      ¬ IsActionComponent d.name :=
    componentTypeName_eq_iff (hset.plain d hd).1
  have hfields : (storedDescription d).fields = (rootDescription d).fields ↔
      ∀ field ∈ d.fields, storedField d.package field = rootField d.package field := by
    unfold storedDescription rootDescription
    by_cases hempty : d.fields = []
    · simp [hempty]
    · simp only [if_neg hempty, List.map_inj_left]
  have hsplit : storedDescription d = rootDescription d ↔
      (storedDescription d).typeName = (rootDescription d).typeName ∧
        (storedDescription d).fields = (rootDescription d).fields :=
    TypeDescription.ext_iff
  rw [hsplit, hname, hfields]
  refine and_congr_right fun _ => ?_
  constructor
  · intro h
    refine ⟨?_, fun field hf => ((hfield field hf).mp (h field hf)).2⟩
    rintro e ⟨-, field, hf, hprim, -, hebase⟩
    rw [hebase]
    exact ((hfield field hf).mp (h field hf)).1 hprim
  · rintro ⟨hcomp, hbounds⟩ field hf
    refine (hfield field hf).mpr ⟨fun hprim => ?_, hbounds field hf⟩
    obtain ⟨e, he, -, hebase⟩ := hset.exists_refers hd hf hprim
    rw [← hebase]
    exact hcomp e he

theorem Nests.mem_of_transGen {messages : List ParsedMessage} {m d : ParsedMessage}
    (h : TransGen (Nests messages) m d) : d ∈ messages := by
  cases h with
  | single h => exact h.1
  | tail _ h => exact h.1

/-- Where types are nested directly, the closure is one step of nesting. -/
theorem DirectlyClosed.transGen_iff {messages : List ParsedMessage}
    (h : DirectlyClosed messages) {m d : ParsedMessage} (hm : m ∈ messages) :
    TransGen (Nests messages) m d ↔ Refers messages m d := by
  constructor
  · intro htrans
    have hnests : Nests messages m d := by
      induction htrans with
      | single hd => exact hd
      | tail _ hde ih => exact h.direct m hm _ _ ih hde
    obtain ⟨hd, field, hfield, hnested, hpkg, hname⟩ := hnests
    exact ⟨hd, field, hfield, h.custom m hm field hfield hnested, hpkg, hname⟩
  · exact fun hd => .single hd.nests

/-- A resolver that succeeds returns every message of the set and no other, with the
description of its own fields. -/
theorem MessageSet.resolved_direct {messages : List ParsedMessage} (hset : MessageSet messages)
    {isHumble : Bool} {externalPackages : List String}
    (hext : ∀ m ∈ messages, m.package ∉ externalPackages)
    {self : Resolver TypeDescriptionMsg} {resolved : List (ResolvedMessage TypeDescriptionMsg)}
    (h : (Resolver.withExternalPackages isHumble externalPackages).resolveMessages id messages =
      .ok (self, resolved)) :
    (∀ m ∈ messages, ∃ r ∈ resolved, r.parsed = m) ∧
      ∀ r ∈ resolved, r.parsed ∈ messages ∧ DirectDescription messages r := by
  obtain ⟨hall, -, hhashed⟩ := Resolver.resolveMessages_resolved hset.distinct h
  refine ⟨hall, fun r hr => ?_⟩
  obtain ⟨hm, hwith⟩ := hhashed r hr
  exact ⟨hm, hset.directDescription hext hm hwith⟩

section Result

variable {messages : List ParsedMessage} {resolved : List (ResolvedMessage TypeDescriptionMsg)}
  (hset : MessageSet messages)
  (hresult : ∀ r ∈ resolved, r.parsed ∈ messages ∧ DirectDescription messages r)
  (hall : ∀ m ∈ messages, ∃ r ∈ resolved, r.parsed = m)

include hset hresult hall

/-- In a closed description every type of the closure is the type of a field, and what is
stored for it is its root description. -/
theorem ClosedDescription.refers {r : ResolvedMessage TypeDescriptionMsg} (hr : r ∈ resolved)
    (hclosed : ClosedDescription messages resolved r) {d : ParsedMessage}
    (hd : TransGen (Nests messages) r.parsed d) :
    Refers messages r.parsed d ∧ storedDescription d = rootDescription d := by
  have hmem := Nests.mem_of_transGen hd
  obtain ⟨rd, hrd, rfl⟩ := hall d hmem
  -- the entry for the type is stored for some type of a field, which has its name
  have hentry : rootDescription rd.parsed ∈ r.typeHash.referencedTypeDescriptions :=
    (hclosed.entries _).mpr ⟨rd, hrd, hd, (hresult rd hrd).2.root.symm⟩
  obtain ⟨d', hd', heq⟩ := (hresult r hr).2.stored _ hentry
  have hname : componentTypeName d'.package d'.name =
      Names.join rd.parsed.package ("msg/" ++ rd.parsed.name) :=
    (congrArg TypeDescription.typeName heq).symm
  obtain ⟨hpkg, hbase, -⟩ := componentTypeName_eq_msg (hset.plain d' hd'.1).1
    (hset.plain rd.parsed hmem).1 hname
  have hsame := hset.eq_of_name hd'.1 hmem hpkg hbase
  rw [hsame] at heq hd'
  exact ⟨hd', heq.symm⟩

/-- Closed descriptions force the conditions of `DirectlyClosed`. -/
theorem directlyClosed_of_closed (hclosed : ∀ m ∈ messages, ∃ r ∈ resolved, r.parsed = m ∧
    ClosedDescription messages resolved r) : DirectlyClosed messages := by
  have hrefers : ∀ m ∈ messages, ∀ d, TransGen (Nests messages) m d →
      Refers messages m d ∧ storedDescription d = rootDescription d := by
    intro m hm d hd
    obtain ⟨r, hr, rfl, hclosed⟩ := hclosed m hm
    exact hclosed.refers hset hresult hall hr hd
  refine ⟨?_, ?_, ?_, ?_⟩
  · intro m hm field hfield hnested
    obtain ⟨d, hd, hpkg, hname⟩ := hset.dependencies m hm field hfield hnested
    have hnests : Nests messages m d := ⟨hd, field, hfield, hnested, hpkg, hname⟩
    obtain ⟨-, field', -, hprim, -, hname'⟩ := (hrefers m hm d (.single hnests)).1
    rwa [← hname, hname']
  · intro m hm d e hd he
    exact (hrefers m hm e (.tail (.single hd) he)).1.nests
  · intro m hm d hd
    exact ((hset.storedDescription_eq_iff hd.1).mp (hrefers m hm d (.single hd)).2).1
  · intro m hm d hd
    exact ((hset.storedDescription_eq_iff hd.1).mp (hrefers m hm d (.single hd)).2).2.2

omit hresult hall in
/-- There the stored description of a type in use is its root description. -/
theorem DirectlyClosed.storedDescription_eq (h : DirectlyClosed messages) {m d : ParsedMessage}
    (hm : m ∈ messages) (hd : Refers messages m d) :
    storedDescription d = rootDescription d := by
  refine (hset.storedDescription_eq_iff hd.1).mpr ⟨h.noComponent m hm d hd.nests, ?_,
    h.bounds m hm d hd.nests⟩
  intro e he
  exact h.noComponent d hd.1 e he.nests

/-- The conditions of `DirectlyClosed` make every description closed. -/
theorem closed_of_directlyClosed (h : DirectlyClosed messages)
    {r : ResolvedMessage TypeDescriptionMsg} (hr : r ∈ resolved) :
    ClosedDescription messages resolved r := by
  obtain ⟨hm, hdirect⟩ := hresult r hr
  have hroot : ∀ d, Refers messages r.parsed d →
      rootDescription d ∈ r.typeHash.referencedTypeDescriptions := by
    intro d hd
    rw [← h.storedDescription_eq hset hm hd]
    refine hdirect.present d hd ?_
    intro d' hd' hname
    rw [h.storedDescription_eq hset hm hd] at hname
    obtain ⟨hpkg, hbase, -⟩ := componentTypeName_eq_msg (hset.plain d' hd'.1).1
      (hset.plain d hd.1).1 hname
    exact hset.eq_of_name hd'.1 hd.1 hpkg hbase
  have hentry : ∀ desc ∈ r.typeHash.referencedTypeDescriptions,
      ∃ d, Refers messages r.parsed d ∧ desc = rootDescription d := by
    intro desc hdesc
    obtain ⟨d, hd, rfl⟩ := hdirect.stored desc hdesc
    exact ⟨d, hd, h.storedDescription_eq hset hm hd⟩
  refine ⟨hdirect.unique, ?_, ?_⟩
  · intro desc
    constructor
    · intro hdesc
      obtain ⟨d, hd, rfl⟩ := hentry desc hdesc
      obtain ⟨rd, hrd, rfl⟩ := hall d hd.1
      exact ⟨rd, hrd, (h.transGen_iff hm).mpr hd, (hresult rd hrd).2.root.symm⟩
    · rintro ⟨rd, hrd, htrans, rfl⟩
      rw [(hresult rd hrd).2.root]
      exact hroot rd.parsed ((h.transGen_iff hm).mp htrans)
  · intro n hn
    -- a name in the root or in an entry is that of a type in the closure
    have hname : ∃ d, Refers messages r.parsed d ∧ (rootDescription d).typeName = n := by
      rcases List.mem_append.mp hn with hn | hn
      · rw [hdirect.root] at hn
        exact hset.refers_of_nestedTypeName hm hn
      · obtain ⟨desc, hdesc, hn⟩ := List.mem_flatMap.mp hn
        obtain ⟨d, hd, rfl⟩ := hentry desc hdesc
        obtain ⟨e, he, hname⟩ := hset.refers_of_nestedTypeName hd.1 hn
        refine ⟨e, (h.transGen_iff hm).mp ?_, hname⟩
        exact .tail (.single hd.nests) he.nests
    obtain ⟨d, hd, hname⟩ := hname
    exact ⟨_, hroot d hd, hname⟩

end Result

/-- The descriptions that a resolver hashes for a set of messages are closed exactly when the
types nested in a message are all types of its own fields, are named neither like primitives
nor like action components, and lose no string bound.  With `id` for the digest, the type hash
of a message is the description that is hashed. -/
theorem closedDescriptions_iff (isHumble : Bool) {externalPackages : List String}
    {messages : List ParsedMessage} (hset : MessageSet messages)
    (hext : ∀ m ∈ messages, m.package ∉ externalPackages)
    {self : Resolver TypeDescriptionMsg} {resolved : List (ResolvedMessage TypeDescriptionMsg)}
    (h : (Resolver.withExternalPackages isHumble externalPackages).resolveMessages id messages =
      .ok (self, resolved)) :
    (∀ m ∈ messages, ∃ r ∈ resolved, r.parsed = m ∧ ClosedDescription messages resolved r) ↔
      DirectlyClosed messages := by
  obtain ⟨hall, hresult⟩ := hset.resolved_direct hext h
  constructor
  · exact directlyClosed_of_closed hset hresult hall
  · intro hdirect m hm
    obtain ⟨r, hr, hparsed⟩ := hall m hm
    exact ⟨r, hr, hparsed, closed_of_directlyClosed hset hresult hall hdirect hr⟩

/-! ### A track of poses -/

private def demoField (name baseType : String) (array : ArrayType) : Field :=
  ⟨name, ⟨baseType, none, array, none⟩⟩

def demoPoint : ParsedMessage :=
  ⟨"Point", "demo_msgs", [demoField "x" "float64" .single], "float64 x"⟩

def demoPose : ParsedMessage :=
  ⟨"Pose", "demo_msgs", [demoField "position" "Point" .single], "Point position"⟩

/-- A track names the type of the positions in its poses itself. -/
def demoTrack : ParsedMessage :=
  ⟨"Track", "demo_msgs", [demoField "poses" "Pose" .unbounded, demoField "origin" "Point" .single],
    "Pose[] poses\nPoint origin"⟩

/-- A path does not. -/
def demoPath : ParsedMessage :=
  ⟨"Path", "demo_msgs", [demoField "poses" "Pose" .unbounded], "Pose[] poses"⟩

abbrev trackMessages : List ParsedMessage := [demoTrack, demoPose, demoPoint]

abbrev pathMessages : List ParsedMessage := [demoPath, demoPose, demoPoint]

theorem demoTrack_messageSet : MessageSet trackMessages :=
  ⟨by decide +kernel, by decide +kernel, by decide +kernel⟩

theorem demoPath_messageSet : MessageSet pathMessages :=
  ⟨by decide +kernel, by decide +kernel, by decide +kernel⟩

theorem demoTrack_directlyClosed : DirectlyClosed trackMessages where
  custom := by decide +kernel
  direct := by
    have h : ∀ m ∈ trackMessages, ∀ d ∈ trackMessages, ∀ e ∈ trackMessages,
        Nests trackMessages m d → Nests trackMessages d e → Nests trackMessages m e := by
      decide +kernel
    exact fun m hm d e hd he => h m hm d hd.1 e he.1 hd he
  noComponent := by
    have h : ∀ d ∈ trackMessages, ¬ IsActionComponent d.name := by decide +kernel
    exact fun _ _ d hd => h d hd.1
  bounds := by
    have h : ∀ d ∈ trackMessages, ∀ field ∈ d.fields,
        KeepsStringBound field.fieldType := by decide +kernel
    exact fun _ _ d hd => h d hd.1

/-- The track, its poses and their positions are hashed with closed descriptions. -/
theorem closedDescriptions_track :
    ∃ self resolved,
      (Resolver.withExternalPackages false ["std_msgs"]).resolveMessages id trackMessages =
        .ok (self, resolved) ∧
      ∀ m ∈ trackMessages, ∃ r ∈ resolved, r.parsed = m ∧
        ClosedDescription trackMessages resolved r := by
  obtain ⟨⟨self, resolved⟩, h⟩ := Fallible.exists_of_isOk
    (show ((Resolver.withExternalPackages false ["std_msgs"]).resolveMessages id
      trackMessages).isOk = true by decide +kernel)
  refine ⟨self, resolved, h, ?_⟩
  exact (closedDescriptions_iff false demoTrack_messageSet (by decide +kernel) h).mpr
    demoTrack_directlyClosed

/-- No message of a set nests itself. -/
def Acyclic (messages : List ParsedMessage) : Prop :=
  ∀ m ∈ messages, ¬ TransGen (Nests messages) m m

theorem acyclic_of_rank {messages : List ParsedMessage} (rank : ParsedMessage → ℕ)
    (h : ∀ m ∈ messages, ∀ d ∈ messages, Nests messages m d → rank d < rank m) :
    Acyclic messages := by
  have hlt : ∀ m ∈ messages, ∀ d, TransGen (Nests messages) m d → rank d < rank m := by
    intro m hm d hd
    induction hd with
    | single hd => exact h m hm _ hd.1 hd
    | tail hb hd ih =>
      exact (h _ (Nests.mem_of_transGen hb) _ hd.1 hd).trans ih
  exact fun m hm hself => lt_irrefl _ (hlt m hm m hself)

/-- The description hashed for a path does not reference the positions of its poses. -/
theorem resolver_not_closed :
    MessageSet pathMessages ∧ Acyclic pathMessages ∧
    ∃ self resolved,
      (Resolver.new false).resolveMessages id pathMessages = .ok (self, resolved) ∧
      ¬ ∀ m ∈ pathMessages, ∃ r ∈ resolved, r.parsed = m ∧
        ClosedDescription pathMessages resolved r := by
  refine ⟨demoPath_messageSet, ?_, ?_⟩
  · refine acyclic_of_rank (fun m => [demoPoint, demoPose, demoPath].idxOf m) ?_
    decide +kernel
  · obtain ⟨⟨self, resolved⟩, h⟩ := Fallible.exists_of_isOk
      (show ((Resolver.new false).resolveMessages id pathMessages).isOk = true by decide +kernel)
    refine ⟨self, resolved, h, fun hclosed => ?_⟩
    obtain ⟨hall, hresult⟩ := demoPath_messageSet.resolved_direct (by simp) h
    have hdirect := directlyClosed_of_closed demoPath_messageSet hresult hall hclosed
    have hnests := hdirect.direct demoPath (by decide +kernel) demoPose demoPoint
      (by decide +kernel) (by decide +kernel)
    exact absurd hnests (by decide +kernel)

end RosZ.Codegen
