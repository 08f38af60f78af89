import Mathlib.Data.String.Basic
import RosZ.Dynamic.DescriptionRoundTrip

/-!
# The referenced types of a description

A description message lists the types that its root refers to.  This is about both
directions of the conversion.

* What `to_type_description_msg` lists: each type nested in the schema, once and in the
  order of the names (`referencedTypeDescriptions_exact`).
* What `type_description_msg_to_schema` accepts: messages that are `Resolvable`, with names
  of three parts, known type ids, and nested types that are listed and do not refer to
  themselves.  Its loop over the listed types ends, and their order has no influence on the
  schema (`typeDescriptionMsgToSchema_iff`).

The second part instantiates `Worklist`, with the names of the nested types as needs.
-/

namespace RosZ.Dynamic

open RosZ.Schema

/-! ## What is listed -/

/-- `inner` is reachable through the fields of `schema`, their elements and so on. -/
def MessageSchema.Nests (schema inner : MessageSchema) : Prop :=
  Relation.TransGen (fun outer nested => nested ∈ outer.children) schema inner

theorem MessageSchema.nests_iff {schema inner : MessageSchema} :
    schema.Nests inner ↔ ∃ child ∈ schema.children, child.Contains inner :=
  Relation.TransGen.head'_iff

theorem MessageSchema.nests_iff_last {schema inner : MessageSchema} :
    schema.Nests inner ↔ ∃ outer, schema.Contains outer ∧ inner ∈ outer.children :=
  Relation.TransGen.tail'_iff

/-- The types in a schema's description are in the order of their names. -/
theorem sorted_referenced {schema : MessageSchema} (coherent : schema.Coherent) :
    (toTypeDescriptionMsg schema).referencedTypeDescriptions.Pairwise
      fun a b => a.typeName < b.typeName := by
  obtain ⟨added, describes⟩ := exists_describes coherent
  have : Std.Total fun a b : TypeDescription => a.typeName ≤ b.typeName :=
    ⟨fun a b => le_total a.typeName b.typeName⟩
  have : IsTrans TypeDescription fun a b => a.typeName ≤ b.typeName :=
    ⟨fun a b c => le_trans⟩
  have sorted : (toTypeDescriptionMsg schema).referencedTypeDescriptions.Pairwise
      fun a b => a.typeName ≤ b.typeName := List.pairwise_insertionSort _ _
  have distinct := List.pairwise_map.mp describes.distinct
  exact sorted.imp₂ (fun a b le ne => lt_of_le_of_ne le ne) distinct

/-- **The referenced types are exactly the nested ones**, each once and in order. -/
theorem referencedTypeDescriptions_exact (schema : MessageSchema) (coherent : schema.Coherent) :
    ((toTypeDescriptionMsg schema).referencedTypeDescriptions.Pairwise
      fun a b => a.typeName < b.typeName) ∧
    ∀ td, td ∈ (toTypeDescriptionMsg schema).referencedTypeDescriptions ↔
      ∃ inner, schema.Nests inner ∧ toTypeDescription inner = td := by
  refine ⟨sorted_referenced coherent, fun td => ?_⟩
  obtain ⟨added, describes⟩ := exists_describes coherent
  rw [describes.mem_iff]
  constructor
  · rintro ⟨inner, member, described⟩
    exact ⟨inner, MessageSchema.nests_iff.mpr (describes.nested inner member), described⟩
  · rintro ⟨inner, nests, rfl⟩
    obtain ⟨outer, contains, nested⟩ := MessageSchema.nests_iff_last.mp nests
    obtain ⟨a, member, same⟩ := describes.complete outer contains inner nested
    exact ⟨a, member, toTypeDescription_congr same⟩

theorem referencedTypeDescriptions_exact_track :
    (toTypeDescriptionMsg trackSchema).referencedTypeDescriptions =
        [toTypeDescription pointSchema] ∧
      toTypeDescription pointSchema ∈
        (toTypeDescriptionMsg trackSchema).referencedTypeDescriptions :=
  ⟨rfl, ((referencedTypeDescriptions_exact trackSchema trackSchema_coherent).2 _).mpr
    ⟨pointSchema, Relation.TransGen.single List.mem_cons_self, rfl⟩⟩

/-! ## What is accepted -/

/-- A name with a package, a kind and a name of its own. -/
def ThreeParts (typeName : String) : Prop :=
  ∃ package kind name, Text.fields '/' typeName = [package, kind, name]

/-- The conversion knows the type ids of the fields. -/
def KnownIds (td : TypeDescription) : Prop :=
  ∀ fd ∈ td.fields, TypeId.baseType fd.fieldType.typeId ∈ baseTypeIds

/-- The names of the nested types that a description uses. -/
def usedTypes (td : TypeDescription) : List String :=
  (td.fields.filter fun fd => TypeId.baseType fd.fieldType.typeId = TypeId.nestedType.single).map
    fun fd => fd.fieldType.nestedTypeName

theorem mem_usedTypes {td : TypeDescription} {n : String} :
    n ∈ usedTypes td ↔ ∃ fd ∈ td.fields,
      TypeId.baseType fd.fieldType.typeId = TypeId.nestedType.single ∧
        fd.fieldType.nestedTypeName = n := by
  simp only [usedTypes, List.mem_map, List.mem_filter, decide_eq_true_eq, and_assoc]

/-- The descriptions that can be converted. -/
structure Resolvable (msg : TypeDescriptionMsg) : Prop where
  named : ∀ td ∈ msg.typeDescription :: msg.referencedTypeDescriptions, ThreeParts td.typeName
  known : ∀ td ∈ msg.typeDescription :: msg.referencedTypeDescriptions, KnownIds td
  listed : ∀ td ∈ msg.typeDescription :: msg.referencedTypeDescriptions, ∀ n ∈ usedTypes td,
    ∃ other ∈ msg.referencedTypeDescriptions, other.typeName = n
  acyclic : ∀ td, ¬ Relation.TransGen (fun inner outer =>
    inner ∈ msg.referencedTypeDescriptions ∧ outer ∈ msg.referencedTypeDescriptions ∧
      inner.typeName ∈ usedTypes outer) td td

/-- A base type is found when its id is known and the nested type, if any, is resolved. -/
theorem exists_baseFieldType_iff (ftd : FieldTypeDescription) (typeMap : TypeMap) :
    (∃ base, baseFieldType ftd typeMap = .ok base) ↔
      TypeId.baseType ftd.typeId ∈ baseTypeIds ∧
        (TypeId.baseType ftd.typeId = TypeId.nestedType.single →
          ∃ schema, typeMap ftd.nestedTypeName = some schema) := by
  by_cases nested : TypeId.baseType ftd.typeId = TypeId.nestedType.single
  · rw [baseFieldType_nested nested]
    have known : TypeId.baseType ftd.typeId ∈ baseTypeIds := by
      rw [nested]
      decide
    rcases typeMap ftd.nestedTypeName with _ | schema
    · simp [nested]
    · simp [known]
  · unfold baseFieldType
    revert nested
    generalize TypeId.baseType ftd.typeId = id
    intro nested
    constructor
    · rintro ⟨base, found⟩
      refine ⟨?_, fun same => absurd same nested⟩
      split at found
      case h_14 => cases found
      all_goals decide
    · rintro ⟨known, -⟩
      split
      case h_12 =>
        split
        · exact ⟨_, rfl⟩
        · exact ⟨_, rfl⟩
      case h_13 => exact absurd rfl nested
      case h_14 =>
        simp only [baseTypeIds, List.mem_cons, List.not_mem_nil, or_false] at known
        grind
      all_goals exact ⟨_, rfl⟩

theorem exists_fieldDescriptionToSchema_iff (typeMap : TypeMap) (fd : FieldDescription) :
    (∃ field, fieldDescriptionToSchema typeMap fd = .ok field) ↔
      TypeId.baseType fd.fieldType.typeId ∈ baseTypeIds ∧
        (TypeId.baseType fd.fieldType.typeId = TypeId.nestedType.single →
          ∃ schema, typeMap fd.fieldType.nestedTypeName = some schema) := by
  rw [← exists_baseFieldType_iff]
  constructor
  · rintro ⟨field, converted⟩
    obtain ⟨t, restored, -⟩ := fieldDescriptionToSchema_iff.mp converted
    obtain ⟨base, found, -⟩ := fieldTypeDescriptionToType_iff.mp restored
    exact ⟨base, found⟩
  · rintro ⟨base, found⟩
    exact ⟨_, fieldDescriptionToSchema_iff.mpr
      ⟨_, fieldTypeDescriptionToType_iff.mpr ⟨base, found, rfl⟩, rfl⟩⟩

/-- **A description is converted** when its name and its type ids are known and every nested
type that it uses is resolved. -/
theorem exists_full_iff (td : TypeDescription) (typeMap : TypeMap) :
    (∃ schema, typeDescriptionToSchemaFull td typeMap = .ok schema) ↔
      (ThreeParts td.typeName ∧ KnownIds td) ∧
        ∀ n ∈ usedTypes td, ∃ schema, typeMap n = some schema := by
  have fieldwise : (∃ fields, td.fields.mapM (fieldDescriptionToSchema typeMap) = .ok fields) ↔
      KnownIds td ∧ ∀ n ∈ usedTypes td, ∃ schema, typeMap n = some schema := by
    constructor
    · rintro ⟨fields, converted⟩
      have each : ∀ fd ∈ td.fields, ∃ field, fieldDescriptionToSchema typeMap fd = .ok field := by
        intro fd member
        obtain ⟨field, -, found⟩ := Fallible.exists_result converted member
        exact ⟨field, found⟩
      constructor
      · intro fd member
        exact ((exists_fieldDescriptionToSchema_iff typeMap fd).mp (each fd member)).1
      · intro n used
        obtain ⟨fd, member, nested, rfl⟩ := mem_usedTypes.mp used
        exact ((exists_fieldDescriptionToSchema_iff typeMap fd).mp (each fd member)).2 nested
    · rintro ⟨known, resolved⟩
      refine Fallible.exists_mapM_ok fun fd member => ?_
      refine (exists_fieldDescriptionToSchema_iff typeMap fd).mpr
        ⟨known fd member, fun nested => ?_⟩
      exact resolved _ (mem_usedTypes.mpr ⟨fd, member, nested, rfl⟩)
  rw [and_assoc, ← fieldwise]
  constructor
  · rintro ⟨schema, converted⟩
    obtain ⟨package, kind, name, fields, parts, restored, -⟩ :=
      typeDescriptionToSchemaFull_iff.mp converted
    exact ⟨⟨package, kind, name, parts⟩, fields, restored⟩
  · rintro ⟨⟨package, kind, name, parts⟩, fields, restored⟩
    exact ⟨_, typeDescriptionToSchemaFull_iff.mpr
      ⟨package, kind, name, fields, parts, restored, rfl⟩⟩

/-- Nothing else of the map is read. -/
theorem full_congr {td : TypeDescription} {typeMap typeMap' : TypeMap}
    (same : ∀ n ∈ usedTypes td, typeMap n = typeMap' n) :
    typeDescriptionToSchemaFull td typeMap = typeDescriptionToSchemaFull td typeMap' := by
  have fieldwise : ∀ fd ∈ td.fields,
      fieldDescriptionToSchema typeMap fd = fieldDescriptionToSchema typeMap' fd := by
    intro fd member
    have base : baseFieldType fd.fieldType typeMap = baseFieldType fd.fieldType typeMap' := by
      by_cases nested : TypeId.baseType fd.fieldType.typeId = TypeId.nestedType.single
      · rw [baseFieldType_nested nested, baseFieldType_nested nested,
          same _ (mem_usedTypes.mpr ⟨fd, member, nested, rfl⟩)]
      · exact baseFieldType_unread nested _ _
    unfold fieldDescriptionToSchema fieldTypeDescriptionToType
    rw [base]
  unfold typeDescriptionToSchemaFull
  rw [Fallible.mapM_congr fieldwise]

/-- The loop over the listed types. -/
def resolveListed (msg : TypeDescriptionMsg) : Except (List TypeDescription) TypeMap :=
  Worklist.run TypeDescription.typeName
    (fun td resolved => (typeDescriptionToSchemaFull td resolved).toOption)
    msg.referencedTypeDescriptions.length msg.referencedTypeDescriptions (fun _ => none)

/-- A conversion is a first pass over the names, a finished loop and the conversion of the
root. -/
theorem typeDescriptionMsgToSchema_eq_ok_iff {msg : TypeDescriptionMsg} {schema : MessageSchema} :
    typeDescriptionMsgToSchema msg = .ok schema ↔
      (∀ td ∈ msg.referencedTypeDescriptions, ThreeParts td.typeName) ∧
        ∃ resolved, resolveListed msg = .ok resolved ∧
          typeDescriptionToSchemaFull msg.typeDescription resolved = .ok schema := by
  have first : (∃ schemas, msg.referencedTypeDescriptions.mapM typeDescriptionToSchemaPartial =
      .ok schemas) ↔ ∀ td ∈ msg.referencedTypeDescriptions, ThreeParts td.typeName := by
    constructor
    · rintro ⟨schemas, passed⟩ td member
      obtain ⟨schema, -, partially⟩ := Fallible.exists_result passed member
      unfold typeDescriptionToSchemaPartial at partially
      split at partially
      · next package kind name parts => exact ⟨package, kind, name, parts⟩
      · cases partially
    · intro named
      refine Fallible.exists_mapM_ok fun td member => ?_
      obtain ⟨package, kind, name, parts⟩ := named td member
      exact ⟨_, typeDescriptionToSchemaPartial_of_parts parts⟩
  rw [← first]
  unfold typeDescriptionMsgToSchema
  rw [Fallible.bind_eq_ok_iff, exists_and_right]
  refine and_congr_right fun _ => ?_
  rcases loop : resolveListed msg with stuck | resolved
  · unfold resolveListed at loop
    simp [loop]
  · unfold resolveListed at loop
    simp [loop]

/-- The root and the listed types are convertible one by one, and ordered. -/
theorem resolvable_iff {msg : TypeDescriptionMsg} :
    Resolvable msg ↔
      ((∀ td ∈ msg.referencedTypeDescriptions, ThreeParts td.typeName ∧ KnownIds td) ∧
        Worklist.Ordered TypeDescription.typeName usedTypes msg.referencedTypeDescriptions) ∧
      (ThreeParts msg.typeDescription.typeName ∧ KnownIds msg.typeDescription) ∧
        ∀ n ∈ usedTypes msg.typeDescription,
          ∃ other ∈ msg.referencedTypeDescriptions, other.typeName = n := by
  constructor
  · intro resolvable
    have root := List.mem_cons_self (a := msg.typeDescription)
      (l := msg.referencedTypeDescriptions)
    have listed : ∀ td ∈ msg.referencedTypeDescriptions,
        td ∈ msg.typeDescription :: msg.referencedTypeDescriptions :=
      fun td => List.mem_cons_of_mem _
    exact ⟨⟨fun td member => ⟨resolvable.named td (listed td member),
      resolvable.known td (listed td member)⟩,
      ⟨fun td member => resolvable.listed td (listed td member), resolvable.acyclic⟩⟩,
      ⟨resolvable.named _ root, resolvable.known _ root⟩, resolvable.listed _ root⟩
  · rintro ⟨⟨each, ordered⟩, ⟨named, known⟩, listed⟩
    refine ⟨fun td member => ?_, fun td member => ?_, fun td member => ?_, ordered.acyclic⟩
    · rcases List.mem_cons.mp member with rfl | member
      · exact named
      · exact (each td member).1
    · rcases List.mem_cons.mp member with rfl | member
      · exact known
      · exact (each td member).2
    · rcases List.mem_cons.mp member with rfl | member
      · exact listed
      · exact ordered.found td member

section Listed

variable {msg : TypeDescriptionMsg}

theorem exists_resolveListed_iff
    (distinct : (msg.referencedTypeDescriptions.map TypeDescription.typeName).Nodup) :
    (∃ resolved, resolveListed msg = .ok resolved) ↔
      (∀ td ∈ msg.referencedTypeDescriptions, ThreeParts td.typeName ∧ KnownIds td) ∧
        Worklist.Ordered TypeDescription.typeName usedTypes msg.referencedTypeDescriptions := by
  refine Worklist.exists_run_iff monotonic_full distinct fun td _ resolved => ?_
  rw [← exists_full_iff]
  exact exists_congr fun schema => Fallible.toOption_eq_some_iff

/-- A finished loop has resolved the listed types and no others. -/
theorem exists_resolved_iff
    (distinct : (msg.referencedTypeDescriptions.map TypeDescription.typeName).Nodup)
    {resolved : TypeMap} (finished : resolveListed msg = .ok resolved) (n : String) :
    (∃ schema, resolved n = some schema) ↔
      ∃ td ∈ msg.referencedTypeDescriptions, td.typeName = n := by
  have resolving := Worklist.resolving_of_run monotonic_full
    (Worklist.resolving_start distinct) finished
  constructor
  · rintro ⟨schema, recorded⟩
    obtain ⟨td, member, name, -⟩ := resolving.origin n schema recorded
    exact ⟨td, member, name⟩
  · rintro ⟨td, member, rfl⟩
    exact (resolving.resolved td member).resolve_left List.not_mem_nil

theorem exists_ok_iff
    (distinct : (msg.referencedTypeDescriptions.map TypeDescription.typeName).Nodup) :
    (∃ schema, typeDescriptionMsgToSchema msg = .ok schema) ↔ Resolvable msg := by
  rw [resolvable_iff, ← exists_resolveListed_iff distinct]
  constructor
  · rintro ⟨schema, converted⟩
    obtain ⟨-, resolved, finished, root⟩ := typeDescriptionMsgToSchema_eq_ok_iff.mp converted
    obtain ⟨own, used⟩ := (exists_full_iff _ _).mp ⟨schema, root⟩
    exact ⟨⟨resolved, finished⟩, own,
      fun n member => (exists_resolved_iff distinct finished n).mp (used n member)⟩
  · rintro ⟨⟨resolved, finished⟩, own, listed⟩
    obtain ⟨each, -⟩ := (exists_resolveListed_iff distinct).mp ⟨resolved, finished⟩
    obtain ⟨schema, root⟩ := (exists_full_iff msg.typeDescription resolved).mpr
      ⟨own, fun n member => (exists_resolved_iff distinct finished n).mpr (listed n member)⟩
    exact ⟨schema, typeDescriptionMsgToSchema_eq_ok_iff.mpr
      ⟨fun td member => (each td member).1, resolved, finished, root⟩⟩

theorem typeDescriptionMsgToSchema_perm
    (distinct : (msg.referencedTypeDescriptions.map TypeDescription.typeName).Nodup)
    {msg' : TypeDescriptionMsg} (root : msg'.typeDescription = msg.typeDescription)
    (permuted : msg'.referencedTypeDescriptions.Perm msg.referencedTypeDescriptions)
    {schema : MessageSchema} (converted : typeDescriptionMsgToSchema msg = .ok schema) :
    typeDescriptionMsgToSchema msg' = .ok schema := by
  obtain ⟨named, resolved, finished, converts⟩ := typeDescriptionMsgToSchema_eq_ok_iff.mp converted
  obtain ⟨each, ordered⟩ := (exists_resolveListed_iff distinct).mp ⟨resolved, finished⟩
  have distinct' := (permuted.map TypeDescription.typeName).nodup_iff.mpr distinct
  obtain ⟨resolved', finished'⟩ := (exists_resolveListed_iff distinct').mpr
    ⟨fun td member => each td (permuted.mem_iff.mp member), ordered.perm permuted⟩
  have same : resolved = resolved' := Worklist.run_perm monotonic_full distinct ordered
    (fun td _ found found' alike => congrArg Except.toOption (full_congr alike)) permuted
    finished finished'
  refine typeDescriptionMsgToSchema_eq_ok_iff.mpr ⟨fun td member => ?_, resolved', finished', ?_⟩
  · exact named td (permuted.mem_iff.mp member)
  · rw [root, ← same]
    exact converts

/-- **Descriptions are converted exactly when they are resolvable**: the loop over the listed
types ends, and their order does not matter. -/
theorem typeDescriptionMsgToSchema_iff (msg : TypeDescriptionMsg)
    (distinct : (msg.referencedTypeDescriptions.map TypeDescription.typeName).Nodup) :
    Worklist.Ends TypeDescription.typeName
      (fun td resolved => (typeDescriptionToSchemaFull td resolved).toOption)
      msg.referencedTypeDescriptions (fun _ => none) (resolveListed msg) ∧
    ((∃ schema, typeDescriptionMsgToSchema msg = .ok schema) ↔ Resolvable msg) ∧
    ∀ msg' : TypeDescriptionMsg, msg'.typeDescription = msg.typeDescription →
      msg'.referencedTypeDescriptions.Perm msg.referencedTypeDescriptions →
      ∀ schema, typeDescriptionMsgToSchema msg = .ok schema →
        typeDescriptionMsgToSchema msg' = .ok schema :=
  ⟨Worklist.ends_run (Nat.le_refl _), exists_ok_iff distinct,
    fun _ root permuted _ converted =>
      typeDescriptionMsgToSchema_perm distinct root permuted converted⟩

end Listed

/-- Two listed types, the outer one before the inner one it uses. -/
def demoMsg : TypeDescriptionMsg where
  typeDescription :=
    ⟨"test_msgs/msg/Path", [⟨"poses", .nested TypeId.nestedType.unboundedSequence
      "test_msgs/msg/Pose", ""⟩]⟩
  referencedTypeDescriptions :=
    [⟨"test_msgs/msg/Pose", [⟨"at", .nested TypeId.nestedType.single "test_msgs/msg/Point", ""⟩]⟩,
      ⟨"test_msgs/msg/Point", [⟨"x", .primitive TypeId.float64.single, ""⟩]⟩]

theorem typeDescriptionMsgToSchema_iff_path : Resolvable demoMsg ∧
    ∃ schema, typeDescriptionMsgToSchema demoMsg = .ok schema ∧
      typeDescriptionMsgToSchema { demoMsg with
        referencedTypeDescriptions := demoMsg.referencedTypeDescriptions.reverse } =
        .ok schema := by
  have distinct : (demoMsg.referencedTypeDescriptions.map TypeDescription.typeName).Nodup := by
    decide
  obtain ⟨schema, converted⟩ : ∃ schema, typeDescriptionMsgToSchema demoMsg = .ok schema :=
    Fallible.exists_of_isOk (by decide +kernel)
  obtain ⟨-, accepted, ordered⟩ := typeDescriptionMsgToSchema_iff demoMsg distinct
  exact ⟨accepted.mp ⟨schema, converted⟩, schema, converted,
    ordered { demoMsg with
      referencedTypeDescriptions := demoMsg.referencedTypeDescriptions.reverse } rfl
      (List.reverse_perm _) schema converted⟩

end RosZ.Dynamic
