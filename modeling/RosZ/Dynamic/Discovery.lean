import RosZ.Dynamic.DescriptionRoundTrip
import RosZ.Dynamic.TypeDescriptionService

/-!
# Discovering the schema of a dynamic publisher

A node keeps one schema for each type name, and a client asks for the type name it reads
back from the DDS name that a publisher advertises.  A publisher's schema can therefore be
discovered exactly when its type name survives the two conversions (`ReadsBack`) and no later
publisher of the node has registered another description under it
(`dynPub_discoverable_iff`).
-/

namespace RosZ.Dynamic

open RosZ.Schema RosZ.Protocol

/-! ## Names -/

/-- In the DDS form of a type name nothing reads as a separator but what separates its parts,
and nothing as the mark at its end but that. -/
structure ReadsBack (package name : String) : Prop where
  noneBefore : Names.contains "::msg::dds_::" (package ++ "::msg::dds_:") = false
  noneBehind : Names.contains "::msg::dds_::" name = false
  noService : Names.contains "::srv::dds_::" package = false ∧
    Names.contains "::srv::dds_::" name = false
  noAction : Names.contains "::action::dds_::" package = false ∧
    Names.contains "::action::dds_::" name = false
  noMark : name.toList.getLast? ≠ some '_'

section Names

variable {package name : String} (plainPackage : Names.Plain package) (plainName : Names.Plain name)

theorem toList_typeName (package name : String) :
    (Names.join package (Names.join "msg" name)).toList =
      package.toList ++ ("/msg/".toList ++ name.toList) := by
  rw [Names.toList_join, Names.toList_join]
  rfl

include plainPackage plainName

theorem toList_ddsName :
    (ddsName (Names.join package (Names.join "msg" name))).toList =
      package.toList ++ ("::msg::dds_::".toList ++ (name.toList ++ ['_'])) := by
  have absent : ¬ "/msg/".toList <:+: package.toList ++ "/msg/".toList.dropLast := by
    intro inside
    have slashes := inside.sublist.count_le '/'
    rw [List.count_append, List.count_eq_zero.mpr plainPackage] at slashes
    revert slashes
    decide
  have none : ¬ "/msg/".toList <:+: name.toList := fun inside =>
    plainName (inside.subset (by decide))
  have first : '/' ∉ package.toList ++ ("::msg::dds_::".toList ++ name.toList) := by
    rw [List.mem_append, List.mem_append, not_or, not_or]
    exact ⟨plainPackage, by decide, plainName⟩
  unfold ddsName Names.replace
  simp only [String.toList_append, String.toList_ofList, toList_typeName]
  rw [Names.replaceFrom_first (by decide) absent, Names.replaceFrom_of_none none,
    Names.replaceFrom_of_none fun inside => first (inside.subset (by decide)),
    Names.replaceFrom_of_none fun inside => first (inside.subset (by decide))]
  simp only [List.append_assoc]
  rfl

end Names

/-! ### What normalizing undoes -/

section Separators

variable {pattern package name : List Char}

/-- A DDS separator in a name whose `/msg/` has come back is in one of its parts. -/
theorem infix_restored_iff (some : pattern ≠ []) (other : '/' ∉ pattern)
    (apart : ¬ pattern <:+: "msg".toList) :
    pattern <:+: package ++ ("/msg/".toList ++ name) ↔
      pattern <:+: package ∨ pattern <:+: name := by
  have kind : "/msg/".toList ++ name = '/' :: ("msg".toList ++ '/' :: name) := rfl
  rw [kind, Names.infix_across other some, Names.infix_across other some, or_iff_right apart]

/-- The mark at the end is no part of a separator. -/
theorem infix_marked_iff (ends : pattern.getLast? = some ':') :
    pattern <:+: name ++ ['_'] ↔ pattern <:+: name := by
  rw [List.infix_concat_iff, or_iff_right]
  rintro ⟨front, same⟩
  have last := congrArg List.getLast? same
  rw [List.getLast?_append, List.getLast?_concat, ends] at last
  cases last

/-- A name ends as its last part does, when that has a letter at all. -/
theorem getLast?_restored :
    (package ++ ("/msg/".toList ++ name)).getLast? ≠ some '_' ↔ name.getLast? ≠ some '_' := by
  cases last : name.getLast? with
  | none =>
      rw [List.getLast?_append, List.getLast?_append, last]
      simp
  | some c => rw [List.getLast?_append, List.getLast?_append, last, Option.some_or, Option.some_or]

end Separators

theorem contains_eq_false_iff {part s : String} :
    Names.contains part s = false ↔ ¬ part.toList <:+: s.toList := by
  rw [Names.contains, decide_eq_false_iff_not]

/-- Replacing DDS separators in a name with two slashes leaves two only if there are none. -/
theorem replaceFrom_absent {pattern replacement s : List Char} (some : pattern ≠ [])
    (other : '/' ∉ pattern) (two : replacement.count '/' = 2) (least : 2 ≤ s.count '/')
    (same : (Names.replaceFrom pattern replacement 0 s).count '/' ≤ 2) :
    ¬ pattern <:+: s ∧ Names.replaceFrom pattern replacement 0 s = s := by
  have absent : ¬ pattern <:+: s := by
    intro found
    have more := @Names.count_add_le_replaceFrom pattern replacement some '/' other s found
    omega
  exact ⟨absent, Names.replaceFrom_of_none absent⟩

section Back

variable {package name : List Char} {marks : ℕ}

/-- What has come back has one separator of the first kind, where it was put, and none of the
others. -/
theorem restored_cases (plainPackage : '/' ∉ package) (plainName : '/' ∉ name)
    (same : Names.replaceFrom "::action::dds_::".toList "/action/".toList 0
      (Names.replaceFrom "::srv::dds_::".toList "/srv/".toList 0
        (Names.replaceFrom "::msg::dds_::".toList "/msg/".toList 0
          (package ++ ("::msg::dds_::".toList ++ (name ++ ['_']))))) =
      package ++ ("/msg/".toList ++ name) ++ List.replicate marks '_') :
    (¬ "::msg::dds_::".toList <:+: package ++ "::msg::dds_::".toList.dropLast ∧
      ¬ "::msg::dds_::".toList <:+: name ++ ['_']) ∧
    ¬ "::srv::dds_::".toList <:+: package ++ ("/msg/".toList ++ (name ++ ['_'])) ∧
    ¬ "::action::dds_::".toList <:+: package ++ ("/msg/".toList ++ (name ++ ['_'])) := by
  have slashes :
      (package ++ ("/msg/".toList ++ name) ++ List.replicate marks '_').count '/' = 2 := by
    simp only [List.count_append, List.count_eq_zero.mpr plainPackage,
      List.count_eq_zero.mpr plainName, List.count_replicate]
    rfl
  obtain ⟨front, back, split, absent⟩ := Names.exists_first (by decide)
    (show "::msg::dds_::".toList <:+: package ++ ("::msg::dds_::".toList ++ (name ++ ['_'])) from
      ⟨package, name ++ ['_'], List.append_assoc ..⟩)
  have plainFront : '/' ∉ front := by
    intro inside
    have among : '/' ∈ package ++ ("::msg::dds_::".toList ++ (name ++ ['_'])) :=
      split ▸ List.mem_append_left _ inside
    simp [plainPackage, plainName] at among
  rw [split, Names.replaceFrom_first (by decide) absent] at same
  -- there are two slashes in the end, and no step takes one away
  generalize restored :
    Names.replaceFrom "::msg::dds_::".toList "/msg/".toList 0 back = rest at same
  have first : (front ++ ("/msg/".toList ++ rest)).count '/' = 2 + rest.count '/' := by
    rw [List.count_append, List.count_append, List.count_eq_zero.mpr plainFront, Nat.zero_add]
    rfl
  have second := @Names.count_le_replaceFrom "::srv::dds_::".toList "/srv/".toList (by decide) '/'
    (by decide) (front ++ ("/msg/".toList ++ rest))
  obtain ⟨noAction, last⟩ := replaceFrom_absent (by decide) (by decide)
    (show "/action/".toList.count '/' = 2 by decide) (by omega) (same ▸ slashes.le)
  rw [last] at same
  obtain ⟨noService, middle⟩ := replaceFrom_absent (by decide) (by decide)
    (show "/srv/".toList.count '/' = 2 by decide) (by omega) (same ▸ slashes.le)
  rw [middle] at same noAction
  have noneBehind : ¬ "::msg::dds_::".toList <:+: back := by
    intro found
    have more := @Names.count_add_le_replaceFrom "::msg::dds_::".toList "/msg/".toList (by decide)
      '/' (by decide) back found
    have two : "/msg/".toList.count '/' = 2 := by decide
    rw [same, slashes] at first
    rw [restored] at more
    omega
  obtain rfl := (Names.replaceFrom_of_none noneBehind).symm.trans restored
  -- so the part in front of the first slash is the package, also in the DDS name
  rw [List.append_assoc] at same
  obtain ⟨rfl, -⟩ := (Names.append_slash_inj plainFront plainPackage).mp same
  obtain rfl := List.append_cancel_left (List.append_cancel_left split)
  exact ⟨⟨absent, noneBehind⟩, noService, noAction⟩

end Back

/-- Names without a colon only have to end in something else than the mark. -/
theorem readsBack_of_no_colon {package name : String} (plainPackage : ':' ∉ package.toList)
    (plainName : ':' ∉ name.toList) (noMark : name.toList.getLast? ≠ some '_') :
    ReadsBack package name := by
  have none : ∀ pattern s : String, ':' ∈ pattern.toList → ':' ∉ s.toList →
      Names.contains pattern s = false := fun pattern s colon plain =>
    contains_eq_false_iff.mpr fun inside => plain (inside.subset colon)
  refine ⟨contains_eq_false_iff.mpr fun inside => ?_, none _ _ (by decide) plainName,
    ⟨none _ _ (by decide) plainPackage, none _ _ (by decide) plainName⟩,
    ⟨none _ _ (by decide) plainPackage, none _ _ (by decide) plainName⟩, noMark⟩
  -- a separator has four colons, and there are only three
  have colons := inside.sublist.count_le ':'
  rw [String.toList_append, List.count_append, List.count_eq_zero.mpr plainPackage] at colons
  revert colons
  decide

/-- **A type name comes back from its DDS form** exactly when nothing else in that form reads
as a separator or as the mark. -/
theorem normalizeTypeName_ddsName_iff {package name : String}
    (plainPackage : Names.Plain package) (plainName : Names.Plain name) :
    normalizeTypeName (ddsName (Names.join package (Names.join "msg" name))) =
      Names.join package (Names.join "msg" name) ↔ ReadsBack package name := by
  rw [← String.toList_inj, toList_typeName]
  unfold normalizeTypeName Text.trimEndMatches Names.replace
  simp only [String.toList_ofList, toList_ddsName plainPackage plainName]
  rw [Text.rdropWhile_eq_iff, getLast?_restored]
  constructor
  · rintro ⟨⟨marks, same⟩, noMark⟩
    obtain ⟨⟨absent, behind⟩, noService, noAction⟩ := restored_cases plainPackage plainName same
    rw [infix_marked_iff (by decide)] at behind
    rw [infix_restored_iff (by decide) (by decide) (by decide), infix_marked_iff (by decide),
      not_or] at noService noAction
    refine ⟨contains_eq_false_iff.mpr ?_, contains_eq_false_iff.mpr behind,
      ⟨contains_eq_false_iff.mpr noService.1, contains_eq_false_iff.mpr noService.2⟩,
      ⟨contains_eq_false_iff.mpr noAction.1, contains_eq_false_iff.mpr noAction.2⟩, noMark⟩
    rw [String.toList_append]
    exact absent
  · intro reads
    have absent :
        ¬ "::msg::dds_::".toList <:+: package.toList ++ "::msg::dds_::".toList.dropLast := by
      have none := contains_eq_false_iff.mp reads.noneBefore
      rwa [String.toList_append] at none
    have behind : ¬ "::msg::dds_::".toList <:+: name.toList ++ ['_'] := by
      rw [infix_marked_iff (by decide)]
      exact contains_eq_false_iff.mp reads.noneBehind
    have others : ∀ pattern : String, pattern.toList ≠ [] → '/' ∉ pattern.toList →
        ¬ pattern.toList <:+: "msg".toList → pattern.toList.getLast? = some ':' →
        Names.contains pattern package = false ∧ Names.contains pattern name = false →
        ¬ pattern.toList <:+: package.toList ++ ("/msg/".toList ++ (name.toList ++ ['_'])) := by
      intro pattern some other apart ends free
      rw [infix_restored_iff some other apart, infix_marked_iff ends, not_or]
      exact ⟨contains_eq_false_iff.mp free.1, contains_eq_false_iff.mp free.2⟩
    refine ⟨⟨1, ?_⟩, reads.noMark⟩
    rw [Names.replaceFrom_first (by decide) absent, Names.replaceFrom_of_none behind,
      Names.replaceFrom_of_none
        (others "::srv::dds_::" (by decide) (by decide) (by decide) (by decide) reads.noService),
      Names.replaceFrom_of_none
        (others "::action::dds_::" (by decide) (by decide) (by decide) (by decide) reads.noAction)]
    simp

/-- A schema that the builder accepts is named after its package and its name. -/
theorem MessageSchemaBuilder.typeName_of_build {builder : MessageSchemaBuilder}
    {schema : MessageSchema} (built : builder.build = .ok schema) :
    schema.typeName = Names.join schema.package (Names.join "msg" schema.name) ∧
      Names.Plain schema.package ∧ Names.Plain schema.name := by
  unfold MessageSchemaBuilder.build at built
  split at built
  case h_1 package kind name parts =>
    split at built
    · cases built
    · next isMsg =>
      cases built
      have plain : ∀ part ∈ [package, kind, name], Names.Plain part := fun part member =>
        Text.without_of_mem_fields (parts ▸ member)
      refine ⟨?_, plain package (by simp), plain name (by simp)⟩
      apply Text.fields_injective '/'
      obtain rfl := not_not.mp isMsg
      have joined : Names.join package (Names.join "msg" name) =
          (String.singleton '/').intercalate [package, "msg", name] := by
        simp [Names.join, String.append_assoc]
      rw [parts, joined, Text.fields_intercalate (by simp) plain]
  case h_2 => cases built

/-! ## What a node has registered -/

/-- The schemas that publishers have been created with. -/
def created (calls : List PubCall) : List MessageSchema :=
  calls.filterMap fun
    | .createDynPub _ schema _ => some schema
    | .drop _ => none

/-- The last schema of this type name that a publisher has been created with. -/
def latest (calls : List PubCall) (typeName : String) : Option MessageSchema :=
  (created calls).reverse.find? (·.typeName = typeName)

section Run

variable (calculateHash : CalculateHash)

theorem run_append (calls : List PubCall) (call : PubCall) :
    Node.run calculateHash (calls ++ [call]) =
      (Node.run calculateHash calls).step calculateHash call := by
  rw [Node.run, List.foldl_append]
  rfl

/-- The service knows the last schema of each type name. -/
theorem schemas_run (calls : List PubCall) (typeName : String) :
    (Node.run calculateHash calls).schemas typeName =
      (latest calls typeName).map (RegisteredSchema.new calculateHash) := by
  induction calls using List.reverseRecOn with
  | nil => rfl
  | append_singleton calls call ih =>
      rw [run_append]
      cases call with
      | createDynPub topic schema built =>
          have first : (created (calls ++ [.createDynPub topic schema built])).reverse =
              schema :: (created calls).reverse := by
            simp [created]
          unfold latest
          rw [first, List.find?_cons]
          show Function.update _ schema.typeName _ typeName = _
          by_cases same : schema.typeName = typeName
          · simp [same]
          · rw [Function.update_of_ne (Ne.symm same), ih]
            simp [same, latest]
      | drop index =>
          have none : created (calls ++ [.drop index]) = created calls := by simp [created]
          unfold latest
          rw [none]
          exact ih

/-- Every publisher that is alive advertises the type of its schema. -/
theorem publishers_run {calls : List PubCall} {pub : DynPub}
    (alive : pub ∈ (Node.run calculateHash calls).publishers) :
    pub.typeInfo = typeInfoOf calculateHash pub.dynSchema ∧ pub.dynSchema ∈ created calls := by
  induction calls using List.reverseRecOn with
  | nil => cases alive
  | append_singleton calls call ih =>
      rw [run_append] at alive
      unfold created at ih ⊢
      rw [List.filterMap_append, List.mem_append]
      cases call with
      | createDynPub topic schema built =>
          simp only [Node.step, Node.createDynPub] at alive
          split at alive
          · rcases List.mem_append.mp alive with before | new
            · exact ⟨(ih before).1, .inl (ih before).2⟩
            · rw [List.mem_singleton.mp new]
              exact ⟨rfl, .inr (by simp)⟩
          · exact ⟨(ih alive).1, .inl (ih alive).2⟩
      | drop index =>
          have before := List.mem_of_mem_eraseIdx alive
          exact ⟨(ih before).1, .inl (ih before).2⟩

end Run

/-! ## Discovery -/

/-- What the client asks for is answered with the description of the publisher's schema. -/
structure Discoverable (node : Node) (pub : DynPub) : Prop where
  successful : (buildResponse node.schemas (requestFor pub.typeInfo)).successful = true
  described : (buildResponse node.schemas (requestFor pub.typeInfo)).typeDescription =
    schemaToWireTypeDescription pub.dynSchema

/-- The requests that are answered. -/
theorem successful_iff {schemas : Schemas} {request : GetTypeDescriptionRequest}
    {description : WireTypeDescription} :
    (buildResponse schemas request).successful = true ∧
      (buildResponse schemas request).typeDescription = description ↔
    ∃ registered, schemas request.typeName = some registered ∧
      (request.typeHash = "" ∨ request.typeHash = registered.typeHash) ∧
      schemaToWireTypeDescription registered.schema = description := by
  unfold buildResponse
  rcases schemas request.typeName with _ | registered
  · simp [failureResponse]
  · by_cases differs : request.typeHash ≠ "" ∧ request.typeHash ≠ registered.typeHash
    · simp [failureResponse, differs]
    · simp only [if_neg differs, true_and, Option.some.injEq, exists_eq_left']
      rw [not_and_or, not_not, not_not] at differs
      rw [and_iff_right differs]

theorem discoverable_iff {node : Node} {pub : DynPub} :
    Discoverable node pub ↔
      ∃ registered, node.schemas (requestFor pub.typeInfo).typeName = some registered ∧
        ((requestFor pub.typeInfo).typeHash = "" ∨
          (requestFor pub.typeInfo).typeHash = registered.typeHash) ∧
        schemaToWireTypeDescription registered.schema =
          schemaToWireTypeDescription pub.dynSchema := by
  rw [← successful_iff]
  constructor
  · intro found
    exact ⟨found.successful, found.described⟩
  · rintro ⟨successful, described⟩
    exact ⟨successful, described⟩

/-- The hash that a client asks for is the one that is printed for the schema. -/
theorem typeHash_requestFor (calculateHash : CalculateHash) (schema : MessageSchema) :
    (requestFor (typeInfoOf calculateHash schema)).typeHash =
      rihsString (calculateHash (toTypeDescriptionMsg schema)) := by
  have printed : ∀ value : Vector UInt8 32,
      rihsString value = (TypeHash.mk 1 value).toRihsString false := fun _ => rfl
  unfold requestFor typeInfoOf
  dsimp only
  rw [printed, fromRihsString_toRihsString rfl, Option.getD_some]

theorem schemaToWire_inj {schema other : MessageSchema} :
    schemaToWireTypeDescription schema = schemaToWireTypeDescription other ↔
      toTypeDescriptionMsg schema = toTypeDescriptionMsg other := by
  constructor
  · intro same
    rw [← wireToSchema_schemaToWire, same, wireToSchema_schemaToWire]
  · intro same
    unfold schemaToWireTypeDescription
    rw [same]

/-- **A dynamic publisher can be discovered** exactly when its type name survives the way to
the DDS name and back, and the last schema registered under that name has its description. -/
theorem dynPub_discoverable_iff (calculateHash : CalculateHash) (calls : List PubCall)
    (accepted : ∀ schema ∈ created calls, ∃ builder : MessageSchemaBuilder,
      builder.build = .ok schema)
    {pub : DynPub} (alive : pub ∈ (Node.run calculateHash calls).publishers) :
    Discoverable (Node.run calculateHash calls) pub ↔
      ReadsBack pub.dynSchema.package pub.dynSchema.name ∧
        ∃ last, latest calls pub.dynSchema.typeName = some last ∧
          toTypeDescriptionMsg last = toTypeDescriptionMsg pub.dynSchema := by
  obtain ⟨advertised, among⟩ := publishers_run calculateHash alive
  obtain ⟨builder, built⟩ := accepted pub.dynSchema among
  obtain ⟨named, plainPackage, plainName⟩ := builder.typeName_of_build built
  have readsBack := normalizeTypeName_ddsName_iff plainPackage plainName
  rw [← named] at readsBack
  have asked : (requestFor pub.typeInfo).typeName =
      normalizeTypeName (ddsName pub.dynSchema.typeName) := by
    rw [advertised]
    rfl
  have hash : (requestFor pub.typeInfo).typeHash =
      rihsString (calculateHash (toTypeDescriptionMsg pub.dynSchema)) := by
    rw [advertised, typeHash_requestFor]
  rw [discoverable_iff, schemas_run, asked, hash]
  constructor
  · rintro ⟨registered, found, -, described⟩
    obtain ⟨last, isLast, rfl⟩ := Option.map_eq_some_iff.mp found
    have same := schemaToWire_inj.mp described
    -- the description holds the type name, so it was found under the publisher's own
    have lastName : last.typeName = normalizeTypeName (ddsName pub.dynSchema.typeName) := by
      simpa using List.find?_some isLast
    have sameName : last.typeName = pub.dynSchema.typeName :=
      congrArg (·.typeDescription.typeName) same
    rw [lastName] at sameName
    rw [sameName] at isLast
    exact ⟨readsBack.mp sameName, last, isLast, same⟩
  · rintro ⟨reads, last, isLast, same⟩
    rw [readsBack.mpr reads, isLast]
    refine ⟨_, rfl, .inr ?_, schemaToWire_inj.mpr same⟩
    rw [← same]
    rfl

/-! ### Two versions of a message -/

/-- The message with one field. -/
def sampleSchema : MessageSchema :=
  { typeName := "demo_msgs/msg/Sample", package := "demo_msgs", name := "Sample"
    fields := [⟨"value", .int32, none⟩] }

/-- A later version with another one. -/
def stampedSampleSchema : MessageSchema :=
  { sampleSchema with fields := [⟨"value", .int32, none⟩, ⟨"stamp", .int64, none⟩] }

theorem sampleSchema_accepted : ∃ builder : MessageSchemaBuilder,
    builder.build = .ok sampleSchema :=
  ⟨⟨"demo_msgs/msg/Sample", sampleSchema.fields, none⟩, by rfl⟩

theorem stampedSampleSchema_accepted : ∃ builder : MessageSchemaBuilder,
    builder.build = .ok stampedSampleSchema :=
  ⟨⟨"demo_msgs/msg/Sample", stampedSampleSchema.fields, none⟩, by rfl⟩

/-- The publisher of a sample is found, also when it is not the only one. -/
theorem dynPub_discoverable_iff_sample :
    ∃ pub ∈ (Node.run (fun _ => .replicate 32 0) [.createDynPub "a" sampleSchema true,
      .createDynPub "b" sampleSchema true, .drop 1]).publishers,
      Discoverable (Node.run (fun _ => .replicate 32 0) [.createDynPub "a" sampleSchema true,
        .createDynPub "b" sampleSchema true, .drop 1]) pub := by
  refine ⟨⟨"a", typeInfoOf _ sampleSchema, sampleSchema⟩, List.mem_singleton.mpr rfl, ?_⟩
  refine (dynPub_discoverable_iff _ _ ?_ (List.mem_singleton.mpr rfl)).mpr
    ⟨readsBack_of_no_colon (by decide) (by decide) (by decide), sampleSchema, rfl, rfl⟩
  intro schema among
  have same : schema = sampleSchema := by simpa [created] using among
  exact same ▸ sampleSchema_accepted

/-- The publisher of the first version cannot be discovered once there is one of the second. -/
theorem dynPub_overwritten :
    (∃ builder : MessageSchemaBuilder, builder.build = .ok sampleSchema) ∧
      (∃ builder : MessageSchemaBuilder, builder.build = .ok stampedSampleSchema) ∧
      ∀ calculateHash : CalculateHash,
        ∃ pub ∈ (Node.run calculateHash [.createDynPub "a" sampleSchema true,
          .createDynPub "b" stampedSampleSchema true]).publishers,
          ¬ Discoverable (Node.run calculateHash [.createDynPub "a" sampleSchema true,
            .createDynPub "b" stampedSampleSchema true]) pub := by
  refine ⟨sampleSchema_accepted, stampedSampleSchema_accepted, fun calculateHash => ?_⟩
  refine ⟨⟨"a", typeInfoOf calculateHash sampleSchema, sampleSchema⟩, List.mem_cons_self, ?_⟩
  intro discoverable
  obtain ⟨registered, found, -, same⟩ := discoverable_iff.mp discoverable
  have asked : (requestFor (typeInfoOf calculateHash sampleSchema)).typeName =
      "demo_msgs/msg/Sample" := by
    show normalizeTypeName (ddsName "demo_msgs/msg/Sample") = _
    decide +kernel
  rw [asked, schemas_run] at found
  obtain ⟨last, isLast, rfl⟩ := Option.map_eq_some_iff.mp found
  have second : latest [.createDynPub "a" sampleSchema true,
      .createDynPub "b" stampedSampleSchema true] "demo_msgs/msg/Sample" =
        some stampedSampleSchema := by rfl
  rw [second, Option.some.injEq] at isLast
  subst isLast
  have lengths : 2 = 1 :=
    congrArg (·.typeDescription.fields.length) (schemaToWire_inj.mp same)
  cases lengths

end RosZ.Dynamic
