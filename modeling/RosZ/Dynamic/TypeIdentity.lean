import RosZ.Dynamic.Discovery
import RosZ.Dynamic.RoundTrip
import RosZ.Schema.Hash
import RosZ.Protocol.TopicKey

/-!
# Types that are told apart

A dynamic publisher or subscription advertises the name of its type and a digest of its
description, and both are part of its topic key.  Default values and type hashes inside a schema
are not described, and the decoder does not look at them either (`deserializeCdr_plain`).  So
endpoints with one topic key agree on how every message is encoded: `dynTopicKey_eq_iff` says
which endpoints these are.

The digest of two descriptions may be the same only if SHA-256 collides on the two JSON texts
(`Suited`).
-/

namespace RosZ.Dynamic

open RosZ.Schema RosZ.Protocol RosZ.Cdr Wire

/-! ## Decoding under plain schemas -/

mutual

/-- The value without the default values and type hashes of the schemas in it. -/
def DynamicValue.plain : DynamicValue → DynamicValue
  | .message m => .message m.plain
  | .array vs => .array (plainAll vs)
  | v => v
termination_by structural v => v

def plainAll : List DynamicValue → List DynamicValue
  | [] => []
  | v :: rest => v.plain :: plainAll rest
termination_by structural vs => vs

def DynamicMessage.plain : DynamicMessage → DynamicMessage
  | ⟨schema, values⟩ => ⟨schema.plain, plainAll values⟩
termination_by structural m => m

end

theorem plainAll_eq_map : ∀ vs : List DynamicValue, plainAll vs = vs.map DynamicValue.plain
  | [] => rfl
  | v :: rest => congrArg (v.plain :: ·) (plainAll_eq_map rest)

/-- A counted loop over a changed element. -/
theorem readMany_map {ε σ α β : Type} (f : α → β) (read : EStateM ε σ α) (count : ℕ) :
    readMany (f <$> read) count = List.map f <$> readMany read count := by
  induction count with
  | zero => simp [readMany]
  | succ count ih => simp [readMany, ih]

theorem readMany_plain (read : DecodeM DynamicValue) (count : ℕ) :
    (do return DynamicValue.array (← readMany (DynamicValue.plain <$> read) count)) =
      DynamicValue.plain <$> (do return DynamicValue.array (← readMany read count)) := by
  simp [readMany_map, DynamicValue.plain, plainAll_eq_map]

theorem FieldType.plain_eq_uint8 {t : FieldType} : t.plain = .uint8 ↔ t = .uint8 := by
  cases t <;> simp [FieldType.plain]

theorem deserializeSequence_plain {inner : FieldType}
    (same : deserializeValue inner.plain = DynamicValue.plain <$> deserializeValue inner) :
    deserializeValue (.sequence inner.plain) =
      DynamicValue.plain <$> deserializeValue (.sequence inner) := by
  by_cases octets : inner = .uint8
  · subst octets
    simp [FieldType.plain, deserializeValue, DynamicValue.plain]
  · rw [deserializeValue_sequence octets,
      deserializeValue_sequence (mt FieldType.plain_eq_uint8.mp octets), same]
    simp only [readMany_plain, map_bind]

mutual

/-- The decoder does not look at default values and type hashes. -/
theorem deserializeValue_plain : ∀ t : FieldType,
    deserializeValue t.plain = DynamicValue.plain <$> deserializeValue t
  | .array inner len => by
      simp only [FieldType.plain, deserializeValue, deserializeValue_plain inner]
      exact readMany_plain _ len
  | .sequence inner => deserializeSequence_plain (deserializeValue_plain inner)
  | .boundedSequence inner max => by
      simp only [FieldType.plain, deserializeValue_bounded]
      exact deserializeSequence_plain (deserializeValue_plain inner)
  | .message schema => by
      simp only [FieldType.plain, deserializeValue, deserializeMessage_plain schema]
      simp [DynamicValue.plain]
  | .boundedString _ => by simp [FieldType.plain, deserializeValue, DynamicValue.plain]
  | .bool | .int8 | .int16 | .int32 | .int64 | .uint8 | .uint16 | .uint32 | .uint64
  | .float32 | .float64 | .string => by
      simp [FieldType.plain, deserializeValue, DynamicValue.plain]

theorem deserializeFields_plain : ∀ fields : List FieldSchema,
    deserializeFields (plainFields fields) = plainAll <$> deserializeFields fields
  | [] => by simp [plainFields, deserializeFields, plainAll]
  | field :: fields => by
      simp only [plainFields, deserializeFields, deserializeField_plain field,
        deserializeFields_plain fields]
      simp [plainAll]

theorem deserializeField_plain : ∀ field : FieldSchema,
    deserializeField field.plain = DynamicValue.plain <$> deserializeField field
  | ⟨_, fieldType, _⟩ => deserializeValue_plain fieldType

theorem deserializeMessage_plain : ∀ schema : MessageSchema,
    deserializeMessage schema.plain = DynamicMessage.plain <$> deserializeMessage schema
  | ⟨_, _, _, fields, _⟩ => by
      simp only [MessageSchema.plain, deserializeMessage, deserializeFields_plain fields]
      simp [DynamicMessage.plain, DynamicMessage.fromValues, MessageSchema.plain]

end

/-- What is decoded under a schema is decoded under its plain form. -/
theorem deserializeCdr_plain (data : List UInt8) (schema : MessageSchema) :
    deserializeCdr data schema.plain = (deserializeCdr data schema).map DynamicMessage.plain := by
  unfold deserializeCdr
  split_ifs
  · rfl
  · rfl
  · rw [deserializeMessage_plain]
    simp only [EStateM.run, Functor.map, EStateM.map]
    cases deserializeMessage schema (CdrReader.new (data.drop 4)) with
    | ok msg r => rfl
    | error e r => rfl

/-- Schemas that agree up to default values and type hashes decode alike. -/
theorem exists_decoded_of_plain_eq {data : List UInt8} {schema other : MessageSchema}
    {msg : DynamicMessage} (same : schema.plain = other.plain)
    (decoded : deserializeCdr data schema = .ok msg) :
    ∃ msg', deserializeCdr data other = .ok msg' ∧ msg'.plain = msg.plain := by
  have plain := deserializeCdr_plain data other
  rw [← same, deserializeCdr_plain, decoded] at plain
  cases decodedOther : deserializeCdr data other with
  | error e =>
      rw [decodedOther] at plain
      cases plain
  | ok msg' =>
      rw [decodedOther] at plain
      exact ⟨msg', rfl, (Except.ok.inj plain).symm⟩

/-! ## What is described -/

mutual

/-- Default values and type hashes do not show in a collection. -/
theorem collectReferencedTypes_plain : ∀ (schema : MessageSchema) (collected : Collected),
    collectReferencedTypes schema.plain collected = collectReferencedTypes schema collected
  | ⟨_, _, _, fields, _⟩, collected => collectFields_plain fields collected
termination_by structural schema => schema

theorem collectFields_plain : ∀ (fields : List FieldSchema) (collected : Collected),
    collectFields (plainFields fields) collected = collectFields fields collected
  | [], _ => rfl
  | field :: rest, collected => by
      rw [plainFields, collectFields, collectFields, collectField_plain field,
        collectFields_plain rest]
termination_by structural fields => fields

theorem collectField_plain : ∀ (field : FieldSchema) (collected : Collected),
    collectField field.plain collected = collectField field collected
  | ⟨_, fieldType, _⟩, collected => collectFieldTypeReferences_plain fieldType collected
termination_by structural field => field

theorem collectFieldTypeReferences_plain : ∀ (t : FieldType) (collected : Collected),
    collectFieldTypeReferences t.plain collected = collectFieldTypeReferences t collected
  | .message schema, collected => by
      simp only [FieldType.plain, collectFieldTypeReferences, schema.typeName_plain,
        toTypeDescription_plain, collectReferencedTypes_plain schema]
  | .array inner _, collected => collectFieldTypeReferences_plain inner collected
  | .sequence inner, collected => collectFieldTypeReferences_plain inner collected
  | .boundedSequence inner _, collected => collectFieldTypeReferences_plain inner collected
  | .boundedString _, _ => rfl
  | .bool, _ | .int8, _ | .int16, _ | .int32, _ | .int64, _ | .uint8, _ | .uint16, _
  | .uint32, _ | .uint64, _ | .float32, _ | .float64, _ | .string, _ => rfl
termination_by structural t => t

end

theorem toTypeDescriptionMsg_plain (schema : MessageSchema) :
    toTypeDescriptionMsg schema.plain = toTypeDescriptionMsg schema := by
  unfold toTypeDescriptionMsg
  rw [toTypeDescription_plain, collectReferencedTypes_plain]

/-- A describable schema comes back from its description. -/
theorem exists_restored {schema : MessageSchema} (coherent : schema.Coherent)
    (describable : schema.Describable) :
    ∃ restored, typeDescriptionMsgToSchema (toTypeDescriptionMsg schema) = .ok restored ∧
      restored.plain = schema.plain := by
  obtain ⟨added, describes⟩ := exists_describes coherent
  have first : ∃ typeMap, (toTypeDescriptionMsg schema).referencedTypeDescriptions.mapM
      typeDescriptionToSchemaPartial = .ok typeMap := by
    apply Fallible.exists_mapM_ok
    intro td member
    obtain ⟨a, among, rfl⟩ := (describes.mem_iff td).mp member
    obtain ⟨⟨kind, parts⟩, -⟩ := describable a (describes.contains among)
    exact ⟨_, typeDescriptionToSchemaPartial_of_parts parts⟩
  obtain ⟨resolved, finished⟩ := Worklist.run_finishes monotonic_full
    (exists_ready describable describes) (Nat.le_refl _)
    (Worklist.resolving_start describes.distinct)
  have resolves := resolves_of_resolveReferenced describes finished
  have root : RestoresSchema resolved schema := (restoresSchema_iff resolved schema).mpr
    ⟨describable schema .refl, knows_of_describable coherent describable describes resolves .refl⟩
  have back : RoundTrips schema :=
    (roundTrips_iff_exists schema).mpr ⟨first, resolved, finished, root⟩
  rwa [RoundTrips, wireToSchema_schemaToWire] at back

/-- Describable schemas are described alike exactly if they agree up to default values and type
hashes. -/
theorem toTypeDescriptionMsg_eq_iff {a b : MessageSchema} (coherent : a.Coherent)
    (coherent' : b.Coherent) (describable : a.Describable) (describable' : b.Describable) :
    toTypeDescriptionMsg a = toTypeDescriptionMsg b ↔ a.plain = b.plain := by
  constructor
  · intro same
    obtain ⟨restored, converted, plain⟩ := exists_restored coherent describable
    obtain ⟨restored', converted', plain'⟩ := exists_restored coherent' describable'
    rw [same, converted', Except.ok.injEq] at converted
    rw [← plain, ← plain', converted]
  · intro same
    rw [← toTypeDescriptionMsg_plain a, same, toTypeDescriptionMsg_plain]

/-- Descriptions of schemas have no default values. -/
theorem withoutDefaults_toTypeDescription (schema : MessageSchema) :
    (toTypeDescription schema).withoutDefaults = toTypeDescription schema := by
  unfold TypeDescription.withoutDefaults toTypeDescription
  rw [List.map_map]
  rfl

theorem withoutDefaults_toTypeDescriptionMsg (schema : MessageSchema) :
    (toTypeDescriptionMsg schema).withoutDefaults = toTypeDescriptionMsg schema := by
  obtain ⟨added, gathers⟩ := gathers_collectReferencedTypes schema ⟨[], []⟩
  have each : ∀ td ∈ (toTypeDescriptionMsg schema).referencedTypeDescriptions,
      td.withoutDefaults = td := by
    intro td member
    rw [toTypeDescriptionMsg, List.mem_insertionSort, gathers.referenced] at member
    obtain ⟨nested, -, rfl⟩ := List.mem_map.mp member
    exact withoutDefaults_toTypeDescription nested
  unfold TypeDescriptionMsg.withoutDefaults
  rw [List.map_congr_left each, List.map_id']
  exact congrArg (TypeDescriptionMsg.mk · _) (withoutDefaults_toTypeDescription schema)

/-! ## Digests -/

section Digest

variable {ε : Type} (toString : Json.Value → Except ε String)
  (sha256 : List UInt8 → Vector UInt8 32)

/-- `calculate_hash`; where it panics, there is no hash. -/
def digest : CalculateHash := fun msg =>
  (Schema.calculateHash toString sha256 msg).getD (.replicate 32 0)

/-- The text that is hashed for a schema. -/
def hashedText (schema : MessageSchema) : Except ε String :=
  toRos2Json toString (toHashVersion (toTypeDescriptionMsg schema)).serialize

/-- Schemas that applications may use together: each can be described, and SHA-256 does not
collide on the texts of two of them. -/
structure Suited (schemas : Set MessageSchema) : Prop where
  standard : StandardJson toString
  built : ∀ schema ∈ schemas, ∃ builder : MessageSchemaBuilder, builder.build = .ok schema
  coherent : ∀ schema ∈ schemas, schema.Coherent
  describable : ∀ schema ∈ schemas, schema.Describable
  spaceless : ∀ schema ∈ schemas, (toTypeDescriptionMsg schema).Spaceless
  percentless : ∀ schema ∈ schemas, Text.Without '%' schema.typeName
  apart : ∀ a ∈ schemas, ∀ b ∈ schemas, ∀ json json',
    hashedText toString a = .ok json → hashedText toString b = .ok json' →
      sha256 (utf8Bytes json) = sha256 (utf8Bytes json') → json = json'

variable {toString sha256} {schemas : Set MessageSchema}

theorem digest_eq {msg : TypeDescriptionMsg} {json : String}
    (written : toRos2Json toString (toHashVersion msg).serialize = .ok json) :
    digest toString sha256 msg = sha256 (utf8Bytes json) := by
  unfold digest Schema.calculateHash
  rw [written]
  rfl

theorem exists_hashedText (standard : StandardJson toString) (schema : MessageSchema) :
    ∃ json, hashedText toString schema = .ok json := by
  obtain ⟨text, written, -⟩ :=
    standard (toHashVersion (toTypeDescriptionMsg schema)).serialize
  unfold hashedText toRos2Json
  rw [written]
  exact ⟨_, rfl⟩

/-- A digest tells the descriptions apart. -/
theorem Suited.digest_eq_iff (suited : Suited toString sha256 schemas) {a b : MessageSchema}
    (among : a ∈ schemas) (among' : b ∈ schemas) :
    digest toString sha256 (toTypeDescriptionMsg a) =
        digest toString sha256 (toTypeDescriptionMsg b) ↔
      toTypeDescriptionMsg a = toTypeDescriptionMsg b := by
  obtain ⟨json, written⟩ := exists_hashedText suited.standard a
  obtain ⟨json', written'⟩ := exists_hashedText suited.standard b
  rw [digest_eq written, digest_eq written']
  constructor
  · intro same
    have texts := suited.apart a among b among' json json' written written' same
    have values := (toRos2Json_eq_iff suited.standard
      (spaceless_serialize (suited.spaceless a among))
      (spaceless_serialize (suited.spaceless b among'))).mp
        (written.trans ((congrArg Except.ok texts).trans written'.symm))
    have stripped :=
      toHashVersion_eq_iff.mp (TypeDescriptionMsgForHash.serialize_injective values)
    rwa [withoutDefaults_toTypeDescriptionMsg, withoutDefaults_toTypeDescriptionMsg] at stripped
  · intro same
    unfold hashedText at written
    rw [same] at written
    rw [Except.ok.inj (written.symm.trans written')]

theorem name_typeInfoOf (calculateHash : CalculateHash) (schema : MessageSchema) :
    (typeInfoOf calculateHash schema).name = ddsName schema.typeName :=
  rfl

theorem rihsString_eq (value : Vector UInt8 32) :
    rihsString value = (TypeHash.mk 1 value).toRihsString false :=
  rfl

theorem rihsString_injective : Function.Injective rihsString := by
  intro value value' same
  rw [rihsString_eq, rihsString_eq] at same
  exact congrArg TypeHash.value (toRihsString_injective same)

/-- The type that is advertised has the digest of the description. -/
theorem hash_typeInfoOf (calculateHash : CalculateHash) (schema : MessageSchema) :
    (typeInfoOf calculateHash schema).hash =
      ⟨1, calculateHash (toTypeDescriptionMsg schema)⟩ := by
  unfold typeInfoOf
  dsimp only
  rw [rihsString_eq, fromRihsString_toRihsString rfl, Option.getD_some]

/-- **Types are advertised alike** exactly if they agree up to default values and type hashes. -/
theorem Suited.typeInfoOf_eq_iff (suited : Suited toString sha256 schemas) {a b : MessageSchema}
    (among : a ∈ schemas) (among' : b ∈ schemas) :
    typeInfoOf (digest toString sha256) a = typeInfoOf (digest toString sha256) b ↔
      a.plain = b.plain := by
  rw [← toTypeDescriptionMsg_eq_iff (suited.coherent a among) (suited.coherent b among')
    (suited.describable a among) (suited.describable b among')]
  constructor
  · intro same
    have hashes := congrArg TypeInfo.hash same
    rw [hash_typeInfoOf, hash_typeInfoOf, TypeHash.mk.injEq] at hashes
    exact (suited.digest_eq_iff among among').mp hashes.2
  · intro same
    have name : a.typeName = b.typeName :=
      congrArg (fun msg => msg.typeDescription.typeName) same
    unfold typeInfoOf
    rw [same, name]

end Digest

/-! ## Topic keys -/

section TopicKey

open RmwZenoh Text

variable {ε ζ κ : Type} {toString : Json.Value → Except ε String}
  {sha256 : List UInt8 → Vector UInt8 32} {schemas : Set MessageSchema}

/-- `with_dyn_schema`: a type that has been set already stays. -/
def withDynSchema (calculateHash : CalculateHash) (entity : EndpointEntity ζ)
    (schema : MessageSchema) : EndpointEntity ζ :=
  match entity.typeInfo with
  | none => { entity with typeInfo := some (typeInfoOf calculateHash schema) }
  | some _ => entity

theorem without_ddsName {schema : MessageSchema} {c : Char} (mark : c = '/' ∨ c = '%')
    (built : ∃ builder : MessageSchemaBuilder, builder.build = .ok schema)
    (plain : Without '%' schema.typeName) : Without c (ddsName schema.typeName) := by
  obtain ⟨builder, built⟩ := built
  obtain ⟨named, plainPackage, plainName⟩ := builder.typeName_of_build built
  unfold Without at plain ⊢
  rw [named, toList_typeName] at plain
  rw [named, toList_ddsName plainPackage plainName]
  simp only [List.mem_append, not_or] at plain ⊢
  rcases mark with rfl | rfl
  · exact ⟨plainPackage, by decide, plainName, by decide⟩
  · exact ⟨plain.1, by decide, plain.2.2, by decide⟩

theorem Suited.chunkNamed (suited : Suited toString sha256 schemas) {schema : MessageSchema}
    (among : schema ∈ schemas) :
    ChunkNamed (some (typeInfoOf (digest toString sha256) schema)) := by
  intro info same
  rw [← Option.some.inj same, name_typeInfoOf]
  exact ⟨without_ddsName (.inl rfl) (suited.built schema among) (suited.percentless schema among),
    without_ddsName (.inr rfl) (suited.built schema among) (suited.percentless schema among)⟩

variable [KeyExpr κ] [LawfulKeyExpr κ]

theorem topicKey_eq_iff_keyText {entity entity' : EndpointEntity ζ} {key key' : κ}
    (made : topicKeyExpr false entity = some key)
    (made' : topicKeyExpr false entity' = some key') :
    key = key' ↔ keyText false entity = keyText false entity' := by
  constructor
  · rintro rfl
    rw [← LawfulKeyExpr.asStr_of_tryFrom made, ← LawfulKeyExpr.asStr_of_tryFrom made']
  · intro same
    unfold topicKeyExpr at made made'
    rw [same] at made
    exact Option.some.inj (made.symm.trans made')

/-- The key says which of these schemas an endpoint has, default values and type hashes aside. -/
theorem Suited.plain_eq_of_key (suited : Suited toString sha256 schemas) {a b : MessageSchema}
    (among : a ∈ schemas) (among' : b ∈ schemas) {entity entity' : EndpointEntity ζ} {key : κ}
    (typed : entity.typeInfo = some (typeInfoOf (digest toString sha256) a))
    (typed' : entity'.typeInfo = some (typeInfoOf (digest toString sha256) b))
    (made : topicKeyExpr false entity = some key) (made' : topicKeyExpr false entity' = some key) :
    a.plain = b.plain := by
  have same := (keyText_eq_iff (typed ▸ suited.chunkNamed among)
    (typed' ▸ suited.chunkNamed among')).mp ((topicKey_eq_iff_keyText made made').mp rfl)
  rw [typed, typed', Option.some.injEq, suited.typeInfoOf_eq_iff among among'] at same
  exact same.2.2

/-- SHA-256 of the text that is hashed for `sampleSchema`. -/
def sampleDigest : Vector UInt8 32 :=
  ⟨#[209, 178, 43, 163, 237, 163, 28, 198, 32, 50, 28, 115, 98, 143, 217, 41, 71, 0, 176, 115, 39,
    224, 7, 141, 14, 80, 137, 212, 54, 213, 235, 113], rfl⟩

/-- The message with a default value for its field. -/
def presetSchema : MessageSchema :=
  { sampleSchema with fields := [⟨"value", .int32, some (.int32 7)⟩] }

theorem contains_of_no_children {schema inner : MessageSchema} (none : schema.children = [])
    (contains : schema.Contains inner) : inner = schema := by
  induction contains with
  | refl => rfl
  | tail _ nested ih =>
      rw [ih, none] at nested
      cases nested

theorem suited_samples :
    Suited compactJson (fun _ => sampleDigest) {sampleSchema, presetSchema} := by
  have parts : Text.fields '/' "demo_msgs/msg/Sample" = ["demo_msgs", "msg", "Sample"] := by
    decide +kernel
  have only : ∀ schema ∈ ({sampleSchema, presetSchema} : Set MessageSchema),
      ∀ inner, schema.Contains inner → inner = schema := by
    rintro schema (rfl | rfl) inner contains
    · exact contains_of_no_children rfl contains
    · exact contains_of_no_children rfl contains
  have described : ∀ schema ∈ ({sampleSchema, presetSchema} : Set MessageSchema),
      toTypeDescriptionMsg schema = toTypeDescriptionMsg sampleSchema := by
    rintro schema (rfl | rfl)
    · rfl
    · rw [← toTypeDescriptionMsg_plain presetSchema, ← toTypeDescriptionMsg_plain sampleSchema]
      rfl
  exact {
    standard := standardJson_compactJson
    built := by
      rintro schema (rfl | rfl)
      · exact ⟨⟨"demo_msgs/msg/Sample", sampleSchema.fields, none⟩, by rfl⟩
      · exact ⟨⟨"demo_msgs/msg/Sample", presetSchema.fields, none⟩, by rfl⟩
    coherent := fun schema among a b containsA containsB _ => by
      rw [only schema among a containsA, only schema among b containsB]
    describable := fun schema among inner contains => by
      rw [only schema among inner contains]
      rcases among with rfl | rfl
      · exact ⟨⟨"msg", parts⟩, by simp [sampleSchema, FieldType.flat]⟩
      · exact ⟨⟨"msg", parts⟩, by simp [presetSchema, FieldType.flat]⟩
    spaceless := fun schema among => by
      rw [described schema among]
      decide
    percentless := by
      rintro schema (rfl | rfl)
      · decide
      · decide
    apart := fun a among b among' json json' written written' _ => by
      unfold hashedText at written written'
      rw [described a among] at written
      rw [described b among'] at written'
      exact Except.ok.inj (written.symm.trans written') }

/-- The digest, as far as these schemas are concerned. -/
abbrev sampleHash : CalculateHash := digest compactJson fun _ => sampleDigest

def sampleTalker : EndpointEntity SessionId :=
  withDynSchema sampleHash { demoTalker with typeInfo := none } sampleSchema

def presetListener : EndpointEntity SessionId :=
  withDynSchema sampleHash
    { demoTalker with typeInfo := none, kind := .subscription, topic := "ns/chatter/" } presetSchema

end TopicKey

end RosZ.Dynamic
