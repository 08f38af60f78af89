import RosZ.Cdr.Primitives
import RosZ.Lib.Json
import RosZ.Schema.TypeDescription

/-!
# RIHS01 type hashes

`ros-z-schema/src/hash.rs` and the hash version of a description in `type_description.rs`:
a description without its default values is written as JSON, spaces are put behind colons and
commas, and the text is hashed.

The pass that puts in the spaces looks at characters and not at tokens, so it also reaches
into names.  It only ever adds spaces: where the compact text has none, taking out all spaces
undoes it (`filter_spaced`).  The names of a description are the only strings in its JSON, so
that `calculateHash_eq_iff` follows from the grammar of JSON.

## Design notes

`serde_json::to_string` and SHA-256 are parameters.  Of the first, `StandardJson` says that it
writes standard JSON without white space between tokens, however it escapes; the second is a
function to any type of digests.  A derived `Serialize` is the `Value` that it presents.
-/

namespace RosZ.Schema

open Cdr Json

/-! ## The hash version -/

/-- Field description for hash computation (excludes default_value). -/
structure FieldDescriptionForHash where
  name : String
  fieldType : FieldTypeDescription

/-- Type description for hash computation. -/
structure TypeDescriptionForHash where
  typeName : String
  fields : List FieldDescriptionForHash

/-- TypeDescriptionMsg for hash computation. -/
structure TypeDescriptionMsgForHash where
  typeDescription : TypeDescriptionForHash
  referencedTypeDescriptions : List TypeDescriptionForHash

def FieldDescription.forHash (f : FieldDescription) : FieldDescriptionForHash where
  name := f.name
  fieldType := f.fieldType

/-- What `to_hash_version` does with the main type and with each referenced one. -/
def TypeDescription.forHash (td : TypeDescription) : TypeDescriptionForHash where
  typeName := td.typeName
  fields := td.fields.map FieldDescription.forHash

/-- Convert TypeDescriptionMsg to hash-computation version (excludes default_value). -/
def toHashVersion (msg : TypeDescriptionMsg) : TypeDescriptionMsgForHash where
  typeDescription := msg.typeDescription.forHash
  referencedTypeDescriptions := msg.referencedTypeDescriptions.map TypeDescription.forHash

/-- The description with every default value empty. -/
def FieldDescription.withoutDefault (f : FieldDescription) : FieldDescription :=
  { f with defaultValue := "" }

def TypeDescription.withoutDefaults (td : TypeDescription) : TypeDescription :=
  { td with fields := td.fields.map FieldDescription.withoutDefault }

def TypeDescriptionMsg.withoutDefaults (msg : TypeDescriptionMsg) : TypeDescriptionMsg where
  typeDescription := msg.typeDescription.withoutDefaults
  referencedTypeDescriptions := msg.referencedTypeDescriptions.map TypeDescription.withoutDefaults

/-- A description of which this is the hash version. -/
def TypeDescriptionForHash.describe (td : TypeDescriptionForHash) : TypeDescription where
  typeName := td.typeName
  fields := td.fields.map fun f => ⟨f.name, f.fieldType, ""⟩

def TypeDescriptionMsgForHash.describe (msg : TypeDescriptionMsgForHash) : TypeDescriptionMsg where
  typeDescription := msg.typeDescription.describe
  referencedTypeDescriptions := msg.referencedTypeDescriptions.map TypeDescriptionForHash.describe

theorem TypeDescription.describe_forHash (td : TypeDescription) :
    td.forHash.describe = td.withoutDefaults := by
  simp only [forHash, TypeDescriptionForHash.describe, withoutDefaults, List.map_map]
  rfl

theorem TypeDescription.forHash_withoutDefaults (td : TypeDescription) :
    td.withoutDefaults.forHash = td.forHash := by
  simp only [forHash, withoutDefaults, List.map_map]
  rfl

theorem describe_toHashVersion (msg : TypeDescriptionMsg) :
    (toHashVersion msg).describe = msg.withoutDefaults := by
  simp only [toHashVersion, TypeDescriptionMsgForHash.describe, TypeDescriptionMsg.withoutDefaults,
    List.map_map, Function.comp_def, TypeDescription.describe_forHash]

theorem toHashVersion_withoutDefaults (msg : TypeDescriptionMsg) :
    toHashVersion msg.withoutDefaults = toHashVersion msg := by
  simp only [toHashVersion, TypeDescriptionMsg.withoutDefaults, List.map_map, Function.comp_def,
    TypeDescription.forHash_withoutDefaults]

/-- The hash version is what is left without the default values. -/
theorem toHashVersion_eq_iff {m₁ m₂ : TypeDescriptionMsg} :
    toHashVersion m₁ = toHashVersion m₂ ↔ m₁.withoutDefaults = m₂.withoutDefaults := by
  constructor
  · intro same
    rw [← describe_toHashVersion, same, describe_toHashVersion]
  · intro same
    rw [← toHashVersion_withoutDefaults, same, toHashVersion_withoutDefaults]

/-! ## Serialization -/

def FieldTypeDescription.serialize (d : FieldTypeDescription) : Value :=
  .object [("type_id", .number d.typeId.toNat), ("capacity", .number d.capacity),
    ("string_capacity", .number d.stringCapacity), ("nested_type_name", .string d.nestedTypeName)]

def FieldDescriptionForHash.serialize (f : FieldDescriptionForHash) : Value :=
  .object [("name", .string f.name), ("type", f.fieldType.serialize)]

def TypeDescriptionForHash.serialize (td : TypeDescriptionForHash) : Value :=
  .object [("type_name", .string td.typeName),
    ("fields", .array (td.fields.map FieldDescriptionForHash.serialize))]

def TypeDescriptionMsgForHash.serialize (msg : TypeDescriptionMsgForHash) : Value :=
  .object [("type_description", msg.typeDescription.serialize),
    ("referenced_type_descriptions",
      .array (msg.referencedTypeDescriptions.map TypeDescriptionForHash.serialize))]

theorem FieldTypeDescription.serialize_injective : Function.Injective serialize := by
  intro ⟨typeId, _, _, _⟩ ⟨typeId', _, _, _⟩ same
  simp only [serialize, Value.object.injEq, List.cons.injEq, Prod.mk.injEq, Value.number.injEq,
    Value.string.injEq, true_and, and_true] at same
  obtain ⟨id, rfl, rfl, rfl⟩ := same
  obtain rfl : typeId = typeId' := UInt8.toNat_inj.mp id
  rfl

theorem FieldDescriptionForHash.serialize_injective : Function.Injective serialize := by
  intro ⟨_, fieldType⟩ ⟨_, fieldType'⟩ same
  simp only [serialize, Value.object.injEq, List.cons.injEq, Prod.mk.injEq, Value.string.injEq,
    true_and, and_true] at same
  obtain ⟨rfl, type⟩ := same
  rw [FieldTypeDescription.serialize_injective type]

theorem TypeDescriptionForHash.serialize_injective : Function.Injective serialize := by
  intro ⟨_, fields⟩ ⟨_, fields'⟩ same
  simp only [serialize, Value.object.injEq, List.cons.injEq, Prod.mk.injEq, Value.string.injEq,
    Value.array.injEq, true_and, and_true] at same
  obtain ⟨rfl, fields⟩ := same
  rw [List.map_injective_iff.mpr FieldDescriptionForHash.serialize_injective fields]

theorem TypeDescriptionMsgForHash.serialize_injective : Function.Injective serialize := by
  intro ⟨_, referenced⟩ ⟨_, referenced'⟩ same
  simp only [serialize, Value.object.injEq, List.cons.injEq, Prod.mk.injEq, Value.array.injEq,
    true_and, and_true] at same
  obtain ⟨main, referenced⟩ := same
  rw [TypeDescriptionForHash.serialize_injective main,
    List.map_injective_iff.mpr TypeDescriptionForHash.serialize_injective referenced]

/-! ## Names without spaces -/

/-- No name in the description has a space in it. -/
def FieldDescription.Spaceless (f : FieldDescription) : Prop :=
  Text.Without ' ' f.name ∧ Text.Without ' ' f.fieldType.nestedTypeName

instance (f : FieldDescription) : Decidable f.Spaceless := inferInstanceAs (Decidable (_ ∧ _))

def TypeDescription.Spaceless (td : TypeDescription) : Prop :=
  Text.Without ' ' td.typeName ∧ ∀ f ∈ td.fields, f.Spaceless

instance (td : TypeDescription) : Decidable td.Spaceless := inferInstanceAs (Decidable (_ ∧ _))

def TypeDescriptionMsg.Spaceless (msg : TypeDescriptionMsg) : Prop :=
  msg.typeDescription.Spaceless ∧ ∀ td ∈ msg.referencedTypeDescriptions, td.Spaceless

instance (msg : TypeDescriptionMsg) : Decidable msg.Spaceless :=
  inferInstanceAs (Decidable (_ ∧ _))

theorem allSpaceless_iff {vs : List Value} : AllSpaceless vs ↔ ∀ v ∈ vs, v.Spaceless := by
  induction vs with
  | nil => simp [AllSpaceless]
  | cons v vs ih => simp [AllSpaceless, ih]

theorem spaceless_field {f : FieldDescription} (spaceless : f.Spaceless) :
    f.forHash.serialize.Spaceless := by
  simp only [FieldDescription.forHash, FieldDescriptionForHash.serialize,
    FieldTypeDescription.serialize, Value.Spaceless, MembersSpaceless]
  exact ⟨by decide, spaceless.1, by decide, ⟨by decide, trivial, by decide, trivial, by decide,
    trivial, by decide, spaceless.2, trivial⟩, trivial⟩

theorem spaceless_type {td : TypeDescription} (spaceless : td.Spaceless) :
    td.forHash.serialize.Spaceless := by
  simp only [TypeDescription.forHash, TypeDescriptionForHash.serialize, Value.Spaceless,
    MembersSpaceless, allSpaceless_iff, List.map_map, List.forall_mem_map]
  exact ⟨by decide, spaceless.1, by decide,
    fun f member => spaceless_field (spaceless.2 f member), trivial⟩

theorem spaceless_serialize {msg : TypeDescriptionMsg} (spaceless : msg.Spaceless) :
    (toHashVersion msg).serialize.Spaceless := by
  simp only [toHashVersion, TypeDescriptionMsgForHash.serialize, Value.Spaceless,
    MembersSpaceless, allSpaceless_iff, List.map_map, List.forall_mem_map]
  exact ⟨by decide, spaceless_type spaceless.1, by decide,
    fun td member => spaceless_type (spaceless.2 td member), trivial⟩

/-! ## The text that is hashed -/

/-- Add space after : or , if not already followed by a space. -/
def spaced : List Char → List Char
  | c :: next :: rest =>
      if (c = ':' ∨ c = ',') ∧ next ≠ ' ' then c :: ' ' :: spaced (next :: rest)
      else c :: spaced (next :: rest)
  | short => short

/-- The pass adds spaces and nothing else. -/
theorem filter_spaced (text : List Char) :
    (spaced text).filter (· ≠ ' ') = text.filter (· ≠ ' ') := by
  fun_induction spaced text with
  | case1 c next rest _ ih =>
      show ([c] ++ ([' '] ++ spaced (next :: rest))).filter _ = ([c] ++ (next :: rest)).filter _
      rw [List.filter_append, List.filter_append, ih, List.filter_append]
      rfl
  | case2 c next rest _ ih =>
      show ([c] ++ spaced (next :: rest)).filter _ = ([c] ++ (next :: rest)).filter _
      rw [List.filter_append, ih, List.filter_append]
  | case3 => rfl

/-- On texts without spaces it can be undone. -/
theorem spaced_inj {text text' : List Char} (spaceless : ' ' ∉ text) (spaceless' : ' ' ∉ text') :
    spaced text = spaced text' ↔ text = text' := by
  have undo : ∀ {text : List Char}, ' ' ∉ text → (spaced text).filter (· ≠ ' ') = text := by
    intro text spaceless
    rw [filter_spaced, List.filter_eq_self]
    intro c member
    rw [decide_eq_true_eq]
    rintro rfl
    exact spaceless member
  constructor
  · intro same
    rw [← undo spaceless, same, undo spaceless']
  · rintro rfl
    rfl

section Hash

variable {ε H : Type}

/-- What `serde_json::to_string` is taken for: it writes standard JSON and no white space
between tokens. -/
def StandardJson (toString : Value → Except ε String) : Prop :=
  ∀ value, ∃ text, toString value = .ok text ∧ Writes value text.toList

variable (toString : Value → Except ε String) (sha256 : List UInt8 → H)

/-- Serialize to ROS2-compatible JSON format. -/
def toRos2Json (value : Value) : Except ε String := do
  let compact ← toString value
  return String.ofList (spaced compact.toList)

/-- Calculate RIHS01 hash for a TypeDescriptionMsg; `none` where the `expect` panics. -/
def calculateHash (msg : TypeDescriptionMsg) : Option H :=
  match toRos2Json toString (toHashVersion msg).serialize with
  | .ok json => some (sha256 (utf8Bytes json))
  | .error _ => none

variable {toString sha256}

/-- The text determines the value. -/
theorem toRos2Json_eq_iff (standard : StandardJson toString) {value value' : Value}
    (spaceless : value.Spaceless) (spaceless' : value'.Spaceless) :
    toRos2Json toString value = toRos2Json toString value' ↔ value = value' := by
  constructor
  · intro same
    obtain ⟨text, written, writes⟩ := standard value
    obtain ⟨text', written', writes'⟩ := standard value'
    rw [toRos2Json, toRos2Json, written, written'] at same
    have texts : text.toList = text'.toList :=
      (spaced_inj (writes.spaceless value spaceless) (writes'.spaceless value' spaceless')).mp
        (String.ofList_inj.mp (Except.ok.inj same))
    exact (Writes.unambiguous value value' writes writes' endsNumber_nil
      endsNumber_nil (congrArg (· ++ []) texts)).1
  · rintro rfl
    rfl

/-- **The hashed JSON determines the type**: descriptions whose names have no spaces in them are
written and hashed alike exactly when they are equal apart from default values. -/
theorem calculateHash_eq_iff (standard : StandardJson toString)
    (injective : Function.Injective sha256) {m₁ m₂ : TypeDescriptionMsg}
    (spaceless₁ : m₁.Spaceless) (spaceless₂ : m₂.Spaceless) :
    (toRos2Json toString (toHashVersion m₁).serialize =
        toRos2Json toString (toHashVersion m₂).serialize ↔
      m₁.withoutDefaults = m₂.withoutDefaults) ∧
    (calculateHash toString sha256 m₁ = calculateHash toString sha256 m₂ ↔
      m₁.withoutDefaults = m₂.withoutDefaults) := by
  have texts : toRos2Json toString (toHashVersion m₁).serialize =
      toRos2Json toString (toHashVersion m₂).serialize ↔
        m₁.withoutDefaults = m₂.withoutDefaults := by
    rw [toRos2Json_eq_iff standard (spaceless_serialize spaceless₁)
      (spaceless_serialize spaceless₂), TypeDescriptionMsgForHash.serialize_injective.eq_iff,
      toHashVersion_eq_iff]
  refine ⟨texts, ?_⟩
  rw [← texts]
  obtain ⟨text, written, -⟩ := standard (toHashVersion m₁).serialize
  obtain ⟨text', written', -⟩ := standard (toHashVersion m₂).serialize
  simp only [calculateHash, toRos2Json, written, written']
  constructor
  · intro same
    exact congrArg Except.ok (utf8Bytes_injective (injective (Option.some.inj same)))
  · intro same
    exact congrArg (fun json => some (sha256 (utf8Bytes json))) (Except.ok.inj same)

end Hash

/-- The compact form is standard JSON. -/
def compactJson (value : Value) : Except Empty String := .ok (String.ofList (compact value))

theorem standardJson_compactJson : StandardJson compactJson := by
  intro value
  refine ⟨_, rfl, ?_⟩
  rw [String.toList_ofList]
  exact writes_compact value

/-- `std_msgs/msg/String` with a default for its field. -/
def stringDescription (defaultValue : String) : TypeDescriptionMsg where
  typeDescription :=
    ⟨"std_msgs/msg/String", [⟨"data", .primitive TypeId.string.single, defaultValue⟩]⟩
  referencedTypeDescriptions := []

theorem calculateHash_eq_iff_string :
    calculateHash compactJson id (stringDescription "") =
      calculateHash compactJson id (stringDescription "hello, world") :=
  (calculateHash_eq_iff standardJson_compactJson Function.injective_id (by decide)
    (by decide)).2.mpr rfl

end RosZ.Schema
