import RosZ.Dynamic.Messages

/-!
# Paths resolved to indices

`field_path_indices` of `schema.rs` resolves a dotted path against the schema alone, so
that the values can be looked up by position.  `pathsAgree_iff` compares it with access by
name on the message of default values.

The two walks take the same steps through message fields.  They part at a field of any
other type: access by name goes no further, while the index walk looks up the next part
among the fields of the same schema again.  `strays` says of a path that it goes on in
this way, with parts that all name fields.
-/

namespace RosZ.Dynamic

open DynamicMessage

/-! ## The index walk -/

namespace MessageSchema

/-- Get field by name. -/
def field (schema : MessageSchema) (name : String) : Option FieldSchema :=
  schema.fields.find? fun field => field.name = name

/-- The schema the index walk continues in, behind the field at `idx`. -/
def descend (schema : MessageSchema) (idx : ℕ) : MessageSchema :=
  match schema.fields[idx]? with
  | some ⟨_, .message nested, _⟩ => nested
  -- "Navigate to nested schema if needed"
  | _ => schema

/-- The loop over the parts of a path. -/
def partIndices : List String → MessageSchema → Except AccessError (List ℕ)
  | [], _ => .ok []
  | part :: rest, schema =>
      match schema.fieldIndex part with
      | none => .error (.fieldNotFound part)
      | some idx => do
          let indices ← partIndices rest (schema.descend idx)
          return idx :: indices

/-- Get field path indices for dot notation. -/
def fieldPathIndices (schema : MessageSchema) (path : String) : Except AccessError (List ℕ) :=
  schema.partIndices (parts path)

end MessageSchema

/-- The value that indices lead to, through `get_dynamic_by_index` and nested messages. -/
def followIndices : List ℕ → DynamicMessage → Option DynamicValue
  | [], _ => none
  | idx :: rest, msg =>
      match msg.getDynamicByIndex idx, rest with
      | .ok value, [] => some value
      | .ok (.message nested), _ :: _ => followIndices rest nested
      | _, _ => none

/-! ## The condition on the path -/

/-- Each part names a field, of the nested schema behind a message field and of the same
schema behind any other. -/
def namesFields : List String → MessageSchema → Bool
  | [], _ => true
  | part :: rest, schema =>
      match schema.field part with
      | none => false
      | some ⟨_, .message nested, _⟩ => namesFields rest nested
      | some _ => namesFields rest schema

/-- The path goes on behind a field that is not a message, and all it names from there on
are fields again. -/
def strays : List String → MessageSchema → Bool
  | part :: rest, schema =>
      match schema.field part with
      | none => false
      | some ⟨_, .message nested, _⟩ => strays rest nested
      | some _ => !rest.isEmpty && namesFields rest schema
  | [], _ => false

mutual

/-- No field overrides its default value, nor does one of a nested message. -/
def MessageSchema.WithoutDefaults : MessageSchema → Prop
  | ⟨_, _, _, fields, _⟩ => FieldsWithoutDefaults fields

def FieldsWithoutDefaults : List FieldSchema → Prop
  | [] => True
  | field :: fields => field.WithoutDefaults ∧ FieldsWithoutDefaults fields

def FieldSchema.WithoutDefaults : FieldSchema → Prop
  | ⟨_, fieldType, defaultValue⟩ => defaultValue = none ∧ fieldType.WithoutDefaults

def FieldType.WithoutDefaults : FieldType → Prop
  | .message schema => schema.WithoutDefaults
  | _ => True

end

/-! ## One step of both walks -/

theorem fieldsWithoutDefaults_iff {fields : List FieldSchema} :
    FieldsWithoutDefaults fields ↔ ∀ field ∈ fields, field.WithoutDefaults := by
  induction fields with
  | nil => simp [FieldsWithoutDefaults]
  | cons field fields ih => simp [FieldsWithoutDefaults, ih]

theorem MessageSchema.WithoutDefaults.field {schema : MessageSchema}
    (plain : schema.WithoutDefaults) {idx : ℕ} {field : FieldSchema}
    (listed : schema.fields[idx]? = some field) : field.WithoutDefaults := by
  obtain ⟨typeName, package, name, fields, typeHash⟩ := schema
  exact fieldsWithoutDefaults_iff.mp plain field (List.mem_of_getElem? listed)

/-- A part names the first field of that name, or none. -/
theorem field_cases (schema : MessageSchema) (part : String) :
    (schema.fieldIndex part = none ∧ schema.field part = none) ∨
      ∃ idx field, schema.fieldIndex part = some idx ∧ schema.fields[idx]? = some field ∧
        schema.field part = some field := by
  have same : schema.field part = (schema.fieldIndex part).bind (schema.fields[·]?) :=
    List.find?_eq_bind_findIdx?_getElem?
  cases position : schema.fieldIndex part with
  | none =>
      rw [position] at same
      exact .inl ⟨rfl, same⟩
  | some idx =>
      obtain ⟨field, listed, -⟩ := name_of_fieldIndex position
      rw [position] at same
      exact .inr ⟨idx, field, rfl, listed, same.trans listed⟩

section Step

variable {schema : MessageSchema} {part : String} {idx : ℕ} {name : String} {ft : FieldType}
  {default : Option DynamicValue}

theorem valueAt_newMessage (plain : schema.WithoutDefaults)
    (listed : schema.fields[idx]? = some ⟨name, ft, default⟩) :
    (newMessage schema).values[idx]? = some (defaultForType ft) := by
  have none : default = none := (plain.field listed).1
  subst none
  rw [newMessage_values, getElem?_defaultFields, listed]
  rfl

/-- The walk by name, on default values. -/
theorem getNested_newMessage (plain : schema.WithoutDefaults)
    (position : schema.fieldIndex part = some idx)
    (listed : schema.fields[idx]? = some ⟨name, ft, default⟩) (rest : List String) :
    (newMessage schema).getNested (part :: rest) =
      match rest with
      | [] => .ok (defaultForType ft)
      | _ :: _ =>
          match defaultForType ft with
          | .message nested => getNested rest nested
          | _ => .error (.notAMessage part) := by
  have found : (newMessage schema).locate part = .ok idx := by
    unfold locate
    rw [newMessage_schema, position]
  have there : (newMessage schema).valueAt idx = .ok (defaultForType ft) := by
    unfold valueAt
    rw [valueAt_newMessage plain listed]
  rw [getNested, found]
  show (newMessage schema).valueAt idx >>= _ = _
  rw [there]
  rfl

theorem getNested_newMessage_none (missing : schema.fieldIndex part = none)
    (rest : List String) :
    (newMessage schema).getNested (part :: rest) = .error (.fieldNotFound part) := by
  have lost : (newMessage schema).locate part = .error (.fieldNotFound part) := by
    unfold locate
    rw [newMessage_schema, missing]
  rw [getNested, lost]
  rfl

end Step

/-! ## When the walks succeed -/

theorem exists_partIndices_iff {parts : List String} {schema : MessageSchema} :
    (∃ indices, schema.partIndices parts = .ok indices) ↔ namesFields parts schema = true := by
  induction parts generalizing schema with
  | nil => exact iff_of_true ⟨[], rfl⟩ rfl
  | cons part rest ih =>
      rcases field_cases schema part with ⟨missing, absent⟩ | ⟨idx, field, position, listed, first⟩
      · simp [MessageSchema.partIndices, namesFields, missing, absent]
      · have tail : (∃ indices, schema.partIndices (part :: rest) = .ok indices) ↔
            ∃ indices, (schema.descend idx).partIndices rest = .ok indices := by
          rw [MessageSchema.partIndices, position]
          constructor
          · rintro ⟨indices, walk⟩
            obtain ⟨others, walk', -⟩ := Fallible.bind_eq_ok_iff.mp walk
            exact ⟨others, walk'⟩
          · rintro ⟨others, walk'⟩
            exact ⟨idx :: others, Fallible.bind_eq_ok_iff.mpr ⟨others, walk', rfl⟩⟩
        obtain ⟨name, ft, default⟩ := field
        rw [tail, ih, namesFields, first, MessageSchema.descend, listed]
        cases ft <;> rfl

theorem namesFields_of_strays {parts : List String} {schema : MessageSchema}
    (astray : strays parts schema = true) : namesFields parts schema = true := by
  induction parts generalizing schema with
  | nil => rfl
  | cons part rest ih =>
      rw [strays] at astray
      rw [namesFields]
      cases found : schema.field part with
      | none =>
          rw [found] at astray
          cases astray
      | some field =>
          rw [found] at astray
          obtain ⟨name, ft, default⟩ := field
          cases ft with
          | message nested => exact ih astray
          | _ => exact (Bool.and_eq_true_iff.mp astray).2

/-- Access by name succeeds on the default message where the path names fields and does
not stray. -/
theorem exists_getNested_iff {part : String} {rest : List String} {schema : MessageSchema}
    (plain : schema.WithoutDefaults) :
    (∃ value, (newMessage schema).getNested (part :: rest) = .ok value) ↔
      namesFields (part :: rest) schema = true ∧ strays (part :: rest) schema = false := by
  induction rest generalizing part schema with
  | nil =>
      rcases field_cases schema part with ⟨missing, absent⟩ | ⟨idx, field, position, listed, first⟩
      · simp [getNested_newMessage_none missing, namesFields, absent]
      · obtain ⟨name, ft, default⟩ := field
        rw [getNested_newMessage plain position listed, namesFields, strays, first]
        refine iff_of_true ⟨_, rfl⟩ ?_
        cases ft <;> exact ⟨rfl, rfl⟩
  | cons next rest ih =>
      rcases field_cases schema part with ⟨missing, absent⟩ | ⟨idx, field, position, listed, first⟩
      · simp [getNested_newMessage_none missing, namesFields, absent]
      · obtain ⟨name, ft, default⟩ := field
        rw [getNested_newMessage plain position listed, namesFields, strays, first]
        cases ft with
        | message nested => exact ih (plain.field listed).2
        | _ => simp [defaultForType]

theorem exists_cons_of_partIndices {part : String} {rest : List String}
    {schema : MessageSchema} {indices : List ℕ}
    (resolved : schema.partIndices (part :: rest) = .ok indices) :
    ∃ first later, indices = first :: later := by
  unfold MessageSchema.partIndices at resolved
  split at resolved
  · cases resolved
  · obtain ⟨later, -, same⟩ := Fallible.bind_eq_ok_iff.mp resolved
    cases same
    exact ⟨_, later, rfl⟩

/-- The indices of a path that both walks accept lead to the same value. -/
theorem followIndices_eq {part : String} {rest : List String} {schema : MessageSchema}
    (plain : schema.WithoutDefaults) {indices : List ℕ} {value : DynamicValue}
    (resolved : schema.partIndices (part :: rest) = .ok indices)
    (read : (newMessage schema).getNested (part :: rest) = .ok value) :
    followIndices indices (newMessage schema) = some value := by
  rcases field_cases schema part with ⟨missing, -⟩ | ⟨idx, field, position, listed, -⟩
  · rw [getNested_newMessage_none missing] at read
    cases read
  obtain ⟨name, ft, default⟩ := field
  have there : (newMessage schema).getDynamicByIndex idx = .ok (defaultForType ft) := by
    unfold getDynamicByIndex
    rw [valueAt_newMessage plain listed]
  rw [getNested_newMessage plain position listed] at read
  rw [MessageSchema.partIndices, position] at resolved
  obtain ⟨others, walk, same⟩ := Fallible.bind_eq_ok_iff.mp resolved
  cases same
  rw [followIndices.eq_def]
  simp only [there]
  cases rest with
  | nil =>
      cases walk
      cases read
      rfl
  | cons next rest =>
      cases ft with
      | message nested =>
          rw [MessageSchema.descend, listed] at walk
          obtain ⟨first, later, rfl⟩ := exists_cons_of_partIndices walk
          exact followIndices_eq (plain.field listed).2 walk read
      | _ => cases read
termination_by rest

/-! ## Agreement -/

/-- Resolving a path and reading it succeed alike on the default message, and then the
indices lead to the value that was read. -/
def PathsAgree (schema : MessageSchema) (path : String) : Prop :=
  ((∃ indices, schema.fieldPathIndices path = .ok indices) ↔
    ∃ value, (newMessage schema).getDynamic path = .ok value) ∧
  ∀ indices value, schema.fieldPathIndices path = .ok indices →
    (newMessage schema).getDynamic path = .ok value →
    followIndices indices (newMessage schema) = some value

/-- **When indices and names agree.**  On a schema without overriding defaults they do
exactly when the path does not go on, behind a field that is not a message, with parts that
name fields again. -/
theorem pathsAgree_iff (schema : MessageSchema) (plain : schema.WithoutDefaults)
    (path : String) : PathsAgree schema path ↔ strays (parts path) schema = false := by
  obtain ⟨part, rest, shape⟩ := Text.exists_cons_fields '.' path
  have split : parts path = part :: rest := shape
  unfold PathsAgree
  rw [MessageSchema.fieldPathIndices, getDynamic, shape, split, exists_partIndices_iff,
    exists_getNested_iff plain]
  constructor
  · rintro ⟨alike, -⟩
    by_contra astray
    rw [Bool.not_eq_false] at astray
    exact Bool.false_ne_true ((alike.mp (namesFields_of_strays astray)).2.symm.trans astray)
  · intro straight
    refine ⟨⟨fun named => ⟨named, straight⟩, And.left⟩, ?_⟩
    intro indices value resolved read
    exact followIndices_eq plain resolved read

/-- `geometry_msgs/msg/Vector3` -/
def vectorSchema : MessageSchema where
  typeName := "geometry_msgs/msg/Vector3"
  package := "geometry_msgs"
  name := "Vector3"
  fields := [⟨"x", .float64, none⟩, ⟨"y", .float64, none⟩, ⟨"z", .float64, none⟩]

theorem vectorSchema_withoutDefaults : vectorSchema.WithoutDefaults := by
  simp [vectorSchema, MessageSchema.WithoutDefaults, FieldsWithoutDefaults,
    FieldSchema.WithoutDefaults, FieldType.WithoutDefaults]

theorem pathsAgree_vector : PathsAgree vectorSchema "x" :=
  (pathsAgree_iff vectorSchema vectorSchema_withoutDefaults "x").mpr (by decide +kernel)

/-- The path "x.y" of a vector has indices, those of `x` and `y`, but no value. -/
theorem paths_disagree : vectorSchema.WithoutDefaults ∧ ¬ PathsAgree vectorSchema "x.y" ∧
    vectorSchema.fieldPathIndices "x.y" = .ok [0, 1] ∧
    (newMessage vectorSchema).getDynamic "x.y" = .error (.notAMessage "x") := by
  have split : parts "x.y" = ["x", "y"] := by decide +kernel
  have resolved : vectorSchema.fieldPathIndices "x.y" = .ok [0, 1] := by
    rw [MessageSchema.fieldPathIndices, split]
    rfl
  have refused : (newMessage vectorSchema).getDynamic "x.y" = .error (.notAMessage "x") := by
    show (newMessage vectorSchema).getNested (parts "x.y") = _
    rw [split]
    rfl
  refine ⟨vectorSchema_withoutDefaults, ?_, resolved, refused⟩
  rintro ⟨alike, -⟩
  obtain ⟨value, read⟩ := alike.mp ⟨_, resolved⟩
  rw [refused] at read
  cases read

end RosZ.Dynamic
