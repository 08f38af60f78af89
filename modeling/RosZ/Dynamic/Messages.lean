import RosZ.Dynamic.Schema
import RosZ.Lib.Fallible
import RosZ.Lib.Focus
import RosZ.Lib.Text

/-!
# Access to the fields of a message

The container API of `message.rs` and the default values of `value.rs`: `new`, access by
index and by dotted path, and the same for updates.

Operations on `&mut self` are programs on the message.  Besides their errors they may
`panic`, where the source indexes the values of a message that has fewer of them than its
schema has fields.

## Paths

`pathFocus` says what a path leads to: the first field of that name, the message held
there, a field of that message, and so on.  Both directions of access are that part of the
message (`getNested_eq`, `setNested_eq`), so that what an update leaves alone is a question
about paths: `pathFocus_apart` — two paths of which neither continues the other lead to
parts apart.
-/

namespace RosZ.Dynamic

/-- Errors of field access. -/
inductive AccessError where
  /-- "Empty path provided for field access" -/
  | emptyPath
  /-- "Field '{name}' not found in message schema" -/
  | fieldNotFound (name : String)
  /-- "Field '{name}' is not a message type, cannot access nested fields" -/
  | notAMessage (name : String)
  /-- "Field index {index} is out of bounds" -/
  | indexOutOfBounds (index : ℕ)
  /-- `self.values[field_idx]` out of range -/
  | panic
  deriving DecidableEq, Repr

/-! ## Default values -/

mutual

/-- Create the default value for a given field type. -/
def defaultForType : FieldType → DynamicValue
  | .bool => .bool false
  | .int8 => .int8 0
  | .int16 => .int16 0
  | .int32 => .int32 0
  | .int64 => .int64 0
  | .uint8 => .uint8 0
  | .uint16 => .uint16 0
  | .uint32 => .uint32 0
  | .uint64 => .uint64 0
  | .float32 => .float32 0
  | .float64 => .float64 0
  | .string => .string ""
  | .boundedString _ => .string ""
  | .message schema => .message (newMessage schema)
  | .array inner len => .array (List.replicate len (defaultForType inner))
  | .sequence _ => .array []
  | .boundedSequence _ _ => .array []

/-- The value a new message has in each field. -/
def defaultFields : List FieldSchema → List DynamicValue
  | [] => []
  | field :: fields => defaultField field :: defaultFields fields

def defaultField : FieldSchema → DynamicValue
  | ⟨_, fieldType, none⟩ => defaultForType fieldType
  | ⟨_, _, some value⟩ => value

/-- `DynamicMessage::new` -/
def newMessage : MessageSchema → DynamicMessage
  | ⟨typeName, package, name, fields, typeHash⟩ =>
      ⟨⟨typeName, package, name, fields, typeHash⟩, defaultFields fields⟩

end

theorem newMessage_schema (schema : MessageSchema) : (newMessage schema).schema = schema := by
  obtain ⟨typeName, package, name, fields, typeHash⟩ := schema
  rfl

theorem newMessage_values (schema : MessageSchema) :
    (newMessage schema).values = defaultFields schema.fields := by
  obtain ⟨typeName, package, name, fields, typeHash⟩ := schema
  rfl

theorem getElem?_defaultFields (fields : List FieldSchema) (idx : ℕ) :
    (defaultFields fields)[idx]? = fields[idx]?.map defaultField := by
  induction fields generalizing idx with
  | nil => rfl
  | cons field fields ih =>
      cases idx with
      | zero => rfl
      | succ idx =>
          rw [defaultFields, List.getElem?_cons_succ, List.getElem?_cons_succ]
          exact ih idx

/-! ## Access by name -/

/-- Get field index by name. -/
def MessageSchema.fieldIndex (schema : MessageSchema) (name : String) : Option ℕ :=
  schema.fields.findIdx? fun field => field.name = name

namespace DynamicMessage

/-- The position of the first field of that name. -/
def locate (msg : DynamicMessage) (name : String) : Except AccessError ℕ :=
  match msg.schema.fieldIndex name with
  | some idx => .ok idx
  | none => .error (.fieldNotFound name)

/-- `self.values[idx]` -/
def valueAt (msg : DynamicMessage) (idx : ℕ) : Except AccessError DynamicValue :=
  match msg.values[idx]? with
  | some value => .ok value
  | none => .error .panic

/-- Walk down the parts of a path. -/
def getNested : List String → DynamicMessage → Except AccessError DynamicValue
  | [], _ => .error .emptyPath
  | name :: rest, msg => do
      let idx ← msg.locate name
      let value ← msg.valueAt idx
      match rest with
      | [] => return value
      | _ :: _ =>
          match value with
          | .message nested => getNested rest nested
          | _ => throw (.notAMessage name)

/-- Get field value by dotted path, as in "linear.x". -/
def getDynamic (msg : DynamicMessage) (path : String) : Except AccessError DynamicValue :=
  msg.getNested (Text.fields '.' path)

/-- Get field value by pre-computed index. -/
def getDynamicByIndex (msg : DynamicMessage) (idx : ℕ) : Except AccessError DynamicValue :=
  match msg.values[idx]? with
  | some value => .ok value
  | none => .error (.indexOutOfBounds idx)

/-- Get the number of fields. -/
def fieldCount (msg : DynamicMessage) : ℕ := msg.values.length

/-- `self.values[idx] = value`, within range -/
def setValue (msg : DynamicMessage) (idx : ℕ) (value : DynamicValue) : DynamicMessage :=
  { msg with values := msg.values.set idx value }

/-- Walk down the parts of a path and replace what is there. -/
def setNested : List String → DynamicValue → EStateM AccessError DynamicMessage Unit
  | [], _ => throw .emptyPath
  | name :: rest, value => fun msg =>
      match msg.locate name with
      | .error e => .error e msg
      | .ok idx =>
        match msg.valueAt idx with
        | .error e => .error e msg
        | .ok old =>
          match rest with
          | [] => .ok () (msg.setValue idx value)
          | _ :: _ =>
            match old with
            | .message nested =>
                -- in place: what the recursion leaves stays in this message
                match setNested rest value nested with
                | .ok _ nested' => .ok () (msg.setValue idx (.message nested'))
                | .error e nested' => .error e (msg.setValue idx (.message nested'))
            | _ => .error (.notAMessage name) msg

/-- Set field value by dotted path. -/
def setDynamic (path : String) (value : DynamicValue) :
    EStateM AccessError DynamicMessage Unit :=
  setNested (Text.fields '.' path) value

/-! ## Where a name leads -/

theorem locate_eq_ok {msg : DynamicMessage} {name : String} {idx : ℕ}
    (found : msg.locate name = .ok idx) : msg.schema.fieldIndex name = some idx := by
  unfold locate at found
  split at found
  · next position =>
    cases found
    exact position
  · cases found

/-- The field at the position of a name has that name. -/
theorem name_of_fieldIndex {schema : MessageSchema} {name : String} {idx : ℕ}
    (found : schema.fieldIndex name = some idx) :
    ∃ field, schema.fields[idx]? = some field ∧ field.name = name := by
  unfold MessageSchema.fieldIndex at found
  obtain ⟨short, same, -⟩ := List.findIdx?_eq_some_iff_getElem.mp found
  exact ⟨schema.fields[idx], List.getElem?_eq_getElem short, of_decide_eq_true same⟩

theorem fieldIndex_injective {schema : MessageSchema} {name name' : String} {idx : ℕ}
    (found : schema.fieldIndex name = some idx) (found' : schema.fieldIndex name' = some idx) :
    name = name' := by
  obtain ⟨field, position, rfl⟩ := name_of_fieldIndex found
  obtain ⟨field', position', rfl⟩ := name_of_fieldIndex found'
  rw [position] at position'
  cases position'
  rfl

theorem valueAt_eq_ok {msg : DynamicMessage} {idx : ℕ} {value : DynamicValue}
    (found : msg.valueAt idx = .ok value) : msg.values[idx]? = some value := by
  unfold valueAt at found
  split at found
  · next value' position =>
    cases found
    exact position
  · cases found

@[simp] theorem locate_setValue (msg : DynamicMessage) (idx : ℕ) (value : DynamicValue)
    (name : String) : (msg.setValue idx value).locate name = msg.locate name := rfl

@[simp] theorem fieldCount_setValue (msg : DynamicMessage) (idx : ℕ) (value : DynamicValue) :
    (msg.setValue idx value).fieldCount = msg.fieldCount :=
  List.length_set

theorem valueAt_setValue {msg : DynamicMessage} {idx : ℕ} {old : DynamicValue}
    (found : msg.valueAt idx = .ok old) (value : DynamicValue) :
    (msg.setValue idx value).valueAt idx = .ok value := by
  obtain ⟨short, -⟩ := List.getElem?_eq_some_iff.mp (valueAt_eq_ok found)
  unfold valueAt setValue
  rw [List.getElem?_set_self short]

theorem valueAt_setValue_of_ne {msg : DynamicMessage} {idx idx' : ℕ} (apart : idx ≠ idx')
    (value : DynamicValue) : (msg.setValue idx value).valueAt idx' = msg.valueAt idx' := by
  unfold valueAt setValue
  rw [List.getElem?_set_ne apart]

theorem setValue_self {msg : DynamicMessage} {idx : ℕ} {value : DynamicValue}
    (found : msg.valueAt idx = .ok value) : msg.setValue idx value = msg := by
  obtain ⟨short, same⟩ := List.getElem?_eq_some_iff.mp (valueAt_eq_ok found)
  have unchanged : msg.values.set idx value = msg.values := by
    rw [← same, List.set_getElem_self]
  rw [setValue, unchanged]
  cases msg
  rfl

end DynamicMessage

/-! ## Paths as parts of a message -/

open DynamicMessage

/-- The value in the first field of that name. -/
def fieldFocus (name : String) : Focus AccessError DynamicMessage DynamicValue where
  get := fun msg => msg.locate name >>= msg.valueAt
  put := fun value msg =>
    match msg.locate name with
    | .ok idx => msg.setValue idx value
    | .error _ => msg
  get_put := by
    intro msg old value found
    obtain ⟨idx, position, there⟩ := Fallible.bind_eq_ok_iff.mp found
    simp only [position, locate_setValue]
    exact valueAt_setValue there value
  put_get := by
    intro msg old found
    obtain ⟨idx, position, there⟩ := Fallible.bind_eq_ok_iff.mp found
    simp only [position]
    exact setValue_self there

/-- The message held in the field of that name. -/
def nestedFocus (name : String) : Focus AccessError DynamicValue DynamicMessage where
  get := fun
    | .message nested => .ok nested
    | _ => .error (.notAMessage name)
  put := fun nested _ => .message nested
  get_put := fun _ _ => rfl
  put_get := by
    intro value nested found
    cases value with
    | message held =>
        cases found
        rfl
    | _ => cases found

/-- What the rest of a path leads to, from the value of the field `name` on. -/
def behind : String → List String → Focus AccessError DynamicValue DynamicValue
  | _, [] => Focus.whole
  | name, next :: rest => (nestedFocus name).comp ((fieldFocus next).comp (behind next rest))

/-- What a path with the parts `name :: rest` leads to. -/
def pathFocus (name : String) (rest : List String) :
    Focus AccessError DynamicMessage DynamicValue :=
  (fieldFocus name).comp (behind name rest)

theorem fieldFocus_get {msg : DynamicMessage} {name : String} {idx : ℕ}
    (position : msg.locate name = .ok idx) : (fieldFocus name).get msg = msg.valueAt idx := by
  show msg.locate name >>= msg.valueAt = _
  rw [position]
  rfl

theorem fieldFocus_put {msg : DynamicMessage} {name : String} {idx : ℕ}
    (position : msg.locate name = .ok idx) (value : DynamicValue) :
    (fieldFocus name).put value msg = msg.setValue idx value := by
  show (match msg.locate name with
    | .ok idx => msg.setValue idx value
    | .error _ => msg) = _
  rw [position]

theorem fieldFocus_get_error {msg : DynamicMessage} {name : String} {e : AccessError}
    (missing : msg.locate name = .error e) : (fieldFocus name).get msg = .error e := by
  show msg.locate name >>= msg.valueAt = _
  rw [missing]
  rfl

/-- **Reading a path** is looking at that part. -/
theorem getNested_eq (name : String) (rest : List String) (msg : DynamicMessage) :
    msg.getNested (name :: rest) = (pathFocus name rest).get msg := by
  have walk : msg.getNested (name :: rest) =
      (fieldFocus name).get msg >>= fun value =>
        match rest with
        | [] => .ok value
        | _ :: _ =>
            match value with
            | .message nested => getNested rest nested
            | _ => .error (.notAMessage name) := by
    cases position : msg.locate name with
    | error e =>
        rw [fieldFocus_get_error position, getNested, position]
        rfl
    | ok idx =>
        rw [fieldFocus_get position, getNested, position]
        rfl
  rw [walk]
  show _ = (fieldFocus name).get msg >>= (behind name rest).get
  congr 1
  funext value
  cases rest with
  | nil => rfl
  | cons next rest =>
      cases value with
      | message nested => exact getNested_eq next rest nested
      | _ => rfl
termination_by rest

/-- **Setting a path** is writing that part. -/
theorem setNested_eq (name : String) (rest : List String) (value : DynamicValue) :
    setNested (name :: rest) value = (pathFocus name rest).write value := by
  funext msg
  rw [pathFocus, Focus.write, Focus.run_comp]
  cases position : msg.locate name with
  | error e =>
      simp only [setNested, position, Focus.run_error (fieldFocus_get_error position)]
  | ok idx =>
      have field := fieldFocus_get position
      cases there : msg.valueAt idx with
      | error e =>
          rw [there] at field
          simp only [setNested, position, there, Focus.run_error field]
      | ok old =>
          rw [there] at field
          simp only [setNested, position, there, Focus.run_of_get field, fieldFocus_put position]
          cases rest with
          | nil => rfl
          | cons next rest =>
              rw [behind, Focus.run_comp]
              cases old with
              | message nested =>
                  have held : (nestedFocus name).get (.message nested) = .ok nested := rfl
                  simp only [Focus.run_of_get held, setNested_eq next rest value, pathFocus,
                    Focus.write]
                  cases ((fieldFocus next).comp (behind next rest)).run (set value) nested with
                  | ok _ nested' => rfl
                  | error e nested' => rfl
              | _ => exact congrArg (EStateM.Result.error _) (setValue_self there).symm
termination_by rest

/-! ## Paths apart -/

theorem fieldFocus_apart {name other : String} (apart : name ≠ other) :
    (fieldFocus name).Apart (fieldFocus other) := by
  intro msg old value found
  obtain ⟨idx, position, -⟩ := Fallible.bind_eq_ok_iff.mp found
  rw [fieldFocus_put position]
  cases position' : msg.locate other with
  | error e =>
      have missing : (msg.setValue idx value).locate other = .error e := position'
      rw [fieldFocus_get_error position', fieldFocus_get_error missing]
  | ok idx' =>
      have differ : idx ≠ idx' := by
        rintro rfl
        exact apart (fieldIndex_injective (locate_eq_ok position) (locate_eq_ok position'))
      have there : (msg.setValue idx value).locate other = .ok idx' := position'
      rw [fieldFocus_get position', fieldFocus_get there, valueAt_setValue_of_ne differ]

/-- **Two paths of which neither continues the other lead to parts apart.** -/
theorem pathFocus_apart {name other : String} {rest rest' : List String}
    (short : ¬ name :: rest <+: other :: rest') (long : ¬ other :: rest' <+: name :: rest) :
    (pathFocus name rest).Apart (pathFocus other rest') := by
  induction rest generalizing name other rest' with
  | nil =>
      have differ : name ≠ other := by
        rintro rfl
        exact short ⟨rest', rfl⟩
      exact (fieldFocus_apart differ).comp _ _
  | cons next rest ih =>
      by_cases same : name = other
      · subst same
        rw [List.prefix_cons_inj] at short long
        cases rest' with
        | nil => exact absurd List.nil_prefix long
        | cons next' rest' =>
            have inner := (ih short long).comp_right (nestedFocus name)
            exact inner.comp_right (fieldFocus name)
      · exact (fieldFocus_apart same).comp _ _

/-- A path through a message is a path in that message. -/
theorem pathFocus_put_through {name next : String} {before after : List String}
    {msg nested : DynamicMessage} (value : DynamicValue)
    (there : (pathFocus name before).get msg = .ok (.message nested)) :
    (pathFocus name (before ++ next :: after)).put value msg =
      (pathFocus name before).put (.message ((pathFocus next after).put value nested)) msg := by
  obtain ⟨held, field, inside⟩ := Focus.get_comp_eq_ok_iff.mp there
  rw [pathFocus, pathFocus, Focus.put_comp field, Focus.put_comp field]
  congr 1
  cases before with
  | nil =>
      cases inside
      exact Focus.put_comp rfl value
  | cons step before =>
      obtain ⟨inner, isMessage, further⟩ := Focus.get_comp_eq_ok_iff.mp inside
      show ((nestedFocus name).comp (pathFocus step (before ++ next :: after))).put value held =
        ((nestedFocus name).comp (pathFocus step before)).put _ held
      rw [Focus.put_comp isMessage, Focus.put_comp isMessage, pathFocus_put_through value further]
termination_by before

theorem fieldCount_pathFocus_put (name : String) (rest : List String) (value : DynamicValue)
    (msg : DynamicMessage) : ((pathFocus name rest).put value msg).fieldCount = msg.fieldCount := by
  cases field : (fieldFocus name).get msg with
  | error e => rw [pathFocus, Focus.put_comp_error field]
  | ok old =>
      obtain ⟨idx, position, -⟩ := Fallible.bind_eq_ok_iff.mp field
      rw [pathFocus, Focus.put_comp field, fieldFocus_put position, fieldCount_setValue]

/-! ## Messages with a value for each field -/

mutual

/-- One value for each field of the schema, also in the messages among the values. -/
def DynamicMessage.Filled : DynamicMessage → Prop
  | ⟨schema, values⟩ => values.length = schema.fields.length ∧ AllFilled values
termination_by structural m => m

def DynamicValue.Filled : DynamicValue → Prop
  | .message m => m.Filled
  | .array vs => AllFilled vs
  | _ => True
termination_by structural v => v

def AllFilled : List DynamicValue → Prop
  | [] => True
  | v :: rest => v.Filled ∧ AllFilled rest
termination_by structural vs => vs

end

theorem allFilled_iff {vs : List DynamicValue} : AllFilled vs ↔ ∀ v ∈ vs, v.Filled := by
  induction vs with
  | nil => simp [AllFilled]
  | cons v rest ih => simp [AllFilled, ih]

namespace DynamicMessage

/-- In a filled message no access indexes out of range. -/
theorem Filled.getNested_ne_panic {msg : DynamicMessage} (filled : msg.Filled)
    (parts : List String) : msg.getNested parts ≠ .error .panic := by
  induction parts generalizing msg with
  | nil =>
      intro panics
      cases panics
  | cons name rest ih =>
      obtain ⟨schema, values⟩ := msg
      obtain ⟨count, each⟩ := filled
      cases position : locate ⟨schema, values⟩ name with
      | error e =>
          rw [getNested, position]
          rintro panics
          cases panics
          unfold locate at position
          split at position <;> cases position
      | ok idx =>
          obtain ⟨field, listed, -⟩ := name_of_fieldIndex (locate_eq_ok position)
          have short : idx < values.length := by
            rw [count]
            exact (List.getElem?_eq_some_iff.mp listed).1
          have there : valueAt ⟨schema, values⟩ idx = .ok values[idx] := by
            simp only [valueAt, List.getElem?_eq_getElem short]
          have value := allFilled_iff.mp each _ (List.getElem_mem short)
          rw [getNested, position]
          show (valueAt ⟨schema, values⟩ idx >>= _) ≠ _
          rw [there]
          cases rest with
          | nil =>
              intro panics
              cases panics
          | cons next rest =>
              cases held : values[idx] with
              | message nested =>
                  rw [held] at value
                  exact ih value
              | _ =>
                  intro panics
                  cases panics

/-! ## Updates -/

/-- The parts of a path, at least one. -/
def parts (path : String) : List String := Text.fields '.' path

/-- `old` and `new` agree outside of `path`: every path that neither continues it nor is
continued by it leads to the same outcome. -/
def AgreeOutside (path : String) (old new : DynamicMessage) : Prop :=
  ∀ other, ¬ parts path <+: parts other → ¬ parts other <+: parts path →
    new.getDynamic other = old.getDynamic other

/-- The message and those on the way to `path` have as many values in `new` as in `old`. -/
def SameCounts (path : String) (old new : DynamicMessage) : Prop :=
  new.fieldCount = old.fieldCount ∧
    ∀ way, way <+: parts path → way ≠ parts path → ∀ nested,
      old.getNested way = .ok (.message nested) →
        ∃ nested', new.getNested way = .ok (.message nested') ∧
          nested'.fieldCount = nested.fieldCount

theorem agreeOutside_put {path name : String} {rest : List String}
    (shape : parts path = name :: rest) {msg : DynamicMessage} {old : DynamicValue}
    (there : (pathFocus name rest).get msg = .ok old) (value : DynamicValue) :
    AgreeOutside path msg ((pathFocus name rest).put value msg) := by
  intro other short long
  obtain ⟨name', rest', shape'⟩ := Text.exists_cons_fields '.' other
  have split : parts other = name' :: rest' := shape'
  rw [shape, split] at short long
  rw [getDynamic, getDynamic, shape', getNested_eq, getNested_eq]
  exact pathFocus_apart short long msg old value there

theorem sameCounts_put {path name : String} {rest : List String}
    (shape : parts path = name :: rest) (msg : DynamicMessage) (value : DynamicValue) :
    SameCounts path msg ((pathFocus name rest).put value msg) := by
  refine ⟨fieldCount_pathFocus_put name rest value msg, ?_⟩
  intro way before proper nested there
  rw [shape] at before proper
  cases way with
  | nil => cases there
  | cons step way =>
      obtain ⟨after, whole⟩ := before
      rw [List.cons_append, List.cons.injEq] at whole
      obtain ⟨rfl, rfl⟩ := whole
      rw [getNested_eq] at there
      cases after with
      | nil => exact absurd (congrArg _ (List.append_nil way).symm) proper
      | cons next after =>
          refine ⟨(pathFocus next after).put value nested, ?_, ?_⟩
          · rw [getNested_eq, pathFocus_put_through value there]
            exact (pathFocus step way).get_put _ there
          · exact fieldCount_pathFocus_put next after value nested

/-- **Updates obey the lens laws.**  When a path is set, it holds the value, every path
apart from it leads where it led, and no message on the way gains or loses values.  When
it is not, the message is the one it was.  A path can be set exactly when it can be read,
and neither panics when the message has a value for each field. -/
theorem setDynamic_lens (msg : DynamicMessage) (path : String) (value : DynamicValue) :
    (∀ msg', (setDynamic path value).run msg = .ok () msg' →
      msg'.getDynamic path = .ok value ∧ AgreeOutside path msg msg' ∧
        SameCounts path msg msg') ∧
    (∀ e msg', (setDynamic path value).run msg = .error e msg' → msg' = msg) ∧
    ((∃ msg', (setDynamic path value).run msg = .ok () msg') ↔
      ∃ old, msg.getDynamic path = .ok old) ∧
    (msg.Filled → msg.getDynamic path ≠ .error .panic ∧
      ∀ msg', (setDynamic path value).run msg ≠ .error .panic msg') := by
  obtain ⟨name, rest, shape⟩ := Text.exists_cons_fields '.' path
  have set : (setDynamic path value).run msg = (pathFocus name rest).write value msg := by
    rw [setDynamic, shape, setNested_eq]
    rfl
  have get (m : DynamicMessage) : m.getDynamic path = (pathFocus name rest).get m := by
    rw [getDynamic, shape, getNested_eq]
  rw [set, get]
  refine ⟨?_, ?_, ?_, ?_⟩
  · intro msg' done
    obtain ⟨⟨old, there⟩, rfl⟩ := Focus.write_eq_ok_iff.mp done
    refine ⟨?_, agreeOutside_put shape there value, sameCounts_put shape msg value⟩
    rw [get]
    exact (pathFocus name rest).get_put value there
  · intro e msg' failed
    exact (Focus.write_eq_error_iff.mp failed).2
  · constructor
    · rintro ⟨msg', done⟩
      exact (Focus.write_eq_ok_iff.mp done).1
    · intro there
      exact ⟨_, Focus.write_eq_ok_iff.mpr ⟨there, rfl⟩⟩
  · intro filled
    have readable : (pathFocus name rest).get msg ≠ .error .panic := by
      rw [← getNested_eq]
      exact filled.getNested_ne_panic _
    refine ⟨readable, ?_⟩
    intro msg' panics
    exact readable (Focus.write_eq_error_iff.mp panics).1

end DynamicMessage

end RosZ.Dynamic
