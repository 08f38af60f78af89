import RosZ.Dynamic.Reread

/-!
# Forwarding decoded messages

A bridge decodes a message and publishes it again.  `reencodable` says, of a schema and
the octets in front of the reader, whether the decoder stays clear of the two places
whose values the encoder cannot write back:

* the octet arm of a *bounded* sequence, whose `bytes` the encoder refuses;
* a string of `2^32 - 1` octets without a terminator, whose length word wraps to zero.

`conforms_iff_reencodable` carries the condition on the octets over to the decoded value.
Nothing less than a representable value survives the trip, and a decoded value, which is
canonical, then conforms (`conforms_of_canonical`).
-/

namespace RosZ.Dynamic

open RosZ.Cdr Wire CdrReader

/-! ## The condition on the input -/

/-- The string at the cursor has the longest length word there is, and no terminator. -/
def unterminatedMax (r : CdrReader .littleEndian) : Bool :=
  match (readByteSequence : ReadM .littleEndian (List UInt8)).run r with
  | .ok octets _ => octets.length = 2 ^ 32 - 1 && octets.getLast? ≠ some 0
  | .error _ _ => false

/-- `check` holds of the reader at each turn of a counted loop over `read`. -/
def allTurns {ε σ α : Type} (check : σ → Bool) (read : EStateM ε σ α) : ℕ → σ → Bool
  | 0, _ => true
  | count + 1, s =>
      check s &&
        match read.run s with
        | .ok _ s' => allTurns check read count s'
        | .error _ _ => true

/-- `check` holds of every turn of the loop behind a sequence length. -/
def allCounted (check : CdrReader .littleEndian → Bool) (read : DecodeM DynamicValue)
    (r : CdrReader .littleEndian) : Bool :=
  match (mapCdrErr readSequenceLength).run r with
  | .ok len r' => allTurns check read len r'
  | .error _ _ => true

mutual

/-- Decoding at the cursor stays clear of the values that cannot be encoded again. -/
def reencodable : FieldType → CdrReader .littleEndian → Bool
  | .string => fun r => !unterminatedMax r
  | .boundedString _ => fun r => !unterminatedMax r
  | .array inner len => allTurns (reencodable inner) (deserializeValue inner) len
  | .sequence .uint8 => fun _ => true
  | .sequence inner => allCounted (reencodable inner) (deserializeValue inner)
  | .boundedSequence .uint8 _ => fun _ => false
  | .boundedSequence inner _ => allCounted (reencodable inner) (deserializeValue inner)
  | .message schema => reencodableMessage schema
  | _ => fun _ => true

def reencodableFields : List FieldSchema → CdrReader .littleEndian → Bool
  | [], _ => true
  | field :: fields, r =>
      reencodableField field r &&
        match (deserializeField field).run r with
        | .ok _ r' => reencodableFields fields r'
        | .error _ _ => true

def reencodableField : FieldSchema → CdrReader .littleEndian → Bool
  | ⟨_, fieldType, _⟩ => reencodable fieldType

def reencodableMessage : MessageSchema → CdrReader .littleEndian → Bool
  | ⟨_, _, _, fields, _⟩ => reencodableFields fields

end

/-- The condition on a whole payload. -/
def reencodableCdr (data : List UInt8) (schema : MessageSchema) : Bool :=
  reencodableMessage schema (CdrReader.new (data.drop 4))

/-! ## Strings too long to be written back -/

section Reading

variable {r r' : CdrReader .littleEndian}

/-- A decoded string is too long to be written back only when it fills the longest length word
without a terminator. -/
theorem run_readString_short_iff {s : String}
    (h : (readString : ReadM .littleEndian String).run r = .ok s r') :
    (utf8Bytes s).length < 2 ^ 32 - 1 ↔ unterminatedMax r = false := by
  obtain ⟨word, middle, first, cases⟩ := run_readString_eq_ok h
  have small := word.toNat_lt
  have sequence : (readByteSequence : ReadM .littleEndian (List UInt8)).run r =
      (readBytes word.toNat : ReadM .littleEndian (List UInt8)).run middle := by
    rw [readByteSequence, EStateM.run_bind, first]
  unfold unterminatedMax
  rw [sequence]
  rcases cases with ⟨zero, rfl⟩ | ⟨octets, bytes, content⟩
  · have empty : (utf8Bytes "").length = 0 := rfl
    rw [empty]
    refine ⟨fun _ => ?_, fun _ => by decide⟩
    split
    · next octets _ bytes =>
      have len := length_of_run_readBytes bytes
      rw [zero] at len
      simp [len]
    · rfl
  · have len := length_of_run_readBytes bytes
    rw [bytes, content]
    by_cases terminated : octets.getLast? = some 0
    · rw [if_pos terminated, List.length_take]
      simp only [terminated, ne_eq, not_true_eq_false, decide_false, Bool.and_false, iff_true]
      omega
    · rw [if_neg terminated]
      simp only [ne_eq, terminated, not_false_eq_true, decide_true, Bool.and_true,
        decide_eq_false_iff_not]
      omega

end Reading

/-! ## From the octets to the decoded value -/

/-- The elements of a loop conform exactly when each turn may be encoded again. -/
theorem allConform_iff {inner : FieldType} {check : CdrReader .littleEndian → Bool}
    (element : ∀ {r r' v}, (deserializeValue inner).run r = .ok v r' →
      (check r = true ↔ Conforms inner v)) {count : ℕ} {r r' : CdrReader .littleEndian}
    {values : List DynamicValue}
    (h : (readMany (deserializeValue inner) count).run r = .ok values r') :
    allTurns check (deserializeValue inner) count r = true ↔ AllConform inner values := by
  induction count generalizing r values with
  | zero =>
      rw [readMany, EStateM.run_pure] at h
      cases h
      simp [allTurns, AllConform]
  | succ count ih =>
      obtain ⟨value, middle, rest, first, others, rfl⟩ := run_readMany_succ_eq_ok h
      rw [allTurns, first, AllConform, Bool.and_eq_true, element first, ih others]

/-- The same for a sequence, whose length is within the reader's limit. -/
theorem allCounted_iff {inner : FieldType} {check : CdrReader .littleEndian → Bool}
    (element : ∀ {r r' v}, (deserializeValue inner).run r = .ok v r' →
      (check r = true ↔ Conforms inner v)) {r r' : CdrReader .littleEndian} {v : DynamicValue}
    (h : (do let len ← mapCdrErr readSequenceLength
             return DynamicValue.array (← readMany (deserializeValue inner) len)).run r =
      .ok v r') :
    ∃ values, v = .array values ∧ values.length ≤ maxSequenceLength ∧
      (allCounted check (deserializeValue inner) r = true ↔ AllConform inner values) := by
  obtain ⟨len, middle, first, last⟩ := run_bind_eq_ok h
  obtain ⟨values, loop, rfl⟩ := run_map_eq_ok last
  refine ⟨values, rfl, ?_, ?_⟩
  · rw [length_of_run_readMany loop]
    exact (run_readSequenceLength_eq_ok (run_mapCdrErr_eq_ok.mp first)).2
  · rw [allCounted, first]
    exact allConform_iff element loop

theorem reencodable_sequence {inner : FieldType} (octets : inner ≠ .uint8) :
    reencodable (.sequence inner) = allCounted (reencodable inner) (deserializeValue inner) := by
  cases inner <;> first | rfl | exact absurd rfl octets

theorem reencodable_boundedSequence {inner : FieldType} {max : ℕ} (octets : inner ≠ .uint8) :
    reencodable (.boundedSequence inner max) =
      allCounted (reencodable inner) (deserializeValue inner) := by
  cases inner <;> first | rfl | exact absurd rfl octets

/-- A primitive value conforms and is always encodable. -/
theorem conforms_iff_of_primitive {α : Type} {read : ReadM .littleEndian α} (ft : FieldType)
    (wrap : α → DynamicValue) (decodes : deserializeValue ft = do return wrap (← mapCdrErr read))
    (always : reencodable ft = fun _ => true) (conforms : ∀ a, Conforms ft (wrap a))
    {r r' : CdrReader .littleEndian} {v : DynamicValue}
    (h : (deserializeValue ft).run r = .ok v r') :
    reencodable ft r = true ↔ Conforms ft v := by
  rw [decodes] at h
  obtain ⟨a, -, rfl⟩ := run_map_eq_ok h
  rw [always]
  exact iff_of_true rfl (conforms a)

mutual

/-- **The condition on the octets is conformance of the decoded value.** -/
theorem conforms_iff_reencodable : ∀ (ft : FieldType) {r r' : CdrReader .littleEndian}
    {v : DynamicValue}, (deserializeValue ft).run r = .ok v r' →
    (reencodable ft r = true ↔ Conforms ft v)
  | .bool, _, _, _, h => conforms_iff_of_primitive .bool .bool rfl rfl (fun _ => trivial) h
  | .int8, _, _, _, h => conforms_iff_of_primitive .int8 .int8 rfl rfl (fun _ => trivial) h
  | .int16, _, _, _, h => conforms_iff_of_primitive .int16 .int16 rfl rfl (fun _ => trivial) h
  | .int32, _, _, _, h => conforms_iff_of_primitive .int32 .int32 rfl rfl (fun _ => trivial) h
  | .int64, _, _, _, h => conforms_iff_of_primitive .int64 .int64 rfl rfl (fun _ => trivial) h
  | .uint8, _, _, _, h => conforms_iff_of_primitive .uint8 .uint8 rfl rfl (fun _ => trivial) h
  | .uint16, _, _, _, h => conforms_iff_of_primitive .uint16 .uint16 rfl rfl (fun _ => trivial) h
  | .uint32, _, _, _, h => conforms_iff_of_primitive .uint32 .uint32 rfl rfl (fun _ => trivial) h
  | .uint64, _, _, _, h => conforms_iff_of_primitive .uint64 .uint64 rfl rfl (fun _ => trivial) h
  | .float32, _, _, _, h => conforms_iff_of_primitive .float32 .float32 rfl rfl (fun _ => trivial) h
  | .float64, _, _, _, h => conforms_iff_of_primitive .float64 .float64 rfl rfl (fun _ => trivial) h
  | .string, r, _, _, h => by
      obtain ⟨s, read, rfl⟩ := run_map_eq_ok h
      have short := run_readString_short_iff (run_mapCdrErr_eq_ok.mp read)
      simpa [reencodable, Conforms] using short.symm
  | .boundedString _, r, _, _, h => by
      obtain ⟨s, read, rfl⟩ := run_map_eq_ok h
      have short := run_readString_short_iff (run_mapCdrErr_eq_ok.mp read)
      simpa [reencodable, Conforms] using short.symm
  | .array inner len, r, _, _, h => by
      obtain ⟨values, loop, rfl⟩ := run_map_eq_ok h
      have elements := allConform_iff (conforms_iff_reencodable inner) loop
      rw [reencodable, Conforms, elements]
      exact (and_iff_right (length_of_run_readMany loop)).symm
  | .sequence inner, r, _, _, h => by
      by_cases octets : inner = .uint8
      · subst octets
        obtain ⟨bytes, read, rfl⟩ := run_map_eq_ok h
        exact iff_of_true rfl
          ⟨rfl, fits_of_run_readByteSequence (run_mapCdrErr_eq_ok.mp read)⟩
      · rw [deserializeValue_sequence octets] at h
        obtain ⟨values, rfl, within, elements⟩ :=
          allCounted_iff (conforms_iff_reencodable inner) h
        rw [reencodable_sequence octets, elements, Conforms]
        exact (and_iff_right within).symm
  | .boundedSequence inner max, r, _, _, h => by
      by_cases octets : inner = .uint8
      · subst octets
        obtain ⟨bytes, -, rfl⟩ := run_map_eq_ok h
        exact iff_of_false Bool.false_ne_true id
      · rw [deserializeValue_bounded, deserializeValue_sequence octets] at h
        obtain ⟨values, rfl, within, elements⟩ :=
          allCounted_iff (conforms_iff_reencodable inner) h
        rw [reencodable_boundedSequence octets, elements, Conforms]
        exact (and_iff_right within).symm
  | .message schema, r, _, _, h => by
      obtain ⟨m, read, rfl⟩ := run_map_eq_ok h
      obtain ⟨same, fields⟩ := messageConforms_iff schema read
      rw [reencodable, Conforms, fields]
      exact (and_iff_right same).symm

theorem fieldsConform_iff : ∀ (fields : List FieldSchema) {r r' : CdrReader .littleEndian}
    {values : List DynamicValue}, (deserializeFields fields).run r = .ok values r' →
    (reencodableFields fields r = true ↔ FieldsConform fields values)
  | [], r, _, _, h => by
      cases h
      exact iff_of_true rfl trivial
  | ⟨name, fieldType, default⟩ :: fields, r, _, _, h => by
      obtain ⟨value, middle, first, last⟩ := run_bind_eq_ok h
      obtain ⟨rest, others, rfl⟩ := run_map_eq_ok last
      rw [reencodableFields, first, FieldsConform, Bool.and_eq_true,
        fieldsConform_iff fields others]
      exact and_congr_left' (conforms_iff_reencodable fieldType first)

theorem messageConforms_iff : ∀ (schema : MessageSchema) {r r' : CdrReader .littleEndian}
    {m : DynamicMessage}, (deserializeMessage schema).run r = .ok m r' →
    m.schema = schema ∧ (reencodableMessage schema r = true ↔ MessageConforms schema m)
  | ⟨typeName, package, name, fields, typeHash⟩, r, _, _, h => by
      obtain ⟨values, read, rfl⟩ := run_map_eq_ok h
      exact ⟨rfl, fieldsConform_iff fields read⟩

end

/-! ## Decoded values are canonical -/

theorem canonicalAll_of_run {inner : FieldType}
    (element : ∀ {r r' v}, (deserializeValue inner).run r = .ok v r' → v.canonical inner = v)
    {count : ℕ} {r r' : CdrReader .littleEndian} {values : List DynamicValue}
    (h : (readMany (deserializeValue inner) count).run r = .ok values r') :
    canonicalAll inner values = values := by
  induction count generalizing r values with
  | zero =>
      rw [readMany, EStateM.run_pure] at h
      cases h
      rfl
  | succ count ih =>
      obtain ⟨value, middle, rest, first, others, rfl⟩ := run_readMany_succ_eq_ok h
      rw [canonicalAll, element first, ih others]

theorem canonical_of_primitive {α : Type} {read : ReadM .littleEndian α} (ft : FieldType)
    (wrap : α → DynamicValue) (decodes : deserializeValue ft = do return wrap (← mapCdrErr read))
    (canonical : ∀ a, (wrap a).canonical ft = wrap a)
    {r r' : CdrReader .littleEndian} {v : DynamicValue}
    (h : (deserializeValue ft).run r = .ok v r') : v.canonical ft = v := by
  rw [decodes] at h
  obtain ⟨a, -, rfl⟩ := run_map_eq_ok h
  exact canonical a

theorem canonical_of_counted {inner : FieldType}
    (element : ∀ {r r' v}, (deserializeValue inner).run r = .ok v r' → v.canonical inner = v)
    {r r' : CdrReader .littleEndian} {v : DynamicValue}
    (h : (do let len ← mapCdrErr readSequenceLength
             return DynamicValue.array (← readMany (deserializeValue inner) len)).run r =
      .ok v r') :
    ∃ values, v = .array values ∧ canonicalAll inner values = values := by
  obtain ⟨len, middle, -, last⟩ := run_bind_eq_ok h
  obtain ⟨values, loop, rfl⟩ := run_map_eq_ok last
  exact ⟨values, rfl, canonicalAll_of_run element loop⟩

theorem canonical_of_sequence {inner : FieldType}
    (element : ∀ {r r' : CdrReader .littleEndian} {v : DynamicValue},
      (deserializeValue inner).run r = .ok v r' → v.canonical inner = v)
    {r r' : CdrReader .littleEndian} {v : DynamicValue}
    (h : (deserializeValue (.sequence inner)).run r = .ok v r') :
    v.canonical (.sequence inner) = v := by
  by_cases octets : inner = .uint8
  · subst octets
    exact canonical_of_primitive (.sequence .uint8) .bytes rfl (fun _ => rfl) h
  · rw [deserializeValue_sequence octets] at h
    obtain ⟨values, rfl, same⟩ := canonical_of_counted element h
    rw [canonical_sequence octets, same]

mutual

/-- The decoder returns octet sequences in their `bytes` form. -/
theorem canonical_of_run : ∀ (ft : FieldType) {r r' : CdrReader .littleEndian}
    {v : DynamicValue}, (deserializeValue ft).run r = .ok v r' → v.canonical ft = v
  | .bool, _, _, _, h => canonical_of_primitive .bool .bool rfl (fun _ => rfl) h
  | .int8, _, _, _, h => canonical_of_primitive .int8 .int8 rfl (fun _ => rfl) h
  | .int16, _, _, _, h => canonical_of_primitive .int16 .int16 rfl (fun _ => rfl) h
  | .int32, _, _, _, h => canonical_of_primitive .int32 .int32 rfl (fun _ => rfl) h
  | .int64, _, _, _, h => canonical_of_primitive .int64 .int64 rfl (fun _ => rfl) h
  | .uint8, _, _, _, h => canonical_of_primitive .uint8 .uint8 rfl (fun _ => rfl) h
  | .uint16, _, _, _, h => canonical_of_primitive .uint16 .uint16 rfl (fun _ => rfl) h
  | .uint32, _, _, _, h => canonical_of_primitive .uint32 .uint32 rfl (fun _ => rfl) h
  | .uint64, _, _, _, h => canonical_of_primitive .uint64 .uint64 rfl (fun _ => rfl) h
  | .float32, _, _, _, h => canonical_of_primitive .float32 .float32 rfl (fun _ => rfl) h
  | .float64, _, _, _, h => canonical_of_primitive .float64 .float64 rfl (fun _ => rfl) h
  | .string, _, _, _, h => canonical_of_primitive .string .string rfl (fun _ => rfl) h
  | .boundedString max, _, _, _, h =>
      canonical_of_primitive (.boundedString max) .string rfl (fun _ => rfl) h
  | .array inner len, r, _, _, h => by
      obtain ⟨values, loop, rfl⟩ := run_map_eq_ok h
      rw [DynamicValue.canonical, canonicalAll_of_run (canonical_of_run inner) loop]
  | .sequence inner, _, _, _, h => canonical_of_sequence (canonical_of_run inner) h
  | .boundedSequence inner max, _, _, v, h => by
      rw [deserializeValue_bounded] at h
      rw [canonical_bounded]
      exact canonical_of_sequence (canonical_of_run inner) h
  | .message schema, r, _, _, h => by
      obtain ⟨m, read, rfl⟩ := run_map_eq_ok h
      rw [DynamicValue.canonical, canonicalMessage_of_run schema read]

theorem canonicalFields_of_run : ∀ (fields : List FieldSchema) {r r' : CdrReader .littleEndian}
    {values : List DynamicValue}, (deserializeFields fields).run r = .ok values r' →
    canonicalFields fields values = values
  | [], r, _, _, h => by
      cases h
      rfl
  | ⟨name, fieldType, default⟩ :: fields, r, _, _, h => by
      obtain ⟨value, middle, first, last⟩ := run_bind_eq_ok h
      obtain ⟨rest, others, rfl⟩ := run_map_eq_ok last
      rw [canonicalFields, canonicalFields_of_run fields others]
      exact congrArg (· :: rest) (canonical_of_run fieldType first)

theorem canonicalMessage_of_run : ∀ (schema : MessageSchema) {r r' : CdrReader .littleEndian}
    {m : DynamicMessage}, (deserializeMessage schema).run r = .ok m r' →
    canonicalMessage schema m = m
  | ⟨typeName, package, name, fields, typeHash⟩, r, _, _, h => by
      obtain ⟨values, read, rfl⟩ := run_map_eq_ok h
      exact congrArg (DynamicMessage.mk _) (canonicalFields_of_run fields read)

end

/-! ## What a canonical value conforms to -/

/-- Only elements other than octets stay in an array. -/
theorem array_of_canonical {inner : FieldType} {vs ws : List DynamicValue}
    (same : (DynamicValue.array vs).canonical (.sequence inner) = .array ws) :
    inner ≠ .uint8 ∧ canonicalAll inner vs = ws := by
  have octets : inner ≠ .uint8 := by
    rintro rfl
    cases same
  rw [canonical_sequence octets] at same
  exact ⟨octets, DynamicValue.array.inj same⟩

mutual

/-- A representable value conforms when its octet sequences are in their `bytes` form. -/
theorem conforms_of_canonical : ∀ (v : DynamicValue) (ft : FieldType), Representable ft v →
    v.canonical ft = v → Conforms ft v
  | .bool _, .bool, _, _ => trivial
  | .int8 _, .int8, _, _ => trivial
  | .int16 _, .int16, _, _ => trivial
  | .int32 _, .int32, _, _ => trivial
  | .int64 _, .int64, _, _ => trivial
  | .uint8 _, .uint8, _, _ => trivial
  | .uint16 _, .uint16, _, _ => trivial
  | .uint32 _, .uint32, _, _ => trivial
  | .uint64 _, .uint64, _, _ => trivial
  | .float32 _, .float32, _, _ => trivial
  | .float64 _, .float64, _, _ => trivial
  | .string _, .string, fits, _ => fits
  | .string _, .boundedString _, fits, _ => fits
  | .bytes _, .sequence _, fits, _ => fits
  | .array vs, .array inner _, fits, same =>
      ⟨fits.1, allConform_of_canonical vs inner fits.2 (DynamicValue.array.inj same)⟩
  | .array vs, .sequence inner, fits, same => by
      obtain ⟨octets, same⟩ := array_of_canonical same
      exact ⟨fits.1.within octets, allConform_of_canonical vs inner fits.2 same⟩
  | .array vs, .boundedSequence inner max, fits, same => by
      rw [canonical_bounded] at same
      obtain ⟨octets, same⟩ := array_of_canonical same
      exact ⟨fits.1.within octets, allConform_of_canonical vs inner fits.2 same⟩
  | .message m, .message schema, fits, same =>
      ⟨fits.1, messageConforms_of_canonical m schema fits.2 (DynamicValue.message.inj same)⟩
termination_by structural v => v

theorem allConform_of_canonical : ∀ (vs : List DynamicValue) (inner : FieldType),
    AllRepresentable inner vs → canonicalAll inner vs = vs → AllConform inner vs
  | [], _, _, _ => trivial
  | v :: rest, inner, fits, same =>
      ⟨conforms_of_canonical v inner fits.1 (List.cons.inj same).1,
        allConform_of_canonical rest inner fits.2 (List.cons.inj same).2⟩
termination_by structural vs => vs

theorem fieldsConform_of_canonical : ∀ (vs : List DynamicValue) (fields : List FieldSchema),
    FieldsRepresentable fields vs → canonicalFields fields vs = vs → FieldsConform fields vs
  | [], [], _, _ => trivial
  | v :: rest, field :: fields, fits, same =>
      ⟨conforms_of_canonical v field.fieldType fits.1 (List.cons.inj same).1,
        fieldsConform_of_canonical rest fields fits.2 (List.cons.inj same).2⟩
termination_by structural vs => vs

theorem messageConforms_of_canonical : ∀ (m : DynamicMessage) (schema : MessageSchema),
    MessageRepresentable schema m → canonicalMessage schema m = m → MessageConforms schema m
  | ⟨_, values⟩, schema, fits, same =>
      fieldsConform_of_canonical values schema.fields fits (DynamicMessage.mk.inj same).2
termination_by structural m => m

end

/-! ## Forwarding -/

/-- What it takes for a decoded message to be forwarded: it is encoded, and the encoding decodes
under the same schema to the same message. -/
def Forwards (msg : DynamicMessage) (schema : MessageSchema) : Prop :=
  ∃ out, serializeCdr msg = .ok out ∧ deserializeCdr out schema = .ok msg

/-- A message that is forwarded conforms to its schema. -/
theorem messageConforms_of_forwards {msg : DynamicMessage} (h : Forwards msg msg.schema) :
    MessageConforms msg.schema msg := by
  obtain ⟨out, encoded, decoded⟩ := h
  have fits := messageRepresentable_of_decodes encoded decoded rfl
  obtain ⟨-, -, r, read⟩ := deserializeCdr_eq_ok_iff.mp decoded
  exact messageConforms_of_canonical msg msg.schema fits (canonicalMessage_of_run msg.schema read)

/-- **When a decoded message can be forwarded.**  A message that was decoded from accepted
octets is encoded, and decoded to itself again, exactly when decoding met neither an octet
sequence with a bound nor an unterminated string of `2^32 - 1` octets. -/
theorem forwards_iff_reencodable (schema : MessageSchema) (data : List UInt8)
    (msg : DynamicMessage) (accepted : deserializeCdr data schema = .ok msg) :
    Forwards msg schema ↔ reencodableCdr data schema = true := by
  obtain ⟨-, -, r, read⟩ := deserializeCdr_eq_ok_iff.mp accepted
  obtain ⟨rfl, conforms⟩ := messageConforms_iff schema read
  have canonical : msg.canonical = msg := canonicalMessage_of_run msg.schema read
  rw [reencodableCdr, conforms]
  constructor
  · exact messageConforms_of_forwards
  · intro h
    obtain ⟨out, encoded, decoded⟩ := deserializeCdr_serializeCdr msg h
    rw [canonical] at decoded
    exact ⟨out, encoded, decoded⟩

/-- A message with an octet sequence, with or without a bound. -/
def payloadSchema (payload : FieldType) : MessageSchema where
  typeName := "demo_msgs/msg/Payload"
  package := "demo_msgs"
  name := "Payload"
  fields := [⟨"data", payload, none⟩]

/-- Two octets behind their length. -/
def payloadOctets : List UInt8 := [0, 1, 0, 0, 2, 0, 0, 0, 7, 8]

theorem forwards_payload :
    deserializeCdr payloadOctets (payloadSchema (.sequence .uint8)) =
        .ok ⟨payloadSchema (.sequence .uint8), [.bytes [7, 8]]⟩ ∧
      Forwards ⟨payloadSchema (.sequence .uint8), [.bytes [7, 8]]⟩
        (payloadSchema (.sequence .uint8)) :=
  ⟨rfl, (forwards_iff_reencodable _ payloadOctets _ rfl).mpr rfl⟩

/-- With a bound on the sequence the same octets are accepted, and the message they decode to
is refused by the encoder. -/
theorem bounded_payload_not_forwarded :
    ∃ msg, deserializeCdr payloadOctets (payloadSchema (.boundedSequence .uint8 4)) = .ok msg ∧
      serializeCdr msg =
        .error (.serializationError (.bytes [7, 8]) (.boundedSequence .uint8 4)) ∧
      ¬ Forwards msg (payloadSchema (.boundedSequence .uint8 4)) := by
  refine ⟨⟨payloadSchema (.boundedSequence .uint8 4), [.bytes [7, 8]]⟩, rfl, rfl, ?_⟩
  rintro ⟨out, encoded, -⟩
  cases encoded

end RosZ.Dynamic
