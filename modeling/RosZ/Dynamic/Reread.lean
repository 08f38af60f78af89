import RosZ.Dynamic.RoundTrip
import RosZ.Lib.Fallible

/-!
# What survives the trip

The encoder accepts more than it can mean: it zips fields with values and takes any length
for an array.  What it writes for such a value may still be read, as another one.

`representable_of_reread` says when that is so: if the decoder returns a value with the same
content — an array of `uint8` and the `bytes` of its octets taken for one — then the value
that was written is one its field type calls for.  The induction follows the encoder, and
what carries it is that behind a representable value the reader stands where the writer
stood.
-/

namespace RosZ.Dynamic

open RosZ.Cdr Wire CdrReader

/-! ## Octets in either form -/

/-- The octets of an array of `uint8` values. -/
def uint8s? : List DynamicValue → Option (List UInt8)
  | [] => some []
  | .uint8 v :: rest => (uint8s? rest).map (v :: ·)
  | _ :: _ => none

mutual

/-- The value with every array of `uint8` values as `bytes`, whatever its type. -/
def DynamicValue.packed : DynamicValue → DynamicValue
  | .array vs =>
      match uint8s? vs with
      | some octets => .bytes octets
      | none => .array (packedAll vs)
  | .message m => .message m.packed
  | v => v
termination_by structural v => v

def packedAll : List DynamicValue → List DynamicValue
  | [] => []
  | v :: rest => v.packed :: packedAll rest
termination_by structural vs => vs

def DynamicMessage.packed : DynamicMessage → DynamicMessage
  | ⟨schema, values⟩ => ⟨schema, packedAll values⟩
termination_by structural m => m

end

theorem uint8s?_eq_some_iff {vs : List DynamicValue} {octets : List UInt8} :
    uint8s? vs = some octets ↔ vs = octets.map .uint8 := by
  induction vs generalizing octets with
  | nil =>
      rw [uint8s?, Option.some.injEq]
      constructor
      · rintro rfl
        rfl
      · intro same
        exact (List.map_eq_nil_iff.mp same.symm).symm
  | cons v rest ih =>
      cases v with
      | uint8 octet =>
          rw [uint8s?, Option.map_eq_some_iff]
          constructor
          · rintro ⟨others, found, rfl⟩
            rw [ih.mp found, List.map_cons]
          · intro same
            obtain ⟨first, others, rfl, head, tail⟩ := List.map_eq_cons_iff.mp same.symm
            cases head
            exact ⟨others, ih.mpr tail.symm, rfl⟩
      | _ =>
          rw [uint8s?]
          · constructor
            · intro found
              cases found
            · intro same
              obtain ⟨first, others, -, head, -⟩ := List.map_eq_cons_iff.mp same.symm
              cases head
          · intro octet same
            cases same

@[simp] theorem length_packedAll (vs : List DynamicValue) :
    (packedAll vs).length = vs.length := by
  induction vs with
  | nil => rfl
  | cons v rest ih => simp [packedAll, ih]

theorem uint8s?_packedAll (vs : List DynamicValue) : uint8s? (packedAll vs) = uint8s? vs := by
  induction vs with
  | nil => rfl
  | cons v rest ih =>
      cases v with
      | uint8 octet => simp [packedAll, DynamicValue.packed, uint8s?, ih]
      | array vs =>
          rw [packedAll, DynamicValue.packed]
          cases uint8s? vs <;> rfl
      | _ => rfl

theorem length_eq_of_packedAll {vs ws : List DynamicValue} (same : packedAll vs = packedAll ws) :
    vs.length = ws.length := by
  rw [← length_packedAll, same, length_packedAll]

theorem schema_packed (m : DynamicMessage) : m.packed.schema = m.schema := by
  obtain ⟨schema, values⟩ := m
  rfl

/-- Arrays are packed alike when their elements are. -/
theorem packed_array_eq_iff {vs ws : List DynamicValue} :
    (DynamicValue.array vs).packed = (DynamicValue.array ws).packed ↔
      packedAll vs = packedAll ws := by
  constructor
  · intro same
    rw [DynamicValue.packed, DynamicValue.packed] at same
    cases left : uint8s? vs with
    | none =>
        cases right : uint8s? ws with
        | none => simpa [left, right] using same
        | some octets => simp [left, right] at same
    | some octets =>
        cases right : uint8s? ws with
        | none => simp [left, right] at same
        | some octets' =>
            simp only [left, right, DynamicValue.bytes.injEq] at same
            rw [uint8s?_eq_some_iff.mp left, uint8s?_eq_some_iff.mp right, same]
  · intro same
    have octets : uint8s? vs = uint8s? ws := by
      rw [← uint8s?_packedAll, same, uint8s?_packedAll]
    rw [DynamicValue.packed, DynamicValue.packed, octets, same]

/-! ## Successful runs -/

section Runs

variable {α : Type}

/-- Mapping the error leaves a success alone. -/
theorem run_mapCdrErr_eq_ok {read : ReadM .littleEndian α} {r r' : CdrReader .littleEndian}
    {a : α} : (mapCdrErr read).run r = .ok a r' ↔ read.run r = .ok a r' := by
  simp only [mapCdrErr, EStateM.run, EStateM.adaptExcept]
  cases read r with
  | ok b s => simp
  | error e s => simp

end Runs

/-! ## What survives the trip -/

/-- The writer has grown, and still counts from the same offset. -/
def Grows (w w' : Writer) : Prop :=
  (∃ octets, w'.buffer = w.buffer ++ octets) ∧ w'.startOffset = w.startOffset

theorem Grows.refl (w : Writer) : Grows w w := ⟨⟨[], (List.append_nil _).symm⟩, rfl⟩

theorem Grows.trans {w w' w'' : Writer} (first : Grows w w') (last : Grows w' w'') :
    Grows w w'' := by
  obtain ⟨⟨octets, grown⟩, same⟩ := first
  obtain ⟨⟨octets', grown'⟩, same'⟩ := last
  refine ⟨⟨octets ++ octets', ?_⟩, same'.trans same⟩
  rw [grown', grown, List.append_assoc]

theorem grows_extendFromSlice (w : Writer) (data : List UInt8) :
    Grows w (w.extendFromSlice data) := ⟨⟨data, rfl⟩, rfl⟩

theorem grows_push (w : Writer) (byte : UInt8) : Grows w (w.push byte) := ⟨⟨[byte], rfl⟩, rfl⟩

theorem grows_align (w : Writer) (alignment : ℕ) : Grows w (w.align alignment) := by
  unfold CdrWriter.align
  dsimp only
  split
  · exact grows_extendFromSlice w _
  · exact Grows.refl w

theorem grows_writeWord (width value : ℕ) (w : Writer) : Grows w (w.writeWord width value) :=
  (grows_align w width).trans (grows_extendFromSlice _ _)

theorem grows_writeString (s : String) (w : Writer) : Grows w (w.writeString s) :=
  ((grows_writeWord 4 _ w).trans (grows_extendFromSlice _ _)).trans (grows_push _ _)

theorem grows_writeBytes (bytes : List UInt8) (w : Writer) : Grows w (w.writeBytes bytes) :=
  (grows_writeWord 4 _ w).trans (grows_extendFromSlice _ _)

mutual

/-- The encoder only ever appends. -/
theorem serializeValue_grows : ∀ (v : DynamicValue) (ft : FieldType) {w w' : Writer},
    serializeValue v ft w = .ok w' → Grows w w'
  | .bool _, .bool, w, _, rfl => grows_push w _
  | .int8 _, .int8, w, _, rfl => grows_push w _
  | .int16 _, .int16, w, _, rfl => grows_writeWord 2 _ w
  | .int32 _, .int32, w, _, rfl => grows_writeWord 4 _ w
  | .int64 _, .int64, w, _, rfl => grows_writeWord 8 _ w
  | .uint8 _, .uint8, w, _, rfl => grows_push w _
  | .uint16 _, .uint16, w, _, rfl => grows_writeWord 2 _ w
  | .uint32 _, .uint32, w, _, rfl => grows_writeWord 4 _ w
  | .uint64 _, .uint64, w, _, rfl => grows_writeWord 8 _ w
  | .float32 _, .float32, w, _, rfl => grows_writeWord 4 _ w
  | .float64 _, .float64, w, _, rfl => grows_writeWord 8 _ w
  | .string v, .string, w, _, rfl => grows_writeString v w
  | .string v, .boundedString _, w, _, rfl => grows_writeString v w
  | .bytes v, .sequence .uint8, w, _, rfl => grows_writeBytes v w
  | .array vs, .array inner _, _, _, h => serializeAll_grows vs inner h
  | .array vs, .sequence inner, w, _, h =>
      (grows_writeWord 4 _ w).trans (serializeAll_grows vs inner h)
  | .array vs, .boundedSequence inner _, w, _, h =>
      (grows_writeWord 4 _ w).trans (serializeAll_grows vs inner h)
  | .message m, .message _, _, _, h => serializeMessage_grows m h
termination_by structural v => v

theorem serializeAll_grows : ∀ (vs : List DynamicValue) (inner : FieldType) {w w' : Writer},
    serializeAll vs inner w = .ok w' → Grows w w'
  | [], _, w, _, rfl => Grows.refl w
  | v :: rest, inner, w, w', h => by
      obtain ⟨middle, first, last⟩ := Fallible.bind_eq_ok_iff.mp h
      exact (serializeValue_grows v inner first).trans (serializeAll_grows rest inner last)
termination_by structural vs => vs

theorem serializeFields_grows : ∀ (vs : List DynamicValue) (fields : List FieldSchema)
    {w w' : Writer}, serializeFields vs fields w = .ok w' → Grows w w'
  | [], _, w, _, rfl => Grows.refl w
  | _ :: _, [], w, _, rfl => Grows.refl w
  | v :: rest, field :: fields, w, w', h => by
      obtain ⟨middle, first, last⟩ := Fallible.bind_eq_ok_iff.mp h
      exact (serializeValue_grows v field.fieldType first).trans
        (serializeFields_grows rest fields last)
termination_by structural vs => vs

theorem serializeMessage_grows : ∀ (m : DynamicMessage) {w w' : Writer},
    serializeMessage m w = .ok w' → Grows w w'
  | ⟨schema, values⟩, _, _, h => serializeFields_grows values schema.fields h
termination_by structural m => m

end

/-- The writer as a sink. -/
abbrev writerSink : Sink Writer UInt8 := CdrWriter.sink .littleEndian (List UInt8)

/-- The reader of what `w'` holds with `after` behind it, at the position of `w`. -/
def readerAt (w w' : Writer) (after : List UInt8) : CdrReader .littleEndian :=
  ⟨(w'.buffer ++ after).drop w.startOffset, w.position⟩

theorem Grows.readerAt_eq {w w' w'' : Writer} (grows : Grows w' w'') (after : List UInt8) :
    ∃ after', readerAt w w'' after = readerAt w w' after' ∧
      readerAt w' w'' after = readerAt w' w' after' := by
  obtain ⟨⟨octets, grown⟩, -⟩ := grows
  refine ⟨octets ++ after, ?_, ?_⟩
  · rw [readerAt, readerAt, grown, List.append_assoc]
  · rw [readerAt, readerAt, grown, List.append_assoc]

/-- What was appended as a layout is read back as what the layout stands for. -/
theorem run_readerAt {ε α : Type} {read : EStateM ε (Cursor UInt8) α} {layout : Layout UInt8}
    {value : α} (reads : Reads read layout value) {w w' : Writer} (valid : writerSink.Valid w)
    (grown : w'.buffer = w.buffer ++ layout.place (writerSink.position w))
    (same : w'.startOffset = w.startOffset) (after : List UInt8) :
    read.run (readerAt w w' after) = .ok value (readerAt w' w' after) := by
  have inside : w.startOffset ≤ w.buffer.length := valid
  have position : (w.buffer.drop w.startOffset).length = w.position := List.length_drop
  have input : (w'.buffer ++ after).drop w.startOffset =
      w.buffer.drop w.startOffset ++ layout.place (w.buffer.drop w.startOffset).length ++
        after := by
    have place : writerSink.position w = (w.buffer.drop w.startOffset).length :=
      (CdrWriter.position_eq w).symm.trans position.symm
    rw [grown, place, List.append_assoc, List.drop_append_of_le_length inside, List.append_assoc]
  have ends : w'.position = (w.buffer.drop w.startOffset).length +
      (layout.place (w.buffer.drop w.startOffset).length).length := by
    have total : w'.buffer.length = w.buffer.length +
        (layout.place (writerSink.position w)).length := by rw [grown, List.length_append]
    have place : writerSink.position w = (w.buffer.drop w.startOffset).length :=
      (CdrWriter.position_eq w).symm.trans position.symm
    rw [place] at total
    show w'.buffer.length - w'.startOffset = _
    rw [same, total, List.length_drop]
    omega
  have run := reads (w.buffer.drop w.startOffset) after
  rw [← input, ← ends] at run
  rw [readerAt, readerAt, same, ← position]
  exact run

/-- A word is read back whatever its value. -/
theorem run_readU32_writeU32 (value : UInt32) {w w' : Writer} (valid : writerSink.Valid w)
    (grows : Grows (w.writeU32 value) w') (after : List UInt8) :
    (readU32 : ReadM .littleEndian UInt32).run (readerAt w w' after) =
        .ok value (readerAt (w.writeU32 value) w' after) ∧
      writerSink.Valid (w.writeU32 value) := by
  obtain ⟨grown, same⟩ := CdrWriter.appends_writeU32 value w valid
  obtain ⟨after', whole, rest⟩ := grows.readerAt_eq (w := w) after
  rw [whole, rest]
  exact ⟨run_readerAt (reads_readU32 value) valid grown same after',
    (Sink.advance valid grown same).1⟩

/-- A string that is read back is shorter than the longest length word. -/
theorem short_of_reread {s : String} {w : Writer} (valid : writerSink.Valid w)
    {after : List UInt8} {r : CdrReader .littleEndian}
    (h : (readString : ReadM .littleEndian String).run (readerAt w (w.writeString s) after) =
      .ok s r) : (utf8Bytes s).length < 2 ^ 32 - 1 := by
  have grows : Grows (w.writeU32 (UInt32.ofNat (utf8Bytes s).length + 1)) (w.writeString s) :=
    (grows_extendFromSlice _ _).trans (grows_push _ _)
  obtain ⟨word, middle, first, content⟩ := run_readString_eq_ok h
  rw [(run_readU32_writeU32 _ valid grows after).1] at first
  cases first
  have count : (UInt32.ofNat (utf8Bytes s).length + 1).toNat =
      ((utf8Bytes s).length + 1) % 2 ^ 32 := by
    have one : (1 : UInt32).toNat = 1 := rfl
    rw [UInt32.toNat_add, UInt32.toNat_ofNat', one]
    omega
  rcases content with ⟨-, rfl⟩ | ⟨octets, bytes, content⟩
  · decide
  · have len := length_of_run_readBytes bytes
    have bound : (utf8Bytes s).length ≤ octets.length := by
      rw [content]
      split
      · exact List.length_take_le' _ _
      · exact le_refl _
    omega

/-- Behind a representable value the reader stands where the writer did. -/
theorem run_readerAt_of_representable {v x : DynamicValue} {ft : FieldType}
    {w middle w' : Writer} (fits : Representable ft v) (valid : writerSink.Valid w)
    (wrote : serializeValue v ft w = .ok middle) (grows : Grows middle w') {after : List UInt8}
    {r : CdrReader .littleEndian}
    (h : (deserializeValue ft).run (readerAt w w' after) = .ok x r) :
    r = readerAt middle w' after ∧ writerSink.Valid middle := by
  obtain ⟨state, emitted, grown, same⟩ := emits_serializeValue v ft fits w valid
  rw [wrote] at emitted
  cases emitted
  obtain ⟨after', whole, rest⟩ := grows.readerAt_eq (w := w) after
  rw [whole, run_readerAt (reads_deserializeValue v ft fits) valid grown same after'] at h
  cases h
  exact ⟨rest.symm, (Sink.advance valid grown same).1⟩

/-- A sequence that is read back had its length in front, within the reader's limit. -/
theorem counted_of_reread {inner : FieldType} {vs : List DynamicValue} {x : DynamicValue}
    {w w' : Writer} (valid : writerSink.Valid w)
    (grows : Grows (w.writeSequenceLength vs.length) w') {after : List UInt8}
    {r : CdrReader .littleEndian}
    (h : (do let len ← mapCdrErr readSequenceLength
             return DynamicValue.array (← readMany (deserializeValue inner) len)).run
        (readerAt w w' after) = .ok x r)
    (same : x.packed = (DynamicValue.array vs).packed) :
    vs.length ≤ maxSequenceLength ∧ writerSink.Valid (w.writeSequenceLength vs.length) ∧
      ∃ values, packedAll values = packedAll vs ∧
        (readMany (deserializeValue inner) vs.length).run
          (readerAt (w.writeSequenceLength vs.length) w' after) = .ok values r := by
  obtain ⟨len, middle, first, last⟩ := run_bind_eq_ok h
  obtain ⟨values, loop, rfl⟩ := run_map_eq_ok last
  obtain ⟨⟨word, read, rfl⟩, within⟩ :=
    run_readSequenceLength_eq_ok (run_mapCdrErr_eq_ok.mp first)
  obtain ⟨reread, valid'⟩ := run_readU32_writeU32 (UInt32.ofNat vs.length) valid grows after
  rw [reread] at read
  cases read
  have elements := packed_array_eq_iff.mp same
  have count : (UInt32.ofNat vs.length).toNat = vs.length :=
    (length_of_run_readMany loop).symm.trans (length_eq_of_packedAll elements)
  rw [count] at loop within
  exact ⟨within, valid', values, elements, loop⟩

theorem schema_of_run {schema : MessageSchema} {m : DynamicMessage}
    {r r' : CdrReader .littleEndian} (read : (deserializeMessage schema).run r = .ok m r') :
    m.schema = schema := by
  obtain ⟨typeName, package, name, fields, typeHash⟩ := schema
  obtain ⟨values, -, rfl⟩ := run_map_eq_ok read
  rfl

theorem allRepresentable_map_uint8 (octets : List UInt8) :
    AllRepresentable .uint8 (octets.map .uint8) := by
  induction octets with
  | nil => trivial
  | cons octet rest ih => exact ⟨trivial, ih⟩

/-- Octets that are read back in bulk. -/
theorem representable_octets {vs : List DynamicValue} {octets : List UInt8}
    {r r' : CdrReader .littleEndian}
    (read : (readByteSequence : ReadM .littleEndian (List UInt8)).run r = .ok octets r')
    (same : (DynamicValue.bytes octets).packed = (DynamicValue.array vs).packed) :
    Countable .uint8 vs.length ∧ AllRepresentable .uint8 vs := by
  have content : uint8s? vs = some octets := by
    rw [DynamicValue.packed.eq_1] at same
    cases found : uint8s? vs with
    | none => simp [found, DynamicValue.packed] at same
    | some octets' =>
        simp only [found, DynamicValue.packed, DynamicValue.bytes.injEq] at same
        rw [same]
  rw [uint8s?_eq_some_iff] at content
  subst content
  refine ⟨?_, allRepresentable_map_uint8 octets⟩
  rw [List.length_map]
  exact fits_of_run_readByteSequence read

/-- A sequence that is read back is representable once its elements are. -/
theorem sequence_of_reread {vs : List DynamicValue} {inner : FieldType}
    (elements : ∀ {values : List DynamicValue} {w w' : Writer} {after : List UInt8}
      {r : CdrReader .littleEndian}, writerSink.Valid w → serializeAll vs inner w = .ok w' →
      (readMany (deserializeValue inner) vs.length).run (readerAt w w' after) = .ok values r →
      packedAll values = packedAll vs → AllRepresentable inner vs)
    {x : DynamicValue} {w w' : Writer} {after : List UInt8} {r : CdrReader .littleEndian}
    (valid : writerSink.Valid w)
    (wrote : serializeAll vs inner (w.writeSequenceLength vs.length) = .ok w')
    (read : (deserializeValue (.sequence inner)).run (readerAt w w' after) = .ok x r)
    (same : x.packed = (DynamicValue.array vs).packed) :
    Countable inner vs.length ∧ AllRepresentable inner vs := by
  by_cases octets : inner = .uint8
  · subst octets
    obtain ⟨bytes, back, rfl⟩ := run_map_eq_ok read
    exact representable_octets (run_mapCdrErr_eq_ok.mp back) same
  · rw [deserializeValue_sequence octets] at read
    obtain ⟨within, valid', values, content, loop⟩ :=
      counted_of_reread valid (serializeAll_grows vs inner wrote) read same
    exact ⟨countable_of_le within, elements valid' wrote loop content⟩

mutual

/-- **Only representable values survive.**  When the encoder writes a value and the decoder
returns one of the same content, what was written is representable. -/
theorem representable_of_reread : ∀ (v : DynamicValue) (ft : FieldType) {x : DynamicValue}
    {w w' : Writer} {after : List UInt8} {r : CdrReader .littleEndian}, writerSink.Valid w →
    serializeValue v ft w = .ok w' →
    (deserializeValue ft).run (readerAt w w' after) = .ok x r → x.packed = v.packed →
    Representable ft v
  | .bool _, .bool, _, _, _, _, _, _, _, _, _ => trivial
  | .int8 _, .int8, _, _, _, _, _, _, _, _, _ => trivial
  | .int16 _, .int16, _, _, _, _, _, _, _, _, _ => trivial
  | .int32 _, .int32, _, _, _, _, _, _, _, _, _ => trivial
  | .int64 _, .int64, _, _, _, _, _, _, _, _, _ => trivial
  | .uint8 _, .uint8, _, _, _, _, _, _, _, _, _ => trivial
  | .uint16 _, .uint16, _, _, _, _, _, _, _, _, _ => trivial
  | .uint32 _, .uint32, _, _, _, _, _, _, _, _, _ => trivial
  | .uint64 _, .uint64, _, _, _, _, _, _, _, _, _ => trivial
  | .float32 _, .float32, _, _, _, _, _, _, _, _, _ => trivial
  | .float64 _, .float64, _, _, _, _, _, _, _, _, _ => trivial
  | .string v, .string, _, w, _, _, _, valid, rfl, read, same => by
      obtain ⟨s, back, rfl⟩ := run_map_eq_ok read
      cases same
      exact short_of_reread valid (run_mapCdrErr_eq_ok.mp back)
  | .string v, .boundedString _, _, w, _, _, _, valid, rfl, read, same => by
      obtain ⟨s, back, rfl⟩ := run_map_eq_ok read
      cases same
      exact short_of_reread valid (run_mapCdrErr_eq_ok.mp back)
  | .bytes v, .sequence .uint8, _, _, _, _, _, _, _, read, same => by
      obtain ⟨octets, back, rfl⟩ := run_map_eq_ok read
      cases same
      exact ⟨rfl, fits_of_run_readByteSequence (run_mapCdrErr_eq_ok.mp back)⟩
  | .array vs, .array inner len, _, _, _, _, _, valid, wrote, read, same => by
      obtain ⟨values, loop, rfl⟩ := run_map_eq_ok read
      have elements := packed_array_eq_iff.mp same
      have count : values.length = vs.length := length_eq_of_packedAll elements
      have declared := length_of_run_readMany loop
      rw [← declared, count] at loop
      exact ⟨count.symm.trans declared,
        allRepresentable_of_reread vs inner valid wrote loop elements⟩
  | .array vs, .sequence inner, _, _, _, _, _, valid, wrote, read, same =>
      sequence_of_reread (allRepresentable_of_reread vs inner) valid wrote read same
  | .array vs, .boundedSequence inner max, _, _, _, _, _, valid, wrote, read, same => by
      rw [deserializeValue_bounded] at read
      exact sequence_of_reread (allRepresentable_of_reread vs inner) valid wrote read same
  | .message m, .message schema, _, _, _, _, _, valid, wrote, read, same => by
      obtain ⟨back, fields, rfl⟩ := run_map_eq_ok read
      have content : back.packed = m.packed := by
        simpa [DynamicValue.packed] using same
      obtain rfl : m.schema = schema := by
        rw [← schema_packed, ← content, schema_packed, schema_of_run fields]
      exact ⟨rfl, messageRepresentable_of_reread m valid wrote fields content⟩
termination_by structural v => v

theorem allRepresentable_of_reread : ∀ (vs : List DynamicValue) (inner : FieldType)
    {values : List DynamicValue} {w w' : Writer} {after : List UInt8}
    {r : CdrReader .littleEndian}, writerSink.Valid w → serializeAll vs inner w = .ok w' →
    (readMany (deserializeValue inner) vs.length).run (readerAt w w' after) = .ok values r →
    packedAll values = packedAll vs → AllRepresentable inner vs
  | [], _, _, _, _, _, _, _, _, _, _ => trivial
  | v :: rest, inner, _, w, w', after, _, valid, wrote, read, same => by
      obtain ⟨middle, first, last⟩ := Fallible.bind_eq_ok_iff.mp wrote
      have grows := serializeAll_grows rest inner last
      obtain ⟨value, between, values, head, tail, rfl⟩ := run_readMany_succ_eq_ok read
      obtain ⟨sameHead, sameTail⟩ := List.cons.inj same
      have fits : Representable inner v := by
        obtain ⟨after', whole, -⟩ := grows.readerAt_eq (w := w) after
        rw [whole] at head
        exact representable_of_reread v inner valid first head sameHead
      obtain ⟨rfl, valid'⟩ := run_readerAt_of_representable fits valid first grows head
      exact ⟨fits, allRepresentable_of_reread rest inner valid' last tail sameTail⟩
termination_by structural vs => vs

theorem fieldsRepresentable_of_reread : ∀ (vs : List DynamicValue) (fields : List FieldSchema)
    {values : List DynamicValue} {w w' : Writer} {after : List UInt8}
    {r : CdrReader .littleEndian}, writerSink.Valid w → serializeFields vs fields w = .ok w' →
    (deserializeFields fields).run (readerAt w w' after) = .ok values r →
    packedAll values = packedAll vs → FieldsRepresentable fields vs
  | [], [], _, _, _, _, _, _, _, _, _ => trivial
  | [], field :: fields, _, w, w', after, r, _, _, read, same => by
      obtain ⟨value, between, -, last⟩ := run_bind_eq_ok read
      obtain ⟨values, -, rfl⟩ := run_map_eq_ok last
      cases same
  | v :: rest, [], _, w, w', after, r, _, _, read, same => by
      cases read
      cases same
  | v :: rest, ⟨name, fieldType, default⟩ :: fields, _, w, w', after, r, valid, wrote, read,
      same => by
      obtain ⟨middle, first, last⟩ := Fallible.bind_eq_ok_iff.mp wrote
      have grows := serializeFields_grows rest fields last
      obtain ⟨value, between, head, read⟩ := run_bind_eq_ok read
      obtain ⟨values, tail, rfl⟩ := run_map_eq_ok read
      obtain ⟨sameHead, sameTail⟩ := List.cons.inj same
      have fits : Representable fieldType v := by
        obtain ⟨after', whole, -⟩ := grows.readerAt_eq (w := w) after
        rw [whole] at head
        exact representable_of_reread v fieldType valid first head sameHead
      obtain ⟨rfl, valid'⟩ := run_readerAt_of_representable fits valid first grows head
      exact ⟨fits, fieldsRepresentable_of_reread rest fields valid' last tail sameTail⟩
termination_by structural vs => vs

theorem messageRepresentable_of_reread : ∀ (m : DynamicMessage) {x : DynamicMessage}
    {w w' : Writer} {after : List UInt8} {r : CdrReader .littleEndian}, writerSink.Valid w →
    serializeMessage m w = .ok w' →
    (deserializeMessage m.schema).run (readerAt w w' after) = .ok x r → x.packed = m.packed →
    MessageRepresentable m.schema m
  | ⟨⟨_, _, _, fields, _⟩, values⟩, _, w, w', after, r, valid, wrote, read, same => by
      obtain ⟨back, fieldsRead, rfl⟩ := run_map_eq_ok read
      have content := congrArg DynamicMessage.values same
      exact fieldsRepresentable_of_reread values fields valid wrote fieldsRead content
termination_by structural m => m

end

/-- A message whose encoding decodes to the same content is representable. -/
theorem messageRepresentable_of_decodes {msg back : DynamicMessage} {data : List UInt8}
    (encoded : serializeCdr msg = .ok data)
    (decoded : deserializeCdr data msg.schema = .ok back) (same : back.packed = msg.packed) :
    MessageRepresentable msg.schema msg := by
  obtain ⟨w, wrote, done⟩ := Fallible.bind_eq_ok_iff.mp encoded
  cases done
  obtain ⟨-, -, r, read⟩ := deserializeCdr_eq_ok_iff.mp decoded
  have whole : (CdrReader.new (w.buffer.drop 4) : CdrReader .littleEndian) =
      readerAt (CdrWriter.new cdrHeaderLe) w [] := by
    rw [readerAt, List.append_nil]
    rfl
  rw [whole] at read
  exact messageRepresentable_of_reread msg (CdrWriter.valid_new cdrHeaderLe) wrote read same

end RosZ.Dynamic
