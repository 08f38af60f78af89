import RosZ.Dynamic.RoundTrip

/-!
# Cut and extended encodings

What the dynamic decoder makes of an encoding that was cut short, or that has
octets behind it.

* `local_deserializeValue` — the decoder looks only at what it consumes, whatever
  the field type;
* with `reads_deserializeMessage`, which says that it consumes an encoding exactly,
  this is all that is needed: on a proper cut it could only stop where it stops on
  the whole.
-/

namespace RosZ.Dynamic

open RosZ.Cdr Wire CdrReader

/-! ## The decoder is local -/

theorem local_mapCdrErr {α : Type} {read : ReadM .littleEndian α} (isLocal : Local read) :
    Local (mapCdrErr read) :=
  isLocal.adaptExcept _

/-- A primitive read and wrapped. -/
theorem local_primitive {α : Type} {read : ReadM .littleEndian α} (isLocal : Local read)
    (wrap : α → DynamicValue) : Local (do return wrap (← mapCdrErr read) : DecodeM DynamicValue) :=
  (local_mapCdrErr isLocal).bind fun _ => .pure _

/-- A counted loop behind its length prefix. -/
theorem local_counted {read : DecodeM DynamicValue} (isLocal : Local read) :
    Local (do let len ← mapCdrErr readSequenceLength
              return DynamicValue.array (← readMany read len)) :=
  (local_mapCdrErr local_readSequenceLength).bind fun len =>
    (isLocal.readMany len).bind fun _ => .pure _

theorem local_sequence {inner : FieldType} (isLocal : Local (deserializeValue inner)) :
    Local (deserializeValue (.sequence inner)) := by
  by_cases octets : inner = .uint8
  · subst octets
    exact local_primitive local_readByteSequence _
  · rw [deserializeValue_sequence octets]
    exact local_counted isLocal

mutual

/-- **The decoder of every field type looks only at what it consumes.** -/
theorem local_deserializeValue : ∀ ft : FieldType, Local (deserializeValue ft)
  | .bool => local_primitive local_readBool _
  | .int8 => local_primitive (local_readByte.bind fun _ => .pure _) _
  | .int16 => local_primitive ((local_readWord 2).bind fun _ => .pure _) _
  | .int32 => local_primitive ((local_readWord 4).bind fun _ => .pure _) _
  | .int64 => local_primitive ((local_readWord 8).bind fun _ => .pure _) _
  | .uint8 => local_primitive local_readByte _
  | .uint16 => local_primitive ((local_readWord 2).bind fun _ => .pure _) _
  | .uint32 => local_primitive local_readU32 _
  | .uint64 => local_primitive ((local_readWord 8).bind fun _ => .pure _) _
  | .float32 => local_primitive local_readU32 _
  | .float64 => local_primitive ((local_readWord 8).bind fun _ => .pure _) _
  | .string => local_primitive local_readString _
  | .boundedString _ => local_primitive local_readString _
  | .array inner len => ((local_deserializeValue inner).readMany len).bind fun _ => .pure _
  | .sequence inner => local_sequence (local_deserializeValue inner)
  | .boundedSequence inner max => by
      rw [deserializeValue_bounded]
      exact local_sequence (local_deserializeValue inner)
  | .message schema => (local_deserializeMessage schema).bind fun _ => .pure _

theorem local_deserializeFields : ∀ fields : List FieldSchema, Local (deserializeFields fields)
  | [] => .pure _
  | ⟨_, fieldType, _⟩ :: fields =>
      (local_deserializeValue fieldType).bind fun _ =>
        (local_deserializeFields fields).bind fun _ => .pure _

theorem local_deserializeMessage : ∀ schema : MessageSchema, Local (deserializeMessage schema)
  | ⟨_, _, _, fields, _⟩ => (local_deserializeFields fields).bind fun _ => .pure _

end

/-! ## Whole messages -/

/-- What follows an accepted payload does not change what is decoded from it. -/
theorem deserializeCdr_append {data : List UInt8} {schema : MessageSchema} {msg : DynamicMessage}
    (decoded : deserializeCdr data schema = .ok msg) (more : List UInt8) :
    deserializeCdr (data ++ more) schema = .ok msg := by
  obtain ⟨long, header, r, read⟩ := deserializeCdr_eq_ok_iff.mp decoded
  obtain ⟨pos, -, -, longer⟩ :=
    local_deserializeMessage schema (data.drop 4) 0 msg r (Nat.zero_le _) read
  refine deserializeCdr_eq_ok_iff.mpr ⟨?_, ?_, ⟨data.drop 4 ++ more, pos⟩, ?_⟩
  · rw [List.length_append]
    omega
  · rw [List.take_append_of_le_length (by omega), header]
  · rw [List.drop_append_of_le_length long]
    exact longer more

/-- A proper cut of an encoding is refused, in the header or behind it. -/
theorem deserializeCdr_cut {msg : DynamicMessage} (conforms : msg.Conforming)
    {cut data : List UInt8} (encoded : serializeCdr msg = .ok data) (isCut : cut <+: data)
    (proper : cut ≠ data) : ∃ e, deserializeCdr cut msg.schema = .error e := by
  cases decoded : deserializeCdr cut msg.schema with
  | error e => exact ⟨e, rfl⟩
  | ok short =>
      obtain ⟨long, -, r, read⟩ := deserializeCdr_eq_ok_iff.mp decoded
      rw [serializeCdr_eq conforms.representable, Except.ok.injEq] at encoded
      subst encoded
      -- the cut goes through the payload
      obtain ⟨body, rfl⟩ : ∃ body, cut = cdrHeaderLe ++ body := by
        refine ⟨cut.drop 4, ?_⟩
        have start : cut.take 4 = cdrHeaderLe := by
          rw [List.prefix_iff_eq_take.mp isCut, List.take_take, Nat.min_eq_left long]
          rfl
        rw [← start, List.take_append_drop]
      have isCut' := (List.prefix_append_right_inj cdrHeaderLe).mp isCut
      have proper' : body ≠ (elementsLayout .littleEndian (staticMessage msg.schema msg)).place 0 :=
        fun same => proper (congrArg (cdrHeaderLe ++ ·) same)
      obtain ⟨e, after, refused⟩ := (reads_deserializeMessage msg conforms.representable).refuses_cut
        (local_deserializeMessage msg.schema) [] isCut' proper'
      cases refused.symm.trans read

/-- **Truncation is detected and trailing octets are ignored.**  A conforming message is
encoded; every proper prefix of the encoding is refused, and octets behind it change
nothing. -/
theorem encoding_delimitsItself (msg : DynamicMessage) (conforms : msg.Conforming) :
    ∃ data, serializeCdr msg = .ok data ∧
      (∀ cut, cut <+: data → cut ≠ data → ∃ e, deserializeCdr cut msg.schema = .error e) ∧
      deserializeCdr data msg.schema = .ok msg.canonical ∧
      ∀ more, deserializeCdr (data ++ more) msg.schema = deserializeCdr data msg.schema := by
  obtain ⟨data, encoded, decoded⟩ := decodes_serializeCdr conforms.representable
  refine ⟨data, encoded, fun cut => deserializeCdr_cut conforms encoded, decoded, fun more => ?_⟩
  rw [deserializeCdr_append decoded more, decoded]

theorem encoding_delimitsItself_scan :
    ∃ data, serializeCdr scan = .ok data ∧
      (∀ cut, cut <+: data → cut ≠ data → ∃ e, deserializeCdr cut scan.schema = .error e) ∧
      deserializeCdr data scan.schema = .ok scan.canonical ∧
      ∀ more, deserializeCdr (data ++ more) scan.schema = deserializeCdr data scan.schema :=
  encoding_delimitsItself scan scan_conforming

end RosZ.Dynamic
