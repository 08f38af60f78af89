import RosZ.Cdr.Buffers

/-!
# What the serializer may write

Three things can go wrong between the serde serializer and its reader.

* `align(16)` for a `u128` slices up to 15 octets out of eight zeros, and panics.
* The deserializer knows no 128-bit integer, so a `u128` that was written cannot be read.
* Lengths wrap in their prefix word, and the reader refuses more than 100,000,000 entries.

An `i128` is refused by the serializer itself, but only when it comes to it.  What comes
before what is a matter of the *primitives* of a value, the writes the serializer makes
for it in order: `serialize_outcome` follows them and says which of the three outcomes a
value has.  What is read from an encoding that was written is then a question about
layouts, since layouts wrap as the writer does (`withinLimits_of_returns`).
-/

namespace RosZ.Cdr

open Wire

/-! ## The primitives of a value -/

mutual

/-- The primitive writes the serializer makes for a value, in order. -/
def SerdeValue.primitives : SerdeValue → List SerdeValue
  | .none => [.u32 0]
  | .some v => .u32 1 :: v.primitives
  | .unit => []
  | .unitStruct => []
  | .newtypeStruct v => v.primitives
  | .seq elements => .u32 (UInt32.ofNat elements.length) :: allPrimitives elements
  | .map entries => .u32 (UInt32.ofNat entries.length) :: entriesPrimitives entries
  | .tuple elements => allPrimitives elements
  | .tupleStruct fields => allPrimitives fields
  | .struct fields => allPrimitives fields
  | .unitVariant index => [.u32 index]
  | .newtypeVariant index v => .u32 index :: v.primitives
  | .tupleVariant index fields => .u32 index :: allPrimitives fields
  | .structVariant index fields => .u32 index :: allPrimitives fields
  | v => [v]

def allPrimitives : List SerdeValue → List SerdeValue
  | [] => []
  | v :: rest => v.primitives ++ allPrimitives rest

def entriesPrimitives : List (SerdeValue × SerdeValue) → List SerdeValue
  | [] => []
  | (k, v) :: rest => k.primitives ++ v.primitives ++ entriesPrimitives rest

end

section Primitives

open CdrSerializer CdrWriter

variable {order : ByteOrder} {B : Type} [CdrBuffer B] [LawfulCdrBuffer B]

/-- A 128-bit integer, or a value whose layout the serializer emits. -/
def Basic (order : ByteOrder) (B : Type) [CdrBuffer B] [LawfulCdrBuffer B] (p : SerdeValue) :
    Prop :=
  (∃ i, p = .i128 i) ∨ (∃ n, p = .u128 n) ∨ Emits (sink order B) (serialize p) (p.layout order)

/-- What `write` does is to write `ps` in order. -/
structure Flat (write : CdrWriter order B → Except Abort (CdrWriter order B))
    (layout : Layout UInt8) (ps : List SerdeValue) : Prop where
  writes : ∀ w, write w = serializeElements ps w
  occupies : layout = elementsLayout order ps
  basic : ∀ p ∈ ps, Basic order B p

omit [LawfulCdrBuffer B] in
theorem serializeElements_append (ps qs : List SerdeValue) (w : CdrWriter order B) :
    serializeElements (ps ++ qs) w = serializeElements ps w >>= serializeElements qs := by
  induction ps generalizing w with
  | nil => rfl
  | cons p rest ih =>
      rw [List.cons_append, serializeElements, serializeElements, bind_assoc]
      exact congrArg (serialize p w >>= ·) (funext ih)

theorem elementsLayout_append (order : ByteOrder) (ps qs : List SerdeValue) :
    elementsLayout order (ps ++ qs) = elementsLayout order ps * elementsLayout order qs := by
  induction ps with
  | nil => exact (one_mul _).symm
  | cons p rest ih => rw [List.cons_append, elementsLayout, elementsLayout, ih, mul_assoc]

theorem Flat.nothing : Flat (fun w : CdrWriter order B => .ok w) 1 [] where
  writes := fun _ => rfl
  occupies := rfl
  basic := nofun

/-- A primitive is its own. -/
theorem Flat.single {p : SerdeValue} (basic : Basic order B p) :
    Flat (serialize p : CdrWriter order B → _) (p.layout order) [p] where
  writes := fun w => (bind_pure (serialize p w)).symm
  occupies := (mul_one _).symm
  basic := by
    intro q among
    rw [List.mem_singleton.mp among]
    exact basic

theorem Flat.emitted {p : SerdeValue} (emits : Emits (sink order B) (serialize p) (p.layout order)) :
    Flat (serialize p : CdrWriter order B → _) (p.layout order) [p] :=
  .single (.inr (.inr emits))

/-- A tag or a length in front. -/
theorem Flat.word (v : UInt32) :
    Flat (serializeU32 v : CdrWriter order B → _) (wordLayout order 4 v.toNat) [.u32 v] :=
  @Flat.emitted order B _ _ (.u32 v) (emits_serializeU32 v)

/-- A value without parts and without a length. -/
theorem Flat.within {p : SerdeValue} (limits : p.withinLimits 0 = true) :
    Flat (serialize p : CdrWriter order B → _) (p.layout order) [p] :=
  .emitted (emits_serialize p limits)

theorem Flat.count (count : ℕ) :
    Flat (serializeSeq (some count) : CdrWriter order B → _) (wordLayout order 4 count)
      [.u32 (UInt32.ofNat count)] := by
  have length : wordLayout order 4 count = wordLayout order 4 (UInt32.ofNat count).toNat := by
    rw [UInt32.toNat_ofNat']
    exact (wordLayout_mod order 4 count).symm
  rw [length]
  exact .word (UInt32.ofNat count)

/-- Writes in sequence. -/
theorem Flat.bind {write next : CdrWriter order B → Except Abort (CdrWriter order B)}
    {first second : Layout UInt8} {ps qs : List SerdeValue} (head : Flat write first ps)
    (tail : Flat next second qs) :
    Flat (fun w => write w >>= next) (first * second) (ps ++ qs) where
  writes := by
    intro w
    rw [head.writes, serializeElements_append, funext tail.writes]
  occupies := by rw [elementsLayout_append, ← head.occupies, ← tail.occupies]
  basic := by
    intro p among
    rcases List.mem_append.mp among with front | back
    · exact head.basic p front
    · exact tail.basic p back

mutual

/-- **The serializer writes the primitives of a value, in order.** -/
theorem flat_serialize : ∀ v : SerdeValue,
    Flat (serialize v : CdrWriter order B → _) (v.layout order) v.primitives
  | .bool _ => .within rfl
  | .i8 _ => .within rfl
  | .i16 _ => .within rfl
  | .i32 _ => .within rfl
  | .i64 _ => .within rfl
  | .i128 v => .single (.inl ⟨v, rfl⟩)
  | .u8 _ => .within rfl
  | .u16 _ => .within rfl
  | .u32 v => .word v
  | .u64 _ => .within rfl
  | .u128 v => .single (.inr (.inl ⟨v, rfl⟩))
  | .f32 _ => .within rfl
  | .f64 _ => .within rfl
  | .char _ => .within rfl
  | .str v => .emitted (appends_writeString v).emits
  | .bytes v => .emitted (appends_writeBytes v).emits
  | .none => .word 0
  | .some v => (Flat.word 1).bind (flat_serialize v)
  | .unit => .nothing
  | .unitStruct => .nothing
  | .newtypeStruct v => flat_serialize v
  | .seq elements => (Flat.count elements.length).bind (flat_serializeElements elements)
  | .map entries => (Flat.count entries.length).bind (flat_serializeEntries entries)
  | .tuple elements => flat_serializeElements elements
  | .tupleStruct fields => flat_serializeElements fields
  | .struct fields => flat_serializeElements fields
  | .unitVariant index => .word index
  | .newtypeVariant index v => (Flat.word index).bind (flat_serialize v)
  | .tupleVariant index fields => (Flat.word index).bind (flat_serializeElements fields)
  | .structVariant index fields => (Flat.word index).bind (flat_serializeElements fields)
termination_by structural v => v

theorem flat_serializeElements : ∀ vs : List SerdeValue,
    Flat (serializeElements vs : CdrWriter order B → _) (elementsLayout order vs)
      (allPrimitives vs)
  | [] => .nothing
  | v :: rest => (flat_serialize v).bind (flat_serializeElements rest)
termination_by structural vs => vs

theorem flat_serializeEntries : ∀ entries : List (SerdeValue × SerdeValue),
    Flat (serializeEntries entries : CdrWriter order B → _) (entriesLayout order entries)
      (entriesPrimitives entries)
  | [] => .nothing
  | (k, v) :: rest =>
      ((flat_serialize k).bind (flat_serialize v)).bind (flat_serializeEntries rest)
termination_by structural entries => entries

end

/-! ## The three outcomes -/

/-- A `u128` among the primitives, before any `i128`, stands more than eight octets short of a
multiple of sixteen when writing starts at `pos`. -/
def Overpadded (order : ByteOrder) (ps : List SerdeValue) (pos : ℕ) : Prop :=
  ∃ before n after, ps = before ++ .u128 n :: after ∧ (∀ i, .i128 i ∉ before) ∧
    8 < Layout.padding 16 (pos + ((elementsLayout order before).place pos).length)

omit [LawfulCdrBuffer B] in
theorem alignPanics_iff {w : CdrWriter order B} :
    w.alignPanics 16 = true ↔ 8 < Layout.padding 16 w.position := by
  unfold alignPanics Layout.padding
  by_cases aligned : w.position % 16 = 0
  · simp [aligned]
  · simp [aligned]

theorem overpadded_of_head {n : BitVec 128} {rest : List SerdeValue} {pos : ℕ}
    (long : 8 < Layout.padding 16 pos) : Overpadded order (.u128 n :: rest) pos :=
  ⟨[], n, rest, rfl, nofun, long⟩

theorem not_overpadded_i128 (i : BitVec 128) (rest : List SerdeValue) (pos : ℕ) :
    ¬ Overpadded order (.i128 i :: rest) pos := by
  rintro ⟨before, n, after, shape, none, -⟩
  cases before with
  | nil => cases shape
  | cons p before =>
      obtain ⟨rfl, -⟩ := List.cons.inj shape
      exact none i List.mem_cons_self

/-- Behind a primitive that is written the rest decides. -/
theorem overpadded_cons_iff {p : SerdeValue} {rest : List SerdeValue} {pos : ℕ}
    (noI128 : ∀ i, p ≠ .i128 i) (short : ∀ n, p = .u128 n → Layout.padding 16 pos ≤ 8) :
    Overpadded order (p :: rest) pos ↔
      Overpadded order rest (pos + ((p.layout order).place pos).length) := by
  constructor
  · rintro ⟨before, n, after, shape, none, long⟩
    cases before with
    | nil =>
        obtain ⟨rfl, -⟩ := List.cons.inj shape
        exact absurd long (Nat.not_lt.mpr (short n rfl))
    | cons q before =>
        obtain ⟨rfl, rfl⟩ := List.cons.inj shape
        refine ⟨before, n, after, rfl, fun i among => none i (List.mem_cons_of_mem _ among), ?_⟩
        rw [elementsLayout, Layout.place_mul, List.length_append, ← Nat.add_assoc] at long
        exact long
  · rintro ⟨before, n, after, rfl, none, long⟩
    refine ⟨p :: before, n, after, rfl, ?_, ?_⟩
    · intro i among
      rcases List.mem_cons.mp among with same | later
      · exact noI128 i same.symm
      · exact none i later
    · rw [elementsLayout, Layout.place_mul, List.length_append, ← Nat.add_assoc]
      exact long

/-- What becomes of writing the primitives `ps`. -/
inductive Outcome (ps : List SerdeValue) (w : CdrWriter order B) : Prop where
  | panics (overpadded : Overpadded order ps w.position)
      (done : serializeElements ps w = .error .panic)
  | refused (safe : ¬ Overpadded order ps w.position) (among : ∃ i, .i128 i ∈ ps) {e : Error}
      (done : serializeElements ps w = .error (.err e))
  | written (safe : ¬ Overpadded order ps w.position) (none : ∀ i, .i128 i ∉ ps)
      {w' : CdrWriter order B} (done : serializeElements ps w = .ok w')
      (grown : LawfulCdrBuffer.bytes w'.buffer =
        LawfulCdrBuffer.bytes w.buffer ++ (elementsLayout order ps).place w.position)
      (same : w'.startOffset = w.startOffset)

/-- A primitive that is written is followed by the outcome of the rest. -/
theorem Outcome.cons {p : SerdeValue} {rest : List SerdeValue} {w middle : CdrWriter order B}
    (noI128 : ∀ i, p ≠ .i128 i) (short : ∀ n, p = .u128 n → Layout.padding 16 w.position ≤ 8)
    (valid : (sink order B).Valid w) (wrote : serialize p w = .ok middle)
    (grown : LawfulCdrBuffer.bytes middle.buffer =
      LawfulCdrBuffer.bytes w.buffer ++ (p.layout order).place w.position)
    (same : middle.startOffset = w.startOffset) (outcome : Outcome rest middle) :
    Outcome (p :: rest) w := by
  have step : serializeElements (p :: rest) w = serializeElements rest middle := by
    rw [serializeElements, wrote]
    rfl
  have advanced : middle.position = w.position + ((p.layout order).place w.position).length := by
    have counted := (Sink.advance valid grown same).2
    rw [← position_eq, ← position_eq] at counted
    exact counted
  have shift : Overpadded order (p :: rest) w.position ↔ Overpadded order rest middle.position := by
    rw [advanced]
    exact overpadded_cons_iff noI128 short
  cases outcome with
  | panics overpadded done => exact .panics (shift.mpr overpadded) (step.trans done)
  | refused safe among done =>
      obtain ⟨i, later⟩ := among
      exact .refused (mt shift.mp safe) ⟨i, List.mem_cons_of_mem _ later⟩ (step.trans done)
  | written safe none done grown' same' =>
      refine .written (mt shift.mp safe) ?_ (step.trans done) ?_ (same'.trans same)
      · intro i among
        rcases List.mem_cons.mp among with head | later
        · exact noI128 i head.symm
        · exact none i later
      · rw [grown', grown, advanced, elementsLayout, Layout.place_mul, List.append_assoc]

/-- **Every list of primitives has one of the three outcomes.** -/
theorem outcome_of_basic {ps : List SerdeValue} (basic : ∀ p ∈ ps, Basic order B p)
    {w : CdrWriter order B} (valid : (sink order B).Valid w) : Outcome ps w := by
  induction ps generalizing w with
  | nil =>
      refine .written ?_ (fun i => List.not_mem_nil) rfl (List.append_nil _).symm rfl
      rintro ⟨before, n, after, shape, -⟩
      exact List.append_ne_nil_of_right_ne_nil before (List.cons_ne_nil _ _) shape.symm
  | cons p rest ih =>
      have later : ∀ q ∈ rest, Basic order B q := fun q among =>
        basic q (List.mem_cons_of_mem p among)
      rcases basic p List.mem_cons_self with ⟨i, rfl⟩ | ⟨n, rfl⟩ | emits
      · exact .refused (not_overpadded_i128 i rest _) ⟨i, List.mem_cons_self⟩ rfl
      · cases panics : w.alignPanics 16 with
        | true =>
            refine .panics (overpadded_of_head (alignPanics_iff.mp panics)) ?_
            rw [serializeElements, serialize, serializeU128, if_pos panics]
            rfl
        | false =>
            have short : Layout.padding 16 w.position ≤ 8 := by
              rw [← Nat.not_lt, ← alignPanics_iff, panics]
              exact Bool.false_ne_true
            obtain ⟨done, grown⟩ := bytes_serializeU128 panics n
            have same : ((w.align 16).extendFromSlice (order.encode 16 n.toNat)).startOffset =
                w.startOffset := startOffset_align w 16
            have noI128 : ∀ i, SerdeValue.u128 n ≠ .i128 i := by
              rintro i ⟨⟩
            have valid' := (Sink.advance valid grown same).1
            exact .cons noI128 (fun _ _ => short) valid done grown same (ih later valid')
      · obtain ⟨middle, wrote, grown, same⟩ := emits w valid
        have noI128 : ∀ i, p ≠ .i128 i := by
          rintro i rfl
          cases wrote
        have short : ∀ n, p = .u128 n → Layout.padding 16 w.position ≤ 8 := by
          rintro n rfl
          by_contra long
          rw [serialize, serializeU128, if_pos (alignPanics_iff.mpr (not_le.mp long))] at wrote
          cases wrote
        have valid' := (Sink.advance valid grown same).1
        change LawfulCdrBuffer.bytes middle.buffer = _ at grown
        rw [← position_eq] at grown
        exact .cons noI128 short valid wrote grown same (ih later valid')

/-- **What the serializer does with a value.** -/
theorem serialize_outcome (v : SerdeValue) {w : CdrWriter order B}
    (valid : (sink order B).Valid w) : Outcome v.primitives w :=
  outcome_of_basic (flat_serialize v).basic valid

end Primitives

/-! ## What can be read -/

section Reading

open CdrReader CdrDeserializer

variable {order : ByteOrder}

/-- The length word of a string or sequence, whatever became of it. -/
theorem reads_wrappedWord (len : ℕ) :
    Reads (readU32 : ReadM order UInt32) (wordLayout order 4 len) (UInt32.ofNat len) := by
  have reads := @reads_readU32 order (UInt32.ofNat len)
  rw [UInt32.toNat_ofNat'] at reads
  rwa [show len % 2 ^ 32 = len % 256 ^ 4 from rfl, wordLayout_mod] at reads

/-- A string that is read back is shorter than the longest length word. -/
theorem short_of_returns {s : String}
    (returns : Returns (readStr : ReadM order String) (stringLayout order s) s) :
    (utf8Bytes s).length < 2 ^ 32 - 1 := by
  have word := @reads_wrappedWord order ((utf8Bytes s).length + 1)
  obtain ⟨before, after, final, run⟩ := returns.rest word
  have count : (UInt32.ofNat ((utf8Bytes s).length + 1)).toNat =
      ((utf8Bytes s).length + 1) % 2 ^ 32 := UInt32.toNat_ofNat'
  simp only at run
  split at run
  · next zero =>
    cases run
    rw [zero] at count
    exact absurd count (by decide)
  · obtain ⟨octets, middle, bytes, last⟩ := run_bind_eq_ok run
    have len := length_of_run_readBytes bytes
    have content := utf8Bytes_of_run_fromUtf8 last
    have bound : (utf8Bytes s).length ≤ octets.length := by
      rw [content]
      split
      · exact List.length_take_le' _ _
      · exact le_refl _
    omega

/-- A byte sequence that is read fits its length word. -/
theorem short_of_returns_bytes {layout : Layout UInt8} {octets : List UInt8}
    (returns : Returns (readByteSequence : ReadM order (List UInt8)) layout octets) :
    octets.length < 2 ^ 32 := by
  obtain ⟨before, after, final, run⟩ := returns
  exact fits_of_run_readByteSequence run

/-- A counted loop that returns as many items as there were. -/
theorem counted_of_returns {α β : Type} {read : ReadM order α} {wrap : List α → β} {count : ℕ}
    {layout : Layout UInt8} {result : β}
    (returns : Returns (do let len ← readSequenceLength
                           return wrap (← readMany read len) : ReadM order β)
      (wordLayout order 4 count * layout) result)
    (counts : ∀ values, result = wrap values → values.length = count) :
    count ≤ maxSequenceLength ∧
      ∃ values, result = wrap values ∧ Returns (readMany read count) layout values := by
  have within : count ≤ maxSequenceLength := by
    obtain ⟨before, after, final, run⟩ := returns
    obtain ⟨len, middle, first, last⟩ := run_bind_eq_ok run
    obtain ⟨values, loop, same⟩ := run_map_eq_ok last
    rw [← counts values same, length_of_run_readMany loop]
    exact (run_readSequenceLength_eq_ok first).2
  obtain ⟨values, loop, same⟩ := (returns.rest (reads_readSequenceLength within)).of_map
  exact ⟨within, values, same, loop⟩

/-- Behind its tag the content of a variant is read. -/
theorem content_of_returns {variants : List VariantType} {tag : UInt32} {variant : VariantType}
    {content : Layout UInt8} {v : SerdeValue} (found : variants[tag.toNat]? = some variant)
    (returns : Returns (deserialize (.enum variants) : ReadM order SerdeValue)
      (wordLayout order 4 tag.toNat * content) v) :
    Returns (deserializeContent tag variant : ReadM order SerdeValue) content v := by
  rw [deserialize] at returns
  have inside := returns.rest (reads_enumTag tag)
  rwa [deserializeVariant_eq tag _ variants _ found] at inside

mutual

/-- **Only values within the limits are read from their layout.** -/
theorem withinLimits_of_returns : ∀ (v : SerdeValue) (t : SerdeType), hasType t v = true →
    Returns (deserialize t : ReadM order SerdeValue) (v.layout order) v →
    v.withinLimits maxSequenceLength = true
  | .bool _, .bool, _, _ => rfl
  | .i8 _, .i8, _, _ => rfl
  | .i16 _, .i16, _, _ => rfl
  | .i32 _, .i32, _, _ => rfl
  | .i64 _, .i64, _, _ => rfl
  | .i128 _, .i128, _, returns => by
      obtain ⟨before, after, final, run⟩ := returns
      cases run
  | .u8 _, .u8, _, _ => rfl
  | .u16 _, .u16, _, _ => rfl
  | .u32 _, .u32, _, _ => rfl
  | .u64 _, .u64, _, _ => rfl
  | .u128 _, .u128, _, returns => by
      obtain ⟨before, after, final, run⟩ := returns
      cases run
  | .f32 _, .f32, _, _ => rfl
  | .f64 _, .f64, _, _ => rfl
  | .char _, .char, _, _ => rfl
  | .str _, .str, _, returns =>
      decide_eq_true (short_of_returns (returns.unwrap SerdeValue.str.inj))
  | .bytes _, .bytes, _, returns =>
      decide_eq_true (short_of_returns_bytes (returns.unwrap SerdeValue.bytes.inj))
  | .none, .option _, _, _ => rfl
  | .some v, .option inner, typed, returns =>
      withinLimits_of_returns v inner typed
        ((returns.rest (reads_readU32 1)).unwrap SerdeValue.some.inj)
  | .unit, .unit, _, _ => rfl
  | .unitStruct, .unitStruct, _, _ => rfl
  | .newtypeStruct v, .newtypeStruct inner, typed, returns =>
      withinLimits_of_returns v inner typed (returns.unwrap SerdeValue.newtypeStruct.inj)
  | .seq elements, .seq element, typed, returns => by
      obtain ⟨within, values, same, loop⟩ := counted_of_returns returns (by rintro _ ⟨⟩; rfl)
      cases same
      have inside := elements_of_returns elements element typed loop
      rw [SerdeValue.withinLimits, inside, Bool.and_true]
      exact decide_eq_true within
  | .map entries, .map key value, typed, returns => by
      obtain ⟨within, values, same, loop⟩ := counted_of_returns returns (by rintro _ ⟨⟩; rfl)
      cases same
      have inside := entries_of_returns entries key value typed loop
      rw [SerdeValue.withinLimits, inside, Bool.and_true]
      exact decide_eq_true within
  | .tuple elements, .tuple ts, typed, returns =>
      fields_of_returns elements ts typed (returns.unwrap SerdeValue.tuple.inj)
  | .tupleStruct fields, .tupleStruct ts, typed, returns =>
      fields_of_returns fields ts typed (returns.unwrap SerdeValue.tupleStruct.inj)
  | .struct fields, .struct ts, typed, returns =>
      fields_of_returns fields ts typed (returns.unwrap SerdeValue.struct.inj)
  | .unitVariant _, .enum _, _, _ => rfl
  | .newtypeVariant index v, .enum variants, typed, returns => by
      obtain ⟨inner, found, content⟩ := newtype_of_hasType typed
      have inside := content_of_returns found returns
      exact withinLimits_of_returns v inner content
        (inside.unwrap fun same => (SerdeValue.newtypeVariant.inj same).2)
  | .tupleVariant index fields, .enum variants, typed, returns => by
      obtain ⟨ts, found, content⟩ := tuple_of_hasType typed
      have inside := content_of_returns found returns
      exact fields_of_returns fields ts content
        (inside.unwrap fun same => (SerdeValue.tupleVariant.inj same).2)
  | .structVariant index fields, .enum variants, typed, returns => by
      obtain ⟨ts, found, content⟩ := struct_of_hasType typed
      have inside := content_of_returns found returns
      exact fields_of_returns fields ts content
        (inside.unwrap fun same => (SerdeValue.structVariant.inj same).2)
termination_by structural v => v

theorem elements_of_returns : ∀ (vs : List SerdeValue) (t : SerdeType),
    allHaveType t vs = true →
    Returns (readMany (deserialize t) vs.length : ReadM order (List SerdeValue))
      (elementsLayout order vs) vs →
    allWithinLimits maxSequenceLength vs = true
  | [], _, _, _ => rfl
  | v :: rest, t, typed, returns => by
      rw [allHaveType, Bool.and_eq_true] at typed
      obtain ⟨head, tail⟩ := returns.both fun _ _ _ _ => List.cons.inj
      have first := withinLimits_of_returns v t typed.1 head
      have others := elements_of_returns rest t typed.2 (tail (reads_deserialize v t typed.1 first))
      rw [allWithinLimits, first, others]
      rfl
termination_by structural vs => vs

theorem entries_of_returns : ∀ (entries : List (SerdeValue × SerdeValue))
    (key value : SerdeType), entriesHaveType key value entries = true →
    Returns (readMany (do return (← deserialize key, ← deserialize value)) entries.length :
        ReadM order (List (SerdeValue × SerdeValue)))
      (entriesLayout order entries) entries →
    entriesWithinLimits maxSequenceLength entries = true
  | [], _, _, _, _ => rfl
  | (k, v) :: rest, key, value, typed, returns => by
      rw [entriesHaveType, Bool.and_eq_true, Bool.and_eq_true] at typed
      obtain ⟨head, tail⟩ := returns.both fun _ _ _ _ => List.cons.inj
      obtain ⟨readsKey, readsValue⟩ := head.both fun _ _ _ _ => Prod.mk.inj
      have first := withinLimits_of_returns k key typed.1.1 readsKey
      have keyRead := @reads_deserialize order k key typed.1.1 first
      have second := withinLimits_of_returns v value typed.1.2 (readsValue keyRead)
      have entry : Reads (do return (← deserialize key, ← deserialize value) :
          ReadM order (SerdeValue × SerdeValue)) (k.layout order * v.layout order) (k, v) :=
        keyRead.bind ((reads_deserialize v value typed.1.2 second).bind_pure (Reads.pure (k, v)))
      have others := entries_of_returns rest key value typed.2 (tail entry)
      rw [entriesWithinLimits, first, second, others]
      rfl
termination_by structural entries => entries

theorem fields_of_returns : ∀ (vs : List SerdeValue) (ts : List SerdeType),
    haveTypes ts vs = true →
    Returns (deserializeFields ts : ReadM order (List SerdeValue)) (elementsLayout order vs) vs →
    allWithinLimits maxSequenceLength vs = true
  | [], [], _, _ => rfl
  | v :: vs, t :: ts, typed, returns => by
      rw [haveTypes, Bool.and_eq_true] at typed
      obtain ⟨head, tail⟩ := returns.both fun _ _ _ _ => List.cons.inj
      have first := withinLimits_of_returns v t typed.1 head
      have others := fields_of_returns vs ts typed.2 (tail (reads_deserialize v t typed.1 first))
      rw [allWithinLimits, first, others]
      rfl
termination_by structural vs => vs

end

end Reading

/-! ## When serializing is safe -/

/-- Serializing does not panic, and what it writes is read back as a value of type `t`. -/
def Safe (order : ByteOrder) (t : SerdeType) (v : SerdeValue) (written : Except Abort (List UInt8)) :
    Prop :=
  written ≠ .error .panic ∧
    ∀ encoded, written = .ok encoded → ∃ consumed, fromBytes order t encoded = .ok (v, consumed)

/-- That is so of `to_vec`, and of `to_buffer` whatever buffer it writes to. -/
def SafelyWritten (order : ByteOrder) (t : SerdeType) (v : SerdeValue) : Prop :=
  Safe order t v (toVec order v) ∧
    ∀ (B : Type) [CdrBuffer B] [LawfulCdrBuffer B] (buffer : B),
      Safe order t v ((toBuffer order v buffer).map (LawfulCdrBuffer.bytes (B := B)))

/-- The serializer refuses the value, and not too late: it has an `i128`, and no `u128` before
that overruns the padding. -/
def Refused (order : ByteOrder) (v : SerdeValue) : Prop :=
  (∃ i, .i128 i ∈ v.primitives) ∧ ¬ Overpadded order v.primitives 0

section Safety

open CdrSerializer CdrWriter

variable {order : ByteOrder} {t : SerdeType} {v : SerdeValue}

/-- The encoding of a value is read back exactly when the value is within the limits. -/
theorem fromBytes_place_iff (typed : hasType t v = true) :
    (∃ consumed, fromBytes order t ((v.layout order).place 0) = .ok (v, consumed)) ↔
      v.withinLimits CdrReader.maxSequenceLength = true := by
  constructor
  · rintro ⟨consumed, decoded⟩
    have returns : Returns (CdrDeserializer.deserialize t : ReadM order SerdeValue)
        (v.layout order) v := by
      refine ⟨[], [], ?_⟩
      rw [List.nil_append, List.append_nil]
      unfold fromBytes at decoded
      split at decoded
      · next value reader run =>
        cases decoded
        exact ⟨reader, run⟩
      · cases decoded
    exact withinLimits_of_returns v t typed returns
  · intro limits
    have reads := @reads_deserialize order v t typed limits [] []
    rw [List.nil_append, List.append_nil, List.length_nil] at reads
    refine ⟨0 + ((v.layout order).place 0).length, ?_⟩
    simp only [fromBytes, CdrReader.new, reads]

theorem not_overpadded_of_withinLimits {limit : ℕ} (limits : v.withinLimits limit = true) :
    ¬ Overpadded order v.primitives 0 := by
  obtain ⟨w, done, -⟩ := @serialize_new order _ _ _ _ _ limits ([] : List UInt8)
  rw [(flat_serialize v).writes] at done
  have position : (new ([] : List UInt8) : CdrWriter order (List UInt8)).position = 0 := rfl
  intro overpadded
  cases serialize_outcome v (@valid_new order _ _ _ ([] : List UInt8)) with
  | panics _ failed => cases done.symm.trans failed
  | refused safe _ _ => exact safe overpadded
  | written safe _ _ _ _ => exact safe overpadded

/-- Writing to an empty buffer, whatever its kind. -/
theorem safe_iff {B : Type} [CdrBuffer B] [LawfulCdrBuffer B] (typed : hasType t v = true)
    {buffer : B} (empty : LawfulCdrBuffer.bytes buffer = []) :
    Safe order t v ((serialize v (new buffer : CdrWriter order B)).map
        fun w => LawfulCdrBuffer.bytes w.buffer) ↔
      v.withinLimits CdrReader.maxSequenceLength = true ∨ Refused order v := by
  have start : (new buffer : CdrWriter order B).position = 0 := by
    rw [position_eq, position_new]
  rw [(flat_serialize v).writes]
  cases serialize_outcome v (valid_new buffer : (sink order B).Valid (new buffer)) with
  | panics overpadded done =>
      rw [start] at overpadded
      rw [done]
      refine iff_of_false (fun safe => safe.1 rfl) ?_
      rintro (limits | refused)
      · exact not_overpadded_of_withinLimits limits overpadded
      · exact refused.2 overpadded
  | refused safe among done =>
      rw [start] at safe
      rw [done]
      exact iff_of_true ⟨nofun, nofun⟩ (.inr ⟨among, safe⟩)
  | @written safe none w' done grown same =>
      have content : LawfulCdrBuffer.bytes w'.buffer = (v.layout order).place 0 := by
        rw [grown, start, (@flat_serialize order B _ _ v).occupies]
        show LawfulCdrBuffer.bytes buffer ++ _ = _
        rw [empty, List.nil_append]
      have notRefused : ¬ Refused order v := fun ⟨⟨i, among⟩, _⟩ => none i among
      rw [done, or_iff_left notRefused, ← fromBytes_place_iff typed]
      constructor
      · rintro ⟨-, reads⟩
        exact reads _ (congrArg Except.ok content)
      · intro reads
        refine ⟨nofun, fun encoded same => ?_⟩
        obtain rfl : (v.layout order).place 0 = encoded :=
          Except.ok.inj ((congrArg Except.ok content).symm.trans same)
        exact reads

/-- **When serializing is safe.**  Neither function panics, and what they write is read back,
exactly when the value is within the limits or is refused in time. -/
theorem safelyWritten_iff (order : ByteOrder) (t : SerdeType) (v : SerdeValue)
    (typed : hasType t v = true) :
    SafelyWritten order t v ↔
      v.withinLimits CdrReader.maxSequenceLength = true ∨ Refused order v := by
  have vec : toVec order v = (serialize v (new ([] : List UInt8) : CdrWriter order _)).map
      fun w => LawfulCdrBuffer.bytes w.buffer := by
    unfold toVec
    cases serialize v (new ([] : List UInt8) : CdrWriter order _) <;> rfl
  have any (B : Type) [CdrBuffer B] [LawfulCdrBuffer B] (buffer : B) :
      (toBuffer order v buffer).map LawfulCdrBuffer.bytes =
        (serialize v (new (CdrBuffer.clear buffer) : CdrWriter order B)).map
          fun w => LawfulCdrBuffer.bytes w.buffer := by
    unfold toBuffer
    cases serialize v (new (CdrBuffer.clear buffer) : CdrWriter order B) <;> rfl
  unfold SafelyWritten
  rw [vec, safe_iff typed rfl]
  refine ⟨And.left, fun safe => ⟨safe, ?_⟩⟩
  intro B _ _ buffer
  rw [any, safe_iff typed (LawfulCdrBuffer.bytes_clear buffer)]
  exact safe

end Safety

/-- A record with an optional text and a sequence of words. -/
theorem safelyWritten_record :
    SafelyWritten .littleEndian (.struct [.option .str, .seq .u32])
      (.struct [.some (.str "map"), .seq [.u32 1, .u32 2]]) :=
  (safelyWritten_iff _ _ _ (by decide)).mpr (.inl (by decide +kernel))

/-- An octet and a 128-bit integer: the serializer needs fifteen octets of padding, and panics.
Behind eight octets it needs eight, and writes what its reader does not know. -/
theorem not_safelyWritten_u128 :
    hasType (.tuple [.u8, .u128]) (.tuple [.u8 7, .u128 1]) = true ∧
      toVec .littleEndian (.tuple [.u8 7, .u128 1]) = .error .panic ∧
      ¬ SafelyWritten .littleEndian (.tuple [.u8, .u128]) (.tuple [.u8 7, .u128 1]) ∧
      (∃ encoded, toVec .littleEndian (.tuple [.u64 7, .u128 1]) = .ok encoded ∧
        fromBytes .littleEndian (.tuple [.u64, .u128]) encoded =
          .error (.custom "u128 is not supported")) := by
  refine ⟨by decide, rfl, fun safe => safe.1.1 rfl, ?_⟩
  exact ⟨_, rfl, rfl⟩

end RosZ.Cdr
