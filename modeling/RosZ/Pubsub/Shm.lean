import RosZ.Cdr.Buffers
import RosZ.Dynamic.Serialization

/-!
# Publishing through shared memory

`ZPub::publish` and `async_publish` (`pubsub.rs`) with the serializers they call:
`CdrSerdes` (`msg.rs`) over `ShmWriter` (`shm.rs`) and over `ZBufWriter`, and
`DynamicCdrSerdes` (`dynamic/serdes.rs`).

* A message of `CdrSerdes` is the `SerdeValue` its `Serialize` implementation
  presents.  Its size estimate is a method of the message type and a parameter
  here; `defaultEstimate` is the trait's default.
* `ShmProvider` is the allocator: what it returns is a block of exactly the size
  asked for, with whatever its last owner left in it.
* A panic ends a call, and which assertion fails is not recorded.  `write_bytes`
  is total in the model: a write that its assertion refuses moves the position
  behind the end of the buffer, where no completed write takes it, and
  `ShmWriter.overflowed` stays true from there on.

Logging and the attachment of a sample are left out.

## Main result

`publishesAlike_iff`: a typed message is published alike through shared memory
exactly when the estimate is its size, because `into_zbuf` hands over the whole
block.  A dynamic message is published alike always: its serializer allocates the
size of the finished data.
-/

namespace RosZ.Pubsub

open RosZ.Cdr Wire

/-! ## Shared memory -/

/-- The shared-memory allocator, as far as one publication meets it. -/
structure ShmProvider where
  /-- A block of the given size, if there is room. -/
  alloc : ℕ → Option (List UInt8)
  alloc_length : ∀ {size : ℕ} {memory : List UInt8},
    alloc size = some memory → memory.length = size

/-- Shared-memory configuration of a publisher. -/
structure ShmConfig where
  provider : ShmProvider
  /-- Minimum message size to use shared memory. -/
  threshold : ℕ

/-- Writer that serializes CDR data directly into a shared-memory buffer. -/
structure ShmWriter where
  /-- The buffer being written to. -/
  buffer : List UInt8
  /-- Current write position. -/
  position : ℕ
  deriving DecidableEq

namespace ShmWriter

/-- Write bytes directly to the buffer. -/
def writeBytes (writer : ShmWriter) (bytes : List UInt8) : ShmWriter :=
  let stop := writer.position + bytes.length
  if stop ≤ writer.buffer.length then
    { buffer := writer.buffer.take writer.position ++ bytes ++ writer.buffer.drop stop
      position := stop }
  -- "SHM buffer overflow: tried to write {} bytes at position {} but buffer size is {}"
  else { writer with position := stop }

/-- The assertion of `write_bytes` has failed. -/
def overflowed (writer : ShmWriter) : Bool := writer.buffer.length < writer.position

/-- Convert the writer into a `ZBuf`: the entire allocated buffer, not just the
written portion. -/
def intoZbuf (writer : ShmWriter) : ZBuf := [writer.buffer]

end ShmWriter

instance instCdrBufferShmWriter : CdrBuffer ShmWriter where
  extendFromSlice := ShmWriter.writeBytes
  push writer byte := writer.writeBytes [byte]
  len writer := writer.position
  clear writer := { writer with position := 0 }

/-! ## Serializers -/

/-- A failed assertion, `unwrap` or `expect`. -/
inductive Panic where
  | panicked
  deriving DecidableEq, Repr

/-- Errors of `serialize_to_shm`. -/
inductive ShmError where
  /-- "SHM allocation failed: {}" -/
  | allocationFailed
  /-- "CDR serialization failed: {}" -/
  | cdrSerializationFailed (e : Error)
  /-- "DynamicMessage serialization failed: {}" -/
  | dynamicSerializationFailed (e : Dynamic.DynamicError)

/-- The two serialization methods a publisher uses. -/
structure ZSerializer (Input : Type) where
  serializeToZbuf : Input → Except Panic ZBuf
  /-- Serialize directly to shared memory; also the number of bytes written. -/
  serializeToShm : Input → ℕ → ShmProvider → Except Panic (Except ShmError (ZBuf × ℕ))

/-- CDR encapsulation header for little-endian encoding. -/
def cdrHeaderLe : List UInt8 := [0x00, 0x01, 0x00, 0x00]

namespace CdrSerdes

/-- The header, then a serializer over the buffer. -/
def serializeInto {B : Type} [CdrBuffer B] (input : SerdeValue) (writer : B) :
    Except Abort B := do
  let writer := CdrBuffer.extendFromSlice writer cdrHeaderLe
  let serializer ← CdrSerializer.serialize input (@CdrWriter.new .littleEndian _ _ writer)
  return serializer.buffer

def serializeToZbufWithHint (input : SerdeValue) (capacityHint : ℕ) : Except Panic ZBuf :=
  match serializeInto input (ZBufWriter.withCapacity capacityHint) with
  | .ok writer => .ok writer.intoZbuf
  -- `unwrap`, or the serializer's own panic
  | .error _ => .error .panicked

def serializeToZbuf (input : SerdeValue) : Except Panic ZBuf :=
  serializeToZbufWithHint input 256

def serializeToShm (input : SerdeValue) (estimatedSize : ℕ) (provider : ShmProvider) :
    Except Panic (Except ShmError (ZBuf × ℕ)) :=
  match provider.alloc estimatedSize with
  | none => .ok (.error .allocationFailed)
  | some memory =>
      match serializeInto input ({ buffer := memory, position := 0 } : ShmWriter) with
      | .ok writer =>
          if writer.overflowed then .error .panicked
          else .ok (.ok (writer.intoZbuf, writer.position))
      | .error (.err e) => .ok (.error (.cdrSerializationFailed e))
      | .error .panic => .error .panicked

end CdrSerdes

/-- `CdrSerdes<T>`. -/
def cdrSerdes : ZSerializer SerdeValue where
  serializeToZbuf := CdrSerdes.serializeToZbuf
  serializeToShm := CdrSerdes.serializeToShm

namespace DynamicCdrSerdes

def serializeToZbuf (input : Dynamic.DynamicMessage) : Except Panic ZBuf :=
  match Dynamic.serializeCdr input with
  | .ok data => .ok [data]
  -- "DynamicMessage CDR serialization failed"
  | .error _ => .error .panicked

/-- Serialize to a vector first, then copy it to shared memory. -/
def serializeToShm (input : Dynamic.DynamicMessage) (_estimatedSize : ℕ)
    (provider : ShmProvider) : Except Panic (Except ShmError (ZBuf × ℕ)) :=
  match Dynamic.serializeCdr input with
  | .error e => .ok (.error (.dynamicSerializationFailed e))
  | .ok data =>
      let actualSize := data.length
      match provider.alloc actualSize with
      | none => .ok (.error .allocationFailed)
      -- `shm_buf[0..actual_size].copy_from_slice(&data)`
      | some memory => .ok (.ok ([data ++ memory.drop actualSize], actualSize))

end DynamicCdrSerdes

/-- `DynamicCdrSerdes`. -/
def dynamicCdrSerdes : ZSerializer Dynamic.DynamicMessage where
  serializeToZbuf := DynamicCdrSerdes.serializeToZbuf
  serializeToShm := DynamicCdrSerdes.serializeToShm

/-! ## Publishing -/

/-- The default of `estimated_serialized_size`: twice the size of the type, and the
CDR header. -/
def defaultEstimate {T : Type} (sizeOf : ℕ) (_msg : T) : ℕ := sizeOf * 2 + 4

section Publish

variable {T : Type} (S : ZSerializer T) (estimatedSerializedSize : T → ℕ)
  (shmConfig : Option ShmConfig) (msg : T)

/-- The payload both publish functions put. -/
def payload : Except Panic ZBuf :=
  match shmConfig with
  | some shmCfg =>
      let estimatedSize := estimatedSerializedSize msg
      -- Only use SHM if estimated size meets threshold
      if estimatedSize ≥ shmCfg.threshold then
        match S.serializeToShm msg estimatedSize shmCfg.provider with
        | .ok (.ok (zbuf, _)) => .ok zbuf
        | .ok (.error _) => S.serializeToZbuf msg
        | .error panic => .error panic
      else S.serializeToZbuf msg
  | none => S.serializeToZbuf msg

/-- `ZPub::publish`, up to what it hands to `put`. -/
def publish : Except Panic ZBuf := payload S estimatedSerializedSize shmConfig msg

/-- `ZPub::async_publish`, up to what it hands to `put`. -/
def asyncPublish : Except Panic ZBuf := payload S estimatedSerializedSize shmConfig msg

end Publish

/-! ## The shared-memory writer mirrors a vector -/

/-- The writer stands for `octets`: it has come as far, and as long as there was
room they are in its buffer. -/
structure Mirrors (size : ℕ) (writer : ShmWriter) (octets : List UInt8) : Prop where
  size_eq : writer.buffer.length = size
  position_eq : writer.position = octets.length
  written : octets.length ≤ size → writer.buffer.take octets.length = octets

/-- A fresh writer has written nothing. -/
theorem mirrors_nil (memory : List UInt8) :
    Mirrors memory.length { buffer := memory, position := 0 } [] where
  size_eq := rfl
  position_eq := rfl
  written _ := rfl

/-- One write, with room or without. -/
theorem Mirrors.writeBytes {size : ℕ} {writer : ShmWriter} {octets : List UInt8}
    (mirrors : Mirrors size writer octets) (bytes : List UInt8) :
    Mirrors size (writer.writeBytes bytes) (octets ++ bytes) := by
  obtain ⟨sizeEq, positionEq, written⟩ := mirrors
  have advanced : writer.position + bytes.length = (octets ++ bytes).length := by
    rw [positionEq, List.length_append]
  unfold ShmWriter.writeBytes
  by_cases room : writer.position + bytes.length ≤ writer.buffer.length
  · simp only [if_pos room]
    have before : writer.buffer.take writer.position = octets := by
      rw [positionEq]
      exact written (by omega)
    rw [before]
    refine ⟨?_, advanced, fun _ => ?_⟩
    · show (octets ++ bytes ++ writer.buffer.drop _).length = size
      rw [List.length_append, List.length_drop, ← advanced]
      omega
    · show (octets ++ bytes ++ writer.buffer.drop _).take (octets ++ bytes).length = _
      exact List.take_left
  · simp only [if_neg room]
    refine ⟨sizeEq, advanced, fun fits => ?_⟩
    omega

/-- A writer over `size` octets of shared memory tracks a vector. -/
theorem tracks_mirrors (size : ℕ) : Tracks (Mirrors size) where
  len_eq mirrors := mirrors.position_eq
  extend mirrors data := mirrors.writeBytes data
  push mirrors byte := mirrors.writeBytes [byte]

/-- The writer has panicked exactly when the octets did not fit. -/
theorem Mirrors.overflowed_iff {size : ℕ} {writer : ShmWriter} {octets : List UInt8}
    (mirrors : Mirrors size writer octets) :
    writer.overflowed = true ↔ size < octets.length := by
  rw [ShmWriter.overflowed, decide_eq_true_eq, mirrors.size_eq, mirrors.position_eq]

/-- What is handed over is what was written exactly when it fills the buffer. -/
theorem Mirrors.contiguous_iff {size : ℕ} {writer : ShmWriter} {octets : List UInt8}
    (mirrors : Mirrors size writer octets) :
    writer.intoZbuf.contiguous = octets ↔ size = octets.length := by
  have whole : writer.intoZbuf.contiguous = writer.buffer := by
    simp [ShmWriter.intoZbuf, ZBuf.contiguous]
  rw [whole]
  constructor
  · intro same
    rw [← mirrors.size_eq, same]
  · intro full
    have taken := mirrors.written (le_of_eq full.symm)
    rwa [← full, ← mirrors.size_eq, List.take_length] at taken

/-! ## The two serializations of a value -/

/-- The octets a payload puts on the wire. -/
def wire (outcome : Except Panic ZBuf) : Except Panic (List UInt8) :=
  outcome.map ZBuf.contiguous

namespace CdrSerdes

/-- The header and the serializer on buffers that track each other. -/
theorem results_serializeInto {B C : Type} [CdrBuffer B] [CdrBuffer C] {R : B → C → Prop}
    (tracks : Tracks R) (value : SerdeValue) {b : B} {c : C} (related : R b c) :
    Results R (serializeInto value b) (serializeInto value c) := by
  have start := @Tracks.related_new .littleEndian _ _ _ _ _ tracks _ _
    (tracks.extend related cdrHeaderLe)
  exact (@lockstep_serialize .littleEndian _ _ _ _ _ tracks value _ _ start).bind
    fun _ _ related' => .ok related'.1

/-- The CDR size of a value, without the header. -/
def encodedSize (value : SerdeValue) : ℕ := ((value.layout .littleEndian).place 0).length

theorem length_serializeInto {value : SerdeValue} {octets : List UInt8}
    (done : serializeInto value ([] : List UInt8) = .ok octets) :
    octets.length = 4 + encodedSize value := by
  unfold serializeInto at done
  rcases ran : CdrSerializer.serialize value
      (@CdrWriter.new .littleEndian _ _ (CdrBuffer.extendFromSlice ([] : List UInt8) cdrHeaderLe))
      with e | w
  · simp only [ran] at done
    cases done
  · simp only [ran] at done
    cases done
    obtain ⟨grown, -⟩ := grows_serialize value _ (CdrWriter.valid_new _) w ran
    rw [CdrWriter.position_new] at grown
    exact grown

/-- The ordinary payload of a value is what a vector receives, whatever the hint. -/
theorem wire_serializeToZbufWithHint (value : SerdeValue) (capacityHint : ℕ) :
    wire (serializeToZbufWithHint value capacityHint) =
      (serializeInto value ([] : List UInt8)).mapError fun _ => .panicked := by
  have agree := results_serializeInto (tracks_bytes ZBufWriter) value
    (show LawfulCdrBuffer.bytes (ZBufWriter.withCapacity capacityHint) = [] from rfl)
  unfold serializeToZbufWithHint
  revert agree
  generalize serializeInto value (ZBufWriter.withCapacity capacityHint) = left
  generalize serializeInto value ([] : List UInt8) = right
  rintro (⟨same⟩ | ⟨e⟩)
  · exact congrArg Except.ok ((ZBufWriter.contiguous_intoZbuf _).trans same)
  · rfl

theorem wire_serializeToZbuf (value : SerdeValue) :
    wire (serializeToZbuf value) =
      (serializeInto value ([] : List UInt8)).mapError fun _ => .panicked :=
  wire_serializeToZbufWithHint value 256

/-- Into shared memory, a value the serializer accepts either panics or hands over
a buffer that mirrors its octets. -/
theorem serializeToShm_accepted {value : SerdeValue} {provider : ShmProvider} {size : ℕ}
    {memory octets : List UInt8} (allocated : provider.alloc size = some memory)
    (accepted : serializeInto value ([] : List UInt8) = .ok octets) :
    ∃ writer, Mirrors size writer octets ∧
      serializeToShm value size provider =
        if writer.overflowed then .error .panicked
        else .ok (.ok (writer.intoZbuf, writer.position)) := by
  have agree := results_serializeInto (tracks_mirrors memory.length) value (mirrors_nil memory)
  rw [accepted, provider.alloc_length allocated] at agree
  unfold serializeToShm
  simp only [allocated]
  revert agree
  generalize serializeInto value ({ buffer := memory, position := 0 } : ShmWriter) = left
  rintro ⟨mirrors⟩
  exact ⟨_, mirrors, rfl⟩

/-- A value the serializer refuses is refused in shared memory, too. -/
theorem serializeToShm_refused {value : SerdeValue} {provider : ShmProvider} {size : ℕ}
    {memory : List UInt8} {abort : Abort} (allocated : provider.alloc size = some memory)
    (refused : serializeInto value ([] : List UInt8) = .error abort) :
    (∃ e, serializeToShm value size provider = .ok (.error (.cdrSerializationFailed e))) ∨
      serializeToShm value size provider = .error .panicked := by
  have agree := results_serializeInto (tracks_mirrors memory.length) value (mirrors_nil memory)
  rw [refused] at agree
  unfold serializeToShm
  simp only [allocated]
  revert agree
  generalize serializeInto value ({ buffer := memory, position := 0 } : ShmWriter) = left
  rintro ⟨⟩
  rcases abort with e | _
  · exact Or.inl ⟨e, rfl⟩
  · exact Or.inr rfl

end CdrSerdes

/-! ## The two publish paths -/

/-- The payload of a publication that takes the shared-memory branch. -/
theorem payload_shm {T : Type} {S : ZSerializer T} {estimate : T → ℕ} {config : ShmConfig}
    {msg : T} (branch : config.threshold ≤ estimate msg) :
    payload S estimate (some config) msg =
      match S.serializeToShm msg (estimate msg) config.provider with
      | .ok (.ok (zbuf, _)) => .ok zbuf
      | .ok (.error _) => S.serializeToZbuf msg
      | .error panic => .error panic :=
  if_pos branch

/-- Both publish functions put the octets of `serialize_to_zbuf` on the wire. -/
def PublishesAlike {T : Type} (S : ZSerializer T) (estimatedSerializedSize : T → ℕ)
    (config : ShmConfig) (msg : T) : Prop :=
  wire (publish S estimatedSerializedSize (some config) msg) = wire (S.serializeToZbuf msg) ∧
    wire (asyncPublish S estimatedSerializedSize (some config) msg) =
      wire (S.serializeToZbuf msg)

section Paths

variable {config : ShmConfig} {estimate : SerdeValue → ℕ} {value : SerdeValue}
  {memory octets : List UInt8}

/-- The octets must fill the block. -/
theorem publishesAlike_accepted_iff (branch : config.threshold ≤ estimate value)
    (allocated : config.provider.alloc (estimate value) = some memory)
    (accepted : CdrSerdes.serializeInto value ([] : List UInt8) = .ok octets) :
    PublishesAlike cdrSerdes estimate config value ↔ estimate value = octets.length := by
  obtain ⟨writer, mirrors, handed⟩ := CdrSerdes.serializeToShm_accepted allocated accepted
  have result : cdrSerdes.serializeToShm value (estimate value) config.provider = _ := handed
  have ordinary : wire (cdrSerdes.serializeToZbuf value) = .ok octets := by
    show wire (CdrSerdes.serializeToZbuf value) = .ok octets
    rw [CdrSerdes.wire_serializeToZbuf, accepted]
    rfl
  have shm : wire (payload cdrSerdes estimate (some config) value) =
      if writer.overflowed then .error .panicked else .ok writer.intoZbuf.contiguous := by
    rw [payload_shm branch, result]
    by_cases overflowed : writer.overflowed = true
    · rw [if_pos overflowed, if_pos overflowed]
      rfl
    · rw [if_neg overflowed, if_neg overflowed]
      rfl
  unfold PublishesAlike publish asyncPublish
  rw [and_self, ordinary, shm, ← mirrors.contiguous_iff]
  by_cases overflowed : writer.overflowed = true
  · rw [if_pos overflowed]
    have long := mirrors.overflowed_iff.mp overflowed
    constructor
    · intro same
      cases same
    · intro same
      have full := mirrors.contiguous_iff.mp same
      omega
  · rw [if_neg overflowed]
    rw [Except.ok.injEq]

/-- A value the serializer refuses is put on the wire by neither path. -/
theorem publish_refused {abort : Abort} (branch : config.threshold ≤ estimate value)
    (allocated : config.provider.alloc (estimate value) = some memory)
    (refused : CdrSerdes.serializeInto value ([] : List UInt8) = .error abort) :
    wire (payload cdrSerdes estimate (some config) value) = .error .panicked := by
  have ordinary : wire (cdrSerdes.serializeToZbuf value) = .error .panicked := by
    show wire (CdrSerdes.serializeToZbuf value) = .error .panicked
    rw [CdrSerdes.wire_serializeToZbuf, refused]
    rfl
  rw [payload_shm branch]
  rcases CdrSerdes.serializeToShm_refused allocated refused with ⟨e, failed⟩ | panicked
  · have result : cdrSerdes.serializeToShm value (estimate value) config.provider = _ := failed
    rw [result]
    exact ordinary
  · have result : cdrSerdes.serializeToShm value (estimate value) config.provider = _ := panicked
    rw [result]
    rfl

/-- The block of a dynamic message has the size of its data. -/
theorem publishesAlike_dynamic {estimate : Dynamic.DynamicMessage → ℕ}
    {message : Dynamic.DynamicMessage} (branch : config.threshold ≤ estimate message)
    (allocated : ∀ data, Dynamic.serializeCdr message = .ok data →
      ∃ memory, config.provider.alloc data.length = some memory) :
    PublishesAlike dynamicCdrSerdes estimate config message := by
  have shm : wire (payload dynamicCdrSerdes estimate (some config) message) =
      wire (dynamicCdrSerdes.serializeToZbuf message) := by
    rw [payload_shm branch]
    simp only [dynamicCdrSerdes, DynamicCdrSerdes.serializeToShm,
      DynamicCdrSerdes.serializeToZbuf]
    rcases encoded : Dynamic.serializeCdr message with e | data
    · rfl
    · obtain ⟨memory, given⟩ := allocated data encoded
      have covered : memory.drop data.length = [] := by
        rw [List.drop_eq_nil_iff, config.provider.alloc_length given]
      simp only [given, covered, List.append_nil]
  exact ⟨shm, shm⟩

end Paths

/-- **When the shared-memory path publishes what the ordinary path does.**  A typed
message that has an ordinary payload is published alike exactly when its estimate
is the size of that payload; one that has none is put by neither path.  A dynamic
message is always published alike. -/
theorem publishesAlike_iff (config : ShmConfig) :
    (∀ (estimate : SerdeValue → ℕ) (value : SerdeValue) (memory : List UInt8),
      config.threshold ≤ estimate value →
      config.provider.alloc (estimate value) = some memory →
      (∀ octets, wire (cdrSerdes.serializeToZbuf value) = .ok octets →
        (PublishesAlike cdrSerdes estimate config value ↔
          estimate value = 4 + CdrSerdes.encodedSize value)) ∧
      (wire (cdrSerdes.serializeToZbuf value) = .error .panicked →
        wire (publish cdrSerdes estimate (some config) value) = .error .panicked ∧
          wire (asyncPublish cdrSerdes estimate (some config) value) = .error .panicked)) ∧
    (∀ (estimate : Dynamic.DynamicMessage → ℕ) (message : Dynamic.DynamicMessage),
      config.threshold ≤ estimate message →
      (∀ data, Dynamic.serializeCdr message = .ok data →
        ∃ memory, config.provider.alloc data.length = some memory) →
      PublishesAlike dynamicCdrSerdes estimate config message) := by
  refine ⟨fun estimate value memory branch allocated => ?_,
    fun estimate message branch allocated => publishesAlike_dynamic branch allocated⟩
  have ordinary : wire (cdrSerdes.serializeToZbuf value) = _ :=
    CdrSerdes.wire_serializeToZbuf value
  rcases ran : CdrSerdes.serializeInto value ([] : List UInt8) with abort | written
  · rw [ran] at ordinary
    refine ⟨fun octets some => ?_, fun none => ?_⟩
    · rw [ordinary] at some
      cases some
    · have panicked := publish_refused branch allocated ran
      exact ⟨panicked, panicked⟩
  · rw [ran] at ordinary
    refine ⟨fun octets _ => ?_, fun none => ?_⟩
    · rw [publishesAlike_accepted_iff branch allocated ran, CdrSerdes.length_serializeInto ran]
    · rw [ordinary] at none
      cases none

/-- A provider with room, whose blocks hold old data. -/
def roomyProvider : ShmProvider where
  alloc size := some (List.replicate size 0xAA)
  alloc_length := by
    rintro size memory ⟨⟩
    exact List.length_replicate

/-- The message of a `String` field holding `text`. -/
def stringMessage (text : String) : SerdeValue := .struct [.str text]

/-- A `String` is 24 octets wide, so a text of 43 octets takes the 52 octets of its
estimate. -/
theorem publishesAlike_iff_fullBlock :
    PublishesAlike cdrSerdes (defaultEstimate 24) ⟨roomyProvider, 32⟩
      (stringMessage "forty-three octets of text fill that buffer") := by
  have typed := (publishesAlike_iff ⟨roomyProvider, 32⟩).1 (defaultEstimate 24)
    (stringMessage "forty-three octets of text fill that buffer") (List.replicate 52 0xAA)
    (by decide) rfl
  have ordinary : wire (cdrSerdes.serializeToZbuf
      (stringMessage "forty-three octets of text fill that buffer")) =
        .ok (cdrHeaderLe ++ [44, 0, 0, 0] ++
          utf8Bytes "forty-three octets of text fill that buffer" ++ [0]) := by
    decide +kernel
  exact (typed.1 _ ordinary).mpr (by decide +kernel)

/-- A short text is followed on the wire by what was in the block before: 52 octets
instead of 14.  A sequence of 100 octets has the same estimate and panics. -/
theorem not_publishesAlike :
    (wire (publish cdrSerdes (defaultEstimate 24) (some ⟨roomyProvider, 32⟩)
          (stringMessage "hello"))).map List.length = .ok 52 ∧
      (wire (cdrSerdes.serializeToZbuf (stringMessage "hello"))).map List.length = .ok 14 ∧
      ¬ PublishesAlike cdrSerdes (defaultEstimate 24) ⟨roomyProvider, 32⟩
        (stringMessage "hello") ∧
      wire (publish cdrSerdes (defaultEstimate 24) (some ⟨roomyProvider, 32⟩)
        (.struct [.bytes (List.replicate 100 7)])) = .error .panicked ∧
      ¬ PublishesAlike cdrSerdes (defaultEstimate 24) ⟨roomyProvider, 32⟩
        (.struct [.bytes (List.replicate 100 7)]) := by
  have long : (wire (publish cdrSerdes (defaultEstimate 24) (some ⟨roomyProvider, 32⟩)
      (stringMessage "hello"))).map List.length = .ok 52 := by decide +kernel
  have short : (wire (cdrSerdes.serializeToZbuf (stringMessage "hello"))).map List.length =
      .ok 14 := by decide +kernel
  have panics : wire (publish cdrSerdes (defaultEstimate 24) (some ⟨roomyProvider, 32⟩)
      (.struct [.bytes (List.replicate 100 7)])) = .error .panicked := by decide +kernel
  have ordinary : (wire (cdrSerdes.serializeToZbuf
      (.struct [.bytes (List.replicate 100 7)]))).map List.length = .ok 108 := by decide +kernel
  refine ⟨long, short, fun alike => ?_, panics, fun alike => ?_⟩
  · rw [alike.1, short] at long
    cases long
  · rw [← alike.1, panics] at ordinary
    cases ordinary

end RosZ.Pubsub
