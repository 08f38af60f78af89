import RosZ.Lib.Fallible
import RosZ.Protocol.Ros2Dds
import RosZ.Qos

/-!
# Codecs and decoders of QoS profiles

Three codecs print QoS profiles: that of nodes, that of the protocol crate, which reads
what the first one prints, and that of ros2dds.  Each reads back what it prints
(`codecs_roundTrip`).

The first two read one format, also when others print it, and differ on what others may
print.  The decoder of nodes knows the code `0` of a system default and a history that is
left out, the decoder of the protocol crate knows neither; the latter reads a depth of
zero, the former refuses it.  `Contested` are the texts of which one decoder makes a
profile and the other an error; on all others they agree (`decoders_agree_iff`).
-/

namespace RosZ.Qos

open Text Protocol

/-- **Every codec reads back what it prints**, and the protocol crate what nodes print. -/
theorem codecs_roundTrip :
    (∀ q : QosProfile, QosProfile.decode q.encode = .ok q) ∧
    (∀ q : QosProfile, Protocol.QosProfile.decode q.encode = .ok q.toProtocolQos) ∧
    (∀ p : Protocol.QosProfile, Protocol.QosProfile.decode p.encode = .ok p) ∧
    ∀ (p : Protocol.QosProfile) (keyless : Bool),
      Ros2Dds.decodeQos (Ros2Dds.encodeQos p keyless) = .ok (keyless, p) :=
  ⟨QosProfile.decode_encode, QosProfile.protocol_decode_encode, Protocol.QosProfile.decode_encode,
    Ros2Dds.decodeQos_encodeQos⟩

/-! ## The fields -/

/-- The codes of a policy that both decoders know; both policies have the same ones. -/
def Code (field : String) : Prop := field = "" ∨ field = "1" ∨ field = "2"

/-- The code that only nodes know. -/
def SystemDefault (field : String) : Prop := field = "0"

/-- The depth of a history field, when the field is of one of the kinds. -/
def DepthOf (kinds : List String) (field : String) (depth : UInt64) : Prop :=
  ∃ kind number rest, fields ',' field = kind :: number :: rest ∧ kind ∈ kinds ∧
    parseUsize number = some depth

/-- A history that both decoders know: all, or the last ones up to a depth. -/
def SharedHistory (field : String) : Prop :=
  (∃ number rest, fields ',' field = "2" :: number :: rest) ∨
    ∃ depth, DepthOf ["", "1"] field depth ∧ depth ≠ 0

/-- A history that only nodes know: left out, or of the kind of a system default. -/
def DefaultHistory (field : String) : Prop :=
  field = "" ∨ field = "," ∨ ∃ depth, DepthOf ["0"] field depth ∧ depth ≠ 0

/-- A history that only the protocol crate knows. -/
def EmptyHistory (field : String) : Prop := DepthOf ["", "1"] field 0

/-- What one decoder accepts and the other refuses. -/
def Contested (s : String) : Prop :=
  ∃ reliability durability history rest,
    fields ':' s = reliability :: durability :: history :: rest ∧
      (Code reliability ∨ SystemDefault reliability) ∧
      (Code durability ∨ SystemDefault durability) ∧
      (DefaultHistory history ∨
        SharedHistory history ∧ (SystemDefault reliability ∨ SystemDefault durability) ∨
        EmptyHistory history ∧ ¬ SystemDefault reliability ∧ ¬ SystemDefault durability)

theorem exists_decodeReliability_iff (field : String) :
    (∃ value, QosProfile.decodeReliability (some field) = .ok value) ↔
      Code field ∨ SystemDefault field := by
  unfold QosProfile.decodeReliability Code SystemDefault
  split <;> simp_all

theorem exists_protocol_decodeReliability_iff (field : String) :
    (∃ value, Protocol.QosProfile.decodeReliability field = .ok value) ↔ Code field := by
  unfold Protocol.QosProfile.decodeReliability Code
  split <;> simp_all

theorem exists_decodeDurability_iff (field : String) :
    (∃ value, QosProfile.decodeDurability (some field) = .ok value) ↔
      Code field ∨ SystemDefault field := by
  unfold QosProfile.decodeDurability Code SystemDefault
  split <;> simp_all

theorem exists_protocol_decodeDurability_iff (field : String) :
    (∃ value, Protocol.QosProfile.decodeDurability field = .ok value) ↔ Code field := by
  unfold Protocol.QosProfile.decodeDurability Code
  split <;> simp_all

/-- The parts of a field determine its depth. -/
theorem depthOf_iff {kinds : List String} {field kind number : String} {rest : List String}
    {depth : UInt64} (parts : fields ',' field = kind :: number :: rest) :
    DepthOf kinds field depth ↔ kind ∈ kinds ∧ parseUsize number = some depth := by
  constructor
  · rintro ⟨kind', number', rest', parts', listed, read⟩
    rw [parts] at parts'
    cases parts'
    exact ⟨listed, read⟩
  · rintro ⟨listed, read⟩
    exact ⟨kind, number, rest, parts, listed, read⟩

theorem exists_decodeDepth_iff (number : String) :
    (∃ value, QosProfile.decodeDepth number = .ok value) ↔
      ∃ depth, parseUsize number = some depth ∧ depth ≠ 0 := by
  unfold QosProfile.decodeDepth
  split
  · next unread => simp [unread]
  · next depth read =>
      simp only [read, Option.some.injEq, exists_eq_left']
      by_cases zero : depth = 0
      · simp [zero]
      · simp [zero]

theorem sharedHistory_iff {field kind number : String} {rest : List String}
    (parts : fields ',' field = kind :: number :: rest) :
    SharedHistory field ↔ kind = "2" ∨ (kind = "" ∨ kind = "1") ∧
      ∃ depth, parseUsize number = some depth ∧ depth ≠ 0 := by
  unfold SharedHistory
  simp only [depthOf_iff parts, parts, List.cons.injEq, List.mem_cons, List.not_mem_nil, or_false,
    exists_and_left, exists_eq', and_true, and_assoc]

/-- A field that is not in two parts is known only when it is empty. -/
theorem unknown_of_undivided {field : String}
    (undivided : ∀ kind number rest, fields ',' field ≠ kind :: number :: rest) :
    ¬ SharedHistory field ∧ ¬ EmptyHistory field ∧ (DefaultHistory field → field = "") := by
  refine ⟨?_, ?_, ?_⟩
  · rintro (⟨number, rest, parts⟩ | ⟨_, ⟨kind, number, rest, parts, -⟩, -⟩)
    · exact undivided _ _ _ parts
    · exact undivided _ _ _ parts
  · rintro ⟨kind, number, rest, parts, -⟩
    exact undivided _ _ _ parts
  · rintro (empty | rfl | ⟨_, ⟨kind, number, rest, parts, -⟩, -⟩)
    · exact empty
    · exact absurd QosProfile.fields_comma (undivided _ _ _)
    · exact absurd parts (undivided _ _ _)

theorem exists_decodeHistory_iff (field : String) :
    (∃ value, QosProfile.decodeHistory (some field) = .ok value) ↔
      SharedHistory field ∨ DefaultHistory field := by
  unfold QosProfile.decodeHistory
  by_cases blank : field = "," ∨ field = ""
  · have left : DefaultHistory field := blank.elim (fun comma => .inr (.inl comma)) .inl
    simp [blank, left]
  · obtain ⟨comma, empty⟩ := not_or.mp blank
    simp only [if_neg blank]
    split
    · next kind number rest parts =>
        have left : DefaultHistory field ↔
            kind = "0" ∧ ∃ depth, parseUsize number = some depth ∧ depth ≠ 0 := by
          simp [DefaultHistory, depthOf_iff parts, comma, empty, and_assoc]
        rw [sharedHistory_iff parts, left]
        split
        · next known =>
            rw [exists_decodeDepth_iff]
            grind
        · split <;> grind
    · next undivided =>
        obtain ⟨shared, -, left⟩ := unknown_of_undivided undivided
        have unread : ¬ DefaultHistory field := fun known => empty (left known)
        simp [shared, unread]

theorem exists_protocol_decodeHistory_iff (field : String) :
    (∃ value, Protocol.QosProfile.decodeHistory field = .ok value) ↔
      SharedHistory field ∨ EmptyHistory field := by
  unfold Protocol.QosProfile.decodeHistory
  split
  · next kind number rest parts =>
      rw [sharedHistory_iff parts, EmptyHistory, depthOf_iff parts]
      split
      · cases read : parseUsize number <;> grind
      · split <;> grind
  · next undivided =>
      obtain ⟨shared, zero, -⟩ := unknown_of_undivided undivided
      simp [shared, zero]

/-- No field is of two of the kinds. -/
theorem history_exclusive (field : String) :
    (SharedHistory field → ¬ DefaultHistory field ∧ ¬ EmptyHistory field) ∧
      (DefaultHistory field → ¬ EmptyHistory field) := by
  have undefaulted : ∀ kind number rest, fields ',' field = kind :: number :: rest →
      kind ≠ "0" → parseUsize number ≠ none ∨ kind = "2" → ¬ DefaultHistory field := by
    rintro kind number rest parts other filled (rfl | rfl | ⟨_, depth, -⟩)
    · rw [QosProfile.fields_empty] at parts
      cases parts
    · rw [QosProfile.fields_comma] at parts
      cases parts
      exact filled.elim (· rfl) (by decide)
    · exact other (by simpa using ((depthOf_iff parts).mp depth).1)
  constructor
  · rintro (⟨number, rest, parts⟩ | ⟨depth, ⟨kind, number, rest, parts, listed, read⟩, positive⟩)
    · refine ⟨undefaulted _ _ _ parts (by decide) (.inr rfl), fun zero => ?_⟩
      have kind := ((depthOf_iff parts).mp zero).1
      exact absurd kind (by decide)
    · refine ⟨undefaulted _ _ _ parts ?_ (.inl (by simp [read])), fun zero => ?_⟩
      · rintro rfl
        exact absurd listed (by decide)
      · have read' := ((depthOf_iff parts).mp zero).2
        exact positive (Option.some.inj (read.symm.trans read'))
  · rintro known ⟨kind, number, rest, parts, listed, read⟩
    refine undefaulted _ _ _ parts ?_ (.inl (by simp [read])) known
    rintro rfl
    exact absurd listed (by decide)

/-! ## What both read -/

theorem reliability_agrees {field : String} {here : QosReliability}
    {there : Protocol.QosReliability}
    (read : QosProfile.decodeReliability (some field) = .ok here)
    (read' : Protocol.QosProfile.decodeReliability field = .ok there) :
    there = here.toProtocolQos := by
  rcases (exists_protocol_decodeReliability_iff field).mp ⟨_, read'⟩ with rfl | rfl | rfl
  all_goals
    cases read
    cases read'
    rfl

theorem durability_agrees {field : String} {here : QosDurability}
    {there : Protocol.QosDurability}
    (read : QosProfile.decodeDurability (some field) = .ok here)
    (read' : Protocol.QosProfile.decodeDurability field = .ok there) :
    there = here.toProtocolQos := by
  rcases (exists_protocol_decodeDurability_iff field).mp ⟨_, read'⟩ with rfl | rfl | rfl
  all_goals
    cases read
    cases read'
    rfl

theorem history_agrees {field : String} {here : QosHistory} {there : Protocol.QosHistory}
    (read : QosProfile.decodeHistory (some field) = .ok here)
    (read' : Protocol.QosProfile.decodeHistory field = .ok there) :
    there = here.toProtocolQos := by
  have here' := (exists_decodeHistory_iff field).mp ⟨_, read⟩
  have there' := (exists_protocol_decodeHistory_iff field).mp ⟨_, read'⟩
  obtain ⟨-, exclusive⟩ := history_exclusive field
  have shared : SharedHistory field := by
    rcases here' with shared | known
    · exact shared
    · exact there'.resolve_right (exclusive known)
  rcases shared with ⟨number, rest, parts⟩ |
    ⟨depth, ⟨kind, number, rest, parts, listed, digits⟩, positive⟩
  · rw [QosProfile.decodeHistory_parts parts (.inl (by decide))] at read
    rw [Protocol.QosProfile.decodeHistory, parts] at read'
    cases read
    cases read'
    rfl
  · have filled : number ≠ "" := by
      rintro rfl
      cases digits
    have known : kind = "" ∨ kind = "1" := by simpa using listed
    rw [QosProfile.decodeHistory_parts parts (.inr filled), if_pos (known.imp_right .inr),
      QosProfile.decodeDepth, digits] at read
    rw [Protocol.QosProfile.decodeHistory, parts] at read'
    simp only [if_pos known, digits, Except.ok.injEq] at read'
    simp only [dif_pos positive, Except.ok.injEq] at read
    rw [← read, ← read']
    rfl

/-! ## Profiles -/

/-- What is read of the first three fields makes up the profile. -/
theorem fields_of_decode {s : String} {q : QosProfile} (read : QosProfile.decode s = .ok q) :
    ∃ reliability durability history rest,
      fields ':' s = reliability :: durability :: history :: rest ∧
        QosProfile.decodeReliability (some reliability) = .ok q.reliability ∧
        QosProfile.decodeDurability (some durability) = .ok q.durability ∧
        QosProfile.decodeHistory (some history) = .ok q.history := by
  simp only [QosProfile.decode, Fallible.bind_eq_ok_iff] at read
  obtain ⟨reliability, first, durability, second, history, third, made⟩ := read
  cases made
  cases parts : fields ':' s with
  | nil => simp [parts, QosProfile.decodeReliability] at first
  | cons r rest =>
      cases rest with
      | nil => simp [parts, QosProfile.decodeDurability] at second
      | cons d rest =>
          cases rest with
          | nil => simp [parts, QosProfile.decodeHistory] at third
          | cons h rest =>
              rw [parts] at first second third
              exact ⟨r, d, h, rest, rfl, first, second, third⟩

theorem fields_of_protocol_decode {s : String} {p : Protocol.QosProfile}
    (read : Protocol.QosProfile.decode s = .ok p) :
    ∃ reliability durability history rest,
      fields ':' s = reliability :: durability :: history :: rest ∧
        Protocol.QosProfile.decodeReliability reliability = .ok p.reliability ∧
        Protocol.QosProfile.decodeDurability durability = .ok p.durability ∧
        Protocol.QosProfile.decodeHistory history = .ok p.history := by
  unfold Protocol.QosProfile.decode at read
  split at read
  · next r d h rest parts =>
      simp only [Fallible.bind_eq_ok_iff] at read
      obtain ⟨reliability, first, durability, second, history, third, made⟩ := read
      cases made
      exact ⟨r, d, h, rest, parts, first, second, third⟩
  · cases read

theorem exists_decode_iff (s : String) :
    (∃ q, QosProfile.decode s = .ok q) ↔
      ∃ reliability durability history rest,
        fields ':' s = reliability :: durability :: history :: rest ∧
          (Code reliability ∨ SystemDefault reliability) ∧
          (Code durability ∨ SystemDefault durability) ∧
          (SharedHistory history ∨ DefaultHistory history) := by
  constructor
  · rintro ⟨q, read⟩
    obtain ⟨r, d, h, rest, parts, first, second, third⟩ := fields_of_decode read
    exact ⟨r, d, h, rest, parts, (exists_decodeReliability_iff r).mp ⟨_, first⟩,
      (exists_decodeDurability_iff d).mp ⟨_, second⟩, (exists_decodeHistory_iff h).mp ⟨_, third⟩⟩
  · rintro ⟨r, d, h, rest, parts, first, second, third⟩
    obtain ⟨reliability, first⟩ := (exists_decodeReliability_iff r).mpr first
    obtain ⟨durability, second⟩ := (exists_decodeDurability_iff d).mpr second
    obtain ⟨history, third⟩ := (exists_decodeHistory_iff h).mpr third
    simp only [QosProfile.decode, Fallible.bind_eq_ok_iff, parts, List.getElem?_cons_zero,
      List.getElem?_cons_succ]
    exact ⟨_, _, first, _, second, _, third, rfl⟩

theorem exists_protocol_decode_iff (s : String) :
    (∃ p, Protocol.QosProfile.decode s = .ok p) ↔
      ∃ reliability durability history rest,
        fields ':' s = reliability :: durability :: history :: rest ∧
          Code reliability ∧ Code durability ∧ (SharedHistory history ∨ EmptyHistory history) := by
  constructor
  · rintro ⟨p, read⟩
    obtain ⟨r, d, h, rest, parts, first, second, third⟩ := fields_of_protocol_decode read
    exact ⟨r, d, h, rest, parts, (exists_protocol_decodeReliability_iff r).mp ⟨_, first⟩,
      (exists_protocol_decodeDurability_iff d).mp ⟨_, second⟩,
      (exists_protocol_decodeHistory_iff h).mp ⟨_, third⟩⟩
  · rintro ⟨r, d, h, rest, parts, first, second, third⟩
    obtain ⟨reliability, first⟩ := (exists_protocol_decodeReliability_iff r).mpr first
    obtain ⟨durability, second⟩ := (exists_protocol_decodeDurability_iff d).mpr second
    obtain ⟨history, third⟩ := (exists_protocol_decodeHistory_iff h).mpr third
    simp only [Protocol.QosProfile.decode, parts, Fallible.bind_eq_ok_iff]
    exact ⟨_, _, first, _, second, _, third, rfl⟩

/-- What both decoders read is the same profile. -/
theorem decode_agrees {s : String} {p : Protocol.QosProfile} {q : QosProfile}
    (there : Protocol.QosProfile.decode s = .ok p) (here : QosProfile.decode s = .ok q) :
    p = q.toProtocolQos := by
  obtain ⟨r, d, h, rest, parts, first, second, third⟩ := fields_of_decode here
  obtain ⟨r', d', h', rest', parts', first', second', third'⟩ := fields_of_protocol_decode there
  rw [parts] at parts'
  cases parts'
  obtain ⟨reliability, durability, history⟩ := p
  rw [QosProfile.toProtocolQos, ← reliability_agrees first first',
    ← durability_agrees second second', ← history_agrees third third']

theorem not_systemDefault {field : String} (code : Code field) : ¬ SystemDefault field := by
  rintro rfl
  rcases code with same | same | same
  all_goals exact absurd same (by decide)

/-- The fields of a text determine what is said of its first three. -/
theorem exists_fields_iff {P : String → String → String → Prop} {s r d h : String}
    {rest : List String} (parts : fields ':' s = r :: d :: h :: rest) :
    (∃ r d h rest, fields ':' s = r :: d :: h :: rest ∧ P r d h) ↔ P r d h := by
  constructor
  · rintro ⟨r', d', h', rest', parts', holds⟩
    rw [parts] at parts'
    cases parts'
    exact holds
  · intro holds
    exact ⟨r, d, h, rest, parts, holds⟩

/-- **The decoders agree on exactly the texts that are not contested.** -/
theorem decoders_agree_iff (s : String) :
    (((∃ p, Protocol.QosProfile.decode s = .ok p) ↔ ∃ q, QosProfile.decode s = .ok q) ∧
      ∀ p q, Protocol.QosProfile.decode s = .ok p → QosProfile.decode s = .ok q →
        p = q.toProtocolQos) ↔ ¬ Contested s := by
  rw [and_iff_left fun p q => decode_agrees, exists_protocol_decode_iff, exists_decode_iff,
    Contested]
  by_cases divided : ∃ r d h rest, fields ':' s = r :: d :: h :: rest
  · obtain ⟨r, d, h, rest, parts⟩ := divided
    rw [exists_fields_iff parts, exists_fields_iff parts, exists_fields_iff parts]
    obtain ⟨shared, known⟩ := history_exclusive h
    have first : Code r → ¬ SystemDefault r := not_systemDefault
    have second : Code d → ¬ SystemDefault d := not_systemDefault
    constructor
    · rintro agree ⟨policy, policy', omitted | ⟨both, systemDefault⟩ | ⟨zero, named, named'⟩⟩
      · obtain ⟨-, -, read⟩ := agree.mpr ⟨policy, policy', .inr omitted⟩
        exact read.elim (fun both => (shared both).1 omitted) (known omitted)
      · obtain ⟨code, code', -⟩ := agree.mpr ⟨policy, policy', .inl both⟩
        exact systemDefault.elim (first code) (second code')
      · obtain ⟨-, -, read⟩ := agree.mp ⟨policy.resolve_right named, policy'.resolve_right named',
          .inr zero⟩
        exact read.elim (fun both => (shared both).2 zero) fun omitted => known omitted zero
    · intro settled
      constructor
      · rintro ⟨code, code', both | zero⟩
        · exact ⟨.inl code, .inl code', .inl both⟩
        · exact absurd ⟨.inl code, .inl code', .inr (.inr ⟨zero, first code, second code'⟩)⟩ settled
      · rintro ⟨policy, policy', both | omitted⟩
        · have code := policy.resolve_right fun systemDefault =>
            settled ⟨policy, policy', .inr (.inl ⟨both, .inl systemDefault⟩)⟩
          have code' := policy'.resolve_right fun systemDefault =>
            settled ⟨policy, policy', .inr (.inl ⟨both, .inr systemDefault⟩)⟩
          exact ⟨code, code', .inl both⟩
        · exact absurd ⟨policy, policy', .inl omitted⟩ settled
  · have undivided : ∀ r d h rest, fields ':' s ≠ r :: d :: h :: rest :=
      fun r d h rest parts => divided ⟨r, d, h, rest, parts⟩
    simp [undivided]

/-- Nodes read a system default, which the protocol crate refuses. -/
theorem decoders_differ :
    ¬ ∀ s : String,
      ((∃ p, Protocol.QosProfile.decode s = .ok p) ↔ ∃ q, QosProfile.decode s = .ok q) ∧
        ∀ p q, Protocol.QosProfile.decode s = .ok p → QosProfile.decode s = .ok q →
          p = q.toProtocolQos := by
  intro agree
  have here : QosProfile.decode "0:2:1,5:,:,:,," = .ok { history := .keepLast ⟨5, by decide⟩ } := by
    decide +kernel
  have there : Protocol.QosProfile.decode "0:2:1,5:,:,:,," = .error .invalidReliability := by
    decide +kernel
  obtain ⟨p, read⟩ := (agree _).1.mpr ⟨_, here⟩
  rw [there] at read
  cases read

end RosZ.Qos
