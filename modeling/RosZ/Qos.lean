import RosZ.Protocol.Qos

/-!
# QoS profiles of nodes

The QoS profile that publishers and subscriptions are built with, and its text form,

    <reliability>:<durability>:<history>,<depth>:<sec>,<nsec>:<sec>,<nsec>:<kind>,<sec>,<nsec>

where a field is left empty when it has its default value.  The profile of the protocol
crate is what `toProtocolQos` keeps of it.

The first three fields are printed as the protocol crate prints them (`encode_eq`), so
one text serves both decoders.  The decoder here also reads the code `0` of a system
default and refuses a depth of zero; it never fails on the last three fields.
-/

namespace RosZ.Qos

open Text Protocol

inductive QosReliability where
  | reliable
  | bestEffort
  deriving DecidableEq

/-- A depth is at least one: `NonZeroUsize`. -/
abbrev NonZeroUsize : Type := { n : UInt64 // n ≠ 0 }

inductive QosHistory where
  | keepLast (depth : NonZeroUsize)
  | keepAll
  deriving DecidableEq

inductive QosDurability where
  | transientLocal
  | volatile
  deriving DecidableEq

inductive QosLiveliness where
  | automatic
  | manualByNode
  | manualByTopic
  deriving DecidableEq

/-- A duration in seconds and nanoseconds. -/
structure Duration where
  sec : UInt64
  nsec : UInt64
  deriving DecidableEq

def Duration.infinite : Duration := { sec := 9223372036, nsec := 854775807 }

structure QosProfile where
  reliability : QosReliability := .reliable
  durability : QosDurability := .volatile
  history : QosHistory := .keepLast ⟨10, by decide⟩
  deadline : Duration := .infinite
  lifespan : Duration := .infinite
  liveliness : QosLiveliness := .automatic
  livelinessLeaseDuration : Duration := .infinite
  deriving DecidableEq

inductive QosDecodeError where
  | incompleteQos
  | invalidReliability
  | invalidDurability
  | invalidHistory
  | invalidHistoryDepth
  deriving DecidableEq

def QosReliability.toProtocolQos : QosReliability → Protocol.QosReliability
  | .reliable => .reliable
  | .bestEffort => .bestEffort

def QosDurability.toProtocolQos : QosDurability → Protocol.QosDurability
  | .transientLocal => .transientLocal
  | .volatile => .volatile

def QosHistory.toProtocolQos : QosHistory → Protocol.QosHistory
  | .keepLast depth => .keepLast depth.val
  | .keepAll => .keepAll

namespace QosProfile

/-- Convert to the profile of the protocol crate. -/
def toProtocolQos (q : QosProfile) : Protocol.QosProfile where
  reliability := q.reliability.toProtocolQos
  durability := q.durability.toProtocolQos
  history := q.history.toProtocolQos

def default : QosProfile := {}

/-! ## Printing -/

/-- The field of a deadline or a lifespan, of which the default is `standard`. -/
def encodeDuration (duration standard : Duration) : String :=
  if duration ≠ standard then
    ",".intercalate [displayUsize duration.sec, displayUsize duration.nsec]
  else ","

def encode (q : QosProfile) : String :=
  let reliability :=
    if q.reliability ≠ default.reliability then
      match q.reliability with
      | .reliable => "1"
      | .bestEffort => "2"
    else ""
  let durability :=
    if q.durability ≠ default.durability then
      match q.durability with
      | .transientLocal => "1"
      | .volatile => "2"
    else ""
  let history :=
    match q.history with
    | .keepLast depth =>
        if q.history ≠ default.history then ",".intercalate ["1", displayUsize depth]
        else ",".intercalate ["", displayUsize depth]
    | .keepAll => ",".intercalate ["2", ""]
  let deadline := encodeDuration q.deadline default.deadline
  let lifespan := encodeDuration q.lifespan default.lifespan
  let liveliness :=
    if q.liveliness ≠ default.liveliness ∨
        q.livelinessLeaseDuration ≠ default.livelinessLeaseDuration then
      let kind :=
        match q.liveliness with
        | .automatic => "1"
        | .manualByNode => "2"
        | .manualByTopic => "3"
      ",".intercalate [kind, displayUsize q.livelinessLeaseDuration.sec,
        displayUsize q.livelinessLeaseDuration.nsec]
    else ",,"
  ":".intercalate [reliability, durability, history, deadline, lifespan, liveliness]

/-! ## Reading

The argument of a field's decoder is what `fields.next()` returns. -/

def decodeReliability : Option String → Except QosDecodeError QosReliability
  | none => .error .incompleteQos
  | some "0" | some "" => .ok default.reliability
  | some "1" => .ok .reliable
  | some "2" => .ok .bestEffort
  | some _ => .error .invalidReliability

def decodeDurability : Option String → Except QosDecodeError QosDurability
  | none => .error .incompleteQos
  | some "0" | some "" => .ok default.durability
  | some "1" => .ok .transientLocal
  | some "2" => .ok .volatile
  | some _ => .error .invalidDurability

/-- `NonZeroUsize::new` of a parsed depth. -/
def decodeDepth (depth : String) : Except QosDecodeError QosHistory :=
  match parseUsize depth with
  | none => .error .invalidHistory
  | some depth =>
      if nonzero : depth ≠ 0 then .ok (.keepLast ⟨depth, nonzero⟩)
      else .error .invalidHistoryDepth

def decodeHistory : Option String → Except QosDecodeError QosHistory
  | none => .error .incompleteQos
  | some field =>
      if field = "," ∨ field = "" then .ok default.history
      else
        match fields ',' field with
        | kind :: depth :: _ =>
            if kind = "" ∨ kind = "0" ∨ kind = "1" then decodeDepth depth
            else if kind = "2" then .ok .keepAll
            else .error .invalidHistory
        | _ => .error .incompleteQos

/-- A number of a duration; what is no number stands for `standard`. -/
def decodeNumber (number : Option String) (standard : UInt64) : UInt64 :=
  (parseUsize (number.getD "")).getD standard

/-- `sec` and `nsec` from the parts that are left of a field. -/
def decodeParts (parts : List String) : Duration where
  sec := decodeNumber parts[0]? Duration.infinite.sec
  nsec := decodeNumber parts[1]? Duration.infinite.nsec

def decodeDuration : Option String → Duration
  | none => .infinite
  | some field =>
      if field = "" ∨ field = "," then .infinite else decodeParts (fields ',' field)

def decodeLivelinessKind : String → QosLiveliness
  | "" | "0" | "1" => .automatic
  | "2" => .manualByNode
  | "3" => .manualByTopic
  | _ => default.liveliness

def decodeLiveliness : Option String → QosLiveliness × Duration
  | none => (default.liveliness, .infinite)
  | some field =>
      if field = "" ∨ field = ",," then (default.liveliness, .infinite)
      else
        let parts := fields ',' field
        (decodeLivelinessKind (parts[0]?.getD ""), decodeParts parts.tail)

def decode (encoded : String) : Except QosDecodeError QosProfile := do
  let parts := fields ':' encoded
  let reliability ← decodeReliability parts[0]?
  let durability ← decodeDurability parts[1]?
  let history ← decodeHistory parts[2]?
  let (liveliness, livelinessLeaseDuration) := decodeLiveliness parts[5]?
  .ok { reliability, durability, history, deadline := decodeDuration parts[3]?,
        lifespan := decodeDuration parts[4]?, liveliness, livelinessLeaseDuration }

/-! ## Round trip -/

def durationParts (duration : Duration) : List String :=
  if duration = .infinite then ["", ""]
  else [displayUsize duration.sec, displayUsize duration.nsec]

def livelinessCode : QosLiveliness → String
  | .automatic => "1"
  | .manualByNode => "2"
  | .manualByTopic => "3"

def livelinessParts (q : QosProfile) : List String :=
  if q.liveliness = .automatic ∧ q.livelinessLeaseDuration = .infinite then ["", "", ""]
  else [livelinessCode q.liveliness, displayUsize q.livelinessLeaseDuration.sec,
    displayUsize q.livelinessLeaseDuration.nsec]

/-- The fields of a profile, of which the protocol crate knows the first three. -/
def encodeFields (q : QosProfile) : List String :=
  [q.toProtocolQos.reliabilityField, q.toProtocolQos.durabilityField,
    ",".intercalate q.toProtocolQos.historyParts, ",".intercalate (durationParts q.deadline),
    ",".intercalate (durationParts q.lifespan), ",".intercalate q.livelinessParts]

theorem encodeDuration_eq (duration : Duration) :
    encodeDuration duration .infinite = ",".intercalate (durationParts duration) := by
  unfold encodeDuration durationParts
  by_cases same : duration = .infinite
  · rw [if_neg (not_not_intro same), if_pos same]
    rfl
  · rw [if_pos same, if_neg same]

theorem encode_eq (q : QosProfile) : q.encode = ":".intercalate q.encodeFields := by
  dsimp only [encode, encodeFields]
  refine congrArg ":".intercalate ?_
  simp only [List.cons.injEq, and_true]
  refine ⟨?reliability, ?durability, ?history, encodeDuration_eq _, encodeDuration_eq _,
    ?liveliness⟩
  case reliability =>
    unfold Protocol.QosProfile.reliabilityField toProtocolQos
    cases q.reliability <;> rfl
  case durability =>
    unfold Protocol.QosProfile.durabilityField toProtocolQos
    cases q.durability <;> rfl
  case history =>
    unfold Protocol.QosProfile.historyParts toProtocolQos
    cases q.history with
    | keepAll => rfl
    | keepLast depth =>
        have same : QosHistory.keepLast depth = default.history ↔ depth.val = 10 := by
          rw [show default.history = .keepLast ⟨10, by decide⟩ from rfl, QosHistory.keepLast.injEq,
            Subtype.ext_iff]
        by_cases ten : depth.val = 10
        · simp [same, ten, QosHistory.toProtocolQos]
        · simp [same, ten, QosHistory.toProtocolQos]
  case liveliness =>
    unfold livelinessParts
    by_cases same : q.liveliness = .automatic ∧ q.livelinessLeaseDuration = .infinite
    · rw [if_pos same, if_neg (by simp [same, default])]
      rfl
    · have changed : q.liveliness ≠ default.liveliness ∨
          q.livelinessLeaseDuration ≠ default.livelinessLeaseDuration := not_and_or.mp same
      rw [if_neg same, if_pos changed]
      cases q.liveliness <;> rfl

theorem without_durationParts (duration : Duration) {sep : Char}
    (separator : sep = '/' ∨ sep = ':' ∨ sep = ',') :
    ∀ part ∈ durationParts duration, Without sep part := by
  have empty : Without sep "" := by simp [Without]
  intro part member
  unfold durationParts at member
  split at member
  · rcases List.mem_pair.mp member with rfl | rfl
    · exact empty
    · exact empty
  · rcases List.mem_pair.mp member with rfl | rfl
    · exact without_displayUsize _ separator
    · exact without_displayUsize _ separator

theorem without_livelinessParts (q : QosProfile) {sep : Char}
    (separator : sep = '/' ∨ sep = ':' ∨ sep = ',') :
    ∀ part ∈ q.livelinessParts, Without sep part := by
  have empty : Without sep "" := by simp [Without]
  have code : Without sep (livelinessCode q.liveliness) := by
    rcases separator with rfl | rfl | rfl <;> cases q.liveliness <;> decide
  intro part member
  unfold livelinessParts at member
  split at member
  · simp only [List.mem_cons, List.not_mem_nil, or_false, or_self] at member
    exact member ▸ empty
  · simp only [List.mem_cons, List.not_mem_nil, or_false] at member
    rcases member with rfl | rfl | rfl
    · exact code
    · exact without_displayUsize _ separator
    · exact without_displayUsize _ separator

/-- The first three fields are those of the protocol crate. -/
theorem without_encodeFields (q : QosProfile) :
    ∀ part ∈ q.encodeFields, Without ':' part := by
  have shared := Protocol.QosProfile.without_encodeFields q.toProtocolQos (.inr (.refl ':'))
  have comma : Without ':' "," := by decide
  intro part member
  simp only [encodeFields, List.mem_cons, List.not_mem_nil, or_false] at member
  rcases member with rfl | rfl | rfl | rfl | rfl | rfl
  · exact shared _ (by simp)
  · exact shared _ (by simp)
  · exact shared _ (by simp)
  · exact comma.intercalate (without_durationParts _ (.inr (.inl rfl)))
  · exact comma.intercalate (without_durationParts _ (.inr (.inl rfl)))
  · exact comma.intercalate (without_livelinessParts _ (.inr (.inl rfl)))

theorem fields_encode (q : QosProfile) : fields ':' q.encode = q.encodeFields := by
  rw [encode_eq]
  exact fields_intercalate (List.cons_ne_nil _ _) q.without_encodeFields

theorem decodeReliability_field (q : QosProfile) :
    decodeReliability (some q.toProtocolQos.reliabilityField) = .ok q.reliability := by
  unfold Protocol.QosProfile.reliabilityField toProtocolQos
  cases q.reliability <;> rfl

theorem decodeDurability_field (q : QosProfile) :
    decodeDurability (some q.toProtocolQos.durabilityField) = .ok q.durability := by
  unfold Protocol.QosProfile.durabilityField toProtocolQos
  cases q.durability <;> rfl

/-- A number is never printed as an empty text. -/
theorem displayUsize_ne_empty (n : UInt64) : displayUsize n ≠ "" := by
  intro same
  have read := parseUsize_displayUsize n
  rw [same] at read
  cases read

/-! The parts of the fields that stand for defaults. -/

theorem fields_empty : fields ',' "" = [""] := by decide

theorem fields_comma : fields ',' "," = ["", ""] := by decide

theorem fields_commas : fields ',' ",," = ["", "", ""] := by decide

theorem fields_joined {parts : List String} (filled : parts ≠ [])
    (apart : ∀ part ∈ parts, Without ',' part) : fields ',' (",".intercalate parts) = parts :=
  fields_intercalate filled apart

/-- A field with a kind or a depth in it is read in two parts. -/
theorem decodeHistory_parts {field kind depth : String} {rest : List String}
    (parts : fields ',' field = kind :: depth :: rest) (filled : kind ≠ "" ∨ depth ≠ "") :
    decodeHistory (some field) =
      if kind = "" ∨ kind = "0" ∨ kind = "1" then decodeDepth depth
      else if kind = "2" then .ok .keepAll
      else .error .invalidHistory := by
  have present : ¬ (field = "," ∨ field = "") := by
    rintro (rfl | rfl)
    · rw [fields_comma] at parts
      cases parts
      exact filled.elim (· rfl) (· rfl)
    · rw [fields_empty] at parts
      cases parts
  rw [decodeHistory, if_neg present, parts]

theorem decodeHistory_field (q : QosProfile) :
    decodeHistory (some (",".intercalate q.toProtocolQos.historyParts)) = .ok q.history := by
  have parts := fields_joined
    (by unfold Protocol.QosProfile.historyParts; split <;> exact List.cons_ne_nil _ _)
    (q.toProtocolQos.without_historyParts (.inr (.inr rfl)))
  cases shape : q.history with
  | keepAll =>
      have two : q.toProtocolQos.historyParts = ["2", ""] := by
        simp [Protocol.QosProfile.historyParts, toProtocolQos, shape, QosHistory.toProtocolQos]
      rw [two] at parts ⊢
      rw [decodeHistory_parts parts (.inl (by decide))]
      rfl
  | keepLast depth =>
      have two : q.toProtocolQos.historyParts =
          [if depth.val = 10 then "" else "1", displayUsize depth.val] := by
        simp [Protocol.QosProfile.historyParts, toProtocolQos, shape, QosHistory.toProtocolQos]
      have kind : (if depth.val = 10 then "" else "1") = "" ∨
          (if depth.val = 10 then "" else "1") = "0" ∨
          (if depth.val = 10 then "" else "1") = "1" := by
        split <;> simp
      rw [two] at parts ⊢
      rw [decodeHistory_parts parts (.inr (displayUsize_ne_empty _)), if_pos kind, decodeDepth,
        parseUsize_displayUsize]
      exact dif_pos depth.property

theorem decodeParts_display (duration : Duration) :
    decodeParts [displayUsize duration.sec, displayUsize duration.nsec] = duration := by
  simp [decodeParts, decodeNumber]

theorem decodeDuration_field (duration : Duration) :
    decodeDuration (some (",".intercalate (durationParts duration))) = duration := by
  by_cases standard : duration = .infinite
  · subst standard
    rfl
  · have two : durationParts duration = [displayUsize duration.sec, displayUsize duration.nsec] :=
      if_neg standard
    have parts := fields_joined (two ▸ List.cons_ne_nil _ _)
      (without_durationParts duration (.inr (.inr rfl)))
    have present : ¬ (",".intercalate (durationParts duration) = "" ∨
        ",".intercalate (durationParts duration) = ",") := by
      rintro (same | same)
      · rw [same, fields_empty, two] at parts
        simp at parts
      · rw [same, fields_comma, two] at parts
        exact displayUsize_ne_empty _ (List.cons.inj parts).1.symm
    rw [decodeDuration, if_neg present, parts, two]
    exact decodeParts_display duration

theorem decodeLiveliness_field (q : QosProfile) :
    decodeLiveliness (some (",".intercalate q.livelinessParts)) =
      (q.liveliness, q.livelinessLeaseDuration) := by
  by_cases standard : q.liveliness = .automatic ∧ q.livelinessLeaseDuration = .infinite
  · rw [livelinessParts, if_pos standard, standard.1, standard.2]
    rfl
  · have three : q.livelinessParts = [livelinessCode q.liveliness,
        displayUsize q.livelinessLeaseDuration.sec, displayUsize q.livelinessLeaseDuration.nsec] :=
      if_neg standard
    have parts := fields_joined (three ▸ List.cons_ne_nil _ _)
      (q.without_livelinessParts (.inr (.inr rfl)))
    have present : ¬ (",".intercalate q.livelinessParts = "" ∨
        ",".intercalate q.livelinessParts = ",,") := by
      rintro (same | same)
      · rw [same, fields_empty, three] at parts
        simp at parts
      · rw [same, fields_commas, three] at parts
        exact displayUsize_ne_empty _ (List.cons.inj (List.cons.inj parts).2).1.symm
    have kind : decodeLivelinessKind (livelinessCode q.liveliness) = q.liveliness := by
      cases q.liveliness <;> rfl
    rw [decodeLiveliness, if_neg present, parts, three]
    simp only [List.tail_cons, decodeParts_display, List.getElem?_cons_zero, Option.getD_some,
      kind]

/-- **Decoding inverts encoding**, with any durations. -/
theorem decode_encode (q : QosProfile) : decode q.encode = .ok q := by
  rw [decode, fields_encode]
  simp only [encodeFields, List.getElem?_cons_zero, List.getElem?_cons_succ,
    decodeReliability_field, decodeDurability_field, decodeHistory_field, decodeDuration_field,
    decodeLiveliness_field]
  rfl

/-- **The protocol crate reads the same text**, as far as its profiles go. -/
theorem protocol_decode_encode (q : QosProfile) :
    Protocol.QosProfile.decode q.encode = .ok q.toProtocolQos := by
  rw [Protocol.QosProfile.decode, fields_encode]
  simp only [encodeFields, Protocol.QosProfile.decodeReliability_field,
    Protocol.QosProfile.decodeDurability_field, Protocol.QosProfile.decodeHistory_field]
  rfl

end QosProfile

end RosZ.Qos
