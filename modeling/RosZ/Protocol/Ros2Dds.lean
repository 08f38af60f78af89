import RosZ.Protocol.RmwZenoh

/-!
# Liveliness tokens of zenoh-plugin-ros2dds

Endpoints are announced by a key expression

    @/<zid>/@ros2_lv/<kind>/<topic>/<type>[/<qos>]

in which the slashes of the topic and the type are section signs, and only publishers and
subscriptions have a QoS field.  That field has numeric codes of its own, with a flag for
topics without keys in front.

## Round trip

The QoS field is read back as it was printed (`decodeQos_encodeQos`).  Of an endpoint,
`announced` is what is read back (`parseLiveliness_livelinessKeyExpr`): there is no node, no
id and no hash in a token, and the topic has lost the slashes around it.  `parseLiveliness`
does not put the leading one back, so no fully qualified topic name survives.
-/

namespace RosZ.Protocol

namespace Ros2Dds

open Text

def escapeChar : Char := '§'

def adminSpace : String := "@ros2_lv"

/-! ## QoS profiles -/

/-- Format: `<keyless>:<reliability>:<durability>:<history_kind>,<depth>`. -/
def encodeQos (qos : QosProfile) (keyless : Bool) : String :=
  let flag := if !keyless then "K" else ""
  let reliability :=
    match qos.reliability with
    | .bestEffort => "0"
    | .reliable => "1"
  let durability :=
    match qos.durability with
    | .volatile => "0"
    | .transientLocal => "1"
  let history :=
    match qos.history with
    | .keepLast depth => ",".intercalate ["0", displayUsize depth]
    | .keepAll => "1,0"
  ":".intercalate [flag, reliability, durability, history]

def decodeReliability : String → QosReliability
  | "" => QosProfile.default.reliability
  | "0" => .bestEffort
  | "1" => .reliable
  | _ => QosProfile.default.reliability

def decodeDurability : String → QosDurability
  | "" => QosProfile.default.durability
  | "0" => .volatile
  | "1" => .transientLocal
  | _ => QosProfile.default.durability

/-- A depth that is no number counts as 10; every kind but `1` keeps the last ones. -/
def decodeHistory (field : String) : QosHistory :=
  if field = "" then QosProfile.default.history
  else
    match fields ',' field with
    | kind :: depth :: _ =>
        let depth := (parseUsize depth).getD 10
        match kind with
        | "0" | "" => .keepLast depth
        | "1" => .keepAll
        | _ => .keepLast depth
    | _ => QosProfile.default.history

/-- Errors of `parse_liveliness`; a QoS field is refused with the number of its parts. -/
inductive LivelinessError where
  | conversion (error : EntityConversionError)
  | qosFormat (parts : ℕ)
  deriving DecidableEq

def decodeQos (s : String) : Except LivelinessError (Bool × QosProfile) :=
  match fields ':' s with
  | keyless :: reliability :: durability :: history :: _ =>
      .ok (keyless.isEmpty,
        { reliability := decodeReliability reliability, durability := decodeDurability durability,
          history := decodeHistory history })
  | parts => .error (.qosFormat parts.length)

/-! ## Tokens -/

variable {ζ κ : Type} [ZenohId ζ] [KeyExpr κ]

/-- ros2dds does not expose node tokens. -/
def kindField : EntityKind → String
  | .publisher => "MP"
  | .subscription => "MS"
  | .service => "SS"
  | .client => "SC"
  | .node => "NN"

/-- The field of a type. -/
def typeField : Option TypeInfo → String
  | some info => mangleName escapeChar info.name
  | none => "unknown"

/-- QoS encoding for publishers and subscriptions only. -/
def qosFields (kind : EntityKind) (qos : QosProfile) : List String :=
  match kind with
  | .publisher | .subscription => [encodeQos qos false]
  | _ => []

def livelinessFields (entity : EndpointEntity ζ) (zid : ζ) : List String :=
  ["@", ZenohId.display zid, adminSpace, kindField entity.kind,
    mangleName escapeChar (stripSlashes entity.topic), typeField entity.typeInfo] ++
    qosFields entity.kind entity.qos

def livelinessKeyExpr (entity : EndpointEntity ζ) (zid : ζ) : Option κ :=
  KeyExpr.tryFrom ("/".intercalate (livelinessFields entity zid))

/-- A parser over the fields that are left. -/
abbrev FieldsM : Type → Type := StateT (List String) (Except LivelinessError)

/-- `iter.next()`. -/
def nextField : FieldsM (Option String)
  | [] => .ok (none, [])
  | field :: rest => .ok (some field, rest)

/-- `iter.next().ok_or(missing)`. -/
def next (missing : EntityConversionError) : FieldsM String := do
  match ← nextField with
  | some field => return field
  | none => throw (.conversion missing)

/-- Servers and clients of actions count as services. -/
def parseKind : String → Option EntityKind
  | "MP" => some .publisher
  | "MS" => some .subscription
  | "SS" => some .service
  | "SC" => some .client
  | "AS" | "AC" => some .service
  | _ => none

/-- `map_err(|_| ParsingError)`. -/
def parsed {α : Type} : Option α → FieldsM α
  | some value => pure value
  | none => throw (.conversion .parsingError)

/-- There is no node in a token. -/
def placeholderNode (zId : ζ) : NodeEntity ζ :=
  { domainId := 0, zId, id := 0, name := "", namespace' := "", enclave := "" }

def parseTypeInfo (typeName : String) : Option TypeInfo :=
  if typeName = "" ∨ typeName = "unknown" then none
  else some { name := typeName, hash := .zero }

/-- Optional QoS. -/
def parseQos : FieldsM QosProfile := do
  match ← nextField with
  | some field =>
      let (_, qos) ← (decodeQos field : FieldsM _)
      return qos
  | none => return .default

def parseFields : FieldsM (Entity ζ) := do
  if (← next .missingAdminSpace) ≠ "@" then throw (.conversion .missingAdminSpace)
  let zId ← parsed (ZenohId.fromStr (← next .missingZId))
  if (← next .missingAdminSpace) ≠ adminSpace then throw (.conversion .missingAdminSpace)
  let kind ← parsed (parseKind (← next .missingEntityKind))
  let topic := demangleName escapeChar (← next .missingTopicName)
  let typeName := demangleName escapeChar (← next .missingTopicType)
  let qos ← parseQos
  return .endpoint
    { id := 0, node := placeholderNode zId, kind, topic, typeInfo := parseTypeInfo typeName, qos }

def parseLiveliness (ke : κ) : Except LivelinessError (Entity ζ) :=
  parseFields.run' (fields '/' (KeyExpr.asStr ke))

/-! ## Round trip of profiles -/

section Profiles

/-- The last field of an encoded profile. -/
def historyParts : QosHistory → List String
  | .keepLast depth => ["0", displayUsize depth]
  | .keepAll => ["1", "0"]

def encodeParts (qos : QosProfile) (keyless : Bool) : List String :=
  [if keyless then "" else "K", if qos.reliability = .reliable then "1" else "0",
    if qos.durability = .volatile then "0" else "1", ",".intercalate (historyParts qos.history)]

theorem encodeQos_eq (qos : QosProfile) (keyless : Bool) :
    encodeQos qos keyless = ":".intercalate (encodeParts qos keyless) := by
  obtain ⟨reliability, durability, history⟩ := qos
  cases keyless <;> cases reliability <;> cases durability <;> cases history <;> rfl

theorem without_historyParts (history : QosHistory) {sep : Char}
    (separator : sep = '/' ∨ sep = ':' ∨ sep = ',') :
    ∀ part ∈ historyParts history, Without sep part := by
  have codes : Without sep "0" ∧ Without sep "1" := by
    rcases separator with rfl | rfl | rfl <;> decide
  intro part member
  cases history with
  | keepLast depth =>
      rcases List.mem_pair.mp member with rfl | rfl
      · exact codes.1
      · exact without_displayUsize depth separator
  | keepAll =>
      rcases List.mem_pair.mp member with rfl | rfl
      · exact codes.2
      · exact codes.1

theorem without_encodeParts (qos : QosProfile) (keyless : Bool) {sep : Char}
    (separator : sep = '/' ∨ sep = ':') :
    ∀ part ∈ encodeParts qos keyless, Without sep part := by
  have codes : ∀ text ∈ ["", "K", "0", "1", ","], Without sep text := by
    rcases separator with rfl | rfl <;> decide
  intro part member
  simp only [encodeParts, List.mem_cons, List.not_mem_nil, or_false] at member
  rcases member with rfl | rfl | rfl | rfl
  · split
    · exact codes _ (by simp)
    · exact codes _ (by simp)
  · split
    · exact codes _ (by simp)
    · exact codes _ (by simp)
  · split
    · exact codes _ (by simp)
    · exact codes _ (by simp)
  · refine (codes "," (by simp)).intercalate (without_historyParts qos.history ?_)
    exact separator.imp_right .inl

theorem decodeHistory_historyParts (history : QosHistory) :
    decodeHistory (",".intercalate (historyParts history)) = history := by
  have two : ∃ kind depth, historyParts history = [kind, depth] := by
    cases history <;> exact ⟨_, _, rfl⟩
  have parts : fields ',' (",".intercalate (historyParts history)) = historyParts history := by
    obtain ⟨kind, depth, shape⟩ := two
    exact fields_intercalate (by simp [shape]) (without_historyParts history (.inr (.inr rfl)))
  have filled : ",".intercalate (historyParts history) ≠ "" := by
    intro empty
    obtain ⟨kind, depth, shape⟩ := two
    rw [empty, shape, show fields ',' "" = [""] by decide] at parts
    simp at parts
  rw [decodeHistory, if_neg filled, parts]
  cases history with
  | keepLast depth => simp [historyParts]
  | keepAll => rfl

/-- **A profile and its flag are read back.** -/
theorem decodeQos_encodeQos (qos : QosProfile) (keyless : Bool) :
    decodeQos (encodeQos qos keyless) = .ok (keyless, qos) := by
  have parts : fields ':' (encodeQos qos keyless) = encodeParts qos keyless := by
    rw [encodeQos_eq]
    exact fields_intercalate (List.cons_ne_nil _ _) (without_encodeParts qos keyless (.inr rfl))
  obtain ⟨reliability, durability, history⟩ := qos
  rw [decodeQos, parts]
  simp only [encodeParts, decodeHistory_historyParts]
  cases keyless <;> cases reliability <;> cases durability <;> rfl

theorem without_encodeQos (qos : QosProfile) (keyless : Bool) :
    Without '/' (encodeQos qos keyless) := by
  rw [encodeQos_eq]
  exact Without.intercalate (by decide) (without_encodeParts qos keyless (.inl rfl))

end Profiles

/-! ## Round trip of endpoints -/

section Endpoints

/-- What is read back of an endpoint. -/
def announced (entity : EndpointEntity ζ) (zid : ζ) : EndpointEntity ζ where
  id := 0
  node := placeholderNode zid
  kind := entity.kind
  topic := stripSlashes entity.topic
  typeInfo := entity.typeInfo.bind fun info => parseTypeInfo info.name
  qos := if entity.kind = .publisher ∨ entity.kind = .subscription then entity.qos else .default

theorem demangle_mangleName {name : String} (plain : Without '§' name) :
    demangleName escapeChar (mangleName escapeChar name) = name :=
  replaceChar_replaceChar plain

theorem without_mangleName (name : String) : Without '/' (mangleName escapeChar name) :=
  without_replaceChar (by decide) name

theorem parseTypeInfo_typeField {info : Option TypeInfo}
    (plain : ∀ i, info = some i → Without '§' i.name) :
    parseTypeInfo (demangleName escapeChar (typeField info)) =
      info.bind fun i => parseTypeInfo i.name := by
  cases info with
  | none => rfl
  | some i =>
      rw [typeField, demangle_mangleName (plain i rfl)]
      rfl

theorem parseKind_kindField {kind : EntityKind} (endpoint : kind ≠ .node) :
    parseKind (kindField kind) = some kind := by
  cases kind with
  | node => exact absurd rfl endpoint
  | _ => rfl

theorem without_livelinessFields [LawfulZenohId ζ] (entity : EndpointEntity ζ) (zid : ζ) :
    ∀ field ∈ livelinessFields entity zid, Without '/' field := by
  have kind : Without '/' (kindField entity.kind) := by
    cases entity.kind <;> decide
  have type' : Without '/' (typeField entity.typeInfo) := by
    cases entity.typeInfo with
    | none => decide
    | some info => exact without_mangleName info.name
  have qos : ∀ field ∈ qosFields entity.kind entity.qos, Without '/' field := by
    intro field member
    unfold qosFields at member
    split at member
    · exact List.mem_singleton.mp member ▸ without_encodeQos _ _
    · exact List.mem_singleton.mp member ▸ without_encodeQos _ _
    · cases member
  intro field member
  rcases List.mem_append.mp member with front | back
  · simp only [List.mem_cons, List.not_mem_nil, or_false] at front
    rcases front with rfl | rfl | rfl | rfl | rfl | rfl
    · decide
    · exact LawfulZenohId.without_display zid
    · decide
    · exact kind
    · exact without_mangleName _
    · exact type'
  · exact qos field back

theorem run_next (missing : EntityConversionError) (field : String) (rest : List String) :
    (next missing).run (field :: rest) = .ok (field, rest) :=
  rfl

theorem run_parsed {α : Type} (value : α) (rest : List String) :
    (parsed (some value)).run rest = .ok (value, rest) :=
  rfl

/-- The QoS field is the last one. -/
theorem parseQos_qosFields (kind : EntityKind) (qos : QosProfile) :
    parseQos.run (qosFields kind qos) =
      .ok (if kind = .publisher ∨ kind = .subscription then qos else .default, []) := by
  have printed : parseQos.run [encodeQos qos false] = .ok (qos, []) := by
    have first : nextField.run [encodeQos qos false] = .ok (some (encodeQos qos false), []) := rfl
    rw [parseQos, StateT.run_bind, first, RmwZenoh.bind_ok]
    dsimp only
    rw [decodeQos_encodeQos]
    rfl
  cases kind with
  | publisher => exact printed
  | subscription => exact printed
  | _ => rfl

/-- The fields of an endpoint are read back as what is announced of it. -/
theorem parseFields_livelinessFields [LawfulZenohId ζ] {entity : EndpointEntity ζ} {zid : ζ}
    (endpoint : entity.kind ≠ .node) (topic : Without '§' entity.topic)
    (plain : ∀ info, entity.typeInfo = some info → Without '§' info.name) :
    parseFields.run' (livelinessFields entity zid) = .ok (.endpoint (announced entity zid)) := by
  have stripped := demangle_mangleName (without_stripSlashes topic)
  simp only [StateT.run'_eq, livelinessFields, List.cons_append, List.nil_append, parseFields,
    StateT.run_bind, run_next, RmwZenoh.bind_ok, ne_eq, not_true_eq_false, if_false,
    LawfulZenohId.fromStr_display, run_parsed, parseKind_kindField endpoint, stripped,
    parseTypeInfo_typeField plain, parseQos_qosFields]
  rfl

/-- **An endpoint is read back without its node and hash**, and with its topic stripped. -/
theorem parseLiveliness_livelinessKeyExpr [LawfulZenohId ζ] [LawfulKeyExpr κ]
    {entity : EndpointEntity ζ} {zid : ζ} {key : κ} (made : livelinessKeyExpr entity zid = some key)
    (endpoint : entity.kind ≠ .node) (topic : Without '§' entity.topic)
    (plain : ∀ info, entity.typeInfo = some info → Without '§' info.name) :
    parseLiveliness key = .ok (.endpoint (announced entity zid)) := by
  have split : fields '/' ("/".intercalate (livelinessFields entity zid)) =
      livelinessFields entity zid :=
    fields_intercalate (List.cons_ne_nil _ _) (without_livelinessFields entity zid)
  rw [parseLiveliness, LawfulKeyExpr.asStr_of_tryFrom made, split]
  exact parseFields_livelinessFields endpoint topic plain

/-- A fully qualified topic loses its leading slash. -/
theorem slash_append_stripSlashes {topic : String} (led : "/".toList <+: topic.toList)
    (closed : ¬ "/".toList <:+ topic.toList) : topic = "/" ++ stripSlashes topic := by
  obtain ⟨rest, start⟩ := Names.exists_stripStart led
  have split := Names.append_of_stripStart start
  have ending : Names.stripEnd "/" rest = none := by
    rw [Names.stripEnd_eq_none]
    intro suffix
    refine closed (suffix.trans ?_)
    rw [split, String.toList_append]
    exact List.suffix_append _ _
  rw [stripSlashes, start, Option.getD_some, ending, Option.getD_none]
  exact split

/-- What a token should keep of an endpoint. -/
def RoundTrips (entity : EndpointEntity ζ) (key : κ) : Prop :=
  ∃ parsed : EndpointEntity ζ, parseLiveliness key = .ok (.endpoint parsed) ∧
    parsed.kind = entity.kind ∧ parsed.topic = entity.topic ∧
    parsed.typeInfo.map TypeInfo.name = entity.typeInfo.map TypeInfo.name ∧
    (entity.kind = .publisher ∨ entity.kind = .subscription → parsed.qos = entity.qos)

omit [ZenohId ζ] in
/-- Everything but the topic is kept. -/
theorem announced_keeps {entity : EndpointEntity ζ} (zid : ζ)
    (named : ∀ info, entity.typeInfo = some info → info.name ≠ "" ∧ info.name ≠ "unknown") :
    (announced entity zid).kind = entity.kind ∧
    (announced entity zid).typeInfo.map TypeInfo.name = entity.typeInfo.map TypeInfo.name ∧
    (entity.kind = .publisher ∨ entity.kind = .subscription →
      (announced entity zid).qos = entity.qos) := by
  refine ⟨rfl, ?_, fun printed => if_pos printed⟩
  cases shape : entity.typeInfo with
  | none => simp [announced, shape]
  | some info => simp [announced, shape, parseTypeInfo, named info shape]

/-- **No endpoint with a fully qualified topic survives the round trip.** -/
theorem not_roundTrips [LawfulZenohId ζ] [LawfulKeyExpr κ] (entity : EndpointEntity ζ) (zid : ζ)
    (key : κ) (made : livelinessKeyExpr entity zid = some key) (endpoint : entity.kind ≠ .node)
    (led : "/".toList <+: entity.topic.toList) (closed : ¬ "/".toList <:+ entity.topic.toList)
    (topic : Without '§' entity.topic)
    (plain : ∀ info, entity.typeInfo = some info →
      Without '§' info.name ∧ info.name ≠ "unknown") : ¬ RoundTrips entity key := by
  rintro ⟨parsed, read, -, same, -⟩
  rw [parseLiveliness_livelinessKeyExpr made endpoint topic fun info typed =>
    (plain info typed).1, Except.ok.injEq, Entity.endpoint.injEq] at read
  have kept : stripSlashes entity.topic = entity.topic := by
    rw [← read] at same
    exact same
  have split := congrArg String.length (slash_append_stripSlashes led closed)
  rw [kept, String.length_append] at split
  have one : "/".length = 1 := rfl
  omega

/-! A publisher on `/ns/chatter` is announced on `ns/chatter`. -/

theorem talker_chunked : RmwZenoh.Chunked ("/".intercalate
    (livelinessFields RmwZenoh.demoTalker RmwZenoh.demoNode.zId)) :=
  RmwZenoh.chunked_intercalate (List.cons_ne_nil _ _) (by decide +kernel)

theorem talker_typed : ∀ info, RmwZenoh.demoTalker.typeInfo = some info →
    Without '§' info.name ∧ info.name ≠ "unknown" := by
  intro info same
  cases same
  decide

theorem not_roundTrips_talker : ∃ key : RmwZenoh.PlainKey,
    livelinessKeyExpr RmwZenoh.demoTalker RmwZenoh.demoNode.zId = some key ∧
      ¬ RoundTrips RmwZenoh.demoTalker key :=
  have made := RmwZenoh.tryFrom_eq talker_chunked
  ⟨_, made, not_roundTrips RmwZenoh.demoTalker RmwZenoh.demoNode.zId _ made (by decide)
    (by decide) (by decide) (by decide) talker_typed⟩

theorem talker_loses_slash : ∃ (key : RmwZenoh.PlainKey)
    (parsed : EndpointEntity RmwZenoh.SessionId),
    livelinessKeyExpr RmwZenoh.demoTalker RmwZenoh.demoNode.zId = some key ∧
      parseLiveliness key = .ok (.endpoint parsed) ∧ RmwZenoh.demoTalker.topic = "/ns/chatter" ∧
      parsed.topic = "ns/chatter" ∧ ¬ RoundTrips RmwZenoh.demoTalker key := by
  have made := RmwZenoh.tryFrom_eq talker_chunked
  have read := parseLiveliness_livelinessKeyExpr (ζ := RmwZenoh.SessionId) made (by decide)
    (by decide) fun info typed => (talker_typed info typed).1
  refine ⟨_, _, made, read, rfl, by decide +kernel, ?_⟩
  rintro ⟨parsed, found, -, same, -⟩
  rw [read, Except.ok.injEq, Entity.endpoint.injEq] at found
  subst found
  revert same
  decide +kernel

end Endpoints

end Ros2Dds

end RosZ.Protocol
