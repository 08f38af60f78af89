import RosZ.Protocol.Entity

/-!
# Liveliness tokens of rmw_zenoh

Every entity is announced by a key expression

    @ros2_lv/<domain_id>/<zid>/<nid>/<eid>/<kind>/<enclave>/<ns>/<name>
      [/<topic>/<type>/<hash>/<qos>]

with the slashes of names mangled to percent signs.  `parseLiveliness` reads the fields
one after the other, each with an error of its own when it is missing.

## Round trip

No field of a token holds a slash, so the token splits into the fields it was made of
(`parseLiveliness_eq`).  Both forms of token start with the fields of the node
(`parseNode_nodeFields`).  Two namespaces are printed alike, the empty one and a single
slash, and the enclave is not announced; `NodeEntity.announced` is what is read back.
-/

namespace RosZ.Protocol

open Text

/-- Placeholder for empty namespace/enclave. -/
def emptyPlaceholder : String := "%"

/-- Placeholder for empty topic type. -/
def emptyTopicType : String := "EMPTY_TOPIC_TYPE"

/-- Placeholder for empty topic hash. -/
def emptyTopicHash : String := "EMPTY_TOPIC_HASH"

/-- Mangle a name (replace slashes with escape char). -/
def mangleName (escape : Char) (name : String) : String := replaceChar '/' escape name

/-- Demangle a name (restore slashes from escape char). -/
def demangleName (escape : Char) (name : String) : String := replaceChar escape '/' name

/-- A topic without one leading and one trailing slash. -/
def stripSlashes (topic : String) : String :=
  let s := (Names.stripStart "/" topic).getD topic
  (Names.stripEnd "/" s).getD s

/-- What is stripped stands around what is left. -/
theorem append_stripSlashes (topic : String) :
    ∃ front back, topic = front ++ stripSlashes topic ++ back := by
  obtain ⟨front, split⟩ : ∃ front, topic = front ++ (Names.stripStart "/" topic).getD topic := by
    cases start : Names.stripStart "/" topic with
    | none => exact ⟨"", (String.empty_append).symm⟩
    | some rest => exact ⟨"/", Names.append_of_stripStart start⟩
  obtain ⟨back, split'⟩ : ∃ back, (Names.stripStart "/" topic).getD topic =
      stripSlashes topic ++ back := by
    dsimp only [stripSlashes]
    cases ending : Names.stripEnd "/" ((Names.stripStart "/" topic).getD topic) with
    | none => exact ⟨"", (String.append_empty).symm⟩
    | some rest => exact ⟨"/", Names.append_of_stripEnd ending⟩
  refine ⟨front, back, ?_⟩
  rw [String.append_assoc, ← split']
  exact split

theorem without_stripSlashes {c : Char} {topic : String} (plain : Without c topic) :
    Without c (stripSlashes topic) := by
  obtain ⟨front, back, split⟩ := append_stripSlashes topic
  intro member
  refine plain ?_
  rw [split, String.toList_append, String.toList_append]
  exact List.mem_append_left _ (List.mem_append_right _ member)

/-- What a token says of a node. -/
def NodeEntity.announced {ζ : Type} (node : NodeEntity ζ) : NodeEntity ζ :=
  { node with namespace' := if node.namespace' = "/" then "" else node.namespace', enclave := "" }

namespace RmwZenoh

def escapeChar : Char := '%'

def adminSpace : String := "@ros2_lv"

variable {ζ κ : Type} [ZenohId ζ] [KeyExpr κ]

/-! ## Making tokens -/

/-- The field of a namespace. -/
def namespaceField (ns : String) : String :=
  if ns.isEmpty then emptyPlaceholder else mangleName escapeChar ns

/-- The two fields of a type. -/
def typeFields (noTypeHash : Bool) : Option TypeInfo → List String
  | none => [emptyTopicType, emptyTopicHash]
  | some info => [mangleName escapeChar info.name, info.hash.toRihsString noTypeHash]

/-- The fields up to the name of the node. -/
def nodeFields (node : NodeEntity ζ) (id : UInt64) (kind : String) : List String :=
  [adminSpace, displayUsize node.domainId, ZenohId.display node.zId, displayUsize node.id,
    displayUsize id, kind, emptyPlaceholder, namespaceField node.namespace',
    mangleName escapeChar node.name]

/-- The fields behind the node. -/
def endpointFields (noTypeHash : Bool) (entity : EndpointEntity ζ) : List String :=
  mangleName escapeChar ((Names.stripEnd "/" entity.topic).getD entity.topic) ::
    (typeFields noTypeHash entity.typeInfo ++ [entity.qos.encode])

def livelinessKeyExpr (noTypeHash : Bool) (entity : EndpointEntity ζ) (_zid : ζ) : Option κ :=
  KeyExpr.tryFrom ("/".intercalate
    (nodeFields entity.node entity.id entity.kind.display ++ endpointFields noTypeHash entity))

def nodeLivelinessKeyExpr (entity : NodeEntity ζ) : Option κ :=
  KeyExpr.tryFrom ("/".intercalate (nodeFields entity entity.id "NN"))

/-! ## Reading tokens -/

/-- A parser over the fields that are left. -/
abbrev FieldsM : Type → Type := StateT (List String) (Except EntityConversionError)

/-- `iter.next().ok_or(missing)`. -/
def next (missing : EntityConversionError) : FieldsM String
  | [] => .error missing
  | field :: rest => .ok (field, rest)

/-- `map_err(|_| ParsingError)`. -/
def parsed {α : Type} : Option α → FieldsM α
  | some value => pure value
  | none => throw .parsingError

/-- The field of an enclave or a namespace. -/
def demanglePlaceholder (field : String) : String :=
  if field = emptyPlaceholder then "" else demangleName escapeChar field

/-- The fields up to the name of the node: the node, the id of the entity and its kind. -/
def parseNode : FieldsM (NodeEntity ζ × UInt64 × EntityKind) := do
  let admin ← next .missingAdminSpace
  if admin ≠ adminSpace then throw .missingAdminSpace
  let domainId ← parsed (parseUsize (← next .missingDomainId))
  let zId ← parsed (ZenohId.fromStr (← next .missingZId))
  let nodeId ← parsed (parseUsize (← next .missingNodeId))
  let entityId ← parsed (parseUsize (← next .missingEntityId))
  let kind ← parsed (EntityKind.fromStr (← next .missingEntityKind))
  let enclave := demanglePlaceholder (← next .missingEnclave)
  let ns := demanglePlaceholder (← next .missingNamespace)
  let name := demangleName escapeChar (← next .missingNodeName)
  return ({ domainId, zId, id := nodeId, name, namespace' := ns, enclave }, entityId, kind)

/-- A hash that cannot be read becomes one of version 0. -/
def parseTypeInfo (topicType topicHash : String) : Option TypeInfo :=
  if topicType = emptyTopicType ∨ topicHash = emptyTopicHash then none
  else
    let hash := (TypeHash.fromRihsString topicHash).getD ⟨0, .replicate 32 0⟩
    some { name := demangleName escapeChar topicType, hash }

/-- The fields behind the node. -/
def parseEndpoint (node : NodeEntity ζ) (id : UInt64) (kind : EntityKind) :
    FieldsM (EndpointEntity ζ) := do
  let topic := demangleName escapeChar (← next .missingTopicName)
  let topicType ← next .missingTopicType
  let topicHash ← next .missingTopicHash
  let typeInfo := parseTypeInfo topicType topicHash
  match QosProfile.decode (← next .missingTopicQoS) with
  | .ok qos => return { id, node, kind, topic, typeInfo, qos }
  | .error error => throw (.qosDecodeError error)

def parseFields : FieldsM (Entity ζ) := do
  let (node, id, kind) ← parseNode
  match kind with
  | .node => return .node node
  | _ => return .endpoint (← parseEndpoint node id kind)

/-- Parse liveliness token back to entity; fields behind the last one are ignored. -/
def parseLiveliness (ke : κ) : Except EntityConversionError (Entity ζ) :=
  parseFields.run' (fields '/' (KeyExpr.asStr ke))

/-! ## Round trip -/

section Fields

theorem mangleName_demangle {name : String} (plain : Without '%' name) :
    demangleName escapeChar (mangleName escapeChar name) = name :=
  replaceChar_replaceChar plain

theorem without_mangleName (name : String) : Without '/' (mangleName escapeChar name) :=
  without_replaceChar (by decide) name

/-- A single slash is printed like the empty namespace. -/
theorem demanglePlaceholder_namespaceField {ns : String} (plain : Without '%' ns) :
    demanglePlaceholder (namespaceField ns) = if ns = "/" then "" else ns := by
  by_cases empty : ns = ""
  · subst empty
    rfl
  · have filled : ns.isEmpty = false := by
      rw [← Bool.not_eq_true, String.isEmpty_iff]
      exact empty
    rw [namespaceField, filled, if_neg Bool.false_ne_true, demanglePlaceholder]
    by_cases slash : ns = "/"
    · subst slash
      rfl
    · have other : mangleName escapeChar ns ≠ emptyPlaceholder := by
        intro same
        have back := congrArg (demangleName escapeChar) same
        rw [mangleName_demangle plain] at back
        exact slash back
      rw [if_neg other, if_neg slash, mangleName_demangle plain]

theorem without_namespaceField (ns : String) : Without '/' (namespaceField ns) := by
  unfold namespaceField
  split
  · decide
  · exact without_mangleName ns

/-- The types that a token can carry. -/
def Announceable (info : TypeInfo) : Prop :=
  Without '%' info.name ∧ info.name ≠ emptyTopicType ∧ info.hash.version = 1

instance (info : TypeInfo) : Decidable (Announceable info) :=
  inferInstanceAs (Decidable (_ ∧ _ ∧ _))

theorem parseTypeInfo_typeFields {info : Option TypeInfo}
    (announceable : ∀ i, info = some i → Announceable i) :
    ∃ topicType topicHash, typeFields false info = [topicType, topicHash] ∧
      parseTypeInfo topicType topicHash = info := by
  cases info with
  | none => exact ⟨_, _, rfl, by simp [parseTypeInfo]⟩
  | some info =>
      obtain ⟨plain, named, version⟩ := announceable info rfl
      refine ⟨_, _, rfl, ?_⟩
      have typed : mangleName escapeChar info.name ≠ emptyTopicType := by
        intro same
        have back := congrArg (demangleName escapeChar) same
        rw [mangleName_demangle plain] at back
        exact named (back.trans (by decide))
      have hashed : info.hash.toRihsString false ≠ emptyTopicHash := toRihsString_ne_empty _
      rw [parseTypeInfo, if_neg (not_or.mpr ⟨typed, hashed⟩),
        fromRihsString_toRihsString version, mangleName_demangle plain]
      rfl

theorem without_typeFields (info : Option TypeInfo) :
    ∀ field ∈ typeFields false info, Without '/' field := by
  intro field member
  cases info with
  | none =>
      rcases List.mem_pair.mp member with rfl | rfl
      · decide
      · decide
  | some info =>
      rcases List.mem_pair.mp member with rfl | rfl
      · exact without_mangleName _
      · exact without_toRihsString _ (by decide) (by decide)

omit [ZenohId ζ] in
theorem without_endpointFields (entity : EndpointEntity ζ) :
    ∀ field ∈ endpointFields false entity, Without '/' field := by
  intro field member
  simp only [endpointFields, List.mem_cons, List.mem_append, List.not_mem_nil, or_false] at member
  rcases member with rfl | typed | rfl
  · exact without_mangleName _
  · exact without_typeFields _ field typed
  · exact QosProfile.without_encode _

theorem run_next (missing : EntityConversionError) (field : String) (rest : List String) :
    (next missing).run (field :: rest) = .ok (field, rest) :=
  rfl

theorem run_parsed {α : Type} (value : α) (rest : List String) :
    (parsed (some value)).run rest = .ok (value, rest) :=
  rfl

theorem bind_ok {ε α β : Type} (a : α) (f : α → Except ε β) : (Except.ok a >>= f) = f a := rfl

omit [ZenohId ζ] in
/-- The fields behind the node are read back. -/
theorem parseEndpoint_endpointFields {entity : EndpointEntity ζ} {node : NodeEntity ζ}
    (topic : Without '%' entity.topic) (closed : ¬ "/".toList <:+ entity.topic.toList)
    (announceable : ∀ info, entity.typeInfo = some info → Announceable info) :
    (parseEndpoint node entity.id entity.kind).run (endpointFields false entity) =
      .ok ({ entity with node }, []) := by
  obtain ⟨topicType, topicHash, printed, typeInfo⟩ := parseTypeInfo_typeFields announceable
  have stripped : (Names.stripEnd "/" entity.topic).getD entity.topic = entity.topic := by
    rw [Names.stripEnd_eq_none.mpr closed, Option.getD_none]
  simp only [endpointFields, stripped, printed, List.cons_append, List.nil_append, parseEndpoint,
    StateT.run_bind, run_next, bind_ok, typeInfo, QosProfile.decode_encode,
    mangleName_demangle topic]
  rfl

end Fields

section Tokens

variable [LawfulZenohId ζ] [LawfulKeyExpr κ]

theorem without_nodeFields (node : NodeEntity ζ) (id : UInt64) {kind : String}
    (word : Without '/' kind) : ∀ field ∈ nodeFields node id kind, Without '/' field := by
  intro field member
  simp only [nodeFields, List.mem_cons, List.not_mem_nil, or_false] at member
  rcases member with rfl | rfl | rfl | rfl | rfl | rfl | rfl | rfl | rfl
  · decide
  · exact without_displayUsize _ (.inl rfl)
  · exact LawfulZenohId.without_display _
  · exact without_displayUsize _ (.inl rfl)
  · exact without_displayUsize _ (.inl rfl)
  · exact word
  · decide
  · exact without_namespaceField _
  · exact without_mangleName _

omit [LawfulZenohId ζ] in
/-- A token that was made from fields without slashes splits into them. -/
theorem parseLiveliness_eq {parts : List String} {key : κ} (some : parts ≠ [])
    (apart : ∀ part ∈ parts, Without '/' part)
    (made : KeyExpr.tryFrom ("/".intercalate parts) = .some key) :
    (parseLiveliness key : Except _ (Entity ζ)) = parseFields.run' parts := by
  have split : fields '/' ("/".intercalate parts) = parts := fields_intercalate some apart
  rw [parseLiveliness, LawfulKeyExpr.asStr_of_tryFrom made, split]

/-- The node is read back, with what stands behind it left over. -/
theorem parseNode_nodeFields {node : NodeEntity ζ} (name : Without '%' node.name)
    (ns : Without '%' node.namespace') (id : UInt64) (kind : EntityKind) (rest : List String) :
    parseNode.run (nodeFields node id kind.display ++ rest) =
      .ok ((node.announced, id, kind), rest) := by
  have enclave : demanglePlaceholder emptyPlaceholder = "" := rfl
  simp only [nodeFields, List.cons_append, List.nil_append, parseNode, StateT.run_bind, run_next,
    bind_ok, ne_eq, not_true_eq_false, if_false, StateT.run_pure,
    parseUsize_displayUsize, LawfulZenohId.fromStr_display, EntityKind.fromStr_display,
    run_parsed, enclave, demanglePlaceholder_namespaceField ns, mangleName_demangle name]
  rfl

/-- **Tokens are read back as the entities they announce**, up to the namespace of a single
slash and the enclave. -/
theorem parseLiveliness_roundTrip :
    (∀ (node : NodeEntity ζ) (key : κ), nodeLivelinessKeyExpr node = some key →
      Without '%' node.name → Without '%' node.namespace' →
        parseLiveliness key = .ok (.node node.announced)) ∧
    ∀ (entity : EndpointEntity ζ) (zid : ζ) (key : κ), entity.kind ≠ .node →
      livelinessKeyExpr false entity zid = some key →
      Without '%' entity.node.name → Without '%' entity.node.namespace' →
      Without '%' entity.topic → ¬ "/".toList <:+ entity.topic.toList →
      (∀ info, entity.typeInfo = some info → Without '%' info.name ∧
        info.name ≠ emptyTopicType ∧ info.hash.version = 1) →
        parseLiveliness key = .ok (.endpoint { entity with node := entity.node.announced }) := by
  constructor
  · intro node key made name ns
    have parts := without_nodeFields node node.id EntityKind.node.without_display
    have filled : nodeFields node node.id EntityKind.node.display ≠ [] := List.cons_ne_nil _ _
    have read := parseNode_nodeFields name ns node.id .node []
    rw [List.append_nil] at read
    rw [parseLiveliness_eq filled parts made, StateT.run'_eq]
    simp only [parseFields, StateT.run_bind, read, bind_ok]
    rfl
  · intro entity zid key kind made name ns topic closed announceable
    have parts : ∀ field ∈ nodeFields entity.node entity.id entity.kind.display ++
        endpointFields false entity, Without '/' field := by
      intro field member
      rcases List.mem_append.mp member with front | back
      · exact without_nodeFields _ _ entity.kind.without_display field front
      · exact without_endpointFields entity field back
    have filled : nodeFields entity.node entity.id entity.kind.display ++
        endpointFields false entity ≠ [] := List.cons_ne_nil _ _
    have node := parseNode_nodeFields name ns entity.id entity.kind (endpointFields false entity)
    have read := @parseEndpoint_endpointFields _ entity entity.node.announced topic closed
      announceable
    rw [parseLiveliness_eq filled parts made, StateT.run'_eq]
    simp only [parseFields, StateT.run_bind, node, bind_ok]
    cases same : entity.kind with
    | node => exact absurd same kind
    | _ =>
        simp only [same] at read
        simp only [read, bind_ok]
        rfl

end Tokens

/-! ## A token -/

/-- A session id: a number of at most 16 octets, not zero, printed in hexadecimal. -/
structure SessionId where
  value : ℕ
  nonzero : 0 < value
  fits : value < 2 ^ 128
deriving DecidableEq

instance : ZenohId SessionId where
  display z := String.ofList (Nat.toDigits 16 z.value)
  fromStr s := (fromStrRadix 16 (2 ^ 128) s).bind fun value =>
    if valid : 0 < value ∧ value < 2 ^ 128 then some ⟨value, valid.1, valid.2⟩ else none

instance : LawfulZenohId SessionId where
  fromStr_display z := by
    have read := fromStrRadix_ofDigits (by decide : 1 < 16) le_rfl z.fits
    simp only [ZenohId.fromStr, ZenohId.display, read, Option.bind_some]
    rw [dif_pos ⟨z.nonzero, z.fits⟩]
  without_display z := without_ofDigits (by decide) le_rfl z.value (.inl rfl)

/-- No chunk is empty or has a wildcard. -/
def Chunked (s : String) : Prop :=
  ∀ chunk ∈ fields '/' s, chunk ≠ "" ∧ ∀ c ∈ chunk.toList, c ∉ ['*', '$', '?', '#']

instance (s : String) : Decidable (Chunked s) :=
  decidable_of_iff ((fields '/' s).all fun chunk =>
      chunk ≠ "" ∧ chunk.toList.all fun c => c ∉ ['*', '$', '?', '#'])
    (by simp [Chunked])

theorem chunked_of_fields {s : String} {parts : List String} (split : fields '/' s = parts)
    (each : ∀ part ∈ parts, Without '/' part ∧ Chunked part) : Chunked s := by
  intro chunk member
  rw [split] at member
  obtain ⟨without, chunked⟩ := each chunk member
  refine chunked chunk ?_
  rw [fields_of_without without]
  exact List.mem_singleton_self _

theorem chunked_intercalate {parts : List String} (some : parts ≠ [])
    (each : ∀ part ∈ parts, Without '/' part ∧ Chunked part) : Chunked ("/".intercalate parts) :=
  chunked_of_fields (fields_intercalate some fun part among => (each part among).1) each

/-- A key expression without wildcards. -/
structure PlainKey where
  text : String
  chunked : Chunked text
  deriving DecidableEq

instance : KeyExpr PlainKey where
  tryFrom s := if chunked : Chunked s then some ⟨s, chunked⟩ else none
  asStr := PlainKey.text

theorem tryFrom_eq {s : String} (chunked : Chunked s) :
    KeyExpr.tryFrom s = some (PlainKey.mk s chunked) :=
  dif_pos chunked

instance : LawfulKeyExpr PlainKey where
  asStr_of_tryFrom {s key} made := by
    simp only [KeyExpr.tryFrom] at made
    split at made
    · cases made
      rfl
    · cases made

def demoNode : NodeEntity SessionId :=
  { domainId := 0, zId := ⟨0xa1b2, by decide, by decide⟩, id := 1, name := "talker",
    enclave := "/secure", namespace' := "/" }

def demoTalker : EndpointEntity SessionId where
  id := 12
  node := demoNode
  kind := .publisher
  topic := "/ns/chatter"
  typeInfo := some { name := "std_msgs/msg/String", hash := .zero }
  qos := { reliability := .bestEffort, history := .keepLast 7 }

theorem parseLiveliness_roundTrip_talker :
    (∃ key : PlainKey, nodeLivelinessKeyExpr demoNode = some key ∧
      parseLiveliness key = .ok (.node { demoNode with namespace' := "", enclave := "" })) ∧
    ∃ key : PlainKey, livelinessKeyExpr false demoTalker demoNode.zId = some key ∧
      parseLiveliness key = .ok (.endpoint
        { demoTalker with node := { demoNode with namespace' := "", enclave := "" } }) := by
  have nodeKey : Chunked ("/".intercalate (nodeFields demoNode demoNode.id "NN")) :=
    chunked_intercalate (List.cons_ne_nil _ _) (by decide +kernel)
  have talkerKey : Chunked ("/".intercalate (nodeFields demoTalker.node demoTalker.id
      demoTalker.kind.display ++ endpointFields false demoTalker)) :=
    chunked_intercalate (List.cons_ne_nil _ _) (by decide +kernel)
  have node : nodeLivelinessKeyExpr demoNode = some (PlainKey.mk _ nodeKey) := tryFrom_eq nodeKey
  have talker : livelinessKeyExpr false demoTalker demoNode.zId = some (PlainKey.mk _ talkerKey) :=
    tryFrom_eq talkerKey
  have typed : ∀ info, demoTalker.typeInfo = some info → Announceable info := by
    intro info same
    cases same
    decide
  exact ⟨⟨_, node, parseLiveliness_roundTrip.1 demoNode _ node (by decide) (by decide)⟩,
    _, talker, parseLiveliness_roundTrip.2 demoTalker demoNode.zId _ (by decide) talker (by decide)
      (by decide) (by decide) (by decide) typed⟩

end RmwZenoh

end RosZ.Protocol
