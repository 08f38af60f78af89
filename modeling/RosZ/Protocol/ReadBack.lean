import RosZ.Protocol.RmwZenoh

/-!
# What is read off a token

`readBack` is what the token of an entity says of it, whatever its names are.  The percent signs of
a name become slashes, the enclave and a slash at the end of a topic are lost, and a type that is
called like the placeholder is none.

Every token is read, and as `readBack` says (`parse_livelinessKeyExpr`), with the session, the
number and the kind of the entity.
-/

namespace RosZ.Protocol

open Text

/-- A namespace as it is read off a token. -/
def readNamespace (ns : String) : String :=
  if ns = "" ∨ ns = "/" ∨ ns = "%" then "" else demangleName RmwZenoh.escapeChar ns

def NodeEntity.readBack {ζ : Type} (node : NodeEntity ζ) : NodeEntity ζ :=
  let name := demangleName RmwZenoh.escapeChar node.name
  { node with name, namespace' := readNamespace node.namespace', enclave := "" }

/-- The hash is lost without the feature for type hashes, and if it is of another version. -/
def TypeInfo.readBack (noTypeHash : Bool) (info : TypeInfo) : Option TypeInfo :=
  if info.name = emptyTopicType then none
  else
    some {
      name := demangleName RmwZenoh.escapeChar info.name
      hash := (TypeHash.fromRihsString (info.hash.toRihsString noTypeHash)).getD
        ⟨0, .replicate 32 0⟩ }

def EndpointEntity.readBack {ζ : Type} (noTypeHash : Bool) (entity : EndpointEntity ζ) :
    EndpointEntity ζ :=
  { entity with
    node := entity.node.readBack
    topic := demangleName RmwZenoh.escapeChar ((Names.stripEnd "/" entity.topic).getD entity.topic)
    typeInfo := entity.typeInfo.bind (TypeInfo.readBack noTypeHash) }

def Entity.readBack {ζ : Type} (noTypeHash : Bool) : Entity ζ → Entity ζ
  | .node n => .node n.readBack
  | .endpoint e => .endpoint (e.readBack noTypeHash)

namespace RmwZenoh

variable {ζ κ : Type} [ZenohId ζ] [KeyExpr κ]

/-! ## Names -/

theorem demangleName_mangleName (name : String) :
    demangleName escapeChar (mangleName escapeChar name) = demangleName escapeChar name := by
  rw [← String.toList_inj]
  simp only [demangleName, mangleName, toList_replaceChar, List.map_map]
  refine List.map_congr_left fun c _ => ?_
  by_cases slash : c = '/'
  · subst slash
    rfl
  · simp only [Function.comp_apply, if_neg slash]

/-- A text is mangled to a single character only if it is one. -/
theorem mangleName_eq_percent_iff {name : String} :
    mangleName escapeChar name = "%" ↔ name = "/" ∨ name = "%" := by
  constructor
  · intro same
    have chars := congrArg String.toList same
    rw [mangleName, toList_replaceChar] at chars
    obtain ⟨c, single, image⟩ : ∃ c, name.toList = [c] ∧ (if c = '/' then '%' else c) = '%' := by
      obtain ⟨c, rest, shape, image, others⟩ := List.map_eq_cons_iff.mp chars
      exact ⟨c, by rw [shape, List.map_eq_nil_iff.mp others], image⟩
    split_ifs at image with slash
    · exact .inl (String.toList_inj.mp (by rw [single, slash]; rfl))
    · exact .inr (String.toList_inj.mp (by rw [single, image]; rfl))
  · rintro (rfl | rfl)
    · decide
    · decide

theorem demanglePlaceholder_readNamespace (ns : String) :
    demanglePlaceholder (namespaceField ns) = readNamespace ns := by
  unfold readNamespace namespaceField
  by_cases empty : ns = ""
  · subst empty
    rfl
  · have filled : ns.isEmpty = false := by
      rw [← Bool.not_eq_true, String.isEmpty_iff]
      exact empty
    rw [filled, if_neg Bool.false_ne_true, demanglePlaceholder]
    have placeholder : mangleName escapeChar ns = emptyPlaceholder ↔
        ns = "" ∨ ns = "/" ∨ ns = "%" :=
      mangleName_eq_percent_iff.trans (or_iff_right empty).symm
    simp only [placeholder, demangleName_mangleName]

/-! ## Fields -/

theorem mangleName_eq_emptyTopicType_iff {name : String} :
    mangleName escapeChar name = emptyTopicType ↔ name = emptyTopicType := by
  constructor
  · intro same
    have plain : Without '/' name := by
      intro slash
      have marked : '%' ∈ (mangleName escapeChar name).toList := by
        rw [mangleName, toList_replaceChar]
        exact List.mem_map.mpr ⟨'/', slash, rfl⟩
      rw [same] at marked
      exact absurd marked (by decide)
    exact (replaceChar_of_without plain).symm.trans same
  · rintro rfl
    decide

theorem toRihsString_ne_placeholder (noTypeHash : Bool) (h : TypeHash) :
    h.toRihsString noTypeHash ≠ emptyTopicHash := by
  cases noTypeHash with
  | false => exact toRihsString_ne_empty h
  | true => exact (by decide : "TypeHashNotSupported" ≠ emptyTopicHash)

theorem without_rihs (noTypeHash : Bool) (h : TypeHash) :
    Without '/' (h.toRihsString noTypeHash) := by
  cases noTypeHash with
  | false => exact without_toRihsString h (by decide) (by decide)
  | true => exact (by decide : Without '/' "TypeHashNotSupported")

theorem exists_typeFields (noTypeHash : Bool) (info : Option TypeInfo) :
    ∃ topicType topicHash, typeFields noTypeHash info = [topicType, topicHash] ∧
      Without '/' topicType ∧ Without '/' topicHash ∧
      parseTypeInfo topicType topicHash = info.bind (TypeInfo.readBack noTypeHash) := by
  cases info with
  | none => exact ⟨_, _, rfl, by decide, by decide, by simp [parseTypeInfo]⟩
  | some info =>
      refine ⟨_, _, rfl, without_mangleName _, without_rihs noTypeHash _, ?_⟩
      rw [Option.bind_some, parseTypeInfo, TypeInfo.readBack]
      by_cases hidden : info.name = emptyTopicType
      · rw [if_pos (.inl (mangleName_eq_emptyTopicType_iff.mpr hidden)), if_pos hidden]
      · have hashed := toRihsString_ne_placeholder noTypeHash info.hash
        rw [if_neg (not_or.mpr ⟨mt mangleName_eq_emptyTopicType_iff.mp hidden, hashed⟩),
          if_neg hidden, demangleName_mangleName]

omit [ZenohId ζ] in
theorem without_endpointFields_of_any (noTypeHash : Bool) (entity : EndpointEntity ζ) :
    ∀ field ∈ endpointFields noTypeHash entity, Without '/' field := by
  obtain ⟨topicType, topicHash, printed, named, hashed, -⟩ :=
    exists_typeFields noTypeHash entity.typeInfo
  intro field member
  simp only [endpointFields, printed, List.mem_cons, List.mem_append, List.not_mem_nil,
    or_false] at member
  rcases member with rfl | (rfl | rfl) | rfl
  · exact without_mangleName _
  · exact named
  · exact hashed
  · exact QosProfile.without_encode _

omit [ZenohId ζ] in
theorem parseEndpoint_readBack (noTypeHash : Bool) (entity : EndpointEntity ζ)
    (node : NodeEntity ζ) :
    (parseEndpoint node entity.id entity.kind).run (endpointFields noTypeHash entity) =
      .ok ({ entity.readBack noTypeHash with node }, []) := by
  obtain ⟨topicType, topicHash, printed, -, -, typeInfo⟩ :=
    exists_typeFields noTypeHash entity.typeInfo
  simp only [endpointFields, printed, List.cons_append, List.nil_append, parseEndpoint,
    StateT.run_bind, run_next, bind_ok, typeInfo, QosProfile.decode_encode,
    demangleName_mangleName]
  rfl

variable [LawfulZenohId ζ] [LawfulKeyExpr κ]

omit [KeyExpr κ] [LawfulKeyExpr κ] in
theorem parseNode_readBack (node : NodeEntity ζ) (id : UInt64) (kind : EntityKind)
    (rest : List String) :
    parseNode.run (nodeFields node id kind.display ++ rest) =
      .ok ((node.readBack, id, kind), rest) := by
  have enclave : demanglePlaceholder emptyPlaceholder = "" := rfl
  simp only [nodeFields, List.cons_append, List.nil_append, parseNode, StateT.run_bind, run_next,
    bind_ok, ne_eq, not_true_eq_false, if_false, StateT.run_pure,
    parseUsize_displayUsize, LawfulZenohId.fromStr_display, EntityKind.fromStr_display,
    run_parsed, enclave, demanglePlaceholder_readNamespace, demangleName_mangleName]
  rfl

/-! ## Tokens -/

theorem parse_nodeLivelinessKeyExpr {node : NodeEntity ζ} {key : κ}
    (made : nodeLivelinessKeyExpr node = some key) :
    parseLiveliness key = .ok (.node node.readBack) := by
  have filled : nodeFields node node.id EntityKind.node.display ≠ [] := List.cons_ne_nil _ _
  have read := parseNode_readBack node node.id .node []
  rw [List.append_nil] at read
  rw [parseLiveliness_eq filled (without_nodeFields _ _ EntityKind.node.without_display) made,
    StateT.run'_eq]
  simp only [parseFields, StateT.run_bind, read, bind_ok]
  rfl

/-- **Every token can be read**, and says of its endpoint what `readBack` does. -/
theorem parse_livelinessKeyExpr {noTypeHash : Bool} {entity : EndpointEntity ζ} {zid : ζ} {key : κ}
    (kind : entity.kind ≠ .node) (made : livelinessKeyExpr noTypeHash entity zid = some key) :
    parseLiveliness key = .ok (.endpoint (entity.readBack noTypeHash)) := by
  have parts : ∀ field ∈ nodeFields entity.node entity.id entity.kind.display ++
      endpointFields noTypeHash entity, Without '/' field := by
    intro field member
    rcases List.mem_append.mp member with front | back
    · exact without_nodeFields _ _ entity.kind.without_display field front
    · exact without_endpointFields_of_any noTypeHash entity field back
  have filled : nodeFields entity.node entity.id entity.kind.display ++
      endpointFields noTypeHash entity ≠ [] := List.cons_ne_nil _ _
  have node :=
    parseNode_readBack entity.node entity.id entity.kind (endpointFields noTypeHash entity)
  have read := parseEndpoint_readBack noTypeHash entity entity.node.readBack
  rw [parseLiveliness_eq filled parts made, StateT.run'_eq]
  simp only [parseFields, StateT.run_bind, node, bind_ok]
  cases same : entity.kind with
  | node => exact absurd same kind
  | _ =>
      simp only [same] at read
      simp only [read, bind_ok]
      rfl

end RmwZenoh

end RosZ.Protocol
