import RosZ.Protocol.RmwZenoh

/-!
# Topic keys of rmw_zenoh

Data is published and queried under the key expression

    <domain_id>/<topic>/<type>/<hash>

where the slashes of the topic are kept and those around it are stripped, and two
placeholders stand for a missing type.

A topic can have any number of slashes, so the key is read from both ends: the domain is
its first chunk and the type its last two, and the rest is the topic (`fields_keyText`).
Two endpoints hence share a key only when they share all three (`topicKeyExpr_eq_iff`).  A
type called like the placeholder has a hash, which is not printed like the other placeholder.
-/

namespace RosZ.Protocol

namespace RmwZenoh

open Text

variable {ζ κ : Type} [KeyExpr κ]

/-- The chunks of a type. -/
def typeText (noTypeHash : Bool) : Option TypeInfo → String
  | none => "/".intercalate [emptyTopicType, emptyTopicHash]
  | some info => "/".intercalate [demangleName escapeChar info.name,
      demangleName escapeChar (info.hash.toRihsString noTypeHash)]

def keyText (noTypeHash : Bool) (entity : EndpointEntity ζ) : String :=
  "/".intercalate [displayUsize entity.node.domainId, stripSlashes entity.topic,
    typeText noTypeHash entity.typeInfo]

def topicKeyExpr (noTypeHash : Bool) (entity : EndpointEntity ζ) : Option κ :=
  KeyExpr.tryFrom (keyText noTypeHash entity)

/-- Type names that are a single chunk and are printed as they are. -/
def ChunkNamed (typeInfo : Option TypeInfo) : Prop :=
  ∀ info, typeInfo = some info → Without '/' info.name ∧ Without '%' info.name

/-- The chunks of a type, read off its text. -/
def typeChunks : Option TypeInfo → List String
  | none => [emptyTopicType, emptyTopicHash]
  | some info => [info.name, info.hash.toRihsString false]

theorem without_hash (hash : TypeHash) {sep : Char} (mark : sep = '/' ∨ sep = '%') :
    Without sep (hash.toRihsString false) := by
  rcases mark with rfl | rfl
  · exact without_toRihsString hash (by decide) (by decide)
  · exact without_toRihsString hash (by decide) (by decide)

theorem fields_typeText {typeInfo : Option TypeInfo} (named : ChunkNamed typeInfo) :
    fields '/' (typeText false typeInfo) = typeChunks typeInfo := by
  cases typeInfo with
  | none => decide
  | some info =>
      obtain ⟨chunk, plain⟩ := named info rfl
      have name : demangleName escapeChar info.name = info.name := replaceChar_of_without plain
      have hash : demangleName escapeChar (info.hash.toRihsString false) =
          info.hash.toRihsString false :=
        replaceChar_of_without (without_hash _ (.inr rfl))
      rw [typeText, name, hash]
      refine fields_intercalate (List.cons_ne_nil _ _) fun part member => ?_
      rcases List.mem_pair.mp member with rfl | rfl
      · exact chunk
      · exact without_hash _ (.inl rfl)

omit [KeyExpr κ] in
/-- The domain is the first chunk and the type the last two. -/
theorem fields_keyText {entity : EndpointEntity ζ} (named : ChunkNamed entity.typeInfo) :
    fields '/' (keyText false entity) =
      displayUsize entity.node.domainId ::
        (fields '/' (stripSlashes entity.topic) ++ typeChunks entity.typeInfo) := by
  have shape : keyText false entity = displayUsize entity.node.domainId ++ String.singleton '/' ++
      (stripSlashes entity.topic ++ String.singleton '/' ++ typeText false entity.typeInfo) := by
    rw [keyText, String.intercalate_cons_of_ne_nil (List.cons_ne_nil _ _),
      String.intercalate_cons_of_ne_nil (List.cons_ne_nil _ _), String.intercalate_singleton]
    rfl
  rw [shape, fields_append, fields_append, fields_typeText named,
    fields_of_without (without_displayUsize _ (.inl rfl)), List.singleton_append]

theorem length_typeChunks (typeInfo : Option TypeInfo) : (typeChunks typeInfo).length = 2 := by
  cases typeInfo <;> rfl

/-- A type that is present is never printed as one that is absent. -/
theorem typeChunks_injective : Function.Injective typeChunks := by
  intro typeInfo typeInfo' same
  cases typeInfo with
  | none =>
      cases typeInfo' with
      | none => rfl
      | some info' =>
          simp only [typeChunks, List.cons.injEq, and_true] at same
          exact absurd same.2.symm (toRihsString_ne_empty _)
  | some info =>
      cases typeInfo' with
      | none =>
          simp only [typeChunks, List.cons.injEq, and_true] at same
          exact absurd same.2 (toRihsString_ne_empty _)
      | some info' =>
          simp only [typeChunks, List.cons.injEq, and_true] at same
          have hash := toRihsString_injective same.2
          obtain ⟨name, value⟩ := info
          obtain ⟨name', value'⟩ := info'
          rw [show name = name' from same.1, show value = value' from hash]

omit [KeyExpr κ] in
theorem keyText_eq_iff {entity entity' : EndpointEntity ζ} (named : ChunkNamed entity.typeInfo)
    (named' : ChunkNamed entity'.typeInfo) :
    keyText false entity = keyText false entity' ↔
      entity.node.domainId = entity'.node.domainId ∧
        stripSlashes entity.topic = stripSlashes entity'.topic ∧
          entity.typeInfo = entity'.typeInfo := by
  constructor
  · intro same
    have chunks := congrArg (fields '/') same
    rw [fields_keyText named, fields_keyText named', List.cons.injEq] at chunks
    obtain ⟨domain, rest⟩ := chunks
    obtain ⟨topic, typeInfo⟩ :=
      List.append_inj' rest ((length_typeChunks _).trans (length_typeChunks _).symm)
    have read := parseUsize_displayUsize entity.node.domainId
    rw [domain, parseUsize_displayUsize, Option.some.injEq] at read
    exact ⟨read.symm, fields_injective '/' topic, typeChunks_injective typeInfo⟩
  · rintro ⟨domain, topic, typeInfo⟩
    rw [keyText, domain, topic, typeInfo]
    rfl

/-- **Endpoints share a topic key exactly when they share the domain, the topic and the type.** -/
theorem topicKeyExpr_eq_iff [LawfulKeyExpr κ] (entity entity' : EndpointEntity ζ) (key key' : κ)
    (made : topicKeyExpr false entity = some key) (made' : topicKeyExpr false entity' = some key')
    (named : ∀ info, entity.typeInfo = some info → Without '/' info.name ∧ Without '%' info.name)
    (named' : ∀ info, entity'.typeInfo = some info →
      Without '/' info.name ∧ Without '%' info.name) :
    key = key' ↔
      entity.node.domainId = entity'.node.domainId ∧
        stripSlashes entity.topic = stripSlashes entity'.topic ∧
          entity.typeInfo = entity'.typeInfo := by
  rw [← keyText_eq_iff named named']
  constructor
  · rintro rfl
    rw [← LawfulKeyExpr.asStr_of_tryFrom made, ← LawfulKeyExpr.asStr_of_tryFrom made']
  · intro same
    rw [topicKeyExpr, same] at made
    exact Option.some.inj (made.symm.trans made')

/-! ## Two keys -/

def demoType : TypeInfo := { name := "std_msgs::msg::dds_::String_", hash := .zero }

def demoPublisher : EndpointEntity SessionId := { demoTalker with typeInfo := some demoType }

/-- Of the publisher's topic, with other slashes around it. -/
def demoSubscription : EndpointEntity SessionId :=
  { demoPublisher with kind := .subscription, topic := "ns/chatter/" }

theorem demoType_named : ∀ info, some demoType = some info →
    Without '/' info.name ∧ Without '%' info.name := by
  intro info same
  cases same
  decide

theorem topicKeyExpr_eq_iff_chatter : ∃ key key' : PlainKey,
    topicKeyExpr false demoPublisher = some key ∧
      topicKeyExpr false demoSubscription = some key' ∧ key = key' := by
  have stripped : stripSlashes demoPublisher.topic = stripSlashes demoSubscription.topic := by
    decide +kernel
  have named : ChunkNamed demoPublisher.typeInfo := demoType_named
  have named' : ChunkNamed demoSubscription.typeInfo := demoType_named
  have same : keyText false demoPublisher = keyText false demoSubscription :=
    (keyText_eq_iff named named').mpr ⟨rfl, stripped, rfl⟩
  have chunked : Chunked (keyText false demoPublisher) :=
    chunked_of_fields (fields_keyText named) (by decide +kernel)
  have made : topicKeyExpr false demoPublisher = some (PlainKey.mk _ chunked) :=
    tryFrom_eq chunked
  have made' : topicKeyExpr false demoSubscription = some (PlainKey.mk _ (same ▸ chunked)) :=
    tryFrom_eq (same ▸ chunked)
  refine ⟨_, _, made, made', ?_⟩
  exact (topicKeyExpr_eq_iff demoPublisher demoSubscription _ _ made made' demoType_named
    demoType_named).mpr ⟨rfl, stripped, rfl⟩

end RmwZenoh

end RosZ.Protocol
