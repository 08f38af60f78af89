import RosZ.Dynamic.TypeIdentity
import RosZ.Node

/-!
# Subscriptions to topics of unknown type

`create_dyn_sub_auto` takes the type that the first publisher on a topic advertises, asks the nodes
of the publishers for its description until one of them has it, and subscribes with the schema that
is described.  Any of these nodes may answer, and each of them may by then have registered other
types under the same name.

`createDynSubAuto_iff`: there is a subscription as soon as one node has the type; it is on the
topic key of the first publisher and has the publisher's schema, default values and type hashes
aside.

## Design notes

* The graph is looked at six times at most; `looks` is what it lists then.
* `ask` is the call of the service of a node.  So many nodes are asked before the deadline.
-/

namespace RosZ.Dynamic

open RosZ.Schema RosZ.Protocol

variable {ζ : Type}

/-- Why there is no schema. -/
inductive DiscoveryError where
  | schemaNotFound (text : String)
  | serializationError (text : String)
  | deserializationError (text : String)
  | conversion (error : TypeDescriptionError)

/-- What is got from the node of the publisher at this place. -/
abbrev Ask (ζ : Type) : Type :=
  ℕ → NodeEntity ζ → GetTypeDescriptionRequest → Except DiscoveryError GetTypeDescriptionResponse

def responseToSchema (response : GetTypeDescriptionResponse) :
    Except DiscoveryError MessageSchema :=
  if response.successful then
    (typeDescriptionMsgToSchema
      (wireToSchemaTypeDescription response.typeDescription)).mapError .conversion
  else .error (.serializationError ("Response indicates failure: " ++ response.failureReason))

/-- The loop over the publishers, of which the first ones are asked in time. -/
def askPublishers (ask : Ask ζ) (topic : String) (request : GetTypeDescriptionRequest)
    (inTime : ℕ) : ℕ → Option DiscoveryError → List (Entity ζ) →
      Except DiscoveryError MessageSchema
  | _, lastError, [] => .error (lastError.getD
      (.schemaNotFound ("Failed to get type description from any publisher on " ++ topic)))
  | place, lastError, publisher :: rest =>
      if inTime ≤ place then
        .error (lastError.getD
          (.schemaNotFound ("Failed to get type description from any publisher on " ++ topic)))
      else
        match publisher with
        | .node _ => askPublishers ask topic request inTime (place + 1) lastError rest
        | .endpoint endpoint =>
            match ask place endpoint.node request with
            | .ok response =>
                if response.successful then responseToSchema response
                else askPublishers ask topic request inTime (place + 1)
                  (some (.serializationError response.failureReason)) rest
            | .error e => askPublishers ask topic request inTime (place + 1) (some e) rest

/-- What the graph lists once it has a publisher. -/
def publishersSeen (looks : ℕ → List (Entity ζ)) : List (Entity ζ) :=
  (((List.range 6).map looks).find? fun publishers => !publishers.isEmpty).getD []

def getTypeDescriptionForTopic (ask : Ask ζ) (topic : String) (looks : ℕ → List (Entity ζ))
    (inTime : ℕ) : Except DiscoveryError (MessageSchema × String) :=
  match publishersSeen looks with
  | [] => .error (.schemaNotFound ("No publishers found for topic: " ++ topic))
  | .node _ :: _ => .error (.serializationError "Expected endpoint entity")
  | .endpoint first :: rest =>
      match first.typeInfo with
      | none =>
          .error (.schemaNotFound ("Publisher on " ++ topic ++ " has no type information"))
      | some typeInfo => do
          let request := requestFor typeInfo
          let schema ← askPublishers ask topic request inTime 0 none (.endpoint first :: rest)
          return (schema, request.typeHash)

/-- The endpoint of the subscription, not yet built, and the schema that it decodes with. -/
def createDynSubAuto (calculateHash : CalculateHash) (ask : Ask ζ) (looks : ℕ → List (Entity ζ))
    (inTime : ℕ) (node : NodeEntity ζ) (id : UInt64) (topic : String) :
    Except DiscoveryError (EndpointEntity ζ × MessageSchema) := do
  let (schema, typeHash) ← getTypeDescriptionForTopic ask topic looks inTime
  let typeInfo : TypeInfo :=
    { name := ddsName schema.typeName
      hash := (TypeHash.fromRihsString typeHash).getD .zero }
  return (withDynSchema calculateHash (Node.createSubImpl node id topic (some typeInfo)) schema,
    schema)

/-! ## What nodes answer -/

section Answers

variable {ε : Type} {toString : Json.Value → Except ε String}
  {sha256 : List UInt8 → Vector UInt8 32} {schemas : Set MessageSchema}

/-- What is registered are schemas of these, each under its own name. -/
def Registers (calculateHash : CalculateHash) (schemas : Set MessageSchema)
    (registered : Schemas) : Prop :=
  ∀ typeName entry, registered typeName = some entry →
    ∃ schema ∈ schemas, entry = RegisteredSchema.new calculateHash schema ∧
      schema.typeName = typeName

theorem registers_none (calculateHash : CalculateHash) :
    Registers calculateHash schemas fun _ => none := nofun

theorem Registers.registerSchema {calculateHash : CalculateHash} {registered : Schemas}
    (registers : Registers calculateHash schemas registered) {schema : MessageSchema}
    (among : schema ∈ schemas) :
    Registers calculateHash schemas (registerSchema calculateHash registered schema) := by
  intro typeName entry found
  unfold Dynamic.registerSchema at found
  by_cases same : typeName = schema.typeName
  · subst same
    rw [Function.update_self] at found
    exact ⟨schema, among, (Option.some.inj found).symm, rfl⟩
  · rw [Function.update_of_ne same] at found
    exact registers typeName entry found

/-- The schemas of a node that has created publishers of these. -/
theorem registers_run {calculateHash : CalculateHash} {calls : List PubCall}
    (among : ∀ schema ∈ created calls, schema ∈ schemas) :
    Registers calculateHash schemas (Node.run calculateHash calls).schemas := by
  intro typeName entry found
  rw [schemas_run] at found
  obtain ⟨last, isLast, rfl⟩ := Option.map_eq_some_iff.mp found
  have listed := List.mem_of_find?_eq_some isLast
  exact ⟨last, among last (List.mem_reverse.mp listed), rfl,
    by simpa using List.find?_some isLast⟩

/-- A node that says it has the type describes the very schema that is asked for. -/
theorem Suited.responseToSchema_of_successful (suited : Suited toString sha256 schemas)
    {registered : Schemas} (registers : Registers (digest toString sha256) schemas registered)
    {schema : MessageSchema} (among : schema ∈ schemas)
    (successful : (buildResponse registered
      (requestFor (typeInfoOf (digest toString sha256) schema))).successful = true) :
    ∃ restored, responseToSchema (buildResponse registered
        (requestFor (typeInfoOf (digest toString sha256) schema))) = .ok restored ∧
      restored.plain = schema.plain := by
  obtain ⟨entry, found, hash, described⟩ := successful_iff.mp ⟨successful, rfl⟩
  obtain ⟨other, amongOther, rfl, -⟩ := registers _ _ found
  rw [typeHash_requestFor] at hash
  have printed : rihsString (digest toString sha256 (toTypeDescriptionMsg schema)) =
      rihsString (digest toString sha256 (toTypeDescriptionMsg other)) := by
    refine hash.resolve_left fun empty => ?_
    have length := congrArg (fun s => s.toList.length) empty
    simp [rihsString, String.toList_append] at length
  have same := (suited.digest_eq_iff among amongOther).mp (rihsString_injective printed)
  obtain ⟨restored, converted, plain⟩ :=
    exists_restored (suited.coherent schema among) (suited.describable schema among)
  refine ⟨restored, ?_, plain⟩
  unfold responseToSchema
  rw [if_pos successful, ← described, RegisteredSchema.new, wireToSchema_schemaToWire, ← same,
    converted]
  rfl

end Answers

/-! ## The loop over the publishers -/

section Loop

variable {ask : Ask ζ} {request : GetTypeDescriptionRequest} {inTime place : ℕ}
  {publishers : List (Entity ζ)}

/-- One of the nodes that are asked in time has the type. -/
def Answered (ask : Ask ζ) (request : GetTypeDescriptionRequest) (inTime place : ℕ)
    (publishers : List (Entity ζ)) : Prop :=
  ∃ k endpoint response, publishers[k]? = some (.endpoint endpoint) ∧ place + k < inTime ∧
    ask (place + k) endpoint.node request = .ok response ∧ response.successful = true

theorem not_answered_of_late (late : inTime ≤ place) :
    ¬ Answered ask request inTime place publishers := by
  rintro ⟨k, endpoint, response, -, early, -⟩
  omega

theorem answered_cons {publisher : Entity ζ} {rest : List (Entity ζ)} :
    Answered ask request inTime place (publisher :: rest) ↔
      (place < inTime ∧ ∃ endpoint response, publisher = .endpoint endpoint ∧
        ask place endpoint.node request = .ok response ∧ response.successful = true) ∨
      Answered ask request inTime (place + 1) rest := by
  constructor
  · rintro ⟨k, endpoint, response, listed, early, asked, successful⟩
    cases k with
    | zero => exact .inl ⟨early, endpoint, response, Option.some.inj listed, asked, successful⟩
    | succ k =>
        rw [← Nat.add_assoc, Nat.add_right_comm] at early asked
        exact .inr ⟨k, endpoint, response, listed, early, asked, successful⟩
  · rintro (⟨early, endpoint, response, rfl, asked, successful⟩ |
      ⟨k, endpoint, response, listed, early, asked, successful⟩)
    · exact ⟨0, endpoint, response, rfl, early, asked, successful⟩
    · rw [Nat.add_right_comm, Nat.add_assoc] at early asked
      exact ⟨k + 1, endpoint, response, listed, early, asked, successful⟩

/-- If what a node answers can always be converted, the loop ends with the first answer. -/
theorem askPublishers_spec {P : MessageSchema → Prop} (topic : String) (inTime place : ℕ)
    (publishers : List (Entity ζ))
    (converts : ∀ place node response, ask place node request = .ok response →
      response.successful = true → ∃ schema, responseToSchema response = .ok schema ∧ P schema)
    (lastError : Option DiscoveryError) :
    (Answered ask request inTime place publishers →
      ∃ schema, askPublishers ask topic request inTime place lastError publishers = .ok schema ∧
        P schema) ∧
    (¬ Answered ask request inTime place publishers →
      ∃ e, askPublishers ask topic request inTime place lastError publishers = .error e) := by
  induction publishers generalizing place lastError with
  | nil =>
      refine ⟨?_, fun _ => ⟨_, rfl⟩⟩
      rintro ⟨k, endpoint, response, listed, -⟩
      cases listed
  | cons publisher rest ih =>
      unfold askPublishers
      by_cases late : inTime ≤ place
      · rw [if_pos late]
        exact ⟨fun answered => absurd answered (not_answered_of_late late), fun _ => ⟨_, rfl⟩⟩
      rw [if_neg late, answered_cons, and_iff_right (Nat.lt_of_not_le late)]
      cases publisher with
      | node n => simpa using @ih (place + 1) lastError
      | endpoint endpoint =>
          simp only [Entity.endpoint.injEq, exists_and_left, exists_eq_left']
          cases asked : ask place endpoint.node request with
          | error e => simpa using @ih (place + 1) (some e)
          | ok response =>
              by_cases successful : response.successful = true
              · obtain ⟨schema, converted, holds⟩ := converts _ _ _ asked successful
                simp [successful, converted, holds]
              · simpa [successful] using
                  @ih (place + 1) (some (.serializationError response.failureReason))

end Loop

/-! ## The subscription -/

section Subscription

variable {ε : Type} {toString : Json.Value → Except ε String}
  {sha256 : List UInt8 → Vector UInt8 32} {schemas : Set MessageSchema}

/-- The hash of what is advertised comes back from its text. -/
theorem fromRihsString_typeHash (calculateHash : CalculateHash) (schema : MessageSchema) :
    TypeHash.fromRihsString (requestFor (typeInfoOf calculateHash schema)).typeHash =
      some (typeInfoOf calculateHash schema).hash := by
  rw [typeHash_requestFor, rihsString_eq, fromRihsString_toRihsString rfl, hash_typeInfoOf]

theorem createDynSubAuto_spec (suited : Suited toString sha256 schemas) {ask : Ask ζ}
    (honest : ∀ place node request response, ask place node request = .ok response →
      ∃ registered, Registers (digest toString sha256) schemas registered ∧
        response = buildResponse registered request)
    {looks : ℕ → List (Entity ζ)} {first : EndpointEntity ζ} {rest : List (Entity ζ)}
    (seen : publishersSeen looks = .endpoint first :: rest) {schema : MessageSchema}
    (among : schema ∈ schemas)
    (typed : first.typeInfo = some (typeInfoOf (digest toString sha256) schema))
    (inTime : ℕ) (node : NodeEntity ζ) (id : UInt64) (topic : String) :
    (Answered ask (requestFor (typeInfoOf (digest toString sha256) schema)) inTime 0
        (.endpoint first :: rest) →
      ∃ restored, createDynSubAuto (digest toString sha256) ask looks inTime node id topic =
        .ok (Node.createSubImpl node id topic first.typeInfo, restored) ∧
          restored.plain = schema.plain) ∧
    (¬ Answered ask (requestFor (typeInfoOf (digest toString sha256) schema)) inTime 0
        (.endpoint first :: rest) →
      ∃ e, createDynSubAuto (digest toString sha256) ask looks inTime node id topic =
        .error e) := by
  have converts : ∀ place node response,
      ask place node (requestFor (typeInfoOf (digest toString sha256) schema)) = .ok response →
        response.successful = true →
          ∃ restored, responseToSchema response = .ok restored ∧ restored.plain = schema.plain := by
    intro place node response asked successful
    obtain ⟨registered, registers, rfl⟩ := honest _ _ _ _ asked
    exact suited.responseToSchema_of_successful registers among successful
  obtain ⟨found, lost⟩ :=
    askPublishers_spec topic inTime 0 (.endpoint first :: rest) converts none
  unfold createDynSubAuto getTypeDescriptionForTopic
  rw [seen]
  dsimp only
  rw [typed]
  constructor
  · intro answered
    obtain ⟨restored, asked, plain⟩ := found answered
    have name : restored.typeName = schema.typeName := by
      rw [← restored.typeName_plain, plain, schema.typeName_plain]
    refine ⟨restored, ?_, plain⟩
    dsimp only
    rw [asked]
    simp only [bind, Except.bind, pure, Except.pure, fromRihsString_typeHash, name]
    rfl
  · intro none
    obtain ⟨e, asked⟩ := lost none
    dsimp only
    rw [asked]
    exact ⟨e, rfl⟩

/-- The second look finds two publishers.  The node of the first one does not answer, and the other
has registered the type with a default value. -/
def slowAsk : Ask RmwZenoh.SessionId := fun place _ request =>
  if place = 0 then .error (.deserializationError "timeout")
  else .ok (buildResponse (Node.run sampleHash
    [.createDynPub "chatter" presetSchema true]).schemas request)

def secondLook (place : ℕ) : List (Entity RmwZenoh.SessionId) :=
  if place = 0 then []
  else [.endpoint sampleTalker, .endpoint { sampleTalker with id := 13 }]

end Subscription

end RosZ.Dynamic
