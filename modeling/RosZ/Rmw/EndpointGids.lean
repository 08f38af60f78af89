import RosZ.Graph.Runs
import RosZ.Lib.ByteOrder
import RosZ.Lib.Fallible
import RosZ.Qos
import RosZ.Service.Server

/-!
# GIDs of endpoints

`rmw_get_publishers_info_by_topic` and `rmw_get_subscriptions_info_by_topic` report a GID for
every endpoint of a topic, `rmw_get_gid_for_publisher` reports one for a publisher, and the
messages of a publisher carry one.

The last two are `endpoint_gid`, a hash of the session and the number of the entity.  The first two
are the number alone, and every session numbers its entities with a counter of its own.
`gidsIdentify_iff` says when the GIDs tell endpoints apart and agree nevertheless.

The hash function, the octets of a session id and the byte order of the machine are parameters.
The QoS profile of a report is left as a ros-z profile, and a text that cannot be a C string fails
the call.
-/

namespace RosZ.Rmw

open Protocol RosZ.Graph Transition Wire
open RosZ.Service (Attachment GidArray)

/-! ## Two kinds of GIDs -/

/-- What GIDs are made of, outside of this repository. -/
structure GidScheme (ζ : Type) where
  /-- `ZenohId::to_le_bytes`. -/
  toLeBytes : ζ → List UInt8
  sha256 : List UInt8 → Vector UInt8 32
  /-- The byte order of the machine. -/
  native : ByteOrder

variable {κ ζ : Type}

/-- Get the GID (globally unique identifier) for this endpoint. -/
def endpointGid (scheme : GidScheme ζ) (entity : EndpointEntity ζ) : GidArray :=
  let hash := scheme.sha256 (scheme.toLeBytes entity.node.zId ++ leBytes 8 entity.id.toNat)
  (hash.take 16).cast rfl

/-- The octets of a number, and zeros. -/
def idGid (native : ByteOrder) (id : UInt64) : GidArray :=
  ⟨(native.encode 8 id.toNat ++ List.replicate 8 0).toArray, by simp⟩

/-- The number can be read off the GID. -/
theorem idGid_injective (native : ByteOrder) {id id' : UInt64}
    (same : idGid native id = idGid native id') : id = id' := by
  have octets := congrArg (fun gid : GidArray => gid.toArray.toList) same
  simp only [idGid] at octets
  have words := congrArg native.decode (List.append_inj_left octets (by simp))
  rw [ByteOrder.decode_encode_of_lt native (id.toNat_lt : id.toNat < 256 ^ 8),
    ByteOrder.decode_encode_of_lt native (id'.toNat_lt : id'.toNat < 256 ^ 8)] at words
  exact UInt64.toNat_inj.mp words

/-! ## Publishers -/

/-- A typed publisher, as far as its messages identify it. -/
structure ZPub (scheme : GidScheme ζ) where
  entity : EndpointEntity ζ
  sn : UInt64
  gid : GidArray
  gid_eq : gid = endpointGid scheme entity

namespace ZPub

variable {scheme : GidScheme ζ}

/-- The end of `ZPubBuilder::build`. -/
def build (scheme : GidScheme ζ) (entity : EndpointEntity ζ) : ZPub scheme :=
  { entity, sn := 0, gid := endpointGid scheme entity, gid_eq := rfl }

/-- `new_attchment`, at the time `now`. -/
def newAttchment (publisher : ZPub scheme) (now : Int64) : Attachment × ZPub scheme :=
  ({ sequenceNumber := publisher.sn.toInt64, sourceTimestamp := now,
     sourceGid := publisher.gid }, { publisher with sn := publisher.sn + 1 })

/-- The attachments of the messages that are published at the given times. -/
def attachments (publisher : ZPub scheme) : List Int64 → List Attachment
  | [] => []
  | now :: later =>
      let (attachment, publisher) := publisher.newAttchment now
      attachment :: publisher.attachments later

/-- Every message of a publisher carries the GID of its entity. -/
theorem sourceGid_of_mem {publisher : ZPub scheme} {times : List Int64} {attachment : Attachment}
    (published : attachment ∈ publisher.attachments times) :
    attachment.sourceGid = endpointGid scheme publisher.entity := by
  induction times generalizing publisher with
  | nil => cases published
  | cons now later ih =>
      rcases List.mem_cons.mp published with rfl | after
      · exact publisher.gid_eq
      · exact @ih (publisher.newAttchment now).2 after

end ZPub

/-- `rmw_get_gid_for_publisher`. -/
def getGidForPublisher {scheme : GidScheme ζ} (publisher : ZPub scheme) : GidArray :=
  endpointGid scheme publisher.entity

/-! ## Endpoints of a topic -/

/-- Information on one endpoint of a topic. -/
structure TopicEndpointInfo where
  nodeName : String
  nodeNamespace : String
  topicType : Option TypeInfo
  endpointType : Protocol.EntityKind
  endpointGid : GidArray
  qosProfile : Qos.QosProfile

/-- How a call fails that has found its endpoints. -/
inductive RmwError where
  /-- `RMW_RET_ERROR` -/
  | error
  deriving DecidableEq

/-- `CString::new`: a text with a NUL inside is refused. -/
def cString (text : String) : Except RmwError String :=
  if '\x00' ∈ text.toList then .error .error else .ok text

/-- `DEFAULT_HISTORY_DEPTH`. -/
def defaultHistoryDepth : UInt64 := 10

theorem defaultHistoryDepth_ne_zero : defaultHistoryDepth ≠ 0 := by decide

/-- `QosHistory::from_depth`. -/
def fromDepth (depth : UInt64) : Qos.QosHistory :=
  if nonzero : depth ≠ 0 then .keepLast ⟨depth, nonzero⟩
  else .keepLast ⟨defaultHistoryDepth, defaultHistoryDepth_ne_zero⟩

/-- Convert from the QoS of the protocol crate to that of ros-z. -/
def rosZQos (qos : Protocol.QosProfile) : Qos.QosProfile where
  reliability :=
    match qos.reliability with
    | .reliable => .reliable
    | .bestEffort => .bestEffort
  durability :=
    match qos.durability with
    | .transientLocal => .transientLocal
    | .volatile => .volatile
  history :=
    match qos.history with
    | .keepLast depth => fromDepth depth
    | .keepAll => .keepAll

/-- The name of a topic type as a C string, if there is a type. -/
def topicTypeOf : Option TypeInfo → Except RmwError (Option TypeInfo)
  | some typeInfo => do return some { typeInfo with name := ← cString typeInfo.name }
  | none => return none

/-- The body of the loop of both calls. -/
def endpointInfo (scheme : GidScheme ζ) (endpointType : Protocol.EntityKind)
    (endpoint : EndpointEntity ζ) : Except RmwError TopicEndpointInfo := do
  let nodeName ← cString endpoint.node.name
  let nodeNamespace ←
    cString (if endpoint.node.namespace'.isEmpty then "/" else endpoint.node.namespace')
  let topicType ← topicTypeOf endpoint.typeInfo
  return {
    nodeName, nodeNamespace, topicType, endpointType
    endpointGid := idGid scheme.native endpoint.id
    qosProfile := rosZQos endpoint.qos }

/-- The GID that is filled in is that of the number. -/
theorem endpointGid_of_info {scheme : GidScheme ζ} {kind : Protocol.EntityKind}
    {e : EndpointEntity ζ} {info : TopicEndpointInfo}
    (filled : endpointInfo scheme kind e = .ok info) :
    info.endpointGid = idGid scheme.native e.id := by
  obtain ⟨nodeName, -, filled⟩ := Fallible.bind_eq_ok_iff.mp filled
  obtain ⟨nodeNamespace, -, filled⟩ := Fallible.bind_eq_ok_iff.mp filled
  obtain ⟨topicType, -, filled⟩ := Fallible.bind_eq_ok_iff.mp filled
  cases filled
  rfl

section Calls

variable [DecidableEq κ] (scheme : GidScheme ζ) (fmt : Format κ ζ) (s : GraphData κ ζ)

/-- The endpoints of a kind on a topic. -/
def endpointsByTopic (kind : Protocol.EntityKind) (topic : Topic) (order : List κ) :
    Option (List (EndpointEntity ζ)) :=
  (s.getEntitiesByTopic fmt kind topic order).map fun arcs =>
    arcs.filterMap fun a => entityGetEndpoint a.entity

/-- What both calls report; they differ in the kind. -/
def endpointsInfoByTopic (kind : Protocol.EntityKind) (topic : Topic) (order : List κ) :
    Option (Except RmwError (List TopicEndpointInfo)) :=
  (endpointsByTopic fmt s kind topic order).map fun endpoints =>
    endpoints.mapM (endpointInfo scheme kind)

/-- `rmw_get_publishers_info_by_topic`. -/
def getPublishersInfoByTopic :
    Topic → List κ → Option (Except RmwError (List TopicEndpointInfo)) :=
  endpointsInfoByTopic scheme fmt s .publisher

/-- `rmw_get_subscriptions_info_by_topic`. -/
def getSubscriptionsInfoByTopic :
    Topic → List κ → Option (Except RmwError (List TopicEndpointInfo)) :=
  endpointsInfoByTopic scheme fmt s .subscription

/-! ## What the GIDs tell -/

/-- One of the two calls. -/
inductive InfoCall where
  | publishers
  | subscriptions
  deriving DecidableEq

/-- The kind of the endpoints that a call reports. -/
def InfoCall.kind : InfoCall → Protocol.EntityKind
  | publishers => .publisher
  | subscriptions => .subscription

/-- What a call returns. -/
def InfoCall.infos (order : List κ) (topic : Topic) :
    InfoCall → Option (Except RmwError (List TopicEndpointInfo))
  | publishers => getPublishersInfoByTopic scheme fmt s topic order
  | subscriptions => getSubscriptionsInfoByTopic scheme fmt s topic order

/-- A call succeeds and reports `info` for the endpoint. -/
def Reported (order : List κ) (call : InfoCall) (e : EndpointEntity ζ) (info : TopicEndpointInfo) :
    Prop :=
  ∃ topic endpoints infos, endpointsByTopic fmt s call.kind topic order = some endpoints ∧
    call.infos scheme fmt s order topic = some (.ok infos) ∧ (e, info) ∈ endpoints.zip infos

/-- GIDs differ for different endpoints, and the one that is reported for a publisher is the one
that it has. -/
structure GidsIdentify (order : List κ) : Prop where
  distinct : ∀ call call' e e' info info', Reported scheme fmt s order call e info →
    Reported scheme fmt s order call' e' info' → e ≠ e' → info.endpointGid ≠ info'.endpointGid
  agree : ∀ e info, Reported scheme fmt s order .publishers e info →
    ∀ publisher : ZPub scheme, publisher.entity = e →
      info.endpointGid = getGidForPublisher publisher ∧
        ∀ times, ∀ attachment ∈ publisher.attachments times,
          attachment.sourceGid = info.endpointGid

end Calls

section Results

variable [DecidableEq κ] {scheme : GidScheme ζ} {fmt : Format κ ζ} {s : GraphData κ ζ}
  {order : List κ} {call : InfoCall} {e : EndpointEntity ζ} {info : TopicEndpointInfo}

theorem InfoCall.infos_eq (topic : Topic) :
    call.infos scheme fmt s order topic =
      endpointsInfoByTopic scheme fmt s call.kind topic order := by
  cases call <;> rfl

theorem Reported.endpointGid_eq (reported : Reported scheme fmt s order call e info) :
    info.endpointGid = idGid scheme.native e.id := by
  obtain ⟨topic, endpoints, infos, found, called, paired⟩ := reported
  rw [InfoCall.infos_eq, endpointsInfoByTopic, found, Option.map_some, Option.some.injEq] at called
  exact endpointGid_of_info (List.forall₂_zip (Fallible.mapM_eq_ok_iff.mp called) paired)

/-- The first half of the hash of the entity happens to be its number, followed by zeros. -/
def HashesToId (scheme : GidScheme ζ) (e : EndpointEntity ζ) : Prop :=
  (scheme.sha256 (scheme.toLeBytes e.node.zId ++ leBytes 8 e.id.toNat)).toList.take 16 =
    scheme.native.encode 8 e.id.toNat ++ List.replicate 8 0

theorem idGid_eq_endpointGid_iff :
    idGid scheme.native e.id = endpointGid scheme e ↔ HashesToId scheme e := by
  have octets : (endpointGid scheme e).toList =
      (scheme.sha256 (scheme.toLeBytes e.node.zId ++ leBytes 8 e.id.toNat)).toList.take 16 := by
    rw [endpointGid, Vector.toList_cast, Vector.toList_take]
  rw [← Vector.toList_inj, octets, eq_comm]
  rfl

/-- **When the GIDs identify endpoints.**  Different endpoints have different numbers, whatever
their sessions, and the hash of every publisher that is reported happens to be its number. -/
theorem gidsIdentify_iff (scheme : GidScheme ζ) (fmt : Format κ ζ) (s : GraphData κ ζ)
    (order : List κ) :
    GidsIdentify scheme fmt s order ↔
      (∀ call call' e e' info info', Reported scheme fmt s order call e info →
        Reported scheme fmt s order call' e' info' → e ≠ e' → e.id ≠ e'.id) ∧
      ∀ e info, Reported scheme fmt s order .publishers e info → HashesToId scheme e := by
  constructor
  · rintro ⟨distinct, agree⟩
    refine ⟨?_, fun e info reported => ?_⟩
    · intro call call' e e' info info' reported reported' different same
      refine distinct call call' e e' info info' reported reported' different ?_
      rw [reported.endpointGid_eq, reported'.endpointGid_eq, same]
    · rw [← idGid_eq_endpointGid_iff, ← reported.endpointGid_eq]
      exact (agree e info reported (.build scheme e) rfl).1
  · rintro ⟨distinct, hashes⟩
    refine ⟨?_, ?_⟩
    · intro call call' e e' info info' reported reported' different same
      rw [reported.endpointGid_eq, reported'.endpointGid_eq] at same
      exact distinct call call' e e' info info' reported reported' different
        (idGid_injective scheme.native same)
    · rintro e info reported publisher rfl
      have same : info.endpointGid = endpointGid scheme publisher.entity := by
        rw [reported.endpointGid_eq]
        exact idGid_eq_endpointGid_iff.mpr (hashes publisher.entity info reported)
      refine ⟨same, fun times attachment published => ?_⟩
      rw [ZPub.sourceGid_of_mem published, same]

end Results

/-! ## Sessions that number alike -/

/-- Every session gives each of its numbers to one endpoint. -/
def Numbered (entities : AList (fun _ : κ => Entity ζ)) : Prop :=
  ∀ entry ∈ entities.entries, ∀ entry' ∈ entities.entries,
    ∀ e ∈ entityGetEndpoint entry.2, ∀ e' ∈ entityGetEndpoint entry'.2,
      e.node.zId = e'.node.zId → e.id = e'.id → e = e'

instance [DecidableEq ζ] (entities : AList (fun _ : κ => Entity ζ)) :
    Decidable (Numbered entities) := by
  unfold Numbered
  infer_instance

section Sessions

open RmwZenoh

/-- A publisher on `/t` that is number 2 of its session. -/
def secondEntity (zId : SessionId) : EndpointEntity SessionId where
  id := 2
  node := ⟨0, zId, 1, "n", "", ""⟩
  kind := .publisher
  topic := "/t"
  typeInfo := none
  qos := {}

/-- No text of it has a NUL inside. -/
theorem exists_info_secondEntity (scheme : GidScheme SessionId) (kind : Protocol.EntityKind)
    (zId : SessionId) : ∃ info, endpointInfo scheme kind (secondEntity zId) = .ok info := by
  have name : cString "n" = .ok "n" := if_neg (by decide +kernel)
  have root : cString "/" = .ok "/" := if_neg (by decide +kernel)
  exact ⟨_, Fallible.bind_eq_ok_iff.mpr ⟨"n", name, Fallible.bind_eq_ok_iff.mpr ⟨"/", root,
    Fallible.bind_eq_ok_iff.mpr ⟨none, rfl, rfl⟩⟩⟩⟩

/-- Two sessions, each with a publisher that is its number 2. -/
def twoSessions : List (GraphLabel PlainKey SessionId) :=
  [.addLocalEntity (.endpoint (secondEntity ⟨0xb, by decide, by decide⟩)),
    .addLocalEntity (.endpoint (secondEntity ⟨0xc, by decide, by decide⟩))]

/-- **Publishers of two sessions with the same number are reported with one GID**, whatever is
hashed and how. -/
theorem gids_not_identify :
    ¬ ∃ scheme, ∀ c, (graph (rmwZenohFormat false)).Reachable Machine.anyStep c →
      Numbered (live (rmwZenohFormat false) c.trace) →
      ∀ order, order.Perm c.state.cached →
        GidsIdentify scheme (rmwZenohFormat false) c.state order := by
  rintro ⟨scheme, identify⟩
  obtain ⟨c, reached, seen⟩ := Machine.exists_of_schedule (graph (rmwZenohFormat false))
    Machine.anyStep twoSessions
    (fun c => (c.state.cached.isEmpty, decide (Numbered (live (rmwZenohFormat false) c.trace)),
      endpointsByTopic (rmwZenohFormat false) c.state .publisher "/t" []))
    (true, true, some [secondEntity ⟨0xb, by decide, by decide⟩,
      secondEntity ⟨0xc, by decide, by decide⟩]) (by decide +kernel)
  simp only [Prod.mk.injEq, List.isEmpty_iff, decide_eq_true_eq] at seen
  obtain ⟨cached, numbered, found⟩ := seen
  have distinct := (identify c reached numbered [] (by rw [cached])).distinct
  obtain ⟨infoA, filledA⟩ := exists_info_secondEntity scheme .publisher ⟨0xb, by decide, by decide⟩
  obtain ⟨infoB, filledB⟩ := exists_info_secondEntity scheme .publisher ⟨0xc, by decide, by decide⟩
  have called : getPublishersInfoByTopic scheme (rmwZenohFormat false) c.state "/t" [] =
      some (.ok [infoA, infoB]) := by
    rw [getPublishersInfoByTopic, endpointsInfoByTopic, found, Option.map_some]
    exact congrArg some (Fallible.mapM_eq_ok_iff.mpr (.cons filledA (.cons filledB .nil)))
  have different : secondEntity ⟨0xb, by decide, by decide⟩ ≠
      secondEntity ⟨0xc, by decide, by decide⟩ := by decide +kernel
  refine distinct .publishers .publishers _ _ infoA infoB ⟨"/t", _, _, found, called, ?_⟩
    ⟨"/t", _, _, found, called, ?_⟩ different ?_
  · simp
  · simp
  · rw [endpointGid_of_info filledA, endpointGid_of_info filledB]
    rfl

end Sessions

end RosZ.Rmw
