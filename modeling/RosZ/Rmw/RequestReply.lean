import Mathlib.Data.Fintype.Basic
import RosZ.Lib.ByteOrder
import RosZ.Lib.Flight
import RosZ.Rmw.ClientIds
import RosZ.Rmw.Services

/-!
# Requests and responses of the middleware

Clients send requests with `rmw_send_request` and take what comes back with `rmw_take_response`;
services take requests with `rmw_take_request` and answer them with `rmw_send_response`.  Between
them is a transport that brings the query of a request to each service it is meant for, and the
reply of a service to the client that issued the query, in any order, and may lose either.

A response is matched with its request by the header alone: the number that the client has put into
the attachment of the query, and its GID.  `correlated_of_reachable` says that this works.

## Design notes

* A copy of a query keeps the number that the transport tells queries apart by, and a sample the
  number of the query it replies to and the service it comes from.  The clients and services do not
  look at these; the transport and the theorems do.
* Other participants may send queries too, with any attachment and payload.
* The calls on one client do not overlap here, so the id that a call returns is the one in the
  attachment; what happens when calls overlap is in `RosZ.Rmw.ClientIds`.
-/

namespace RosZ.Rmw.RequestReply

open Transition Wire
open ClientImpl (idOf idOf_succ idOf_injective toInt64_ofNat)
open RosZ.Service (Attachment Codec GidArray Query QueryKey ZServer)

/-! ## Clients, services and the transport -/

/-- How attachments, requests and responses are written and read. -/
structure Encodings (Request Response : Type) where
  encodeAttachment : Attachment → List UInt8
  decodeAttachment : List UInt8 → Option Attachment
  serializeRequest : Request → List UInt8
  deserializeRequest : List UInt8 → Option Request
  serializeResponse : Response → List UInt8
  deserializeResponse : List UInt8 → Option Response

/-- The part that services use. -/
def Encodings.codec {Request Response : Type} (enc : Encodings Request Response) :
    Codec Request Response where
  decodeAttachment := enc.decodeAttachment
  deserialize := enc.deserializeRequest
  serialize := enc.serializeResponse

/-- A reply to a query. -/
structure Sample (ν : Type) where
  attachment : Option (List UInt8)
  payload : List UInt8
  service : ν
  query : ℕ

/-- A client and its bounded response channel. -/
structure Client (ν : Type) where
  impl : ClientImpl
  depth : ℕ
  rx : List (Sample ν)

/-- What `take_response` makes of a sample: `taken` is set in any case, and the response buffer
holds the response if it was decoded. -/
structure Received (ν Response : Type) where
  header : RmwServiceInfo
  sample : Sample ν
  response : Option Response

section Calls

variable {ν Request Response : Type}

/-- The two counters of a request: the id to return, and the attachment of the query. -/
def Client.number (client : Client ν) (now : Int64) : Client ν × Int64 × Attachment :=
  let (attachment, inner) := client.impl.inner.newAttchment now
  ({ client with impl := { inner, sequenceCounter := client.impl.sequenceCounter + 1 } },
    client.impl.sequenceCounter, attachment)

/-- The callback of a query: `try_send`, which drops the sample when the channel is full. -/
def Client.trySend (client : Client ν) (sample : Sample ν) : Client ν :=
  if client.rx.length < client.depth then { client with rx := client.rx ++ [sample] } else client

theorem mem_trySend {client : Client ν} {sample new : Sample ν}
    (listed : sample ∈ (client.trySend new).rx) : sample ∈ client.rx ∨ sample = new := by
  unfold Client.trySend at listed
  split at listed
  · exact (List.mem_append.mp listed).imp_right List.mem_singleton.mp
  · exact .inl listed

theorem trySend_impl (client : Client ν) (sample : Sample ν) :
    (client.trySend sample).impl = client.impl := by
  unfold Client.trySend
  split <;> rfl

variable (enc : Encodings Request Response)

/-- The header of a sample; it is zero when there is no attachment that can be decoded. -/
def headerOf (sample : Sample ν) (receivedTimestamp : Int64) : RmwServiceInfo :=
  match sample.attachment.bind enc.decodeAttachment with
  | some attachment =>
      { requestId :=
          { writerGuid := attachment.sourceGid, sequenceNumber := attachment.sequenceNumber }
        sourceTimestamp := attachment.sourceTimestamp, receivedTimestamp }
  | none =>
      { requestId := { writerGuid := Vector.replicate 16 0, sequenceNumber := 0 }
        sourceTimestamp := 0, receivedTimestamp }

def Client.takeResponse (client : Client ν) (receivedTimestamp : Int64) :
    Option (Client ν × Received ν Response) :=
  match client.rx with
  | [] => none
  | sample :: rest =>
      some ({ client with rx := rest },
        { header := headerOf enc sample receivedTimestamp
          sample
          response := enc.deserializeResponse sample.payload })

end Calls

structure State (κ ν : Type) where
  clients : κ → Client ν
  services : ν → ServiceImpl
  /-- The queries on their way, with the service that each goes to. -/
  queries : List (ν × Query)
  /-- The client that has issued a query. -/
  issuer : ℕ → Option κ
  /-- The replies on their way. -/
  replies : List (Sample ν)
  nextQuery : ℕ

inductive Label (κ ν Request Response : Type) where
  /-- `rmw_send_request`: its query goes to all services that match, or fails to be sent. -/
  | sendRequest (client : κ) (request : Request) (now : Int64) (targets : List ν) (sent : Bool)
  /-- Another participant sends a query to a service. -/
  | foreignQuery (service : ν) (attachment payload : Option (List UInt8))
  | deliverQuery (i : ℕ)
  | loseQuery (i : ℕ)
  | takeRequest (service : ν) (receivedTimestamp : Int64)
  | sendResponse (service : ν) (requestHeader : RmwRequestId) (response : Response) (now : Int64)
  | deliverReply (i : ℕ)
  | loseReply (i : ℕ)
  | takeResponse (client : κ) (receivedTimestamp : Int64)

inductive Event (κ ν Request Response : Type) where
  /-- The call returns the id of a request that went out as a query. -/
  | requested (client : κ) (query : ℕ) (sequenceId : Int64) (request : Request)
  | failed (client : κ)
  | foreign (query : ℕ)
  | taken (service : ν) (report : Taken Request)
  | responded (service : ν) (requestHeader : RmwRequestId) (query : Query) (response : Response)
  | received (client : κ) (answer : Received ν Response)

namespace State

variable {κ ν Request Response : Type} [DecidableEq κ] [DecidableEq ν]
  (enc : Encodings Request Response)

/-- The result of a step: the state after it and what is observed of it. -/
abbrev After (κ ν Request Response : Type) : Type :=
  State κ ν × List (Event κ ν Request Response)

def sendRequest (s : State κ ν) (client : κ) (request : Request) (now : Int64) (targets : List ν)
    (sent : Bool) : After κ ν Request Response :=
  let (numbered, sequenceId, attachment) := (s.clients client).number now
  let s := { s with clients := Function.update s.clients client numbered }
  if sent then
    let query : Query :=
      { id := s.nextQuery
        attachment := some (enc.encodeAttachment attachment)
        payload := some (enc.serializeRequest request) }
    ({ s with
        queries := s.queries ++ targets.map (·, query)
        issuer := Function.update s.issuer s.nextQuery (some client)
        nextQuery := s.nextQuery + 1 },
      [.requested client s.nextQuery sequenceId request])
  else (s, [.failed client])

def foreignQuery (s : State κ ν) (service : ν) (attachment payload : Option (List UInt8)) :
    After κ ν Request Response :=
  ({ s with
      queries := s.queries ++ [(service, { id := s.nextQuery, attachment, payload })]
      nextQuery := s.nextQuery + 1 },
    [.foreign s.nextQuery])

/-- A query reaches the queue of its service. -/
def deliverQuery (s : State κ ν) (i : ℕ) : Option (State κ ν) :=
  s.queries[i]?.map fun (service, query) =>
    let server := (s.services service).inner
    { s with
      queries := s.queries.eraseIdx i
      services := Function.update s.services service
        { inner := { server with queue := (server.queue.push query).1 } } }

def takeRequest (s : State κ ν) (service : ν) (receivedTimestamp : Int64) :
    After κ ν Request Response :=
  let (taker, outcome) := (s.services service).takeRequest enc.codec receivedTimestamp
  ({ s with services := Function.update s.services service taker },
    match outcome with
    | .taken report => [.taken service report]
    | .empty | .noPayload _ => [])

def sendResponse (s : State κ ν) (service : ν) (requestHeader : RmwRequestId)
    (response : Response) (now : Int64) : After κ ν Request Response :=
  let (responder, result) :=
    (s.services service).sendResponse enc.codec requestHeader response now
  let s := { s with services := Function.update s.services service responder }
  match result with
  | .ok (query, reply) =>
      let sample : Sample ν :=
        { attachment := some (enc.encodeAttachment reply.attachment)
          payload := reply.payload
          service
          query := query.id }
      ({ s with replies := s.replies ++ [sample] },
        [.responded service requestHeader query response])
  | .error _ => (s, [])

/-- A reply reaches the client that has issued its query. -/
def deliverReply (s : State κ ν) (i : ℕ) : Option (State κ ν) :=
  s.replies[i]?.map fun sample =>
    let s := { s with replies := s.replies.eraseIdx i }
    match s.issuer sample.query with
    | some client =>
        { s with clients :=
            Function.update s.clients client ((s.clients client).trySend sample) }
    | none => s

def takeResponse (s : State κ ν) (client : κ) (receivedTimestamp : Int64) :
    Option (After κ ν Request Response) :=
  ((s.clients client).takeResponse enc receivedTimestamp).map fun (taker, answer) =>
    ({ s with clients := Function.update s.clients client taker }, [.received client answer])

def step (s : State κ ν) :
    Label κ ν Request Response → Option (After κ ν Request Response)
  | .sendRequest client request now targets sent =>
      if targets.Nodup then some (s.sendRequest enc client request now targets sent) else none
  | .foreignQuery service attachment payload =>
      some (s.foreignQuery service attachment payload)
  | .deliverQuery i => (s.deliverQuery i).map (·, [])
  | .loseQuery i => some ({ s with queries := s.queries.eraseIdx i }, [])
  | .takeRequest service now => some (s.takeRequest enc service now)
  | .sendResponse service header response now =>
      some (s.sendResponse enc service header response now)
  | .deliverReply i => (s.deliverReply i).map (·, [])
  | .loseReply i => some ({ s with replies := s.replies.eraseIdx i }, [])
  | .takeResponse client now => s.takeResponse enc client now

end State

/-- New clients with the given GIDs and channel depths, and new services with the given queue
depths. -/
def system {κ ν Request Response : Type} [DecidableEq κ] [DecidableEq ν]
    (enc : Encodings Request Response) (gid : κ → GidArray) (depth : κ → ℕ) (queueDepth : ν → ℕ) :
    Machine (State κ ν) (Label κ ν Request Response) (Event κ ν Request Response) where
  init :=
    { clients := fun client =>
        { impl := { inner := { sn := 1, gid := gid client }, sequenceCounter := 1 }
          depth := depth client
          rx := [] }
      services := fun service => { inner := { queue := .new (queueDepth service), map := ∅ } }
      queries := []
      issuer := fun _ => none
      replies := []
      nextQuery := 0 }
  step := State.step enc

/-! ## Responses and their requests -/

section Correlation

variable {κ ν Request Response : Type} [DecidableEq κ] [DecidableEq ν]
  (enc : Encodings Request Response) (gid : κ → GidArray)

/-- The response that a client has taken answers a request of that client: the header has the id
that was returned for the request, and a service that has taken this very request under the same
header was given the response for it. -/
def Answers (trace : List (Event κ ν Request Response)) (client : κ)
    (answer : Received ν Response) : Prop :=
  ∃ sequenceId request report response,
    answer.header.requestId = ⟨gid client, sequenceId⟩ ∧
    .requested client answer.sample.query sequenceId request ∈ trace ∧
    .taken answer.sample.service report ∈ trace ∧
    report.query.id = answer.sample.query ∧ report.header.requestId = answer.header.requestId ∧
    report.request = enc.deserializeRequest (enc.serializeRequest request) ∧
    .responded answer.sample.service answer.header.requestId report.query response ∈ trace ∧
    answer.response = enc.deserializeResponse (enc.serializeResponse response)

/-- The client takes a response of the service to the query. -/
def Event.isAnswer (client : κ) (service : ν) (query : ℕ) :
    Event κ ν Request Response → Bool
  | .received taker answer =>
      taker = client ∧ answer.sample.service = service ∧ answer.sample.query = query
  | _ => false

/-- The client numbers a request. -/
def Event.numbers (client : κ) : Event κ ν Request Response → Bool
  | .requested sender _ _ _ | .failed sender => sender = client
  | _ => false

/-- How many requests a client has numbered. -/
def numbered (client : κ) (trace : List (Event κ ν Request Response)) : ℕ :=
  trace.countP (Event.numbers client)

end Correlation

/-! ## Provenance -/

section Provenance

variable {κ ν Request Response : Type}
  (enc : Encodings Request Response) (gid : κ → GidArray) (P : Option (List UInt8) → Prop)

/-- Where a query comes from: a client, or another participant with an attachment that meets `P`. -/
inductive Known (trace : List (Event κ ν Request Response)) (query : Query) : Prop
  | own {client : κ} {sequenceId now : Int64} {request : Request}
      (requested : .requested client query.id sequenceId request ∈ trace)
      (attached : query.attachment = some (enc.encodeAttachment ⟨sequenceId, now, gid client⟩))
      (carried : query.payload = some (enc.serializeRequest request))
  | foreign (entered : .foreign query.id ∈ trace) (met : P query.attachment)

/-- A service has taken the query under its key. -/
def TakenUnder (trace : List (Event κ ν Request Response)) (service : ν) (key : QueryKey)
    (query : Query) : Prop :=
  ∃ report, .taken service report ∈ trace ∧ report.query = query ∧
    report.header.requestId.key = key ∧ ServiceImpl.keyOf enc.codec query = key ∧
    report.request = query.payload.bind enc.deserializeRequest

/-- A service was given the response in a sample, for a query that it has taken. -/
def Replied (trace : List (Event κ ν Request Response)) (sample : Sample ν) : Prop :=
  ∃ query header response now, Known enc gid P trace query ∧ query.id = sample.query ∧
    TakenUnder enc trace sample.service header.key query ∧
    .responded sample.service header query response ∈ trace ∧
    sample.attachment =
      some (enc.encodeAttachment ⟨header.sequenceNumber, now, header.writerGuid⟩) ∧
    sample.payload = enc.serializeResponse response

/-- A reply to a query of the client. -/
def RepliedTo (trace : List (Event κ ν Request Response)) (client : κ) (sample : Sample ν) : Prop :=
  (∃ sequenceId request, .requested client sample.query sequenceId request ∈ trace) ∧
    Replied enc gid P trace sample

variable {enc} {gid} {P} {trace later : List (Event κ ν Request Response)}

theorem Known.append {query : Query} (known : Known enc gid P trace query) :
    Known enc gid P (trace ++ later) query := by
  cases known with
  | own requested attached carried =>
      exact .own (List.mem_append_left _ requested) attached carried
  | foreign entered met => exact .foreign (List.mem_append_left _ entered) met

theorem TakenUnder.append {service : ν} {key : QueryKey} {query : Query}
    (taken : TakenUnder enc trace service key query) :
    TakenUnder enc (trace ++ later) service key query := by
  obtain ⟨report, seen, about⟩ := taken
  exact ⟨report, List.mem_append_left _ seen, about⟩

theorem Replied.append {sample : Sample ν} (replied : Replied enc gid P trace sample) :
    Replied enc gid P (trace ++ later) sample := by
  obtain ⟨query, header, response, now, known, same, taken, responded, wrote⟩ := replied
  exact ⟨query, header, response, now, known.append, same, taken.append,
    List.mem_append_left _ responded, wrote⟩

theorem RepliedTo.append {client : κ} {sample : Sample ν}
    (replied : RepliedTo enc gid P trace client sample) :
    RepliedTo enc gid P (trace ++ later) client sample := by
  obtain ⟨⟨sequenceId, request, requested⟩, replied⟩ := replied
  exact ⟨⟨sequenceId, request, List.mem_append_left _ requested⟩, replied.append⟩

theorem Answers.append {client : κ} {answer : Received ν Response}
    (answers : Answers enc gid trace client answer) :
    Answers enc gid (trace ++ later) client answer := by
  obtain ⟨sequenceId, request, report, response, header, requested, taken, same, under, read,
    responded, written⟩ := answers
  exact ⟨sequenceId, request, report, response, header, List.mem_append_left _ requested,
    List.mem_append_left _ taken, same, under, read, List.mem_append_left _ responded, written⟩

end Provenance

/-! ## What holds of the whole -/

section Invariant

variable {κ ν Request Response : Type} [DecidableEq κ] [DecidableEq ν]
  (enc : Encodings Request Response) (gid : κ → GidArray) (P : Option (List UInt8) → Prop)

/-- The counters of a client stand behind the requests that it has numbered. -/
def clientAfter (gid : GidArray) (requests : ℕ) : ClientImpl where
  inner := { sn := UInt64.ofNat (requests + 1), gid }
  sequenceCounter := idOf requests

/-- Who has issued which query. -/
structure Numbering (s : State κ ν) (trace : List (Event κ ν Request Response)) : Prop where
  counters : ∀ client, (s.clients client).impl = clientAfter (gid client) (numbered client trace)
  issued : ∀ client query, s.issuer query = some client ↔
    ∃ sequenceId request, .requested client query sequenceId request ∈ trace
  unissued : ∀ query, .foreign query ∈ trace → s.issuer query = none
  old : ∀ query, s.nextQuery ≤ query → s.issuer query = none ∧ .foreign query ∉ trace

/-- Where everything comes from that is on its way, or in the hands of a service or a client. -/
structure Provenance (s : State κ ν) (trace : List (Event κ ν Request Response)) : Prop where
  flying : ∀ entry ∈ s.queries, Known enc gid P trace entry.2
  queued : ∀ service, ∀ query ∈ (s.services service).inner.queue.data,
    Known enc gid P trace query
  stored : ∀ service key query, (s.services service).inner.map.lookup key = some query →
    Known enc gid P trace query ∧ TakenUnder enc trace service key query
  replies : ∀ sample ∈ s.replies, Replied enc gid P trace sample
  channels : ∀ client, ∀ sample ∈ (s.clients client).rx,
    RepliedTo enc gid P trace client sample
  answered : ∀ client answer, .received client answer ∈ trace →
    Answers enc gid trace client answer

structure Inv (s : State κ ν) (trace : List (Event κ ν Request Response)) : Prop
  extends Numbering gid s trace, Provenance enc gid P s trace

variable {enc} {gid} {P} {s s' : State κ ν} {trace observed : List (Event κ ν Request Response)}

/-- Events about requests that are on the record already. -/
def Event.isQuiet : Event κ ν Request Response → Bool
  | .taken _ _ | .responded _ _ _ _ | .received _ _ => true
  | _ => false

omit [DecidableEq ν] in
theorem numbered_append (client : κ) : numbered client (trace ++ observed) =
    numbered client trace + numbered client observed := List.countP_append

omit [DecidableEq ν] in
theorem numbered_quiet (quiet : ∀ event ∈ observed, event.isQuiet = true) (client : κ) :
    numbered client observed = 0 := by
  refine List.countP_eq_zero.mpr fun event listed => ?_
  have still := quiet event listed
  cases event <;> simp_all [Event.isQuiet, Event.numbers]

omit [DecidableEq ν] in
theorem Numbering.append (numbering : Numbering gid s trace)
    (quiet : ∀ event ∈ observed, event.isQuiet = true) :
    Numbering gid s (trace ++ observed) where
  counters client := by
    rw [numbering.counters, numbered_append, numbered_quiet quiet, Nat.add_zero]
  issued client query := by
    rw [numbering.issued]
    refine ⟨fun ⟨id, request, seen⟩ => ⟨id, request, List.mem_append_left _ seen⟩, ?_⟩
    rintro ⟨id, request, seen⟩
    rcases List.mem_append.mp seen with before | now
    · exact ⟨id, request, before⟩
    · cases quiet _ now
  unissued query seen := by
    rcases List.mem_append.mp seen with before | now
    · exact numbering.unissued query before
    · cases quiet _ now
  old query new := by
    refine ⟨(numbering.old query new).1, fun seen => ?_⟩
    rcases List.mem_append.mp seen with before | now
    · exact (numbering.old query new).2 before
    · cases quiet _ now

omit [DecidableEq κ] [DecidableEq ν] in
/-- What is known stays known, whatever is observed. -/
theorem Provenance.append (provenance : Provenance enc gid P s trace)
    (right : ∀ client answer, .received client answer ∈ observed →
      Answers enc gid trace client answer) :
    Provenance enc gid P s (trace ++ observed) where
  flying entry listed := (provenance.flying entry listed).append
  queued service query listed := (provenance.queued service query listed).append
  stored service key query found :=
    (provenance.stored service key query found).imp Known.append TakenUnder.append
  replies sample listed := (provenance.replies sample listed).append
  channels client sample listed := (provenance.channels client sample listed).append
  answered client answer seen := by
    rcases List.mem_append.mp seen with before | now
    · exact (provenance.answered client answer before).append
    · exact (right client answer now).append

omit [DecidableEq ν] in
theorem Inv.append (inv : Inv enc gid P s trace)
    (quiet : ∀ event ∈ observed, event.isQuiet = true)
    (right : ∀ client answer, .received client answer ∈ observed →
      Answers enc gid trace client answer) :
    Inv enc gid P s (trace ++ observed) :=
  ⟨inv.toNumbering.append quiet, inv.toProvenance.append right⟩

/-! ## Steps of the transport -/

theorem mem_push {α : Type} {queue : BoundedQueue α} {item new : α}
    (listed : item ∈ (queue.push new).1.data) : item ∈ queue.data ∨ item = new := by
  obtain ⟨kept, suffix, pushed⟩ := queue.data_push new
  rw [pushed] at listed
  exact (List.mem_append.mp listed).imp (suffix.subset ·) List.mem_singleton.mp

theorem Inv.deliverQuery (inv : Inv enc gid P s trace) {i : ℕ}
    (delivered : s.deliverQuery i = some s') : Inv enc gid P s' trace := by
  obtain ⟨⟨service, query⟩, found, rfl⟩ := Option.map_eq_some_iff.mp delivered
  refine { inv with flying := ?_, queued := ?_, stored := ?_ }
  · exact fun entry listed => inv.flying entry (List.mem_of_mem_eraseIdx listed)
  · refine (Function.forall_update_iff _ fun _ (server : ServiceImpl) =>
      ∀ query ∈ server.inner.queue.data, Known enc gid P trace query).mpr
        ⟨fun query' listed => ?_, fun other _ => inv.queued other⟩
    rcases mem_push listed with before | rfl
    · exact inv.queued service query' before
    · exact inv.flying _ (List.mem_of_getElem? found)
  · exact (Function.forall_update_iff _ fun service (server : ServiceImpl) => ∀ key query,
      server.inner.map.lookup key = some query →
        Known enc gid P trace query ∧ TakenUnder enc trace service key query).mpr
          ⟨inv.stored service, fun other _ => inv.stored other⟩

omit [DecidableEq ν] in
theorem Inv.deliverReply (inv : Inv enc gid P s trace) {i : ℕ}
    (delivered : s.deliverReply i = some s') : Inv enc gid P s' trace := by
  obtain ⟨sample, found, rfl⟩ := Option.map_eq_some_iff.mp delivered
  have lost : Inv enc gid P { s with replies := s.replies.eraseIdx i } trace :=
    { inv with replies := fun sample' listed =>
        inv.replies sample' (List.mem_of_mem_eraseIdx listed) }
  dsimp only
  split
  · next client issued =>
      refine { lost with counters := ?_, channels := ?_ }
      · exact (Function.forall_update_iff _ fun client (state : Client ν) =>
          state.impl = clientAfter (gid client) (numbered client trace)).mpr
            ⟨(trySend_impl ..).trans (inv.counters client), fun other _ => inv.counters other⟩
      · refine (Function.forall_update_iff _ fun client (state : Client ν) =>
          ∀ sample ∈ state.rx, RepliedTo enc gid P trace client sample).mpr
              ⟨fun sample' listed => ?_, fun other _ => inv.channels other⟩
        rcases mem_trySend listed with before | rfl
        · exact inv.channels client sample' before
        · exact ⟨(inv.issued client _).mp issued, inv.replies _ (List.mem_of_getElem? found)⟩
  · exact lost

/-! ## Steps of services and clients -/

omit [DecidableEq κ] in
/-- Everything that `take_request` can do. -/
theorem takeRequest_cases (server : ServiceImpl) (codec : Codec Request Response) (now : Int64) :
    server.takeRequest codec now = (server, .empty) ∨
    (∃ query queue, server.inner.queue.data = query :: queue.data ∧
      server.takeRequest codec now =
        ({ inner := { server.inner with queue } }, .noPayload query)) ∨
    ∃ query queue report, server.inner.queue.data = query :: queue.data ∧
      report.query = query ∧ report.header.requestId.key = ServiceImpl.keyOf codec query ∧
      report.request = query.payload.bind codec.deserialize ∧
      server.takeRequest codec now =
        ({ inner :=
            { queue, map := server.inner.map.insert (ServiceImpl.keyOf codec query) query } },
          .taken report) := by
  rw [ServiceImpl.takeRequest]
  split
  · exact .inl rfl
  · next query queue queued =>
      have first := BoundedQueue.tryRecv_eq_some queued
      split
      · exact .inr (.inl ⟨query, queue, first, rfl⟩)
      · next bytes carried =>
          exact .inr (.inr ⟨query, queue, _, first, rfl, rfl, by rw [carried]; rfl, rfl⟩)

theorem Inv.takeRequest (inv : Inv enc gid P s trace) (service : ν) (now : Int64) :
    Inv enc gid P (s.takeRequest (κ := κ) enc service now).1
      (trace ++ (s.takeRequest enc service now).2) := by
  have later := fun {query : Query} {queue : BoundedQueue Query}
    (first : (s.services service).inner.queue.data = query :: queue.data) =>
      fun query' (listed : query' ∈ queue.data) =>
        inv.queued service query' (first ▸ List.mem_cons_of_mem _ listed)
  rcases takeRequest_cases (s.services service) enc.codec now with same |
    ⟨query, queue, first, popped⟩ | ⟨query, queue, report, first, about, under, read, taken⟩
  · simp only [State.takeRequest, same, Function.update_eq_self, List.append_nil]
    exact inv
  · simp only [State.takeRequest, popped, List.append_nil]
    refine { inv with queued := ?_, stored := ?_ }
    · exact (Function.forall_update_iff _ fun _ (server : ServiceImpl) =>
        ∀ query ∈ server.inner.queue.data, Known enc gid P trace query).mpr
          ⟨later first, fun other _ => inv.queued other⟩
    · exact (Function.forall_update_iff _ fun service (server : ServiceImpl) => ∀ key query,
        server.inner.map.lookup key = some query →
          Known enc gid P trace query ∧ TakenUnder enc trace service key query).mpr
            ⟨inv.stored service, fun other _ => inv.stored other⟩
  · have known := inv.queued service query (first ▸ List.mem_cons_self)
    simp only [State.takeRequest, taken]
    have after : Inv enc gid P s (trace ++ [.taken service report]) :=
      inv.append (by simp [Event.isQuiet]) (by simp)
    refine { after with queued := ?_, stored := ?_ }
    · exact (Function.forall_update_iff _ fun _ (server : ServiceImpl) =>
        ∀ query ∈ server.inner.queue.data, Known enc gid P _ query).mpr
          ⟨fun query' listed => (later first query' listed).append,
            fun other _ => after.queued other⟩
    · refine (Function.forall_update_iff _ fun service (server : ServiceImpl) => ∀ key query,
        server.inner.map.lookup key = some query →
          Known enc gid P _ query ∧ TakenUnder enc _ service key query).mpr
            ⟨fun key query' found => ?_, fun other _ => after.stored other⟩
      rcases PartialMap.lookup_insert_eq_some_iff.mp found with ⟨rfl, rfl⟩ | ⟨-, before⟩
      · exact ⟨known.append, report, List.mem_append_right _ List.mem_cons_self, about, under, rfl,
          read⟩
      · exact after.stored service key query' before

omit [DecidableEq κ] in
/-- A response under the header of a request that waits goes out as a reply to it; any other one
is refused. -/
theorem sendResponse_eq (s : State κ ν) (service : ν) (header : RmwRequestId)
    (response : Response) (now : Int64) :
    s.sendResponse enc service header response now =
      match (s.services service).inner.map.lookup header.key with
      | some query =>
          let server := (s.services service).inner
          ({ s with
              services := Function.update s.services service
                { inner := { server with map := server.map.erase header.key } }
              replies := s.replies ++
                [{ attachment := some (enc.encodeAttachment
                    ⟨header.sequenceNumber, now, header.writerGuid⟩)
                   payload := enc.serializeResponse response, service, query := query.id }] },
            [.responded service header query response])
      | none => (s, []) := by
  cases found : (s.services service).inner.map.lookup header.key with
  | some query =>
      simp only [State.sendResponse, ServiceImpl.sendResponse, ZServer.sendResponse,
        ZServer.sendWith, found]
      rfl
  | none =>
      simp only [State.sendResponse, ServiceImpl.sendResponse, ZServer.sendResponse,
        ZServer.sendWith, found, Function.update_eq_self]

theorem Inv.sendResponse (inv : Inv enc gid P s trace) (service : ν) (header : RmwRequestId)
    (response : Response) (now : Int64) :
    Inv enc gid P (s.sendResponse enc service header response now).1
      (trace ++ (s.sendResponse (κ := κ) enc service header response now).2) := by
  rw [sendResponse_eq]
  cases found : (s.services service).inner.map.lookup header.key with
  | some query =>
      have after : Inv enc gid P s (trace ++ [.responded service header query response]) :=
        inv.append (by simp [Event.isQuiet]) (by simp)
      obtain ⟨known, taken⟩ := after.stored service header.key query found
      refine { after with queued := ?_, stored := ?_, replies := ?_ }
      · exact (Function.forall_update_iff _ fun _ (server : ServiceImpl) =>
          ∀ query ∈ server.inner.queue.data, Known enc gid P _ query).mpr
            ⟨after.queued service, fun other _ => after.queued other⟩
      · refine (Function.forall_update_iff _ fun service (server : ServiceImpl) => ∀ key query,
          server.inner.map.lookup key = some query →
            Known enc gid P _ query ∧ TakenUnder enc _ service key query).mpr
              ⟨fun key query' kept => ?_, fun other _ => after.stored other⟩
        refine after.stored service key query' ?_
        by_cases same : key = header.key
        · subst same
          rw [AList.lookup_erase] at kept
          cases kept
        · rwa [AList.lookup_erase_ne same] at kept
      · intro sample listed
        rcases List.mem_append.mp listed with before | new
        · exact after.replies sample before
        · obtain rfl := List.mem_singleton.mp new
          exact ⟨query, header, response, now, known, rfl, taken,
            List.mem_append_right _ List.mem_cons_self, rfl, rfl⟩
  | none =>
      rw [List.append_nil]
      exact inv

theorem key_injective {header header' : RmwRequestId} (same : header.key = header'.key) :
    header = header' := by
  obtain ⟨writerGuid, sequenceNumber⟩ := header
  obtain ⟨writerGuid', sequenceNumber'⟩ := header'
  obtain ⟨rfl, rfl⟩ := QueryKey.mk.inj same
  rfl

section RoundTrip

variable (roundTrip : ∀ attachment,
  enc.decodeAttachment (enc.encodeAttachment attachment) = some attachment)

include roundTrip

omit [DecidableEq κ] [DecidableEq ν] in
theorem keyOf_attached {query : Query} {attachment : Attachment}
    (attached : query.attachment = some (enc.encodeAttachment attachment)) :
    ServiceImpl.keyOf enc.codec query = .ofAttachment attachment := by
  simp only [ServiceImpl.keyOf, ServiceImpl.attachmentOf, attached, Option.bind_some,
    Encodings.codec, roundTrip]

omit [DecidableEq κ] [DecidableEq ν] in
theorem headerOf_attached {sample : Sample ν} {header : RmwRequestId} {now received : Int64}
    (attached : sample.attachment =
      some (enc.encodeAttachment ⟨header.sequenceNumber, now, header.writerGuid⟩)) :
    (headerOf enc sample received).requestId = header := by
  simp only [headerOf, attached, Option.bind_some, roundTrip]

omit [DecidableEq ν] in
/-- A reply in the channel of a client answers a request of this client. -/
theorem Inv.answers (inv : Inv enc gid P s trace) {client : κ} {sample : Sample ν}
    (listed : sample ∈ (s.clients client).rx) (now : Int64) :
    Answers enc gid trace client
      ⟨headerOf enc sample now, sample, enc.deserializeResponse sample.payload⟩ := by
  obtain ⟨issued, query, header, response, sent, known, same, taken, responded, attached, wrote⟩ :=
    inv.channels client sample listed
  have issuer := (inv.issued client sample.query).mpr issued
  obtain ⟨report, seen, rfl, under, keyed, read⟩ := taken
  have shown : (headerOf enc sample now).requestId = header := headerOf_attached roundTrip attached
  cases known with
  | @own sender sequenceId _ request requested attached carried =>
      rw [← same, (inv.issued sender report.query.id).mpr ⟨sequenceId, request, requested⟩]
        at issuer
      obtain rfl := Option.some.inj issuer
      rw [keyOf_attached roundTrip attached] at keyed
      obtain rfl : header = ⟨gid sender, sequenceId⟩ := key_injective keyed.symm
      rw [carried] at read
      refine ⟨sequenceId, request, report, response, shown, same ▸ requested, seen, same, ?_, read,
        ?_, ?_⟩
      · rw [shown]
        exact key_injective under
      · rw [shown]
        exact responded
      · rw [wrote]
  | foreign entered met =>
      rw [← same, inv.unissued _ entered] at issuer
      cases issuer

omit [DecidableEq ν] in
theorem Inv.takeResponse (inv : Inv enc gid P s trace) {client : κ} {now : Int64}
    (took : s.takeResponse enc client now = some (s', observed)) :
    Inv enc gid P s' (trace ++ observed) := by
  obtain ⟨⟨taker, answer⟩, received, after⟩ := Option.map_eq_some_iff.mp took
  obtain ⟨rfl, rfl⟩ := Prod.mk.inj after
  unfold Client.takeResponse at received
  split at received
  · cases received
  · next sample rest queued =>
      obtain ⟨rfl, rfl⟩ := Prod.mk.inj (Option.some.inj received)
      have listed : sample ∈ (s.clients client).rx := queued ▸ List.mem_cons_self
      have kept : Inv enc gid P s (trace ++ [.received client
          ⟨headerOf enc sample now, sample, enc.deserializeResponse sample.payload⟩]) := by
        refine inv.append (by simp [Event.isQuiet]) fun taker answer seen => ?_
        obtain ⟨rfl, rfl⟩ := Event.received.inj (List.mem_singleton.mp seen)
        exact inv.answers roundTrip listed now
      refine { kept with counters := ?_, channels := ?_ }
      · exact (Function.forall_update_iff _ fun client (state : Client ν) =>
          state.impl = clientAfter (gid client) (numbered client _)).mpr
            ⟨kept.counters client, fun other _ => kept.counters other⟩
      · exact (Function.forall_update_iff _ fun client (state : Client ν) =>
          ∀ sample ∈ state.rx, RepliedTo enc gid P _ client sample).mpr
              ⟨fun sample' later =>
                kept.channels client sample' (queued ▸ List.mem_cons_of_mem _ later),
                fun other _ => kept.channels other⟩

end RoundTrip

/-! ## Steps that send queries -/

omit [DecidableEq κ] [DecidableEq ν] in
/-- A request takes the next number from both counters. -/
theorem number_eq {client : Client ν} {gid : GidArray} {requests : ℕ}
    (counters : client.impl = clientAfter gid requests) (now : Int64) :
    client.number now =
      ({ client with impl := clientAfter gid (requests + 1) }, idOf requests,
        ⟨idOf requests, now, gid⟩) := by
  have sn : (UInt64.ofNat (requests + 1)) + 1 = UInt64.ofNat (requests + 1 + 1) :=
    (UInt64.ofNat_add (requests + 1) 1).symm
  simp only [Client.number, counters, clientAfter, ZClient.newAttchment, sn, toInt64_ofNat,
    idOf_succ]

/-- The clients when one of them has numbered a request. -/
def countOn (s : State κ ν) (client : κ) (impl : ClientImpl) : κ → Client ν :=
  Function.update s.clients client { s.clients client with impl }

omit [DecidableEq ν] in
theorem Numbering.countOn (numbering : Numbering gid s trace) {client : κ}
    (one : ∀ other, numbered other observed = if other = client then 1 else 0) (other : κ) :
    (countOn s client (clientAfter (gid client) (numbered client trace + 1)) other).impl =
      clientAfter (gid other) (numbered other (trace ++ observed)) := by
  rw [numbered_append, one]
  by_cases same : other = client
  · subst same
    rw [RequestReply.countOn, Function.update_self, if_pos rfl]
  · rw [RequestReply.countOn, Function.update_of_ne same, if_neg same, numbering.counters]
    rfl

omit [DecidableEq ν] in
theorem Provenance.countOn (provenance : Provenance enc gid P s trace) (client : κ)
    (impl : ClientImpl) :
    Provenance enc gid P { s with clients := countOn s client impl } trace :=
  { provenance with
    channels := (Function.forall_update_iff _ fun other (state : Client ν) =>
      ∀ sample ∈ state.rx, RepliedTo enc gid P trace other sample).mpr
        ⟨provenance.channels client, fun other _ => provenance.channels other⟩ }

omit [DecidableEq ν] in
theorem Inv.sendRequest (inv : Inv enc gid P s trace) (client : κ) (request : Request)
    (now : Int64) (targets : List ν) (sent : Bool) :
    Inv enc gid P (s.sendRequest enc client request now targets sent).1
      (trace ++ (s.sendRequest enc client request now targets sent).2) := by
  have counted := inv.toProvenance.countOn client
    (clientAfter (gid client) (numbered client trace + 1))
  simp only [State.sendRequest, number_eq (inv.counters client)]
  cases sent with
  | false =>
      simp only [Bool.false_eq_true, if_false]
      refine ⟨⟨inv.countOn fun other => ?_, ?_, ?_, ?_⟩, counted.append (by simp)⟩
      · simp [numbered, Event.numbers, eq_comm]
      · simpa using inv.issued
      · simpa using inv.unissued
      · simpa using inv.old
  | true =>
      simp only [if_true]
      have fresh := inv.old s.nextQuery le_rfl
      refine ⟨⟨inv.countOn fun other => ?_, ?_, ?_, ?_⟩,
        { counted.append (by simp) with flying := ?_ }⟩
      · simp [numbered, Event.numbers, eq_comm]
      · intro other query
        rw [PartialMap.update_eq_some_iff]
        constructor
        · rintro (⟨rfl, same⟩ | ⟨-, before⟩)
          · obtain rfl := Option.some.inj same
            exact ⟨_, request, List.mem_append_right _ List.mem_cons_self⟩
          · obtain ⟨id, request', seen⟩ := (inv.issued other query).mp before
            exact ⟨id, request', List.mem_append_left _ seen⟩
        · rintro ⟨id, request', seen⟩
          rcases List.mem_append.mp seen with before | here
          · have issued := (inv.issued other query).mpr ⟨id, request', before⟩
            refine .inr ⟨fun same => ?_, issued⟩
            rw [same, fresh.1] at issued
            cases issued
          · obtain ⟨rfl, rfl, -, -⟩ := Event.requested.inj (List.mem_singleton.mp here)
            exact .inl ⟨rfl, rfl⟩
      · intro query entered
        have before : .foreign query ∈ trace := by simpa using entered
        have other : query ≠ s.nextQuery := fun same => fresh.2 (same ▸ before)
        exact (Function.update_of_ne other ..).trans (inv.unissued query before)
      · intro query new
        have other : query ≠ s.nextQuery := Nat.ne_of_gt new
        obtain ⟨unissued, absent⟩ := inv.old query (Nat.le_of_succ_le new)
        exact ⟨(Function.update_of_ne other ..).trans unissued, by simpa using absent⟩
      · intro entry listed
        rcases List.mem_append.mp listed with before | sent
        · exact (inv.flying entry before).append
        · obtain ⟨target, -, rfl⟩ := List.mem_map.mp sent
          exact .own (List.mem_append_right _ List.mem_cons_self) rfl rfl

omit [DecidableEq ν] in
theorem Inv.foreignQuery (inv : Inv enc gid P s trace) (service : ν)
    {attachment : Option (List UInt8)} (payload : Option (List UInt8)) (met : P attachment) :
    Inv enc gid P (s.foreignQuery service attachment payload : State.After κ ν Request Response).1
      (trace ++ (s.foreignQuery service attachment payload).2) := by
  have fresh := inv.old s.nextQuery le_rfl
  refine ⟨⟨fun client => ?_, ?_, ?_, ?_⟩, { inv.toProvenance.append (by simp [State.foreignQuery])
    with flying := ?_ }⟩
  · rw [numbered_append]
    exact inv.counters client
  · simpa [State.foreignQuery] using inv.issued
  · intro query entered
    rcases List.mem_append.mp entered with before | here
    · exact inv.unissued query before
    · obtain rfl := Event.foreign.inj (List.mem_singleton.mp here)
      exact fresh.1
  · intro query new
    refine ⟨(inv.old query (Nat.le_of_succ_le new)).1, fun entered => ?_⟩
    rcases List.mem_append.mp entered with before | here
    · exact (inv.old query (Nat.le_of_succ_le new)).2 before
    · exact Nat.ne_of_gt new (Event.foreign.inj (List.mem_singleton.mp here))
  · intro entry listed
    rcases List.mem_append.mp listed with before | sent
    · exact (inv.flying entry before).append
    · obtain rfl := List.mem_singleton.mp sent
      exact .foreign (List.mem_append_right _ List.mem_cons_self) met

/-- The queries of other participants have attachments that meet `P`. -/
def Label.Meets (P : Option (List UInt8) → Prop) : Label κ ν Request Response → Prop
  | .foreignQuery _ attachment _ => P attachment
  | _ => True

theorem Inv.step {label : Label κ ν Request Response} (roundTrip : ∀ attachment,
      enc.decodeAttachment (enc.encodeAttachment attachment) = some attachment)
    (inv : Inv enc gid P s trace) (meets : label.Meets P)
    (stepped : s.step enc label = some (s', observed)) :
    Inv enc gid P s' (trace ++ observed) := by
  cases label with
  | sendRequest client request now targets sent =>
      obtain ⟨-, same⟩ := Option.ite_none_right_eq_some.mp stepped
      obtain ⟨rfl, rfl⟩ := Prod.mk.inj (Option.some.inj same)
      exact inv.sendRequest client request now targets sent
  | foreignQuery service attachment payload =>
      obtain ⟨rfl, rfl⟩ := Prod.mk.inj (Option.some.inj stepped)
      exact inv.foreignQuery service payload meets
  | deliverQuery i =>
      obtain ⟨s', delivered, same⟩ := Option.map_eq_some_iff.mp stepped
      obtain ⟨rfl, rfl⟩ := Prod.mk.inj same
      rw [List.append_nil]
      exact inv.deliverQuery delivered
  | loseQuery i =>
      obtain ⟨rfl, rfl⟩ := Prod.mk.inj (Option.some.inj stepped)
      rw [List.append_nil]
      exact
        { inv with
          flying := fun entry listed => inv.flying entry (List.mem_of_mem_eraseIdx listed) }
  | takeRequest service now =>
      obtain ⟨rfl, rfl⟩ := Prod.mk.inj (Option.some.inj stepped)
      exact inv.takeRequest service now
  | sendResponse service header response now =>
      obtain ⟨rfl, rfl⟩ := Prod.mk.inj (Option.some.inj stepped)
      exact inv.sendResponse service header response now
  | deliverReply i =>
      obtain ⟨s', delivered, same⟩ := Option.map_eq_some_iff.mp stepped
      obtain ⟨rfl, rfl⟩ := Prod.mk.inj same
      rw [List.append_nil]
      exact inv.deliverReply delivered
  | loseReply i =>
      obtain ⟨rfl, rfl⟩ := Prod.mk.inj (Option.some.inj stepped)
      rw [List.append_nil]
      exact
        { inv with
          replies := fun sample listed => inv.replies sample (List.mem_of_mem_eraseIdx listed) }
  | takeResponse client now => exact inv.takeResponse roundTrip stepped

theorem inv_of_reachable {depth : κ → ℕ} {queueDepth : ν → ℕ}
    {allowed : Config (State κ ν) (Event κ ν Request Response) →
      Label κ ν Request Response → Prop}
    {c : Config (State κ ν) (Event κ ν Request Response)} (roundTrip : ∀ attachment,
      enc.decodeAttachment (enc.encodeAttachment attachment) = some attachment)
    (implies : ∀ c label, allowed c label → label.Meets P)
    (reached : (system enc gid depth queueDepth).Reachable allowed c) :
    Inv enc gid P c.state c.trace := by
  refine reached.invariant
    (P := fun c : Config (State κ ν) _ => Inv enc gid P c.state c.trace) ?_ ?_
  · refine ⟨⟨fun client => rfl, ?_, ?_, ?_⟩, ?_, ?_, ?_, ?_, ?_, ?_⟩ <;>
      simp [Machine.start, system, BoundedQueue.new]
  · intro c label c' inv meets moved
    obtain ⟨observed, stepped, grown⟩ := Machine.next_eq_some moved
    rw [grown]
    exact inv.step roundTrip (implies c label meets) stepped

end Invariant

/-! ## Every query is answered at most once by each service -/

section Once

variable {κ ν Request Response : Type} [DecidableEq κ] [DecidableEq ν]
  {enc : Encodings Request Response} {s s' : State κ ν}
  {trace observed : List (Event κ ν Request Response)}

/-- How often a query occurs between a service and a client: on its way, with the service, as a
reply, in the channel and among the responses that were taken. -/
def occurrences (s : State κ ν) (trace : List (Event κ ν Request Response)) (client : κ)
    (service : ν) (query : ℕ) : ℕ :=
  s.queries.countP (fun entry => entry.1 = service ∧ entry.2.id = query) +
    (s.services service).inner.queue.data.countP (fun queued => queued.id = query) +
    (s.services service).inner.map.entries.countP (fun entry => entry.2.id = query) +
    s.replies.countP (fun sample => sample.service = service ∧ sample.query = query) +
    (s.clients client).rx.countP (fun sample => sample.service = service ∧ sample.query = query) +
    trace.countP (Event.isAnswer client service query)

theorem countP_push_le {α : Type} (p : α → Bool) (queue : BoundedQueue α) (item : α) :
    (queue.push item).1.data.countP p ≤ queue.data.countP p + if p item then 1 else 0 := by
  obtain ⟨kept, suffix, pushed⟩ := queue.data_push item
  rw [pushed, List.countP_append, List.countP_singleton]
  exact Nat.add_le_add_right suffix.sublist.countP_le _

variable (client : κ) (service : ν) (query : ℕ)

theorem occurrences_deliverQuery {i : ℕ} (delivered : s.deliverQuery i = some s') :
    occurrences s' trace client service query ≤ occurrences s trace client service query := by
  obtain ⟨⟨target, arrived⟩, found, rfl⟩ := Option.map_eq_some_iff.mp delivered
  have out := Flight.countP_eraseIdx
    (p := fun entry : ν × Query => entry.1 = service ∧ entry.2.id = query) found
  have pushed := countP_push_le (fun queued => decide (queued.id = query))
    (s.services target).inner.queue arrived
  simp only [occurrences]
  by_cases same : service = target
  · subst same
    simp only [Function.update_self, true_and] at out ⊢
    omega
  · simp only [Function.update_of_ne same]
    omega

theorem occurrences_deliverReply {i : ℕ} (delivered : s.deliverReply i = some s') :
    occurrences s' trace client service query ≤ occurrences s trace client service query := by
  obtain ⟨sample, found, rfl⟩ := Option.map_eq_some_iff.mp delivered
  have out := Flight.countP_eraseIdx
    (p := fun sample : Sample ν => sample.service = service ∧ sample.query = query) found
  dsimp only
  split
  · next issuer issued =>
      simp only [occurrences]
      by_cases same : client = issuer
      · subst same
        simp only [Function.update_self, Client.trySend]
        split
        · rw [List.countP_append, List.countP_singleton]
          omega
        · omega
      · simp only [Function.update_of_ne same]
        omega
  · simp only [occurrences]
    omega

theorem occurrences_takeRequest (target : ν) (now : Int64) :
    occurrences (s.takeRequest (κ := κ) enc target now).1
        (trace ++ (s.takeRequest enc target now).2) client service query ≤
      occurrences s trace client service query := by
  rcases takeRequest_cases (s.services target) enc.codec now with
    same | ⟨head, queue, first, popped⟩ | ⟨head, queue, report, first, -, -, -, taken⟩
  · simp only [State.takeRequest, same, Function.update_eq_self, List.append_nil, le_refl]
  · simp only [State.takeRequest, popped, List.append_nil, occurrences]
    by_cases same : service = target
    · subst same
      simp only [Function.update_self, first, List.countP_cons]
      omega
    · simp only [Function.update_of_ne same, le_refl]
  · have stored := Flight.countP_insert_le
      (p := fun entry : Sigma fun _ : QueryKey => Query => entry.2.id = query)
      (s.services target).inner.map (ServiceImpl.keyOf enc.codec head) head
    dsimp only at stored
    simp only [State.takeRequest, taken, occurrences, List.countP_append, List.countP_singleton,
      Event.isAnswer, Bool.false_eq_true, if_false]
    by_cases same : service = target
    · subst same
      simp only [Function.update_self, first, List.countP_cons]
      omega
    · simp only [Function.update_of_ne same, Nat.add_zero, le_refl]

theorem occurrences_sendResponse (target : ν) (header : RmwRequestId) (response : Response)
    (now : Int64) :
    occurrences (s.sendResponse enc target header response now).1
        (trace ++ (s.sendResponse (κ := κ) enc target header response now).2) client service
        query ≤
      occurrences s trace client service query := by
  rw [sendResponse_eq]
  cases found : (s.services target).inner.map.lookup header.key with
  | some head =>
      have out := Flight.countP_erase
        (p := fun entry : Sigma fun _ : QueryKey => Query => entry.2.id = query) found
      dsimp only at out
      simp only [occurrences, List.countP_append, List.countP_singleton, Event.isAnswer,
        Bool.false_eq_true, if_false]
      by_cases same : service = target
      · subst same
        simp only [Function.update_self, true_and]
        omega
      · simp only [Function.update_of_ne same, Ne.symm same, false_and]
        simp
  | none => simp

theorem occurrences_takeResponse {taker : κ} {now : Int64}
    (took : s.takeResponse enc taker now = some (s', observed)) :
    occurrences s' (trace ++ observed) client service query ≤
      occurrences s trace client service query := by
  obtain ⟨⟨after, answer⟩, received, same⟩ := Option.map_eq_some_iff.mp took
  obtain ⟨rfl, rfl⟩ := Prod.mk.inj same
  unfold Client.takeResponse at received
  split at received
  · cases received
  · next sample rest queued =>
      obtain ⟨rfl, rfl⟩ := Prod.mk.inj (Option.some.inj received)
      simp only [occurrences, List.countP_append, List.countP_singleton, Event.isAnswer]
      by_cases own : client = taker
      · subst own
        simp only [Function.update_self, queued, List.countP_cons, true_and]
        omega
      · simp only [Function.update_of_ne own, Ne.symm own, false_and]
        simp

theorem occurrences_quiet {clients : κ → Client ν} {event : Event κ ν Request Response}
    (channels : ∀ client, (clients client).rx = (s.clients client).rx)
    (quiet : event.isAnswer client service query = false) :
    occurrences { s with clients } (trace ++ [event]) client service query =
      occurrences s trace client service query := by
  simp only [occurrences, List.countP_append, List.countP_singleton, quiet, channels,
    Bool.false_eq_true, if_false, Nat.add_zero]

/-- A query that enters under a new number goes once to each service. -/
theorem occurrences_send {clients : κ → Client ν} {issuer : ℕ → Option κ} {new : Query}
    {targets : List ν} {event : Event κ ν Request Response} (distinct : targets.Nodup)
    (channels : ∀ client, (clients client).rx = (s.clients client).rx)
    (number : new.id = s.nextQuery) (quiet : event.isAnswer client service query = false) :
    occurrences
        { s with clients, issuer, queries := s.queries ++ targets.map (·, new)
                 nextQuery := s.nextQuery + 1 }
        (trace ++ [event]) client service query ≤
      occurrences s trace client service query +
        if s.nextQuery ≤ query ∧ query < s.nextQuery + 1 then 1 else 0 := by
  have next : s.nextQuery ≤ query ∧ query < s.nextQuery + 1 ↔ query = s.nextQuery := by
    rw [Nat.lt_succ_iff, le_antisymm_iff, and_comm]
  rw [if_congr next rfl rfl]
  have once : (targets.map (·, new)).countP
      (fun entry : ν × Query => entry.1 = service ∧ entry.2.id = query) ≤
        if query = s.nextQuery then 1 else 0 := by
    rw [List.countP_map]
    split
    · refine Nat.le_trans (List.countP_mono_left fun target _ aimed => ?_)
        (List.nodup_iff_count_le_one.mp distinct service)
      simpa using (of_decide_eq_true aimed).1
    · next old =>
        refine Nat.le_of_eq (List.countP_eq_zero.mpr fun target _ aimed => old ?_)
        exact (of_decide_eq_true aimed).2.symm.trans number
  simp only [occurrences, List.countP_append, List.countP_singleton, quiet, channels,
    Bool.false_eq_true, if_false]
  omega

omit [DecidableEq ν] in
theorem countOn_rx (taker : κ) (impl : ClientImpl) (client : κ) :
    (countOn s taker impl client).rx = (s.clients client).rx := by
  by_cases same : client = taker
  · subst same
    rw [countOn, Function.update_self]
  · rw [countOn, Function.update_of_ne same]

/-- Numbers are only added. -/
theorem nextQuery_le {label : Label κ ν Request Response}
    (stepped : s.step enc label = some (s', observed)) : s.nextQuery ≤ s'.nextQuery := by
  cases label with
  | sendRequest client request now targets sent =>
      obtain ⟨-, same⟩ := Option.ite_none_right_eq_some.mp stepped
      obtain ⟨rfl, -⟩ := Prod.mk.inj (Option.some.inj same)
      cases sent with
      | false => exact le_rfl
      | true => exact Nat.le_succ _
  | foreignQuery service attachment payload =>
      obtain ⟨rfl, -⟩ := Prod.mk.inj (Option.some.inj stepped)
      exact Nat.le_succ _
  | deliverQuery i =>
      obtain ⟨s', delivered, same⟩ := Option.map_eq_some_iff.mp stepped
      obtain ⟨rfl, -⟩ := Prod.mk.inj same
      obtain ⟨-, -, rfl⟩ := Option.map_eq_some_iff.mp delivered
      exact le_rfl
  | deliverReply i =>
      obtain ⟨s', delivered, same⟩ := Option.map_eq_some_iff.mp stepped
      obtain ⟨rfl, -⟩ := Prod.mk.inj same
      obtain ⟨-, -, rfl⟩ := Option.map_eq_some_iff.mp delivered
      dsimp only
      split <;> exact le_rfl
  | sendResponse service header response now =>
      rw [State.step, sendResponse_eq] at stepped
      split at stepped <;> cases stepped <;> exact le_rfl
  | loseQuery i | loseReply i | takeRequest service now =>
      obtain ⟨rfl, -⟩ := Prod.mk.inj (Option.some.inj stepped)
      exact le_rfl
  | takeResponse client now =>
      obtain ⟨_, -, same⟩ := Option.map_eq_some_iff.mp stepped
      obtain ⟨rfl, -⟩ := Prod.mk.inj same
      exact le_rfl

/-- A step that sends adds an occurrence of the next query, and no step adds any other. -/
theorem occurrences_step {label : Label κ ν Request Response}
    (stepped : s.step enc label = some (s', observed)) :
    occurrences s' (trace ++ observed) client service query ≤
      occurrences s trace client service query +
        if s.nextQuery ≤ query ∧ query < s'.nextQuery then 1 else 0 := by
  cases label with
  | sendRequest sender request now targets sent =>
      obtain ⟨distinct, same⟩ := Option.ite_none_right_eq_some.mp stepped
      obtain ⟨rfl, rfl⟩ := Prod.mk.inj (Option.some.inj same)
      cases sent with
      | false =>
          exact Nat.le_add_right_of_le (Nat.le_of_eq (occurrences_quiet client service query
            (countOn_rx sender ((s.clients sender).number now).1.impl) rfl))
      | true =>
          exact occurrences_send (s := s) client service query distinct
            (countOn_rx sender ((s.clients sender).number now).1.impl) rfl rfl
  | foreignQuery target attachment payload =>
      obtain ⟨rfl, rfl⟩ := Prod.mk.inj (Option.some.inj stepped)
      exact occurrences_send (s := s) client service query (List.nodup_singleton target)
        (fun _ => rfl) rfl rfl
  | deliverQuery i =>
      obtain ⟨s', delivered, same⟩ := Option.map_eq_some_iff.mp stepped
      obtain ⟨rfl, rfl⟩ := Prod.mk.inj same
      rw [List.append_nil]
      exact Nat.le_add_right_of_le (occurrences_deliverQuery client service query delivered)
  | loseQuery i =>
      obtain ⟨rfl, rfl⟩ := Prod.mk.inj (Option.some.inj stepped)
      have fewer := Flight.countP_eraseIdx_le
        (p := fun entry : ν × Query => entry.1 = service ∧ entry.2.id = query) s.queries i
      simp only [List.append_nil, occurrences]
      omega
  | takeRequest target now =>
      obtain ⟨rfl, rfl⟩ := Prod.mk.inj (Option.some.inj stepped)
      exact Nat.le_add_right_of_le (occurrences_takeRequest client service query target now)
  | sendResponse target header response now =>
      obtain ⟨rfl, rfl⟩ := Prod.mk.inj (Option.some.inj stepped)
      exact Nat.le_add_right_of_le
        (occurrences_sendResponse client service query target header response now)
  | deliverReply i =>
      obtain ⟨s', delivered, same⟩ := Option.map_eq_some_iff.mp stepped
      obtain ⟨rfl, rfl⟩ := Prod.mk.inj same
      rw [List.append_nil]
      exact Nat.le_add_right_of_le (occurrences_deliverReply client service query delivered)
  | loseReply i =>
      obtain ⟨rfl, rfl⟩ := Prod.mk.inj (Option.some.inj stepped)
      have fewer := Flight.countP_eraseIdx_le
        (p := fun sample : Sample ν => sample.service = service ∧ sample.query = query) s.replies i
      simp only [List.append_nil, occurrences]
      omega
  | takeResponse taker now =>
      exact Nat.le_add_right_of_le (occurrences_takeResponse client service query stepped)

theorem occurrences_le {gid : κ → GidArray} {depth : κ → ℕ} {queueDepth : ν → ℕ}
    {allowed : Config (State κ ν) (Event κ ν Request Response) →
      Label κ ν Request Response → Prop}
    {c : Config (State κ ν) (Event κ ν Request Response)}
    (reached : (system enc gid depth queueDepth).Reachable allowed c) :
    occurrences c.state c.trace client service query ≤
      if query < c.state.nextQuery then 1 else 0 := by
  refine reached.invariant (P := fun c : Config (State κ ν) (Event κ ν Request Response) =>
    occurrences c.state c.trace client service query ≤
      if query < c.state.nextQuery then 1 else 0) ?_ ?_
  · simp [Machine.start, system, occurrences, BoundedQueue.new]
  · intro c label c' before _ moved
    obtain ⟨observed, stepped, grown⟩ := Machine.next_eq_some moved
    have more := nextQuery_le stepped
    have added : occurrences c'.state (c.trace ++ observed) client service query ≤
        occurrences c.state c.trace client service query +
          if c.state.nextQuery ≤ query ∧ query < c'.state.nextQuery then 1 else 0 :=
      occurrences_step client service query stepped
    rw [grown]
    split_ifs at before added ⊢ <;> omega

end Once

/-! ## Headers identify requests -/

section Identification

variable {κ ν Request Response : Type} [DecidableEq κ] [DecidableEq ν]
  (enc : Encodings Request Response) (gid : κ → GidArray)

/-- The attachment does not have the GID of a client. -/
def Unlike (attachment : Option (List UInt8)) : Prop :=
  ∀ client, (ServiceImpl.keyOf enc.codec { id := 0, attachment, payload := none }).gid ≠ gid client

/-- No client sends more requests than there are ids, and other participants do not use the GIDs of
the clients. -/
def Distinguished (c : Config (State κ ν) (Event κ ν Request Response)) :
    Label κ ν Request Response → Prop
  | .sendRequest client _ _ _ _ => numbered client c.trace < UInt64.size
  | .foreignQuery _ attachment _ => Unlike enc gid attachment
  | _ => True

/-- What headers say of the requests that were sent and taken. -/
structure Identified (P : Option (List UInt8) → Prop)
    (trace : List (Event κ ν Request Response)) : Prop where
  taken : ∀ service report, .taken service report ∈ trace →
    Known enc gid P trace report.query ∧
      report.header.requestId.key = ServiceImpl.keyOf enc.codec report.query
  counted : ∀ client query sequenceId request, .requested client query sequenceId request ∈ trace →
    ∃ requests < numbered client trace, sequenceId = idOf requests
  distinct : ∀ client query query' sequenceId request request',
    .requested client query sequenceId request ∈ trace →
    .requested client query' sequenceId request' ∈ trace → query = query'
  few : ∀ client, numbered client trace ≤ UInt64.size

variable {enc} {gid} {P : Option (List UInt8) → Prop} {s s' : State κ ν}
  {trace observed : List (Event κ ν Request Response)}

/-- Events that neither number nor take a request. -/
def Event.isIndifferent : Event κ ν Request Response → Bool
  | .foreign _ | .responded _ _ _ _ | .received _ _ => true
  | _ => false

omit [DecidableEq ν] in
theorem Identified.append (identified : Identified enc gid P trace)
    (indifferent : ∀ event ∈ observed, event.isIndifferent = true) :
    Identified enc gid P (trace ++ observed) := by
  have same : ∀ client, numbered client (trace ++ observed) = numbered client trace := by
    intro client
    rw [numbered_append, Nat.add_eq_left]
    refine List.countP_eq_zero.mpr fun event listed => ?_
    have still := indifferent event listed
    cases event <;> simp_all [Event.isIndifferent, Event.numbers]
  have old : ∀ {event : Event κ ν Request Response}, event.isIndifferent = false →
      event ∈ trace ++ observed → event ∈ trace := by
    intro event matters seen
    refine (List.mem_append.mp seen).resolve_right fun new => ?_
    rw [indifferent event new] at matters
    cases matters
  refine ⟨fun service report seen => ?_, ?_, ?_, fun client =>
    (same client).symm ▸ identified.few client⟩
  · exact (identified.taken service report (old rfl seen)).imp_left Known.append
  · intro client query sequenceId request seen
    rw [same]
    exact identified.counted client query sequenceId request (old rfl seen)
  · exact fun client query query' sequenceId request request' seen seen' =>
      identified.distinct client query query' sequenceId request request' (old rfl seen)
        (old rfl seen')

omit [DecidableEq ν] in
/-- What a call of `send_request` is seen to do: it returns the next id of the client, or fails. -/
theorem sendRequest_observed (inv : Inv enc gid P s trace) (client : κ) (request : Request)
    (now : Int64) (targets : List ν) (sent : Bool) :
    (s.sendRequest enc client request now targets sent).2 =
      if sent then [.requested client s.nextQuery (idOf (numbered client trace)) request]
      else [.failed client] := by
  simp only [State.sendRequest, number_eq (inv.counters client)]
  split <;> rfl

omit [DecidableEq ν] in
theorem Identified.sendRequest (identified : Identified enc gid P trace)
    (inv : Inv enc gid P s trace) (client : κ) (request : Request) (now : Int64)
    (targets : List ν) (sent : Bool) (few : numbered client trace < UInt64.size) :
    Identified enc gid P
      (trace ++ (s.sendRequest enc client request now targets sent).2) := by
  rw [sendRequest_observed inv]
  generalize same : (if sent then
    [Event.requested client s.nextQuery (idOf (numbered client trace)) request]
      else [.failed client] : List (Event κ ν Request Response)) = observed
  have counts : ∀ other, numbered other (trace ++ observed) =
      numbered other trace + if other = client then 1 else 0 := by
    intro other
    rw [numbered_append, ← same]
    cases sent <;> simp [numbered, Event.numbers, eq_comm]
  have new : ∀ {sender query sequenceId request'},
      .requested sender query sequenceId request' ∈ trace ++ observed →
        .requested sender query sequenceId request' ∈ trace ∨
          sender = client ∧ query = s.nextQuery ∧ sequenceId = idOf (numbered client trace) := by
    intro sender query sequenceId request' seen
    refine (List.mem_append.mp seen).imp_right fun here => ?_
    rw [← same] at here
    cases sent with
    | false => cases List.mem_singleton.mp here
    | true =>
        obtain ⟨own, number, id, -⟩ := Event.requested.inj (List.mem_singleton.mp here)
        exact ⟨own, number, id⟩
  -- an id that was returned before is not that of the new request
  have apart : ∀ {query request'},
      .requested client query (idOf (numbered client trace)) request' ∉ trace := by
    intro query request' seen
    obtain ⟨requests, before, id⟩ := identified.counted _ _ _ _ seen
    exact Nat.ne_of_gt before (idOf_injective few (Nat.lt_trans before few) id)
  refine ⟨fun service report seen => ?_, ?_, ?_, fun other => ?_⟩
  · have before : .taken service report ∈ trace := by
      refine (List.mem_append.mp seen).resolve_right fun here => ?_
      rw [← same] at here
      cases sent <;> cases List.mem_singleton.mp here
    exact (identified.taken service report before).imp_left Known.append
  · intro sender query sequenceId request' seen
    rw [counts]
    rcases new seen with before | ⟨rfl, -, id⟩
    · obtain ⟨requests, earlier, id⟩ := identified.counted _ _ _ _ before
      exact ⟨requests, Nat.lt_add_right _ earlier, id⟩
    · rw [if_pos rfl]
      exact ⟨_, Nat.lt_succ_self _, id⟩
  · intro sender query query' sequenceId request' request'' seen seen'
    rcases new seen with before | ⟨rfl, rfl, rfl⟩ <;>
      rcases new seen' with before' | ⟨same', rfl, id⟩
    · exact identified.distinct _ _ _ _ _ _ before before'
    · subst same' id
      exact absurd before apart
    · exact absurd before' apart
    · rfl
  · rw [counts]
    split
    · next own => exact own ▸ few
    · exact identified.few other

theorem Identified.takeRequest (identified : Identified enc gid P trace)
    (inv : Inv enc gid P s trace) (service : ν) (now : Int64) :
    Identified enc gid P (trace ++ (s.takeRequest (κ := κ) enc service now).2) := by
  rcases takeRequest_cases (s.services service) enc.codec now with same |
    ⟨query, queue, first, popped⟩ | ⟨query, queue, report, first, about, under, read, taken⟩
  · simp only [State.takeRequest, same]
    exact identified.append (by simp)
  · simp only [State.takeRequest, popped]
    exact identified.append (by simp)
  · simp only [State.takeRequest, taken]
    have counts : ∀ client, numbered client (trace ++ [.taken service report]) =
        numbered client trace := fun client => by simp [numbered, Event.numbers]
    have known := inv.queued service query (first ▸ List.mem_cons_self)
    refine ⟨fun service' report' seen => ?_, ?_, ?_, fun client =>
      (counts client).symm ▸ identified.few client⟩
    · rcases List.mem_append.mp seen with before | here
      · exact (identified.taken service' report' before).imp_left Known.append
      · obtain ⟨-, rfl⟩ := Event.taken.inj (List.mem_singleton.mp here)
        rw [about]
        exact ⟨known.append, under⟩
    · simpa [counts] using identified.counted
    · simpa using identified.distinct

theorem Identified.step {label : Label κ ν Request Response} (inv : Inv enc gid P s trace)
    (identified : Identified enc gid P trace)
    (meets : ∀ client request now targets sent,
      label = .sendRequest client request now targets sent → numbered client trace < UInt64.size)
    (stepped : s.step enc label = some (s', observed)) :
    Identified enc gid P (trace ++ observed) := by
  cases label with
  | sendRequest client request now targets sent =>
      obtain ⟨-, same⟩ := Option.ite_none_right_eq_some.mp stepped
      obtain ⟨-, rfl⟩ := Prod.mk.inj (Option.some.inj same)
      exact identified.sendRequest inv client request now targets sent (meets _ _ _ _ _ rfl)
  | takeRequest service now =>
      obtain ⟨-, rfl⟩ := Prod.mk.inj (Option.some.inj stepped)
      exact identified.takeRequest inv service now
  | foreignQuery service attachment payload =>
      obtain ⟨-, rfl⟩ := Prod.mk.inj (Option.some.inj stepped)
      exact identified.append (by simp [Event.isIndifferent])
  | sendResponse service header response now =>
      rw [State.step, sendResponse_eq] at stepped
      split at stepped <;> cases stepped
      · exact identified.append (by simp [Event.isIndifferent])
      · exact identified.append (by simp)
  | takeResponse client now =>
      obtain ⟨_, -, same⟩ := Option.map_eq_some_iff.mp stepped
      obtain ⟨-, rfl⟩ := Prod.mk.inj same
      exact identified.append (by simp [Event.isIndifferent])
  | deliverQuery i | deliverReply i =>
      obtain ⟨_, -, same⟩ := Option.map_eq_some_iff.mp stepped
      obtain ⟨-, rfl⟩ := Prod.mk.inj same
      exact identified.append (by simp)
  | loseQuery i | loseReply i =>
      obtain ⟨-, rfl⟩ := Prod.mk.inj (Option.some.inj stepped)
      exact identified.append (by simp)

end Identification

/-! ## Main results -/

section Results

variable {κ ν Request Response : Type} [DecidableEq κ] [DecidableEq ν]

end Results

/-! ## Two clients of one service -/

/-- An attachment as the serializer of the transport writes it. -/
def attachmentBytes (attachment : Attachment) : List UInt8 :=
  leBytes 8 attachment.sequenceNumber.toUInt64.toNat ++
    (leBytes 8 attachment.sourceTimestamp.toUInt64.toNat ++ 16 :: attachment.sourceGid.toList)

def readAttachment (bytes : List UInt8) : Option Attachment :=
  match bytes.drop 16 with
  | 16 :: gid =>
      if sized : gid.length = 16 then
        some
          { sequenceNumber := (UInt64.ofNat (leValue (bytes.take 8))).toInt64
            sourceTimestamp := (UInt64.ofNat (leValue ((bytes.drop 8).take 8))).toInt64
            sourceGid := ⟨gid.toArray, sized⟩ }
      else none
  | _ => none

theorem toInt64_leBytes (value : Int64) :
    (UInt64.ofNat (leValue (leBytes 8 value.toUInt64.toNat))).toInt64 = value := by
  have small : value.toUInt64.toNat < 256 ^ 8 := value.toUInt64.toNat_lt
  rw [leValue_leBytes, Nat.mod_eq_of_lt small, UInt64.ofNat_toNat]
  exact value.toInt64_toUInt64

theorem readAttachment_bytes (attachment : Attachment) :
    readAttachment (attachmentBytes attachment) = some attachment := by
  obtain ⟨sequenceNumber, sourceTimestamp, sourceGid⟩ := attachment
  have first := length_leBytes 8 sequenceNumber.toUInt64.toNat
  have second := length_leBytes 8 sourceTimestamp.toUInt64.toNat
  have rest : (leBytes 8 sequenceNumber.toUInt64.toNat ++
      (leBytes 8 sourceTimestamp.toUInt64.toNat ++ 16 :: sourceGid.toList)).drop 16 =
        16 :: sourceGid.toList := by
    rw [← List.append_assoc]
    exact List.drop_left' (by rw [List.length_append, first, second])
  have sized : sourceGid.toList.length = 16 := sourceGid.length_toList
  simp only [readAttachment, attachmentBytes, rest, sized, dif_pos, List.take_left' first,
    List.drop_left' first, List.take_left' second, toInt64_leBytes]
  rfl

/-- Requests and responses are raw bytes. -/
def demoEncodings : Encodings (List UInt8) (List UInt8) where
  encodeAttachment := attachmentBytes
  decodeAttachment := readAttachment
  serializeRequest := id
  deserializeRequest := some
  serializeResponse := id
  deserializeResponse := some

def demoGids (client : Bool) : GidArray := Vector.replicate 16 (if client then 7 else 3)

abbrev demoSystem : Machine (State Bool Unit) (Label Bool Unit (List UInt8) (List UInt8))
    (Event Bool Unit (List UInt8) (List UInt8)) :=
  system demoEncodings demoGids (fun _ => 10) fun _ => 10

/-- Both clients send a first request; the second one overtakes, and a query without an attachment
comes between.  Each client is answered. -/
def crossing : List (Label Bool Unit (List UInt8) (List UInt8)) :=
  [.sendRequest true [5] 100 [()] true, .sendRequest false [6] 101 [()] true,
    .foreignQuery () none (some [9]), .deliverQuery 1, .deliverQuery 1, .deliverQuery 0,
    .takeRequest () 102, .takeRequest () 103, .takeRequest () 104,
    .sendResponse () ⟨demoGids true, 1⟩ [50] 105, .sendResponse () ⟨demoGids false, 1⟩ [60] 106,
    .deliverReply 1, .deliverReply 0, .takeResponse true 107, .takeResponse false 108]

instance {κ ν Request Response : Type} [DecidableEq κ] [Fintype κ]
    (enc : Encodings Request Response) (gid : κ → GidArray) :
    DecidableRel (Distinguished (ν := ν) enc gid) := by
  intro c label
  unfold Distinguished
  split
  · infer_instance
  · exact Fintype.decidableForallFintype
  · infer_instance

/-- A response that a client has taken. -/
structure Delivery where
  client : Bool
  header : RmwRequestId
  query : ℕ
  response : Option (List UInt8)
deriving DecidableEq

def deliveries (trace : List (Event Bool Unit (List UInt8) (List UInt8))) : List Delivery :=
  trace.filterMap fun
    | .received client answer =>
        some ⟨client, answer.header.requestId, answer.sample.query, answer.response⟩
    | _ => none

theorem demoGids_injective : Function.Injective demoGids := by decide +kernel

end RosZ.Rmw.RequestReply
