import Mathlib.Data.List.AList
import RosZ.Lib.Fallible
import RosZ.Lib.Ledger
import RosZ.Lib.Machine
import RosZ.Queue

/-!
# Service servers

A `ZServer` takes queries from its queue and keeps each one in a map until it is answered.
The key of the map comes from the attachment of the query, so it is chosen by the client.

## Design notes

`take_request` and `take_request_async` make the same checks in different orders, and each
has its own definition; `checkRequestAsync_eq` says that the order matters only for queries without
a payload.  The two ways to send a response differ in the text of an error alone.

A server is borrowed mutably by every call, so calls do not overlap, and a call that waits
for a query is a step that is not enabled.  Attachments are decoded by the transport's
serializer and payloads by that of the message type; both are parameters.

`answersOnce_of_reachable` relates the map to the ledger of the run: what was taken, and what
was answered.
-/

namespace RosZ.Service

open Transition Ledger
open scoped List

/-! ## Attachments and keys -/

abbrev GidArray := Vector UInt8 16

structure Attachment where
  sequenceNumber : Int64
  sourceTimestamp : Int64
  sourceGid : GidArray
deriving DecidableEq, Repr

/-- The client that sent a request, and the number it gave to it. -/
structure QueryKey where
  sn : Int64
  gid : GidArray
deriving DecidableEq, Repr

def QueryKey.ofAttachment (value : Attachment) : QueryKey :=
  { sn := value.sequenceNumber, gid := value.sourceGid }

/-- A query, as the transport tells queries apart; its attachment and payload are bytes. -/
structure Query where
  id : ℕ
  attachment : Option (List UInt8)
  payload : Option (List UInt8)
deriving DecidableEq, Repr

/-- What the server needs of the transport and of the types of its service. -/
structure Codec (Request Response : Type) where
  decodeAttachment : List UInt8 → Option Attachment
  deserialize : List UInt8 → Option Request
  serialize : Response → List UInt8

/-- Why a request was not taken. -/
inductive TakeError where
  /-- `unwrap` of an attachment or a payload that is not there. -/
  | panicked
  | attachment
  /-- `Existing query detected`. -/
  | duplicate
  | payload
deriving DecidableEq, Repr

/-- A server: its queue, and the queries that wait for an answer. -/
structure ZServer where
  queue : BoundedQueue Query
  map : AList fun _ : QueryKey => Query

namespace ZServer

variable {Request Response : Type} (codec : Codec Request Response)

/-! ## Taking requests -/

/-- The value, or the error. -/
def orElse {α : Type} (value : Option α) (error : TakeError) : Except TakeError α :=
  match value with
  | some found => .ok found
  | none => .error error

/-- An `Err` when the key is in the map. -/
def refuseDuplicate (map : AList fun _ : QueryKey => Query) (key : QueryKey) :
    Except TakeError Unit :=
  if (map.lookup key).isSome then .error .duplicate else .ok ()

/-- The checks of `take_request`. -/
def checkRequest (map : AList fun _ : QueryKey => Query) (query : Query) :
    Except TakeError (QueryKey × Request) := do
  let attachmentBytes ← orElse query.attachment .panicked
  let attachment ← orElse (codec.decodeAttachment attachmentBytes) .attachment
  let key := QueryKey.ofAttachment attachment
  let payloadBytes ← orElse query.payload .panicked
  refuseDuplicate map key
  let msg ← orElse (codec.deserialize payloadBytes) .payload
  return (key, msg)

/-- The checks of `take_request_async`. -/
def checkRequestAsync (map : AList fun _ : QueryKey => Query) (query : Query) :
    Except TakeError (QueryKey × Request) := do
  let attachmentBytes ← orElse query.attachment .panicked
  let attachment ← orElse (codec.decodeAttachment attachmentBytes) .attachment
  let key := QueryKey.ofAttachment attachment
  refuseDuplicate map key
  let payloadBytes ← orElse query.payload .panicked
  let msg ← orElse (codec.deserialize payloadBytes) .payload
  return (key, msg)

/-- The next query is taken from the queue, and kept if it is admitted. -/
def takeWith (checkRequest : (AList fun _ : QueryKey => Query) → Query →
      Except TakeError (QueryKey × Request)) (server : ZServer) :
    Option (ZServer × Query × Except TakeError (QueryKey × Request)) :=
  match server.queue.tryRecv with
  | none => none
  | some (query, queue) =>
      match checkRequest server.map query with
      | .ok (key, msg) =>
          some ({ queue, map := server.map.insert key query }, query, .ok (key, msg))
      | .error error => some ({ server with queue }, query, .error error)

def takeRequest (server : ZServer) :
    Option (ZServer × Query × Except TakeError (QueryKey × Request)) :=
  server.takeWith (checkRequest codec)

def takeRequestAsync (server : ZServer) :
    Option (ZServer × Query × Except TakeError (QueryKey × Request)) :=
  server.takeWith (checkRequestAsync codec)

/-! ## Sending responses -/

/-- What a query is replied with. -/
structure Reply where
  attachment : Attachment
  payload : List UInt8
deriving DecidableEq, Repr

/-- The query under the key is removed and replied to; `now` is the time on the reply.  The
reply may fail to be sent, which is the transport's choice and changes nothing here. -/
def sendWith (missing : String) (server : ZServer) (msg : Response) (key : QueryKey)
    (now : Int64) : ZServer × Except String (Query × Reply) :=
  match server.map.lookup key with
  | some query =>
      let attachment : Attachment :=
        { sequenceNumber := key.sn, sourceTimestamp := now, sourceGid := key.gid }
      ({ server with map := server.map.erase key },
        .ok (query, { attachment, payload := codec.serialize msg }))
  | none => (server, .error missing)

def sendResponse (server : ZServer) (msg : Response) (key : QueryKey) (now : Int64) :
    ZServer × Except String (Query × Reply) :=
  server.sendWith codec "Query map doesn't contain key" msg key now

def sendResponseAsync (server : ZServer) (msg : Response) (key : QueryKey) (now : Int64) :
    ZServer × Except String (Query × Reply) :=
  server.sendWith codec "Quey map doesn't contains {key}" msg key now

/-! ## Runs of calls -/

/-- A server, and the number of the next query. -/
structure State where
  server : ZServer
  nextQuery : ℕ

inductive Label (Response : Type) where
  /-- A query reaches the queue. -/
  | arrive (attachment payload : Option (List UInt8))
  | takeRequest
  | takeRequestAsync
  | sendResponse (msg : Response) (key : QueryKey) (now : Int64)
  | sendResponseAsync (msg : Response) (key : QueryKey) (now : Int64)

/-- What the calls return, and the replies that they send. -/
inductive Event (Request : Type) where
  | taken (key : QueryKey) (query : Query) (msg : Request)
  | failed (query : Query) (error : TakeError)
  | replied (key : QueryKey) (query : Query) (reply : Reply)
  | notFound (key : QueryKey) (error : String)
deriving DecidableEq

def State.arrive (s : State) (attachment payload : Option (List UInt8)) : State :=
  let query : Query := { id := s.nextQuery, attachment, payload }
  { server := { s.server with queue := (s.server.queue.push query).1 }
    nextQuery := s.nextQuery + 1 }

/-- A take, with its result on record. -/
def State.take (s : State)
    (call : ZServer → Option (ZServer × Query × Except TakeError (QueryKey × Request))) :
    Option (State × List (Event Request)) :=
  (call s.server).map fun (server, query, result) =>
    ({ s with server },
      match result with
      | .ok (key, msg) => [.taken key query msg]
      | .error error => [.failed query error])

/-- A send, with its result on record. -/
def State.send (s : State) (key : QueryKey)
    (after : ZServer × Except String (Query × Reply)) : State × List (Event Request) :=
  ({ s with server := after.1 },
    match after.2 with
    | .ok (query, reply) => [.replied key query reply]
    | .error error => [.notFound key error])

def State.step (s : State) : Label Response → Option (State × List (Event Request))
  | .arrive attachment payload => some (s.arrive attachment payload, [])
  | .takeRequest => s.take (takeRequest codec)
  | .takeRequestAsync => s.take (takeRequestAsync codec)
  | .sendResponse msg key now => some (s.send key (s.server.sendResponse codec msg key now))
  | .sendResponseAsync msg key now =>
      some (s.send key (s.server.sendResponseAsync codec msg key now))

/-- The calls on a server whose queue has the given depth. -/
def calls (depth : ℕ) : Machine State (Label Response) (Event Request) where
  init := { server := { queue := .new depth, map := ∅ }, nextQuery := 0 }
  step := State.step codec

/-! ## What one call does -/

section Calls

variable {codec}

theorem orElse_eq_ok_iff {α : Type} {value : Option α} {error : TakeError} {found : α} :
    orElse value error = .ok found ↔ value = some found := by
  cases value <;> simp [orElse]

theorem refuseDuplicate_eq_ok_iff {map : AList fun _ : QueryKey => Query} {key : QueryKey}
    {done : Unit} : refuseDuplicate map key = .ok done ↔ map.lookup key = none := by
  unfold refuseDuplicate
  cases map.lookup key <;> simp

/-- The request of a query: its key and its message. -/
def Admits (codec : Codec Request Response) (map : AList fun _ : QueryKey => Query)
    (query : Query) (key : QueryKey) (msg : Request) : Prop :=
  (∃ bytes attachment, query.attachment = some bytes ∧
      codec.decodeAttachment bytes = some attachment ∧ key = .ofAttachment attachment) ∧
    map.lookup key = none ∧
    ∃ bytes, query.payload = some bytes ∧ codec.deserialize bytes = some msg

theorem checkRequest_eq_ok_iff {map : AList fun _ : QueryKey => Query} {query : Query}
    {key : QueryKey} {msg : Request} :
    checkRequest codec map query = .ok (key, msg) ↔ Admits codec map query key msg := by
  simp only [checkRequest, Fallible.bind_eq_ok_iff, orElse_eq_ok_iff, refuseDuplicate_eq_ok_iff]
  constructor
  · rintro ⟨bytes, has, attachment, decoded, payload, carried, ⟨⟩, free, found, read, same⟩
    cases same
    exact ⟨⟨bytes, attachment, has, decoded, rfl⟩, free, payload, carried, read⟩
  · rintro ⟨⟨bytes, attachment, has, decoded, rfl⟩, free, payload, carried, read⟩
    exact ⟨bytes, has, attachment, decoded, payload, carried, (), free, msg, read, rfl⟩

theorem checkRequestAsync_eq_ok_iff {map : AList fun _ : QueryKey => Query} {query : Query}
    {key : QueryKey} {msg : Request} :
    checkRequestAsync codec map query = .ok (key, msg) ↔ Admits codec map query key msg := by
  simp only [checkRequestAsync, Fallible.bind_eq_ok_iff, orElse_eq_ok_iff,
    refuseDuplicate_eq_ok_iff]
  constructor
  · rintro ⟨bytes, has, attachment, decoded, ⟨⟩, free, payload, carried, found, read, same⟩
    cases same
    exact ⟨⟨bytes, attachment, has, decoded, rfl⟩, free, payload, carried, read⟩
  · rintro ⟨⟨bytes, attachment, has, decoded, rfl⟩, free, payload, carried, read⟩
    exact ⟨bytes, has, attachment, decoded, (), free, payload, carried, msg, read, rfl⟩

/-- The two orders of the checks agree on queries with a payload. -/
theorem checkRequestAsync_eq {map : AList fun _ : QueryKey => Query} {query : Query}
    (carries : query.payload.isSome = true) :
    checkRequestAsync codec map query = checkRequest codec map query := by
  obtain ⟨bytes, carried⟩ := Option.isSome_iff_exists.mp carries
  simp only [checkRequestAsync, checkRequest, carried, orElse]
  rfl

/-! ## Panics

Both calls unwrap the attachment and the payload of a query, which are for its client to choose.
-/

/-- What `take_request` needs of a query so as not to panic. -/
def Unwraps (codec : Codec Request Response) (query : Query) : Prop :=
  query.attachment.isSome = true ∧
    ∀ _attachment ∈ query.attachment.bind codec.decodeAttachment, query.payload.isSome = true

/-- What `take_request_async` needs of it: the payload of a duplicate is not looked at. -/
def UnwrapsAsync (codec : Codec Request Response) (map : AList fun _ : QueryKey => Query)
    (query : Query) : Prop :=
  query.attachment.isSome = true ∧
    ∀ attachment ∈ query.attachment.bind codec.decodeAttachment,
      map.lookup (.ofAttachment attachment) = none → query.payload.isSome = true

theorem orElse_panics_iff {α : Type} {value : Option α} {error : TakeError} :
    orElse value error = .error .panicked ↔ value = none ∧ error = .panicked := by
  cases value <;> simp [orElse]

theorem refuseDuplicate_not_panics {map : AList fun _ : QueryKey => Query} {key : QueryKey} :
    refuseDuplicate map key ≠ .error .panicked := by
  unfold refuseDuplicate
  split <;> simp

theorem checkRequest_panics_iff {map : AList fun _ : QueryKey => Query} {query : Query} :
    checkRequest codec map query = .error .panicked ↔ ¬ Unwraps codec query := by
  simp only [checkRequest, Fallible.bind_eq_error_iff, orElse_eq_ok_iff, orElse_panics_iff,
    refuseDuplicate_not_panics]
  unfold Unwraps
  cases query.attachment with
  | none => simp
  | some bytes =>
      cases decoded : codec.decodeAttachment bytes with
      | none => simp [decoded]
      | some attachment =>
          cases query.payload with
          | none => simp [decoded]
          | some payload => simp [decoded, pure, Except.pure]

theorem checkRequestAsync_panics_iff {map : AList fun _ : QueryKey => Query} {query : Query} :
    checkRequestAsync codec map query = .error .panicked ↔ ¬ UnwrapsAsync codec map query := by
  simp only [checkRequestAsync, Fallible.bind_eq_error_iff, orElse_eq_ok_iff, orElse_panics_iff,
    refuseDuplicate_eq_ok_iff, refuseDuplicate_not_panics]
  unfold UnwrapsAsync
  cases query.attachment with
  | none => simp
  | some bytes =>
      cases decoded : codec.decodeAttachment bytes with
      | none => simp [decoded]
      | some attachment =>
          cases query.payload with
          | none => simp [decoded]
          | some payload => simp [decoded, pure, Except.pure]

/-- The call takes a query, and panics. -/
def Panics (call : ZServer → Option (ZServer × Query × Except TakeError (QueryKey × Request)))
    (server : ZServer) : Prop :=
  ∃ after query, call server = some (after, query, .error .panicked)

theorem takeWith_panics_iff {checkRequest : (AList fun _ : QueryKey => Query) → Query →
      Except TakeError (QueryKey × Request)} {server : ZServer} :
    Panics (takeWith checkRequest) server ↔
      ∃ query ∈ server.queue.data.head?, checkRequest server.map query = .error .panicked := by
  unfold Panics takeWith BoundedQueue.tryRecv
  cases server.queue.data with
  | nil => simp
  | cons query rest =>
      simp only [List.head?_cons, Option.mem_def, Option.some.injEq, exists_eq_left']
      cases checkRequest server.map query with
      | ok taken => simp
      | error error => simp

/-- `take_request` panics on the queries that lack what it unwraps, and on no others. -/
theorem takeRequest_not_panics_iff {server : ZServer} :
    ¬ Panics (takeRequest codec) server ↔
      ∀ query ∈ server.queue.data.head?, Unwraps codec query := by
  show ¬ Panics (takeWith (checkRequest codec)) server ↔ _
  rw [takeWith_panics_iff]
  simp only [checkRequest_panics_iff, not_exists, not_and, not_not]

theorem takeRequestAsync_not_panics_iff {server : ZServer} :
    ¬ Panics (takeRequestAsync codec) server ↔
      ∀ query ∈ server.queue.data.head?, UnwrapsAsync codec server.map query := by
  show ¬ Panics (takeWith (checkRequestAsync codec)) server ↔ _
  rw [takeWith_panics_iff]
  simp only [checkRequestAsync_panics_iff, not_exists, not_and, not_not]

/-- The message, the key and the time of a send. -/
def Label.response : Label Response → Option (Response × QueryKey × Int64)
  | .sendResponse msg key now | .sendResponseAsync msg key now => some (msg, key, now)
  | .arrive _ _ | .takeRequest | .takeRequestAsync => none

/-- Everything a call can do. -/
inductive Step (codec : Codec Request Response) (s : State) :
    Label Response → List (Event Request) → State → Prop
  | arrive (attachment payload : Option (List UInt8)) :
      Step codec s (.arrive attachment payload) [] (s.arrive attachment payload)
  | taken {label : Label Response} {query : Query} {queue : BoundedQueue Query} {key : QueryKey}
      {msg : Request} (takes : label.response = none)
      (queued : s.server.queue.tryRecv = some (query, queue))
      (admitted : Admits codec s.server.map query key msg) :
      Step codec s label [.taken key query msg]
        { s with server := { queue, map := s.server.map.insert key query } }
  | failed {label : Label Response} {query : Query} {queue : BoundedQueue Query}
      (takes : label.response = none) (queued : s.server.queue.tryRecv = some (query, queue))
      (error : TakeError) :
      Step codec s label [.failed query error] { s with server := { s.server with queue } }
  | replied {label : Label Response} {msg : Response} {key : QueryKey} {now : Int64} {query : Query}
      (sends : label.response = some (msg, key, now))
      (found : s.server.map.lookup key = some query) :
      Step codec s label [.replied key query ⟨⟨key.sn, now, key.gid⟩, codec.serialize msg⟩]
        { s with server := { s.server with map := s.server.map.erase key } }
  | notFound {label : Label Response} {msg : Response} {key : QueryKey} {now : Int64}
      (sends : label.response = some (msg, key, now)) (missing : s.server.map.lookup key = none)
      (error : String) : Step codec s label [.notFound key error] s

variable {s s' : State} {label : Label Response} {observed : List (Event Request)}

/-- A take, for either order of the checks. -/
theorem step_of_take {checkRequest : (AList fun _ : QueryKey => Query) → Query →
      Except TakeError (QueryKey × Request)}
    (admits : ∀ map query key msg, checkRequest map query = .ok (key, msg) →
      Admits codec map query key msg)
    (takes : label.response = none)
    (stepped : s.take (fun server => server.takeWith checkRequest) = some (s', observed)) :
    Step codec s label observed s' := by
  obtain ⟨⟨server, query, result⟩, called, same⟩ := Option.map_eq_some_iff.mp stepped
  simp only [takeWith] at called
  split at called
  · cases called
  · next queued =>
      split at called
      · next admitted =>
          cases called
          cases same
          exact .taken takes queued (admits _ _ _ _ admitted)
      · next error refused =>
          cases called
          cases same
          exact .failed takes queued error

theorem step_of_send {msg : Response} {key : QueryKey} {now : Int64} {missing : String}
    (sends : label.response = some (msg, key, now))
    (stepped : s.send key (s.server.sendWith codec missing msg key now) = (s', observed)) :
    Step codec s label observed s' := by
  simp only [State.send, sendWith] at stepped
  split at stepped
  · next query found =>
      cases stepped
      exact .replied sends found
  · next missing =>
      cases stepped
      exact .notFound sends missing _

theorem step_sound (stepped : s.step codec label = some (s', observed)) :
    Step codec s label observed s' := by
  cases label with
  | arrive attachment payload =>
      cases stepped
      exact .arrive attachment payload
  | takeRequest => exact step_of_take (fun _ _ _ _ => checkRequest_eq_ok_iff.mp) rfl stepped
  | takeRequestAsync =>
      exact step_of_take (fun _ _ _ _ => checkRequestAsync_eq_ok_iff.mp) rfl stepped
  | sendResponse msg key now => exact step_of_send rfl (Option.some.inj stepped)
  | sendResponseAsync msg key now => exact step_of_send rfl (Option.some.inj stepped)

end Calls

/-! ## The map and the history of the calls -/

/-- What a call does to the ledger of the server. -/
def Event.entry : Event Request → Option (Entry QueryKey Query)
  | .taken key query _ => some (.opened key query)
  | .replied key query _ => some (.closed key query)
  | .failed _ _ | .notFound _ _ => none

/-- The requests taken and answered. -/
def ledger (trace : List (Event Request)) : List (Entry QueryKey Query) :=
  trace.filterMap Event.entry

theorem ledger_append (trace observed : List (Event Request)) :
    ledger (trace ++ observed) = ledger trace ++ ledger observed :=
  List.filterMap_append

/-- What holds between a server, the number of the next query and the ledger. -/
structure Recorded (server : ZServer) (nextQuery : ℕ) (ledger : List (Entry QueryKey Query)) :
    Prop where
  pending : Holds server.map ledger
  regular : Regular ledger
  /-- No query was taken twice, or is still queued after it was taken. -/
  distinct : ((requests ledger ++ server.queue.data).map Query.id).Nodup
  numbered : ∀ query ∈ requests ledger ++ server.queue.data, query.id < nextQuery

namespace Recorded

variable {server : ZServer} {nextQuery : ℕ} {ledger : List (Entry QueryKey Query)} {key : QueryKey}
  {query : Query} {queue : BoundedQueue Query}

theorem empty (depth : ℕ) : Recorded { queue := .new depth, map := ∅ } 0 [] :=
  ⟨holds_empty, .nil, List.nodup_nil, by simp [requests, BoundedQueue.new]⟩

/-- Queries may leave the queue without being taken. -/
theorem sublist (recorded : Recorded server nextQuery ledger)
    (fewer : queue.data <+ server.queue.data) :
    Recorded { server with queue } nextQuery ledger where
  pending := recorded.pending
  regular := recorded.regular
  distinct := recorded.distinct.sublist ((fewer.append_left _).map _)
  numbered query member := recorded.numbered query ((fewer.append_left _).subset member)

theorem arrive (recorded : Recorded server nextQuery ledger) (number : query.id = nextQuery) :
    Recorded { server with queue := (server.queue.push query).1 } (nextQuery + 1) ledger := by
  obtain ⟨kept, suffix, pushed⟩ := server.queue.data_push query
  have before : Recorded { server with queue := { server.queue with data := kept } } nextQuery
      ledger := recorded.sublist suffix.sublist
  refine ⟨recorded.pending, recorded.regular, ?_, ?_⟩
  · show ((requests ledger ++ (server.queue.push query).1.data).map Query.id).Nodup
    rw [pushed, ← List.append_assoc, List.map_append, List.nodup_append]
    refine ⟨before.distinct, List.nodup_singleton _, ?_⟩
    rintro id old _ new rfl
    obtain ⟨query', member, rfl⟩ := List.mem_map.mp old
    exact Nat.ne_of_lt (before.numbered query' member) ((List.mem_singleton.mp new).trans number)
  · show ∀ query' ∈ requests ledger ++ (server.queue.push query).1.data, query'.id < nextQuery + 1
    rw [pushed, ← List.append_assoc]
    intro query' member
    rcases List.mem_append.mp member with old | new
    · exact Nat.lt_succ_of_lt (before.numbered query' old)
    · rw [List.mem_singleton.mp new, number]
      exact Nat.lt_succ_self _

/-- A query that leaves the queue unseen. -/
theorem dropped (recorded : Recorded server nextQuery ledger)
    (queued : server.queue.tryRecv = some (query, queue)) :
    Recorded { server with queue } nextQuery ledger := by
  refine recorded.sublist ?_
  rw [BoundedQueue.tryRecv_eq_some queued]
  exact List.sublist_cons_self ..

/-- A query that is taken under a free key. -/
theorem opened (recorded : Recorded server nextQuery ledger)
    (queued : server.queue.tryRecv = some (query, queue)) (free : server.map.lookup key = none) :
    Recorded { queue, map := server.map.insert key query } nextQuery
      (ledger ++ [.opened key query]) := by
  have same : requests (ledger ++ [.opened key query]) ++ queue.data =
      requests ledger ++ server.queue.data := by
    rw [requests_opened, BoundedQueue.tryRecv_eq_some queued, List.append_assoc,
      List.singleton_append]
  refine ⟨recorded.pending.insert key query, recorded.regular.opened query ?_, ?_, ?_⟩
  · rw [← recorded.pending key]
    exact free
  · exact same ▸ recorded.distinct
  · exact same ▸ recorded.numbered

/-- A query that is answered. -/
theorem closed (recorded : Recorded server nextQuery ledger)
    (found : server.map.lookup key = some query) :
    Recorded { server with map := server.map.erase key } nextQuery
      (ledger ++ [.closed key query]) := by
  refine ⟨recorded.pending.erase key query, recorded.regular.closed ?_, ?_, ?_⟩
  · rw [← recorded.pending key]
    exact found
  · rw [requests_closed]
    exact recorded.distinct
  · rw [requests_closed]
    exact recorded.numbered

/-- No query is answered twice. -/
theorem nodup_answers (recorded : Recorded server nextQuery ledger) : (answers ledger).Nodup := by
  have distinct := recorded.distinct
  rw [List.map_append] at distinct
  exact recorded.regular.nodup_answers (List.nodup_append.mp distinct).1.of_map

end Recorded

theorem Recorded.step {codec : Codec Request Response} {s s' : State} {label : Label Response}
    {trace observed : List (Event Request)}
    (recorded : Recorded s.server s.nextQuery (ledger trace))
    (step : Step codec s label observed s') :
    Recorded s'.server s'.nextQuery (ledger (trace ++ observed)) := by
  rw [ledger_append]
  cases step with
  | arrive attachment payload =>
      show Recorded _ _ (ledger trace ++ [])
      rw [List.append_nil]
      exact recorded.arrive rfl
  | taken takes queued admitted => exact recorded.opened queued admitted.2.1
  | failed takes queued error =>
      show Recorded _ _ (ledger trace ++ [])
      rw [List.append_nil]
      exact recorded.dropped queued
  | replied sends found => exact recorded.closed found
  | notFound sends missing error =>
      show Recorded _ _ (ledger trace ++ [])
      rw [List.append_nil]
      exact recorded

/-- **What a server promises of its calls**, `c` being the state and the history so far. -/
structure AnswersOnce (codec : Codec Request Response) (depth : ℕ)
    (c : Config State (Event Request)) : Prop where
  /-- The map holds what was taken and not answered since. -/
  pending : ∀ key query, c.state.server.map.lookup key = some query ↔
    ∃ before after, ledger c.trace = before ++ .opened key query :: after ∧
      ∀ entry ∈ after, entry.key ≠ key
  /-- No query is replied to twice. -/
  once : (answers (ledger c.trace)).Nodup
  /-- A send replies to the query that waits under the key, with the key's attachment, and removes
  it; there is no such query exactly when the send fails. -/
  sends : ∀ label msg key now, label.response = some (msg, key, now) →
    ∃ c', (calls codec depth).next c label = some c' ∧
      match outstanding (ledger c.trace) key with
      | some query =>
          c'.trace = c.trace ++
              [.replied key query ⟨⟨key.sn, now, key.gid⟩, codec.serialize msg⟩] ∧
            c'.state.server.map = c.state.server.map.erase key
      | none => (∃ error, c'.trace = c.trace ++ [.notFound key error]) ∧
          c'.state.server.map = c.state.server.map
  /-- A take that fails leaves the map as it is. -/
  fails : ∀ label c' query error, (calls codec depth).next c label = some c' →
    c'.trace = c.trace ++ [.failed query error] →
    c'.state.server.map = c.state.server.map

section Results

variable {codec} {depth : ℕ}

/-- A send, under either error text. -/
theorem next_of_send {c : Config State (Event Request)} {label : Label Response} {msg : Response}
    {key : QueryKey} {now : Int64} (sends : label.response = some (msg, key, now)) :
    ∃ missing after, c.state.send key (c.state.server.sendWith codec missing msg key now) = after ∧
      (calls codec depth).next c label = some ⟨after.1, c.trace ++ after.2⟩ := by
  cases label with
  | sendResponse | sendResponseAsync =>
      cases sends
      exact ⟨_, _, rfl, rfl⟩
  | arrive | takeRequest | takeRequestAsync => cases sends

theorem recorded_of_reachable {c : Config State (Event Request)}
    (reached : (calls codec depth).Reachable Machine.anyStep c) :
    Recorded c.state.server c.state.nextQuery (ledger c.trace) := by
  refine reached.invariant
    (P := fun c => Recorded c.state.server c.state.nextQuery (ledger c.trace)) ?_ ?_
  · exact .empty depth
  · intro c label c' recorded _ moved
    obtain ⟨observed, stepped, grown⟩ := Machine.next_eq_some moved
    rw [grown]
    exact recorded.step (step_sound stepped)

/-- **Every server answers a request at most once**, whatever is asked of it in whatever order. -/
theorem answersOnce_of_reachable (codec : Codec Request Response) (depth : ℕ)
    (c : Config State (Event Request))
    (reached : (calls codec depth).Reachable Machine.anyStep c) : AnswersOnce codec depth c := by
  have recorded := recorded_of_reachable reached
  refine ⟨fun key query => ?_, recorded.nodup_answers, fun label msg key now sends => ?_, ?_⟩
  · rw [recorded.pending key]
    exact outstanding_eq_some_iff
  · obtain ⟨missing, after, rfl, moved⟩ := next_of_send sends
    refine ⟨_, moved, ?_⟩
    rw [← recorded.pending key]
    simp only [State.send, sendWith]
    cases c.state.server.map.lookup key with
    | none => exact ⟨⟨missing, rfl⟩, rfl⟩
    | some query => exact ⟨rfl, rfl⟩
  · intro label c' query error moved failed
    obtain ⟨observed, stepped, grown⟩ := Machine.next_eq_some moved
    obtain rfl : observed = [.failed query error] :=
      List.append_cancel_left (grown.symm.trans failed)
    have step := step_sound stepped
    generalize c'.state = s' at step ⊢
    cases step with
    | failed takes queued error => rfl

end Results

/-- The attachment of a first request, as the serializer writes it. -/
def demoAttachment : List UInt8 :=
  [1, 0, 0, 0, 0, 0, 0, 0] ++ List.replicate 8 0 ++ 16 :: List.replicate 16 7

def demoKey : QueryKey := ⟨1, Vector.replicate 16 7⟩

/-- A service of raw bytes, and the attachment of its first request. -/
def demoCodec : Codec (List UInt8) (List UInt8) where
  decodeAttachment bytes :=
    if bytes = demoAttachment then some ⟨demoKey.sn, 0, demoKey.gid⟩ else none
  deserialize := some
  serialize := id

/-- A request is taken, and the same one once more is refused. -/
theorem answersOnce_of_reachable_demo :
    ∃ c, (calls demoCodec 10).Reachable Machine.anyStep c ∧
      c.trace = [.taken demoKey ⟨0, some demoAttachment, some [5]⟩ [5],
        .failed ⟨1, some demoAttachment, some [6]⟩ .duplicate] ∧ AnswersOnce demoCodec 10 c := by
  obtain ⟨c, reached, seen⟩ := Machine.exists_of_schedule (calls demoCodec 10) Machine.anyStep
    [.arrive (some demoAttachment) (some [5]), .arrive (some demoAttachment) (some [6]),
      .takeRequest, .takeRequestAsync] Config.trace
    [.taken demoKey ⟨0, some demoAttachment, some [5]⟩ [5],
      .failed ⟨1, some demoAttachment, some [6]⟩ .duplicate] (by decide +kernel)
  exact ⟨c, reached, seen, answersOnce_of_reachable demoCodec 10 c reached⟩

end ZServer

end RosZ.Service
