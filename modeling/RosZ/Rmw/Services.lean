import RosZ.Service.Server

/-!
# Services of the middleware

`ServiceImpl` takes requests for `rmw_take_request` and answers them for `rmw_send_response`,
on the queue and the map of a `ZServer`.  It does not use `take_request` of the server: it
stores the query first, without a look at what is stored under the key already, and decodes the
payload afterwards, without a look at whether that went well.  Every query whose attachment is
missing or malformed has the same key.

`Distinguishes` is the condition on a take under which none of this shows, and
`keepsRequests_of_reachable` is what holds then.  `not_keepsRequests_of_take` says that a take
against the condition does harm at once.
-/

namespace RosZ.Rmw

open Transition Ledger
open RosZ.Service (Attachment Codec GidArray Query QueryKey ZServer)

structure RmwRequestId where
  writerGuid : GidArray
  sequenceNumber : Int64
deriving DecidableEq, Repr

structure RmwServiceInfo where
  requestId : RmwRequestId
  sourceTimestamp : Int64
  receivedTimestamp : Int64
deriving DecidableEq, Repr

/-- The key that a header stands for. -/
def RmwRequestId.key (requestHeader : RmwRequestId) : QueryKey :=
  { gid := requestHeader.writerGuid, sn := requestHeader.sequenceNumber }

/-- Service implementation for RMW. -/
structure ServiceImpl where
  inner : ZServer

/-- The key of the queries without a usable attachment. -/
def placeholder : QueryKey := { gid := Vector.replicate 16 0, sn := 0 }

/-- What `take_request` makes of a query with a payload: `taken` is set in any case, and the
request buffer holds the request if it was decoded. -/
structure Taken (Request : Type) where
  header : RmwServiceInfo
  query : Query
  request : Option Request
deriving DecidableEq

/-- What `take_request` finds. -/
inductive TakeOutcome (Request : Type) where
  | empty
  | noPayload (query : Query)
  | taken (report : Taken Request)

namespace ServiceImpl

variable {Request Response : Type} (codec : Codec Request Response)

/-- The attachment of a query, if there is one that can be decoded. -/
def attachmentOf (query : Query) : Option Attachment :=
  query.attachment.bind codec.decodeAttachment

def keyOf (query : Query) : QueryKey :=
  match attachmentOf codec query with
  | some attachment => .ofAttachment attachment
  | none => placeholder

def sourceTimestampOf (query : Query) : Int64 :=
  match attachmentOf codec query with
  | some attachment => attachment.sourceTimestamp
  | none => 0

def takeRequest (service : ServiceImpl) (receivedTimestamp : Int64) :
    ServiceImpl × TakeOutcome Request :=
  match service.inner.queue.tryRecv with
  | none => (service, .empty)
  | some (query, queue) =>
      match query.payload with
      | none => ({ inner := { service.inner with queue } }, .noPayload query)
      | some bytes =>
          let key := keyOf codec query
          let requestId : RmwRequestId := { sequenceNumber := key.sn, writerGuid := key.gid }
          let sourceTimestamp := sourceTimestampOf codec query
          ({ inner := { queue, map := service.inner.map.insert key query } },
            .taken
              { header := { requestId, sourceTimestamp, receivedTimestamp }
                query
                request := codec.deserialize bytes })

def sendResponse (service : ServiceImpl) (requestHeader : RmwRequestId) (response : Response)
    (now : Int64) : ServiceImpl × Except String (Query × ZServer.Reply) :=
  let key := requestHeader.key
  let (inner, result) := service.inner.sendResponse codec response key now
  ({ inner }, result)

/-! ## Runs of calls -/

structure State where
  service : ServiceImpl
  nextQuery : ℕ

inductive Label (Response : Type) where
  /-- A query reaches the queue. -/
  | arrive (attachment payload : Option (List UInt8))
  | takeRequest (receivedTimestamp : Int64)
  | sendResponse (requestHeader : RmwRequestId) (response : Response) (now : Int64)

inductive Event (Request : Type) where
  /-- The call returns with `taken` set. -/
  | taken (report : Taken Request)
  | dropped (query : Query)
  | replied (requestHeader : RmwRequestId) (query : Query) (reply : ZServer.Reply)
  | notFound (requestHeader : RmwRequestId) (error : String)
deriving DecidableEq

def State.arrive (s : State) (attachment payload : Option (List UInt8)) : State :=
  let query : Query := { id := s.nextQuery, attachment, payload }
  { service := { inner :=
      { s.service.inner with queue := (s.service.inner.queue.push query).1 } }
    nextQuery := s.nextQuery + 1 }

def State.step (s : State) : Label Response → Option (State × List (Event Request))
  | .arrive attachment payload => some (s.arrive attachment payload, [])
  | .takeRequest receivedTimestamp =>
      let (service, outcome) := s.service.takeRequest codec receivedTimestamp
      some ({ s with service },
        match outcome with
        | .empty => []
        | .noPayload query => [.dropped query]
        | .taken report => [.taken report])
  | .sendResponse requestHeader response now =>
      let (service, result) := s.service.sendResponse codec requestHeader response now
      some ({ s with service },
        match result with
        | .ok (query, reply) => [.replied requestHeader query reply]
        | .error error => [.notFound requestHeader error])

/-- The calls on a service whose queue has the given depth. -/
def calls (depth : ℕ) : Machine State (Label Response) (Event Request) where
  init := { service := { inner := { queue := .new depth, map := ∅ } }, nextQuery := 0 }
  step := State.step codec

/-- What a call does to the ledger of the service. -/
def Event.entry : Event Request → Option (Entry QueryKey Query)
  | .taken report => some (.opened report.header.requestId.key report.query)
  | .replied requestHeader query _ => some (.closed requestHeader.key query)
  | .dropped _ | .notFound _ _ => none

/-- The requests taken and answered. -/
def ledger (trace : List (Event Request)) : List (Entry QueryKey Query) :=
  trace.filterMap Event.entry

/-! ## Requests that are kept -/

/-- **What a service promises of its calls**, `c` being the state and the history so far. -/
structure KeepsRequests (codec : Codec Request Response) (depth : ℕ)
    (c : Config State (Event Request)) : Prop where
  /-- No take has replaced a request that was pending. -/
  kept : ∀ before key query after, ledger c.trace = before ++ .opened key query :: after →
    outstanding before key = none
  decoded : ∀ report, .taken report ∈ c.trace → report.request.isSome = true
  /-- A request reported as taken was answered, or will be by the next response under its header. -/
  answerable : ∀ report, .taken report ∈ c.trace →
    report.query ∈ answers (ledger c.trace) ∨ ∀ response now, ∃ c' reply,
      (calls codec depth).next c (.sendResponse report.header.requestId response now) = some c' ∧
        c'.trace = c.trace ++ [.replied report.header.requestId report.query reply]
  /-- No request is answered twice. -/
  once : (answers (ledger c.trace)).Nodup

/-- A query with a payload is taken only if nothing is pending under its key and its payload
can be decoded. -/
def Distinguishes (codec : Codec Request Response) (c : Config State (Event Request)) :
    Label Response → Prop
  | .takeRequest _ =>
      match c.state.service.inner.queue.tryRecv with
      | some (⟨id, attachment, some bytes⟩, _) =>
          c.state.service.inner.map.lookup (keyOf codec ⟨id, attachment, some bytes⟩) = none ∧
            (codec.deserialize bytes).isSome = true
      | _ => True
  | _ => True

instance (codec : Codec Request Response) : DecidableRel (Distinguishes codec) := by
  intro c label
  unfold Distinguishes
  split
  · split <;> infer_instance
  · infer_instance

section Calls

variable {codec} {s s' : State} {label : Label Response} {trace observed : List (Event Request)}

/-- Everything a call can do. -/
inductive Step (codec : Codec Request Response) (s : State) :
    Label Response → List (Event Request) → State → Prop
  | arrive (attachment payload : Option (List UInt8)) :
      Step codec s (.arrive attachment payload) [] (s.arrive attachment payload)
  | empty (now : Int64) : Step codec s (.takeRequest now) [] s
  | dropped {query : Query} {queue : BoundedQueue Query} (now : Int64)
      (queued : s.service.inner.queue.tryRecv = some (query, queue)) :
      Step codec s (.takeRequest now) [.dropped query]
        { s with service := { inner := { s.service.inner with queue } } }
  | taken {query : Query} {queue : BoundedQueue Query} {bytes : List UInt8} (now : Int64)
      (queued : s.service.inner.queue.tryRecv = some (query, queue))
      (carried : query.payload = some bytes) :
      Step codec s (.takeRequest now)
        [.taken ⟨⟨⟨(keyOf codec query).gid, (keyOf codec query).sn⟩,
          sourceTimestampOf codec query, now⟩, query, codec.deserialize bytes⟩]
        { s with service :=
          { inner := { queue, map := s.service.inner.map.insert (keyOf codec query) query } } }
  | replied {header : RmwRequestId} {query : Query} (response : Response) (now : Int64)
      (reply : ZServer.Reply) (found : s.service.inner.map.lookup header.key = some query) :
      Step codec s (.sendResponse header response now) [.replied header query reply]
        { s with service :=
          { inner := { s.service.inner with map := s.service.inner.map.erase header.key } } }
  | notFound {header : RmwRequestId} (response : Response) (now : Int64) (error : String)
      (missing : s.service.inner.map.lookup header.key = none) :
      Step codec s (.sendResponse header response now) [.notFound header error] s

theorem step_sound (stepped : s.step codec label = some (s', observed)) :
    Step codec s label observed s' := by
  cases label with
  | arrive attachment payload =>
      cases stepped
      exact .arrive attachment payload
  | takeRequest now =>
      simp only [State.step, takeRequest] at stepped
      split at stepped
      · cases stepped
        exact .empty now
      · next queued =>
          split at stepped
          · cases stepped
            exact .dropped now queued
          · next carried =>
              cases stepped
              exact .taken now queued carried
  | sendResponse header response now =>
      simp only [State.step, sendResponse, ZServer.sendResponse, ZServer.sendWith] at stepped
      split at stepped
      · next found =>
          cases stepped
          exact .replied response now _ found
      · next missing =>
          cases stepped
          exact .notFound response now _ missing

/-- What the condition says of the query at the head of the queue. -/
theorem Distinguishes.admits {query : Query} {queue : BoundedQueue Query} {bytes : List UInt8}
    {now : Int64} (meets : Distinguishes codec ⟨s, trace⟩ (.takeRequest now))
    (queued : s.service.inner.queue.tryRecv = some (query, queue))
    (carried : query.payload = some bytes) :
    s.service.inner.map.lookup (keyOf codec query) = none ∧
      (codec.deserialize bytes).isSome = true := by
  obtain ⟨id, attachment, payload⟩ := query
  obtain rfl : payload = some bytes := carried
  simpa only [Distinguishes, queued] using meets

theorem ledger_append (trace observed : List (Event Request)) :
    ledger (trace ++ observed) = ledger trace ++ ledger observed :=
  List.filterMap_append

/-- Nothing that was taken has been undecoded. -/
def Decoded (trace : List (Event Request)) : Prop :=
  ∀ report, .taken report ∈ trace → report.request.isSome = true

theorem recorded_step
    (recorded : ZServer.Recorded s.service.inner s.nextQuery (ledger trace))
    (meets : Distinguishes codec ⟨s, trace⟩ label) (step : Step codec s label observed s') :
    ZServer.Recorded s'.service.inner s'.nextQuery (ledger (trace ++ observed)) := by
  rw [ledger_append]
  cases step with
  | arrive attachment payload =>
      show ZServer.Recorded _ _ (ledger trace ++ [])
      rw [List.append_nil]
      exact recorded.arrive rfl
  | empty now =>
      show ZServer.Recorded _ _ (ledger trace ++ [])
      rw [List.append_nil]
      exact recorded
  | dropped now queued =>
      show ZServer.Recorded _ _ (ledger trace ++ [])
      rw [List.append_nil]
      exact recorded.dropped queued
  | taken now queued carried => exact recorded.opened queued (meets.admits queued carried).1
  | replied response now reply found => exact recorded.closed found
  | notFound response now error missing =>
      show ZServer.Recorded _ _ (ledger trace ++ [])
      rw [List.append_nil]
      exact recorded

theorem decoded_step (decoded : Decoded trace) (meets : Distinguishes codec ⟨s, trace⟩ label)
    (step : Step codec s label observed s') : Decoded (trace ++ observed) := by
  intro report seen
  rcases List.mem_append.mp seen with before | now
  · exact decoded report before
  · cases step with
    | taken now' queued carried =>
        obtain rfl := Event.taken.inj (List.mem_singleton.mp now)
        exact (meets.admits queued carried).2
    | _ => simp at now

/-- A request that waits is answered by the next response under its header. -/
theorem next_of_waits {depth : ℕ} {c : Config State (Event Request)} {header : RmwRequestId}
    {query : Query} (waits : c.state.service.inner.map.lookup header.key = some query)
    (response : Response) (now : Int64) :
    ∃ c' reply, (calls codec depth).next c (.sendResponse header response now) = some c' ∧
      c'.trace = c.trace ++ [.replied header query reply] := by
  refine ⟨⟨{ c.state with service :=
      { inner := { c.state.service.inner with
          map := c.state.service.inner.map.erase header.key } } },
    c.trace ++ [.replied header query
      ⟨⟨header.key.sn, now, header.key.gid⟩, codec.serialize response⟩]⟩, _, ?_, rfl⟩
  simp only [Machine.next, calls, State.step, sendResponse, ZServer.sendResponse,
    ZServer.sendWith, waits, Option.map_some]

/-- **No request is lost** in a run whose takes all meet the condition. -/
theorem keepsRequests_of_reachable (codec : Codec Request Response) (depth : ℕ)
    (c : Config State (Event Request))
    (reached : (calls codec depth).Reachable (Distinguishes codec) c) :
    KeepsRequests codec depth c := by
  obtain ⟨recorded, decoded⟩ :
      ZServer.Recorded c.state.service.inner c.state.nextQuery (ledger c.trace) ∧
        Decoded c.trace := by
    refine reached.invariant (P := fun c =>
      ZServer.Recorded c.state.service.inner c.state.nextQuery (ledger c.trace) ∧
        Decoded c.trace) ?_ ?_
    · exact ⟨.empty depth, by simp [Machine.start, Decoded]⟩
    · rintro c label c' ⟨recorded, decoded⟩ meets moved
      obtain ⟨observed, stepped, grown⟩ := Machine.next_eq_some moved
      rw [grown]
      exact ⟨recorded_step recorded meets (step_sound stepped),
        decoded_step decoded meets (step_sound stepped)⟩
  refine ⟨fun before key query after split => recorded.regular.free split, decoded, ?_,
    recorded.nodup_answers⟩
  intro report seen
  have opened : .opened report.header.requestId.key report.query ∈ ledger c.trace :=
    List.mem_filterMap.mpr ⟨_, seen, rfl⟩
  refine (recorded.regular.answered_or_waiting opened).imp_right fun waiting => ?_
  exact next_of_waits ((recorded.pending _).trans waiting)

/-- The map follows the ledger in every run. -/
theorem holds_of_reachable {depth : ℕ} {c : Config State (Event Request)}
    (reached : (calls codec depth).Reachable Machine.anyStep c) :
    Holds c.state.service.inner.map (ledger c.trace) := by
  refine reached.invariant
    (P := fun c => Holds c.state.service.inner.map (ledger c.trace)) holds_empty ?_
  intro c label c' holds _ moved
  obtain ⟨observed, stepped, grown⟩ := Machine.next_eq_some moved
  have step := step_sound stepped
  rw [grown, ledger_append]
  generalize c'.state = s' at step ⊢
  cases step with
  | arrive | empty | dropped | notFound =>
      exact (List.append_nil (ledger c.trace)).symm ▸ holds
  | taken now queued carried => exact holds.insert _ _
  | replied response now reply found => exact holds.erase _ _

/-- The condition is needed at every take: one against it breaks the promise at once. -/
theorem not_keepsRequests_of_take {depth : ℕ} {c c' : Config State (Event Request)} {now : Int64}
    (reached : (calls codec depth).Reachable Machine.anyStep c)
    (against : ¬ Distinguishes codec c (.takeRequest now))
    (moved : (calls codec depth).next c (.takeRequest now) = some c') :
    ¬ KeepsRequests codec depth c' := by
  intro keeps
  have holds := holds_of_reachable reached
  simp only [Distinguishes] at against
  split at against
  · next id attachment bytes queue queued =>
      obtain ⟨observed, stepped, grown⟩ := Machine.next_eq_some moved
      simp only [calls, State.step, takeRequest, queued, Option.some.injEq, Prod.mk.injEq]
        at stepped
      obtain ⟨-, rfl⟩ := stepped
      refine against ⟨?_, ?_⟩
      · rw [holds]
        refine keeps.kept _ _ ⟨id, attachment, some bytes⟩ [] ?_
        rw [grown, ledger_append]
        rfl
      · exact keeps.decoded _ (by rw [grown]; exact List.mem_append_right _ List.mem_cons_self)
  · exact against trivial

end Calls

/-- A service of raw bytes without empty messages, and the attachment of its first request. -/
def demoCodec : Codec (List UInt8) (List UInt8) :=
  { ZServer.demoCodec with deserialize := fun bytes => if bytes = [] then none else some bytes }

/-- What is reported of a first request. -/
def demoReport : Taken (List UInt8) where
  header := ⟨⟨ZServer.demoKey.gid, ZServer.demoKey.sn⟩, 0, 9⟩
  query := ⟨0, some ZServer.demoAttachment, some [5]⟩
  request := some [5]

/-- A request is taken and answered. -/
theorem keepsRequests_of_reachable_demo :
    ∃ c reply, (calls demoCodec 10).Reachable (Distinguishes demoCodec) c ∧
      c.trace = [.taken demoReport, .replied demoReport.header.requestId demoReport.query reply] ∧
      KeepsRequests demoCodec 10 c := by
  obtain ⟨c, reached, seen⟩ := Machine.exists_of_schedule (calls demoCodec 10)
    (Distinguishes demoCodec) [.arrive (some ZServer.demoAttachment) (some [5]), .takeRequest 9,
      .sendResponse demoReport.header.requestId [8] 7] Config.trace
    [.taken demoReport, .replied demoReport.header.requestId demoReport.query
      ⟨⟨1, 7, ZServer.demoKey.gid⟩, [8]⟩] (by decide +kernel)
  exact ⟨c, _, reached, seen, keepsRequests_of_reachable demoCodec 10 c reached⟩

/-- **A request without an attachment takes the place of another one.** -/
theorem takeRequest_replaces_pending :
    ¬ ∀ c, (calls demoCodec 10).Reachable Machine.anyStep c → KeepsRequests demoCodec 10 c := by
  intro always
  obtain ⟨c, reached, seen⟩ := Machine.exists_of_schedule (calls demoCodec 10) Machine.anyStep
    [.arrive none (some [5]), .arrive none (some [6]), .takeRequest 8, .takeRequest 9]
    (fun c => ledger c.trace) [.opened placeholder ⟨0, none, some [5]⟩,
      .opened placeholder ⟨1, none, some [6]⟩] (by decide +kernel)
  have free := (always c reached).kept [.opened placeholder ⟨0, none, some [5]⟩] placeholder
    ⟨1, none, some [6]⟩ [] seen
  exact absurd free (by decide +kernel)

end ServiceImpl

end RosZ.Rmw
