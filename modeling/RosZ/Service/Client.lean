import Mathlib.Data.List.Basic
import RosZ.Lib.Machine
import RosZ.Lib.PartialMap

/-!
# Service clients

A `ZClient` has one response channel.  `send_request` issues a query whose callback
puts each reply into the channel, and `take_response*` takes whatever is in the channel
next.  Clones of an action client share one such client for each of its services.

## Design notes

The machine has a family of clients, indexed by the service: `Unit` for one shared
`ZClient`, the three services of an action for an action client.  A call is a
`send_request` followed by a `take_response*` or a `recv_async` on the same channel.
The transport delivers each reply to the callback of the query it answers; a query may
be replied to more than once, late, or not at all.

A sample carries the number of the query it answers, as the attachment of a reply does.
The client does not look at it; here it serves to say what a call was given.
-/

namespace RosZ.Service

open Transition

abbrev QueryId := ℕ
abbrev CallId := ℕ

/-- A reply as it stands in a response channel. -/
structure Sample (Response : Type) where
  query : QueryId
  payload : Response

/-- The client's bounded response channel. -/
structure ZClient (Response : Type) where
  depth : ℕ
  rx : List (Sample Response)

/-- The callback of a query: `try_send`, which drops the sample when the channel is full,
unless a receiver is blocked on the channel. -/
def ZClient.trySend {Response : Type} (client : ZClient Response) (blocked : Bool)
    (sample : Sample Response) : ZClient Response :=
  if blocked || client.rx.length < client.depth then { client with rx := client.rx ++ [sample] }
  else client

/-- A call that has sent its request and waits for a response. -/
structure Call (κ : Type) where
  service : κ
  query : QueryId

structure ClientState (κ Response : Type) where
  clients : κ → ZClient Response
  calls : CallId → Option (Call κ)
  nextCall : CallId
  /-- The queries that may still be replied to, with the client that issued them. -/
  queries : QueryId → Option κ
  nextQuery : QueryId

inductive Label (κ Request Response : Type) where
  | send (service : κ) (request : Request)
  | reply (query : QueryId) (response : Response) (blocked : Bool)
  /-- The last reply has arrived, or the query has timed out. -/
  | close (query : QueryId)
  | recv (call : CallId)
  /-- The call times out, or its future is dropped. -/
  | giveUp (call : CallId)

inductive Event (κ Request Response : Type) where
  | sent (call : CallId) (service : κ) (query : QueryId) (request : Request)
  | answered (query : QueryId) (response : Response)
  /-- The call returns the payload of a sample that answers `query`. -/
  | returned (call : CallId) (query : QueryId) (response : Response)
deriving DecidableEq

/-! ## The steps -/

namespace ClientState

variable {κ Request Response : Type} [DecidableEq κ]

/-- `send_request`. -/
def send (s : ClientState κ Response) (service : κ) (request : Request) :
    ClientState κ Response × List (Event κ Request Response) :=
  ({ s with
      calls := Function.update s.calls s.nextCall (some ⟨service, s.nextQuery⟩)
      nextCall := s.nextCall + 1
      queries := Function.update s.queries s.nextQuery (some service)
      nextQuery := s.nextQuery + 1 },
    [.sent s.nextCall service s.nextQuery request])

/-- A reply reaches the callback of an open query. -/
def reply (s : ClientState κ Response) (query : QueryId) (response : Response) (blocked : Bool) :
    Option (ClientState κ Response × List (Event κ Request Response)) :=
  match s.queries query with
  | some service =>
      let client := (s.clients service).trySend blocked ⟨query, response⟩
      some ({ s with clients := Function.update s.clients service client },
        [.answered query response])
  | none => none

/-- `take_response*`: the next sample of the channel, whichever it is. -/
def recv (s : ClientState κ Response) (call : CallId) :
    Option (ClientState κ Response × List (Event κ Request Response)) :=
  match s.calls call with
  | some waiting =>
      match (s.clients waiting.service).rx with
      | sample :: rest =>
          let client := { s.clients waiting.service with rx := rest }
          some ({ s with
              clients := Function.update s.clients waiting.service client
              calls := Function.update s.calls call none },
            [.returned call sample.query sample.payload])
      | [] => none
  | none => none

def step (s : ClientState κ Response) : Label κ Request Response →
    Option (ClientState κ Response × List (Event κ Request Response))
  | .send service request => some (s.send service request)
  | .reply query response blocked => s.reply query response blocked
  | .close query => some ({ s with queries := Function.update s.queries query none }, [])
  | .recv call => s.recv call
  | .giveUp call => some ({ s with calls := Function.update s.calls call none }, [])

end ClientState

/-- The clients of a family of services, with the given channel depths. -/
def clients (κ Request Response : Type) [DecidableEq κ] (depth : κ → ℕ) :
    Machine (ClientState κ Response) (Label κ Request Response) (Event κ Request Response) where
  init :=
    { clients := fun service => ⟨depth service, []⟩
      calls := fun _ => none
      nextCall := 0
      queries := fun _ => none
      nextQuery := 0 }
  step := ClientState.step

/-! ## What a step can do -/

section Steps

variable {κ Request Response : Type} [DecidableEq κ] {s s' : ClientState κ Response}
  {label : Label κ Request Response} {observed : List (Event κ Request Response)}

/-- Everything a step can do. -/
inductive Step (s : ClientState κ Response) : Label κ Request Response →
    List (Event κ Request Response) → ClientState κ Response → Prop
  | send (service : κ) (request : Request) :
      Step s (.send service request) [.sent s.nextCall service s.nextQuery request]
        { s with
          calls := Function.update s.calls s.nextCall (some ⟨service, s.nextQuery⟩)
          nextCall := s.nextCall + 1
          queries := Function.update s.queries s.nextQuery (some service)
          nextQuery := s.nextQuery + 1 }
  | reply {query : QueryId} {service : κ} (response : Response) (blocked : Bool)
      (open_ : s.queries query = some service) :
      Step s (.reply query response blocked) [.answered query response]
        { s with
          clients := Function.update s.clients service
            ((s.clients service).trySend blocked ⟨query, response⟩) }
  | close (query : QueryId) :
      Step s (.close query) [] { s with queries := Function.update s.queries query none }
  | recv {call : CallId} {waiting : Call κ} {sample : Sample Response}
      {rest : List (Sample Response)} (waits : s.calls call = some waiting)
      (next : (s.clients waiting.service).rx = sample :: rest) :
      Step s (.recv call) [.returned call sample.query sample.payload]
        { s with
          clients := Function.update s.clients waiting.service
            { s.clients waiting.service with rx := rest }
          calls := Function.update s.calls call none }
  | giveUp (call : CallId) :
      Step s (.giveUp call) [] { s with calls := Function.update s.calls call none }

theorem step_sound (stepped : s.step label = some (s', observed)) : Step s label observed s' := by
  cases label with
  | send service request => cases stepped; exact .send service request
  | reply query response blocked =>
      simp only [ClientState.step, ClientState.reply] at stepped
      split at stepped
      · next open_ => cases stepped; exact .reply response blocked open_
      · cases stepped
  | close query => cases stepped; exact .close query
  | recv call =>
      simp only [ClientState.step, ClientState.recv] at stepped
      split at stepped
      · next waits =>
          split at stepped
          · next found => cases stepped; exact .recv waits found
          · cases stepped
      · cases stepped
  | giveUp call => cases stepped; exact .giveUp call

theorem mem_trySend {client : ZClient Response} {blocked : Bool} {sample new : Sample Response}
    (listed : sample ∈ (client.trySend blocked new).rx) : sample ∈ client.rx ∨ sample = new := by
  unfold ZClient.trySend at listed
  split at listed
  · simpa using listed
  · exact .inl listed

end Steps

/-! ## Responses and requests -/

section Runs

variable {κ Request Response : Type} [DecidableEq κ] {depth : κ → ℕ}
  {s s' : ClientState κ Response} {label : Label κ Request Response}
  {trace observed : List (Event κ Request Response)}
  {c : Config (ClientState κ Response) (Event κ Request Response)}

/-- What a call has returned is a reply to the query that the call itself has sent. -/
def OwnResponse (trace : List (Event κ Request Response)) : Prop :=
  ∀ call query response, .returned call query response ∈ trace →
    .answered query response ∈ trace ∧
      (∃ service request, .sent call service query request ∈ trace) ∧
      ∀ service query' request, .sent call service query' request ∈ trace → query' = query

/-- A request is sent only when, on its client, no call waits for a response, no earlier
query may still be replied to, and the response channel is empty. -/
def SendsAlone (c : Config (ClientState κ Response) (Event κ Request Response)) :
    Label κ Request Response → Prop
  | .send service _ =>
      (∀ call < c.state.nextCall, ∀ waiting ∈ c.state.calls call, waiting.service ≠ service) ∧
      (∀ query < c.state.nextQuery, c.state.queries query ≠ some service) ∧
      (c.state.clients service).rx = []
  | _ => True

instance : DecidableRel
    (SendsAlone : Config (ClientState κ Response) (Event κ Request Response) → _ → Prop) :=
  fun c label =>
    match label with
    | .send service _ => inferInstanceAs (Decidable
        ((∀ call < c.state.nextCall, ∀ waiting ∈ c.state.calls call, waiting.service ≠ service) ∧
          (∀ query < c.state.nextQuery, c.state.queries query ≠ some service) ∧
          (c.state.clients service).rx = []))
    | .reply .. | .close _ | .recv _ | .giveUp _ => inferInstanceAs (Decidable True)

/-- As long as requests are sent alone, everything a waiting call can be given is its own. -/
structure OwnInvariant (s : ClientState κ Response) (trace : List (Event κ Request Response)) :
    Prop where
  callsFresh : ∀ call, s.nextCall ≤ call → s.calls call = none
  queriesFresh : ∀ query, s.nextQuery ≤ query → s.queries query = none
  numbered : ∀ call service query request, .sent call service query request ∈ trace →
    call < s.nextCall
  sentOnce : ∀ call service query request service' query' request',
    .sent call service query request ∈ trace → .sent call service' query' request' ∈ trace →
      query = query'
  waiting : ∀ call service query, s.calls call = some ⟨service, query⟩ →
    ∃ request, .sent call service query request ∈ trace
  alone : ∀ call call' service query query', s.calls call = some ⟨service, query⟩ →
    s.calls call' = some ⟨service, query'⟩ → call = call'
  answered : ∀ service, ∀ sample ∈ (s.clients service).rx,
    .answered sample.query sample.payload ∈ trace
  channel : ∀ call service query, s.calls call = some ⟨service, query⟩ →
    ∀ sample ∈ (s.clients service).rx, sample.query = query
  pending : ∀ call service query, s.calls call = some ⟨service, query⟩ →
    ∀ query', s.queries query' = some service → query' = query
  own : OwnResponse trace

omit [DecidableEq κ] in
/-- Calls that give up and queries that close do not break the invariant. -/
theorem OwnInvariant.shrink (inv : OwnInvariant s trace)
    (clients : s'.clients = s.clients) (nextCall : s'.nextCall = s.nextCall)
    (nextQuery : s'.nextQuery = s.nextQuery)
    (calls : ∀ call waiting, s'.calls call = some waiting → s.calls call = some waiting)
    (queries : ∀ query service, s'.queries query = some service →
      s.queries query = some service) : OwnInvariant s' trace where
  callsFresh call unused := by
    rw [Option.eq_none_iff_forall_ne_some]
    intro waiting found
    cases (inv.callsFresh call (nextCall ▸ unused)).symm.trans (calls call waiting found)
  queriesFresh query unused := by
    rw [Option.eq_none_iff_forall_ne_some]
    intro service found
    cases (inv.queriesFresh query (nextQuery ▸ unused)).symm.trans (queries query service found)
  numbered := nextCall ▸ inv.numbered
  sentOnce := inv.sentOnce
  waiting call service query found := inv.waiting call service query (calls _ _ found)
  alone call call' service query query' found found' :=
    inv.alone call call' service query query' (calls _ _ found) (calls _ _ found')
  answered := clients ▸ inv.answered
  channel call service query found := clients ▸ inv.channel call service query (calls _ _ found)
  pending call service query found query' open_ :=
    inv.pending call service query (calls _ _ found) query' (queries _ _ open_)
  own := inv.own

omit [DecidableEq κ] in
/-- A call that returns is given a reply to its own query. -/
theorem OwnInvariant.ownResponse_recv (inv : OwnInvariant s trace) {call : CallId}
    {waiting : Call κ} {sample : Sample Response} (waits : s.calls call = some waiting)
    (listed : sample ∈ (s.clients waiting.service).rx) :
    OwnResponse (trace ++ [.returned call sample.query sample.payload]) := by
  intro call' query response returned
  have keep : ∀ {event : Event κ Request Response}, event ∈ trace →
      event ∈ trace ++ [.returned call sample.query sample.payload] := List.mem_append_left _
  rcases List.mem_append.mp returned with before | now
  · obtain ⟨answered, ⟨service, request, sent⟩, once⟩ := inv.own call' query response before
    refine ⟨keep answered, ⟨service, request, keep sent⟩, fun service' query' request' seen => ?_⟩
    exact once service' query' request' (by simpa using seen)
  · simp only [List.mem_singleton, Event.returned.injEq] at now
    obtain ⟨rfl, rfl, rfl⟩ := now
    have mine := inv.channel call' waiting.service waiting.query waits sample listed
    obtain ⟨request, sent⟩ := inv.waiting call' waiting.service waiting.query waits
    rw [← mine] at sent
    refine ⟨keep (inv.answered _ sample listed), ⟨_, request, keep sent⟩, ?_⟩
    intro service' query' request' seen
    exact inv.sentOnce call' service' query' request' _ _ request (by simpa using seen) sent

theorem OwnInvariant.recv (inv : OwnInvariant s trace) {call : CallId} {waiting : Call κ}
    {sample : Sample Response} {rest : List (Sample Response)}
    (waits : s.calls call = some waiting)
    (next : (s.clients waiting.service).rx = sample :: rest) :
    OwnInvariant
      { s with
        clients := Function.update s.clients waiting.service
          { s.clients waiting.service with rx := rest }
        calls := Function.update s.calls call none }
      (trace ++ [.returned call sample.query sample.payload]) := by
  -- What is left in a channel was there before.
  have left : ∀ service, ∀ other ∈ (Function.update s.clients waiting.service
      { s.clients waiting.service with rx := rest } service).rx,
      other ∈ (s.clients service).rx := by
    intro service other listed
    by_cases same : service = waiting.service
    · subst same
      rw [Function.update_self] at listed
      rw [next]
      exact List.mem_cons_of_mem _ listed
    · rwa [Function.update_of_ne same] at listed
  have keep : ∀ {event : Event κ Request Response}, event ∈ trace →
      event ∈ trace ++ [.returned call sample.query sample.payload] := List.mem_append_left _
  exact
    { callsFresh := PartialMap.unused_update inv.callsFresh waits none
      queriesFresh := inv.queriesFresh
      numbered := fun call' service query request sent =>
        inv.numbered call' service query request (by simpa using sent)
      sentOnce := fun call' service query request service' query' request' sent sent' =>
        inv.sentOnce call' service query request service' query' request' (by simpa using sent)
          (by simpa using sent')
      waiting := fun call' service query found =>
        (inv.waiting call' service query (PartialMap.of_update_none found)).imp fun _ => keep
      alone := fun call' call'' service query query' found found' =>
        inv.alone call' call'' service query query' (PartialMap.of_update_none found)
          (PartialMap.of_update_none found')
      answered := fun service other listed =>
        keep (inv.answered service other (left service other listed))
      channel := fun call' service query found other listed =>
        inv.channel call' service query (PartialMap.of_update_none found) other
          (left service other listed)
      pending := fun call' service query found =>
        inv.pending call' service query (PartialMap.of_update_none found)
      own := inv.ownResponse_recv waits (by rw [next]; exact List.mem_cons_self) }

theorem OwnInvariant.reply (inv : OwnInvariant s trace) {query : QueryId} {service : κ}
    {response : Response} {blocked : Bool} (open_ : s.queries query = some service) :
    OwnInvariant
      { s with
        clients := Function.update s.clients service
          ((s.clients service).trySend blocked ⟨query, response⟩) }
      (trace ++ [.answered query response]) := by
  have cases_ : ∀ service', ∀ sample ∈ (Function.update s.clients service
      ((s.clients service).trySend blocked ⟨query, response⟩) service').rx,
      sample ∈ (s.clients service').rx ∨ service' = service ∧ sample = ⟨query, response⟩ := by
    intro service' sample listed
    by_cases same : service' = service
    · subst same
      rw [Function.update_self] at listed
      exact (mem_trySend listed).imp_right fun new => ⟨rfl, new⟩
    · rw [Function.update_of_ne same] at listed
      exact .inl listed
  have keep : ∀ {event : Event κ Request Response}, event ∈ trace →
      event ∈ trace ++ [.answered query response] := List.mem_append_left _
  exact
    { callsFresh := inv.callsFresh
      queriesFresh := inv.queriesFresh
      numbered := fun call' service query request sent =>
        inv.numbered call' service query request (by simpa using sent)
      sentOnce := fun call' service query request service' query' request' sent sent' =>
        inv.sentOnce call' service query request service' query' request' (by simpa using sent)
          (by simpa using sent')
      waiting := fun call service query found => (inv.waiting call service query found).imp
        fun _ => keep
      alone := inv.alone
      answered := fun service' sample listed => by
        rcases cases_ service' sample listed with before | ⟨-, rfl⟩
        · exact keep (inv.answered service' sample before)
        · exact List.mem_append_right _ (List.mem_singleton_self _)
      channel := fun call service' query' found sample listed => by
        rcases cases_ service' sample listed with before | ⟨rfl, rfl⟩
        · exact inv.channel call service' query' found sample before
        · exact inv.pending call service' query' found query open_
      pending := inv.pending
      own := fun call query' response' returned => by
        obtain ⟨answered, ⟨service', request, sent⟩, once⟩ :=
          inv.own call query' response' (by simpa using returned)
        refine ⟨keep answered, ⟨service', request, keep sent⟩, fun _ _ _ seen => ?_⟩
        exact once _ _ _ (by simpa using seen) }

omit [DecidableEq κ] in
/-- A call is new when it sends its request. -/
theorem OwnInvariant.sent_cases (inv : OwnInvariant s trace) {call : CallId}
    {service service' : κ} {query query' : QueryId} {request request' : Request}
    (seen : .sent call service query request ∈
      trace ++ [.sent s.nextCall service' query' request']) :
    call < s.nextCall ∧ .sent call service query request ∈ trace ∨
      call = s.nextCall ∧ query = query' := by
  rcases List.mem_append.mp seen with before | now
  · exact .inl ⟨inv.numbered call service query request before, before⟩
  · simp only [List.mem_singleton, Event.sent.injEq] at now
    exact .inr ⟨now.1, now.2.2.1⟩

omit [DecidableEq κ] in
theorem OwnInvariant.send (inv : OwnInvariant s trace) {service : κ} {request : Request}
    (nobody : ∀ call < s.nextCall, ∀ waiting ∈ s.calls call, waiting.service ≠ service)
    (closed : ∀ query < s.nextQuery, s.queries query ≠ some service)
    (empty : (s.clients service).rx = []) :
    OwnInvariant
      { s with
        calls := Function.update s.calls s.nextCall (some ⟨service, s.nextQuery⟩)
        nextCall := s.nextCall + 1
        queries := Function.update s.queries s.nextQuery (some service)
        nextQuery := s.nextQuery + 1 }
      (trace ++ [.sent s.nextCall service s.nextQuery request]) := by
  have keep : ∀ {event : Event κ Request Response}, event ∈ trace →
      event ∈ trace ++ [.sent s.nextCall service s.nextQuery request] := List.mem_append_left _
  -- Whoever waits on this client is the new call, and what is pending is its query.
  have others : ∀ call waiting, s.calls call = some waiting → waiting.service ≠ service := by
    intro call waiting found
    exact nobody call (PartialMap.lt_of_found inv.callsFresh found) waiting found
  have pending : ∀ query, s.queries query ≠ some service := by
    intro query open_
    exact closed query (PartialMap.lt_of_found inv.queriesFresh open_) open_
  exact
    { callsFresh := PartialMap.unused_next inv.callsFresh _
      queriesFresh := PartialMap.unused_next inv.queriesFresh _
      numbered := fun call service' query request' seen => by
        rcases inv.sent_cases seen with ⟨old, -⟩ | ⟨rfl, -⟩
        · exact Nat.lt_succ_of_lt old
        · exact Nat.lt_succ_self _
      sentOnce := fun call _ query _ _ query' _ seen seen' => by
        rcases inv.sent_cases seen with ⟨old, before⟩ | ⟨new, rfl⟩ <;>
          rcases inv.sent_cases seen' with ⟨old', before'⟩ | ⟨new', rfl⟩
        · exact inv.sentOnce call _ query _ _ query' _ before before'
        · exact absurd new' (Nat.ne_of_lt old)
        · exact absurd new (Nat.ne_of_lt old')
        · rfl
      waiting := fun call service' query found => by
        rcases PartialMap.update_eq_some_iff.mp found with ⟨rfl, new⟩ | ⟨-, before⟩
        · cases new
          exact ⟨request, List.mem_append_right _ (List.mem_singleton_self _)⟩
        · exact (inv.waiting call service' query before).imp fun _ => keep
      alone := fun call call' service' query query' found found' => by
        rcases PartialMap.update_eq_some_iff.mp found with ⟨rfl, new⟩ | ⟨-, before⟩ <;>
          rcases PartialMap.update_eq_some_iff.mp found' with ⟨rfl, new'⟩ | ⟨-, before'⟩
        · rfl
        · cases new
          exact absurd rfl (others call' _ before')
        · cases new'
          exact absurd rfl (others call _ before)
        · exact inv.alone call call' service' query query' before before'
      answered := fun service' sample listed => keep (inv.answered service' sample listed)
      channel := fun call service' query found sample listed => by
        rcases PartialMap.update_eq_some_iff.mp found with ⟨rfl, new⟩ | ⟨-, before⟩
        · cases new
          rw [empty] at listed
          cases listed
        · exact inv.channel call service' query before sample listed
      pending := fun call service' query found query' open_ => by
        rcases PartialMap.update_eq_some_iff.mp found with ⟨rfl, new⟩ | ⟨-, before⟩ <;>
          rcases PartialMap.update_eq_some_iff.mp open_ with ⟨rfl, new'⟩ | ⟨-, before'⟩
        · cases new
          rfl
        · cases new
          exact absurd before' (pending query')
        · cases new'
          exact absurd rfl (others call _ before)
        · exact inv.pending call service' query before query' before'
      own := fun call query response returned => by
        obtain ⟨answered, ⟨service', request', sent⟩, once⟩ :=
          inv.own call query response (by simpa using returned)
        refine ⟨keep answered, ⟨service', request', keep sent⟩, fun _ query' _ seen => ?_⟩
        rcases inv.sent_cases seen with ⟨-, before⟩ | ⟨new, -⟩
        · exact once _ query' _ before
        · exact absurd new (Nat.ne_of_lt (inv.numbered call _ query _ sent)) }

/-- **One step keeps the invariant**, if it is not a request sent among others. -/
theorem Step.ownInvariant (step : Step s label observed s') (inv : OwnInvariant s trace)
    (sendsAlone : SendsAlone ⟨s, trace⟩ label) : OwnInvariant s' (trace ++ observed) := by
  cases step with
  | send service request =>
      obtain ⟨nobody, closed, empty⟩ := sendsAlone
      exact inv.send nobody closed empty
  | reply response blocked open_ => exact inv.reply open_
  | close query =>
      rw [List.append_nil]
      exact inv.shrink rfl rfl rfl (fun _ _ found => found) fun _ _ => PartialMap.of_update_none
  | recv waits next => exact inv.recv waits next
  | giveUp call =>
      rw [List.append_nil]
      exact inv.shrink rfl rfl rfl (fun _ _ => PartialMap.of_update_none) fun _ _ found => found

/-- **Responses go to their own request when requests are sent alone.** -/
theorem reachable_ownResponse
    (reached : (clients κ Request Response depth).Reachable SendsAlone c) :
    OwnResponse c.trace := by
  refine (reached.invariant (P := fun c => OwnInvariant c.state c.trace) ?_ ?_).own
  · exact
      { callsFresh := fun _ _ => rfl
        queriesFresh := fun _ _ => rfl
        numbered := nofun
        sentOnce := nofun
        waiting := nofun
        alone := nofun
        answered := nofun
        channel := nofun
        pending := nofun
        own := nofun }
  · intro c label c' inv sendsAlone moved
    obtain ⟨observed, stepped, grown⟩ := Machine.next_eq_some moved
    rw [grown]
    exact (step_sound stepped).ownInvariant inv sendsAlone

end Runs

end RosZ.Service
