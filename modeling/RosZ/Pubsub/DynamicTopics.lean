import RosZ.Dynamic.AutoSubscription
import RosZ.Lib.Lane
import RosZ.Qos
import RosZ.QueueBlocking

/-!
# Topics of dynamic messages

Nodes create publishers and subscriptions with schemas that are known at run time only, or that are
asked for at the nodes of the publishers, and messages go from the ones to the others by their topic
keys.  A subscription decodes what arrives with its own schema, and nothing in a sample says which
schema it was encoded with.

`received_exact` is what a subscription gets: from each publisher the messages that it published, in
order, each once at most, and every one of them is decoded to the values that were published.  Only
a best-effort publisher may lose messages on their way, and only a subscription with more messages
than its depth drops any.

## Design notes

* Numbers of endpoints are those of the counters of the contexts; they are part of the label here.
* An endpoint that is dropped is one that is not used again.
* Zenoh brings the samples of a publisher to a subscription in order.  A publisher of best effort
  drops samples when the network is congested (`CongestionControl::Drop`).
* Keys have no wildcards, so a subscription gets what is published under its own key.
* A dynamic message carries its schema.  The publisher does not compare it with its own, so this is
  left to the application (`Proper`).
-/

namespace RosZ.Pubsub.DynamicTopics

open Protocol Protocol.RmwZenoh RosZ.Dynamic Transition Lane

section Model

variable {ζ κ : Type}

structure NodeState (ζ : Type) where
  entity : NodeEntity ζ
  /-- The schemas of its type description service, if that is enabled. -/
  typeDescService : Option Schemas

/-- `ZPub<DynamicMessage, DynamicCdrSerdes>` -/
structure Publisher (ζ κ : Type) where
  entity : EndpointEntity ζ
  key : κ
  dynSchema : MessageSchema

/-- `ZSub<DynamicMessage, Sample, DynamicCdrSerdes>`, with the payloads in its queue -/
structure Subscription (ζ κ : Type) where
  entity : EndpointEntity ζ
  key : κ
  dynSchema : MessageSchema
  queue : BoundedQueue (List UInt8)

structure State (ζ κ : Type) where
  nodes : List (NodeState ζ)
  pubs : List (Publisher ζ κ)
  subs : List (Subscription ζ κ)
  /-- The session of a publisher knows of a subscription. -/
  connected : ℕ → ℕ → Bool
  /-- The payloads on their way from a publisher to a subscription. -/
  flight : ℕ → ℕ → List (List UInt8)

inductive Label (ζ : Type) where
  | createNode (entity : NodeEntity ζ) (described : Bool)
  | createDynPub (n : ℕ) (id : UInt64) (topic : String) (schema : MessageSchema)
      (qos : Qos.QosProfile)
  | createDynSub (n : ℕ) (id : UInt64) (topic : String) (schema : MessageSchema)
      (qos : Qos.QosProfile)
  /-- The graph lists some publishers, and for each that is asked in time a node of this name
  answers, or none. -/
  | createDynSubAuto (n : ℕ) (id : UInt64) (topic : String) (seen : List ℕ)
      (answers : List (Except String ℕ))
  | connect (p s : ℕ)
  | publish (p : ℕ) (msg : DynamicMessage)
  | deliver (p s : ℕ)
  /-- A sample on its way is dropped. -/
  | lose (p s i : ℕ)
  | tryRecv (s : ℕ)

inductive Event where
  | connected (p s : ℕ)
  | published (p : ℕ) (msg : DynamicMessage)
  | received (s : ℕ) (result : Except DynamicError DynamicMessage)

/-- How many samples the queue of a subscription holds. -/
def queueSize (qos : Protocol.QosProfile) : ℕ :=
  match qos.history with
  | .keepLast depth => depth.toNat
  | .keepAll => 2 ^ 64 - 1

namespace State

/-- The result of a step: the state after it and what is observed of it. -/
abbrev After (ζ κ : Type) : Type := State ζ κ × List Event

/-- The service of a node, if this is its name. -/
def serviceOf (s : State ζ κ) (n : ℕ) (node : NodeEntity ζ) : Option Schemas :=
  match s.nodes[n]? with
  | some there =>
      if there.entity.name = node.name ∧ there.entity.namespace' = node.namespace' then
        there.typeDescService
      else none
  | none => none

/-- What is got from the node of a listed publisher. -/
def ask (s : State ζ κ) (answers : List (Except String ℕ)) : Ask ζ :=
  fun place node request =>
    match answers.getD place (.error "not asked") with
    | .ok n =>
        match s.serviceOf n node with
        | some registered => .ok (buildResponse registered request)
        | none => .error (.deserializationError "no service")
    | .error text => .error (.deserializationError text)

/-- The publishers that the graph lists on a topic, as far as it knows of them. -/
def listed (s : State ζ κ) (topic : String) (seen : List ℕ) : List (Entity ζ) :=
  (seen.filterMap (s.pubs[·]?)).filterMap fun pub =>
    if pub.entity.topic = topic then some (.endpoint pub.entity) else none

/-- `create_dyn_pub` registers the schema, if the node has the service. -/
def register (calculateHash : CalculateHash) (s : State ζ κ) (n : ℕ) (schema : MessageSchema) :
    State ζ κ :=
  { s with
    nodes := s.nodes.modify n fun node =>
      { node with
        typeDescService := node.typeDescService.map (registerSchema calculateHash · schema) } }

variable [ZenohId ζ] [KeyExpr κ]

/-- The publisher of an endpoint, if this can be built. -/
def addPub (s : State ζ κ) (entity : EndpointEntity ζ) (schema : MessageSchema) : State ζ κ :=
  match Node.build (κ := κ) false entity with
  | .ok (built, key, _) => { s with pubs := s.pubs ++ [⟨built, key, schema⟩] }
  | .error _ => s

/-- The subscription of an endpoint, if this can be built. -/
def addSub (s : State ζ κ) (entity : EndpointEntity ζ) (schema : MessageSchema) : State ζ κ :=
  match Node.build (κ := κ) false entity with
  | .ok (built, key, _) =>
      { s with subs := s.subs ++ [⟨built, key, schema, .new (queueSize built.qos)⟩] }
  | .error _ => s

def setFlight (s : State ζ κ) (p sub : ℕ) (samples : List (List UInt8)) : State ζ κ :=
  { s with flight := fun p' sub' => if p' = p ∧ sub' = sub then samples else s.flight p' sub' }

/-- A sample goes to every subscription that the publisher is connected to. -/
def send (s : State ζ κ) (p : ℕ) (payload : List UInt8) : State ζ κ :=
  { s with
    flight := fun p' sub =>
      if p' = p ∧ s.connected p' sub = true then s.flight p' sub ++ [payload]
      else s.flight p' sub }

omit [ZenohId ζ] [KeyExpr κ] in
theorem flight_setFlight (s : State ζ κ) (p sub p' sub' : ℕ) (samples : List (List UInt8)) :
    (s.setFlight p sub samples).flight p' sub' =
      if p' = p ∧ sub' = sub then samples else s.flight p' sub' :=
  rfl

omit [ZenohId ζ] [KeyExpr κ] in
theorem flight_send (s : State ζ κ) (p p' sub : ℕ) (payload : List UInt8) :
    (s.send p payload).flight p' sub =
      if p' = p ∧ s.connected p' sub = true then s.flight p' sub ++ [payload]
      else s.flight p' sub :=
  rfl

variable [DecidableEq κ] (calculateHash : CalculateHash)

def step (s : State ζ κ) : Label ζ → Option (After ζ κ)
  | .createNode entity described =>
      some ({ s with
        nodes := s.nodes ++ [⟨entity, if described then some fun _ => none else none⟩] }, [])
  | .createDynPub n id topic schema qos =>
      (s.nodes[n]?).map fun node =>
        let entity := Node.createPubImpl node.entity id topic
          (some (typeInfoOf calculateHash schema))
        ((s.register calculateHash n schema).addPub
          (withDynSchema calculateHash { entity with qos := qos.toProtocolQos } schema) schema, [])
  | .createDynSub n id topic schema qos =>
      (s.nodes[n]?).map fun node =>
        let entity := Node.createSubImpl node.entity id topic
          (some (typeInfoOf calculateHash schema))
        (s.addSub
          (withDynSchema calculateHash { entity with qos := qos.toProtocolQos } schema) schema, [])
  | .createDynSubAuto n id topic seen answers =>
      (s.nodes[n]?).map fun node =>
        match createDynSubAuto calculateHash (s.ask answers) (fun _ => s.listed topic seen)
            answers.length node.entity id topic with
        | .ok (entity, schema) => (s.addSub entity schema, [])
        | .error _ => (s, [])
  | .connect p sub =>
      match s.pubs[p]?, s.subs[sub]? with
      | some pub, some there =>
          if pub.key = there.key then
            some ({ s with
              connected := fun p' sub' =>
                decide (p' = p ∧ sub' = sub) || s.connected p' sub' }, [.connected p sub])
          else none
      | _, _ => none
  | .publish p msg =>
      match s.pubs[p]?, serializeCdr msg with
      | some _, .ok payload => some (s.send p payload, [.published p msg])
      -- an encoder that fails is a panic
      | _, _ => none
  | .deliver p sub =>
      match s.flight p sub, s.subs[sub]? with
      | payload :: rest, some there =>
          some ({ s.setFlight p sub rest with
            subs := s.subs.set sub { there with queue := (there.queue.push payload).1 } }, [])
      | _, _ => none
  | .lose p sub i =>
      match s.pubs[p]? with
      | some pub =>
          if pub.entity.qos.reliability = .bestEffort then
            some (s.setFlight p sub ((s.flight p sub).eraseIdx i), [])
          else none
      | none => none
  | .tryRecv sub =>
      match s.subs[sub]? with
      | some there =>
          match there.queue.tryRecv with
          | some (payload, queue) =>
              some ({ s with subs := s.subs.set sub { there with queue } },
                [.received sub (deserializeCdr payload there.dynSchema)])
          | none => some (s, [])
      | none => none

end State

/-- Nodes, publishers and subscriptions of dynamic messages. -/
def topics [ZenohId ζ] [KeyExpr κ] [DecidableEq κ] (calculateHash : CalculateHash) :
    Machine (State ζ κ) (Label ζ) Event where
  init :=
    { nodes := [], pubs := [], subs := [], connected := fun _ _ => false, flight := fun _ _ => [] }
  step := State.step calculateHash

/-- Applications use schemas of these, and publish messages that conform to the schema of the
publisher. -/
def Proper (schemas : Set MessageSchema) (c : Config (State ζ κ) Event) : Label ζ → Prop
  | .createDynPub _ _ _ schema _ => schema ∈ schemas
  | .createDynSub _ _ _ schema _ => schema ∈ schemas
  | .publish p msg => msg.Conforming ∧
      ∀ pub, c.state.pubs[p]? = some pub → msg.schema.plain = pub.dynSchema.plain
  | _ => True

end Model

/-! ## What a trace says -/

def laneEvent : Event → Option (Lane.Event ℕ ℕ DynamicMessage)
  | .connected p s => some (.connect p s)
  | .published p msg => some (.send p msg)
  | .received _ _ => none

/-- The lane from a publisher to a subscription. -/
def route (trace : List Event) (p s : ℕ) : Route DynamicMessage :=
  routeOf (trace.filterMap laneEvent) p s

/-- What the calls of `try_recv` have returned. -/
def receivedBy (s : ℕ) (trace : List Event) : List (Except DynamicError DynamicMessage) :=
  trace.filterMap fun
    | .received s' result => if s' = s then some result else none
    | _ => none

/-- The payload of a message that is published. -/
def payload (msg : DynamicMessage) : List UInt8 := (serializeCdr msg).toOption.getD []

section Invariant

variable {ζ κ : Type}

def Reliable (s : State ζ κ) (p : ℕ) : Prop :=
  ∀ pub, s.pubs[p]? = some pub → pub.entity.qos.reliability = .reliable

/-- What has arrived at a subscription, and what has become of it. -/
structure Sink (s : State ζ κ) (trace : List Event) (i : ℕ) (sub : Subscription ζ κ)
    (h : KeepLast.History (ℕ × DynamicMessage)) : Prop where
  room : 0 < sub.queue.capacity
  size : sub.queue.capacity = queueSize sub.entity.qos
  data : sub.queue.data = (h.window sub.queue.capacity).map fun noted => payload noted.2
  whole : h.items.length ≤ sub.queue.capacity →
    h.delivered ++ h.window sub.queue.capacity = h.items
  results : receivedBy i trace =
    h.delivered.map fun noted => deserializeCdr (payload noted.2) sub.dynSchema
  lanes : ∀ p, ∃ waiting, s.flight p i = waiting.map payload ∧
    Carries (Reliable s p) (route trace p i).sent (arrivedFrom p h.items) waiting

variable {s s' : State ζ κ}
  {trace trace' : List Event} {i p : ℕ} {sub : Subscription ζ κ}
  {h : KeepLast.History (ℕ × DynamicMessage)}

/-! ### Traces -/

theorem route_snoc_received (result : Except DynamicError DynamicMessage) (j : ℕ) :
    route (trace ++ [.received j result]) p i = route trace p i := by
  unfold route
  rw [List.filterMap_append]
  exact congrArg (routeOf · p i) (List.append_nil _)

theorem route_snoc_connected (p' i' : ℕ) : route (trace ++ [.connected p' i']) p i =
    routeOf (trace.filterMap laneEvent ++ [.connect p' i']) p i := by
  unfold route
  rw [List.filterMap_append]
  rfl

theorem route_snoc_published (p' : ℕ) (msg : DynamicMessage) :
    route (trace ++ [.published p' msg]) p i =
      routeOf (trace.filterMap laneEvent ++ [.send p' msg]) p i := by
  unfold route
  rw [List.filterMap_append]
  rfl

/-- A connection changes nothing about what was sent. -/
theorem sent_snoc_connected (p' i' : ℕ) :
    (route (trace ++ [.connected p' i']) p i).sent = (route trace p i).sent := by
  rw [route_snoc_connected]
  by_cases here : p' = p ∧ i' = i
  · obtain ⟨rfl, rfl⟩ := here
    rw [routeOf_connect_self]
    rfl
  · rw [routeOf_connect_of_ne here]
    rfl

theorem receivedBy_snoc_connected (p' i' : ℕ) :
    receivedBy i (trace ++ [.connected p' i']) = receivedBy i trace := by
  simp [receivedBy]

theorem receivedBy_snoc_published (p' : ℕ) (msg : DynamicMessage) :
    receivedBy i (trace ++ [.published p' msg]) = receivedBy i trace := by
  simp [receivedBy]

theorem receivedBy_snoc_received (j : ℕ) (result : Except DynamicError DynamicMessage) :
    receivedBy i (trace ++ [.received j result]) =
      if j = i then receivedBy i trace ++ [result] else receivedBy i trace := by
  unfold receivedBy
  rw [List.filterMap_append]
  split_ifs with same
  · simp [same]
  · simp [same]

theorem payload_eq {msg : DynamicMessage} {octets : List UInt8}
    (encoded : serializeCdr msg = .ok octets) : payload msg = octets := by
  rw [payload, encoded]
  rfl

/-! ### Sinks -/

/-- A step that does not concern a subscription. -/
theorem Sink.frame (sink : Sink s trace i sub h)
    (flight : ∀ p, s'.flight p i = s.flight p i)
    (sent : ∀ p, (route trace' p i).sent = (route trace p i).sent)
    (received : receivedBy i trace' = receivedBy i trace)
    (reliable : ∀ p, Reliable s' p → Reliable s p) : Sink s' trace' i sub h where
  room := sink.room
  size := sink.size
  data := sink.data
  whole := sink.whole
  results := received.trans sink.results
  lanes p := by
    obtain ⟨waiting, onTheWay, carries⟩ := sink.lanes p
    rw [flight, sent]
    exact ⟨waiting, onTheWay, carries.mono (reliable p)⟩

/-- A new subscription. -/
theorem sink_new (room : 0 < sub.queue.capacity)
    (size : sub.queue.capacity = queueSize sub.entity.qos) (empty : sub.queue.data = [])
    (silent : receivedBy i trace = []) (flight : ∀ p, s.flight p i = [])
    (sent : ∀ p, (route trace p i).sent = []) : Sink s trace i sub .empty where
  room := room
  size := size
  data := by
    rw [empty, show (KeepLast.History.empty (α := ℕ × DynamicMessage)).window _ = [] from
      List.rtake_nil _]
    rfl
  whole _ := List.rtake_nil _
  results := silent
  lanes p := ⟨[], flight p, by
    rw [sent]
    exact .nil⟩

/-- The first sample of a publisher arrives. -/
theorem Sink.deliver {octets : List UInt8} {rest : List (List UInt8)}
    (sink : Sink s trace i sub h) (onTheWay : s.flight p i = octets :: rest)
    (after : ∀ p', s'.flight p' i = if p' = p then rest else s.flight p' i)
    (reliable : ∀ p, Reliable s' p → Reliable s p) :
    ∃ h', Sink s' trace i { sub with queue := (sub.queue.push octets).1 } h' := by
  obtain ⟨waiting, mapped, carries⟩ := sink.lanes p
  rw [onTheWay] at mapped
  obtain ⟨msg, waiting, rfl, rfl, rfl⟩ := List.map_eq_cons_iff.mp mapped.symm
  have capacity := sub.queue.capacity_push (payload msg)
  refine ⟨h.record (p, msg), ?_, capacity.trans sink.size, ?_, ?_, ?_, fun p' => ?_⟩
  · dsimp only
    rw [capacity]
    exact sink.room
  · dsimp only
    rw [capacity, BoundedQueue.Blocking.push_data_eq, KeepLast.History.window_record sink.room,
      sink.data, List.map_append, List.length_map]
    split_ifs
    · rw [List.map_tail]
      rfl
    · rfl
  · dsimp only
    rw [capacity]
    intro short
    have shorter : h.items.length < sub.queue.capacity := by
      rw [KeepLast.History.record, List.length_append] at short
      exact short
    have before := sink.whole shorter.le
    have notFull : ¬ sub.queue.capacity ≤ (h.window sub.queue.capacity).length := by
      have length := congrArg List.length before
      rw [List.length_append] at length
      omega
    rw [KeepLast.History.window_record sink.room, if_neg notFull,
      KeepLast.History.delivered_record, ← List.append_assoc, before]
    rfl
  · rw [KeepLast.History.delivered_record]
    exact sink.results
  · rw [after]
    by_cases same : p' = p
    · subst same
      rw [if_pos rfl]
      refine ⟨waiting, rfl, ?_⟩
      show Carries _ _ (arrivedFrom p' (h.items ++ [(p', msg)])) _
      rw [arrivedFrom_snoc_self]
      exact carries.arrive.mono (reliable p')
    · rw [if_neg same]
      obtain ⟨others, mapped, carries⟩ := sink.lanes p'
      refine ⟨others, mapped, ?_⟩
      show Carries _ _ (arrivedFrom p' (h.items ++ [(p, msg)])) _
      rw [arrivedFrom_snoc_of_ne (Ne.symm same)]
      exact carries.mono (reliable p')

/-- The oldest sample is taken from the queue. -/
theorem Sink.tryRecv {octets : List UInt8} {queue : BoundedQueue (List UInt8)}
    (sink : Sink s trace i sub h) (taken : sub.queue.tryRecv = some (octets, queue))
    (flight : ∀ p, s'.flight p i = s.flight p i)
    (reliable : ∀ p, Reliable s' p → Reliable s p) :
    ∃ h', Sink s' (trace ++ [.received i (deserializeCdr octets sub.dynSchema)]) i
      { sub with queue } h' := by
  have shape := BoundedQueue.tryRecv_eq_some taken
  have capacity := BoundedQueue.capacity_of_tryRecv taken
  rw [sink.data] at shape
  obtain ⟨noted, rest, window, rfl, left⟩ := List.map_eq_cons_iff.mp shape
  obtain ⟨h', items, delivered, window'⟩ := KeepLast.History.exists_take window
  refine ⟨h', ?_, capacity.trans sink.size, ?_, ?_, ?_, fun p => ?_⟩
  · dsimp only
    rw [capacity]
    exact sink.room
  · dsimp only
    rw [capacity, window', left]
  · dsimp only
    rw [capacity, items, delivered, window', List.append_assoc]
    intro short
    have before := sink.whole short
    rwa [window] at before
  · rw [receivedBy_snoc_received, if_pos rfl, sink.results, delivered, List.map_append]
    rfl
  · obtain ⟨waiting, mapped, carries⟩ := sink.lanes p
    rw [flight, route_snoc_received, items]
    exact ⟨waiting, mapped, carries.mono (reliable p)⟩

/-! ### States -/

section States

variable [KeyExpr κ] {calculateHash : CalculateHash} {schemas : Set MessageSchema}

/-- What is known of the endpoints, the lanes between them and the subscriptions. -/
structure Inv (calculateHash : CalculateHash) (schemas : Set MessageSchema) (s : State ζ κ)
    (trace : List Event) : Prop where
  nodes : ∀ node ∈ s.nodes, ∀ registered, node.typeDescService = some registered →
    Registers calculateHash schemas registered
  pubs : ∀ pub ∈ s.pubs, pub.dynSchema ∈ schemas ∧
    pub.entity.typeInfo = some (typeInfoOf calculateHash pub.dynSchema) ∧
      topicKeyExpr false pub.entity = some pub.key
  subs : ∀ sub ∈ s.subs, ∃ schema ∈ schemas,
    sub.entity.typeInfo = some (typeInfoOf calculateHash schema) ∧
      sub.dynSchema.plain = schema.plain ∧ topicKeyExpr false sub.entity = some sub.key
  wired : ∀ p i, (route trace p i).connected = s.connected p i
  keyed : ∀ p i, s.connected p i = true →
    ∃ pub sub, s.pubs[p]? = some pub ∧ s.subs[i]? = some sub ∧ pub.key = sub.key
  proper : ∀ p i, ∀ msg ∈ (route trace p i).sent, msg.Conforming ∧
    ∃ pub, s.pubs[p]? = some pub ∧ msg.schema.plain = pub.dynSchema.plain
  idle : ∀ p i, s.connected p i = false → s.flight p i = []
  silent : ∀ i, s.subs[i]? = none → receivedBy i trace = []
  sinks : ∀ i sub, s.subs[i]? = some sub → ∃ h, Sink s trace i sub h

omit [KeyExpr κ] in
theorem getElem?_concat_cases {α : Type} {l : List α} {a b : α} {n : ℕ}
    (found : (l ++ [a])[n]? = some b) : l[n]? = some b ∨ n = l.length ∧ a = b := by
  rcases Nat.lt_or_ge n l.length with inside | behind
  · rw [List.getElem?_append_left inside] at found
    exact .inl found
  · rw [List.getElem?_append_right behind] at found
    obtain ⟨bound, rfl⟩ := List.getElem?_eq_some_iff.mp found
    rw [List.length_singleton] at bound
    exact .inr ⟨by omega, by simp⟩

theorem getElem?_concat_of_some {α : Type} {l : List α} {a b : α} {n : ℕ}
    (found : l[n]? = some b) : (l ++ [a])[n]? = some b := by
  rw [List.getElem?_append_left (List.getElem?_eq_some_iff.mp found).1, found]

namespace Inv

theorem init : Inv (κ := κ) (ζ := ζ) calculateHash schemas
    { nodes := [], pubs := [], subs := [], connected := fun _ _ => false,
      flight := fun _ _ => [] } [] where
  nodes := nofun
  pubs := nofun
  subs := nofun
  wired _ _ := rfl
  keyed := nofun
  proper := nofun
  idle _ _ _ := rfl
  silent _ _ := rfl
  sinks := nofun

theorem withNodes (inv : Inv calculateHash schemas s trace) (nodes : List (NodeState ζ))
    (registers : ∀ node ∈ nodes, ∀ registered, node.typeDescService = some registered →
      Registers calculateHash schemas registered) :
    Inv calculateHash schemas { s with nodes } trace :=
  { inv with
    nodes := registers
    sinks := fun i sub found =>
      let ⟨h, sink⟩ := inv.sinks i sub found
      ⟨h, sink.frame (fun _ => rfl) (fun _ => rfl) rfl fun _ reliable => reliable⟩ }

theorem register (inv : Inv calculateHash schemas s trace) {schema : MessageSchema}
    (among : schema ∈ schemas) (n : ℕ) :
    Inv calculateHash schemas (s.register calculateHash n schema) trace := by
  refine inv.withNodes _ fun node member registered enabled => ?_
  obtain ⟨j, listed⟩ := List.mem_iff_getElem?.mp member
  rw [List.getElem?_modify] at listed
  obtain ⟨old, found, rfl⟩ := Option.map_eq_some_iff.mp listed
  have before := inv.nodes old (List.mem_of_getElem? found)
  split_ifs at enabled
  · obtain ⟨service, known, rfl⟩ := Option.map_eq_some_iff.mp enabled
    exact (before service known).registerSchema among
  · exact before registered enabled

/-- No lane leads to a subscription that is not there. -/
theorem not_connected (inv : Inv calculateHash schemas s trace) (none : s.subs[i]? = none) :
    s.connected p i = false := by
  rw [← Bool.not_eq_true]
  intro connected
  obtain ⟨-, sub, -, found, -⟩ := inv.keyed p i connected
  rw [none] at found
  cases found

theorem connect (inv : Inv calculateHash schemas s trace) {p' i' : ℕ} {pub : Publisher ζ κ}
    {there : Subscription ζ κ} (found : s.pubs[p']? = some pub) (found' : s.subs[i']? = some there)
    (same : pub.key = there.key) :
    Inv calculateHash schemas
      { s with
        connected := fun p i => decide (p = p' ∧ i = i') || s.connected p i }
      (trace ++ [.connected p' i']) :=
  { inv with
    wired := fun p i => by
      rw [route_snoc_connected]
      by_cases here : p' = p ∧ i' = i
      · obtain ⟨rfl, rfl⟩ := here
        rw [routeOf_connect_self]
        simp
      · rw [routeOf_connect_of_ne here]
        have other : ¬ (p = p' ∧ i = i') := fun same => here ⟨same.1.symm, same.2.symm⟩
        show (route trace p i).connected = _
        simpa [other] using inv.wired p i
    keyed := fun p i connected => by
      rcases Bool.or_eq_true_iff.mp connected with new | old
      · obtain ⟨rfl, rfl⟩ := of_decide_eq_true new
        exact ⟨pub, there, found, found', same⟩
      · exact inv.keyed p i old
    proper := fun p i msg member => by
      rw [sent_snoc_connected] at member
      exact inv.proper p i msg member
    idle := fun p i none => inv.idle p i (Bool.or_eq_false_iff.mp none).2
    silent := fun i none => (receivedBy_snoc_connected _ _).trans (inv.silent i none)
    sinks := fun i sub listed =>
      let ⟨h, sink⟩ := inv.sinks i sub listed
      ⟨h, sink.frame (fun _ => rfl) (fun _ => sent_snoc_connected _ _)
        (receivedBy_snoc_connected _ _) fun _ reliable => reliable⟩ }

theorem publish (inv : Inv calculateHash schemas s trace) {p' : ℕ} {pub : Publisher ζ κ}
    (found : s.pubs[p']? = some pub) {msg : DynamicMessage} (conforms : msg.Conforming)
    (same : msg.schema.plain = pub.dynSchema.plain) :
    Inv calculateHash schemas (s.send p' (payload msg)) (trace ++ [.published p' msg]) := by
  -- the message is sent on the lanes that the publisher has
  have sent : ∀ p i, route (trace ++ [.published p' msg]) p i =
      if p = p' ∧ s.connected p i = true then
        { route trace p i with sent := (route trace p i).sent ++ [msg] }
      else route trace p i := by
    intro p i
    rw [route_snoc_published, ← inv.wired p i]
    split_ifs with here
    · obtain ⟨rfl, connected⟩ := here
      exact routeOf_send_self connected
    · exact routeOf_send_of_ne fun there => here ⟨there.1.symm, there.2⟩
  exact
    { inv with
      wired := fun p i => by
        rw [sent]
        split_ifs
        · exact inv.wired p i
        · exact inv.wired p i
      proper := fun p i msg' member => by
        rw [sent] at member
        split_ifs at member with here
        · obtain ⟨rfl, -⟩ := here
          rcases List.mem_append.mp member with old | new
          · exact inv.proper _ i msg' old
          · rw [List.mem_singleton.mp new]
            exact ⟨conforms, pub, found, same⟩
        · exact inv.proper p i msg' member
      idle := fun p i none => by
        have off : ¬ s.connected p i = true := Bool.eq_false_iff.mp none
        rw [State.flight_send, if_neg fun here => off here.2]
        exact inv.idle p i none
      silent := fun i none => (receivedBy_snoc_published _ _).trans (inv.silent i none)
      sinks := fun i sub listed => by
        obtain ⟨h, sink⟩ := inv.sinks i sub listed
        refine ⟨h, { sink with
          results := (receivedBy_snoc_published _ _).trans sink.results
          lanes := fun p => ?_ }⟩
        obtain ⟨waiting, onTheWay, carries⟩ := sink.lanes p
        rw [sent, State.flight_send]
        split_ifs
        · exact ⟨waiting ++ [msg], by rw [onTheWay, List.map_append]; rfl, carries.send⟩
        · exact ⟨waiting, onTheWay, carries⟩ }

/-- A step that concerns one subscription. -/
theorem setSub (inv : Inv calculateHash schemas s trace) {i : ℕ} {there : Subscription ζ κ}
    (there' : Subscription ζ κ) (flight : ℕ → ℕ → List (List UInt8))
    (found : s.subs[i]? = some there) (entity : there'.entity = there.entity)
    (key : there'.key = there.key) (dynSchema : there'.dynSchema = there.dynSchema)
    (others : ∀ p j, j ≠ i → flight p j = s.flight p j)
    (idle : ∀ p, s.connected p i = false → flight p i = [])
    (sent : ∀ p j, route trace' p j = route trace p j)
    (received : ∀ j, j ≠ i → receivedBy j trace' = receivedBy j trace)
    (sink : ∃ h, Sink { s with flight, subs := s.subs.set i there' } trace' i there' h) :
    Inv calculateHash schemas { s with flight, subs := s.subs.set i there' } trace' := by
  have lookup : ∀ j, (s.subs.set i there')[j]? =
      if j = i then some there' else s.subs[j]? := by
    intro j
    obtain ⟨bound, -⟩ := List.getElem?_eq_some_iff.mp found
    rw [List.getElem?_set]
    by_cases same : j = i
    · rw [if_pos same, if_pos same.symm, if_pos (same ▸ bound)]
    · rw [if_neg same, if_neg (Ne.symm same)]
  exact
    { inv with
      subs := fun sub member => by
        rcases List.mem_or_eq_of_mem_set member with old | rfl
        · exact inv.subs sub old
        · rw [entity, key, dynSchema]
          exact inv.subs there (List.mem_of_getElem? found)
      wired := fun p j => by
        rw [sent]
        exact inv.wired p j
      keyed := fun p j connected => by
        obtain ⟨pub, sub, listed, listed', same⟩ := inv.keyed p j connected
        by_cases here : j = i
        · subst here
          rw [found] at listed'
          obtain rfl := Option.some.inj listed'
          exact ⟨pub, there', listed, (lookup j).trans (if_pos rfl), same.trans key.symm⟩
        · exact ⟨pub, sub, listed, ((lookup j).trans (if_neg here)).trans listed', same⟩
      proper := fun p j msg member => by
        rw [sent] at member
        exact inv.proper p j msg member
      idle := fun p j none => by
        by_cases here : j = i
        · subst here
          exact idle p none
        · exact (others p j here).trans (inv.idle p j none)
      silent := fun j none => by
        rw [lookup] at none
        split_ifs at none with here
        exact (received j here).trans (inv.silent j none)
      sinks := fun j sub listed => by
        rw [lookup] at listed
        split_ifs at listed with here
        · subst here
          obtain rfl := Option.some.inj listed
          exact sink
        · obtain ⟨h, sink⟩ := inv.sinks j sub listed
          exact ⟨h, sink.frame (fun p => others p j here) (fun p => by rw [sent])
            (received j here) fun _ reliable => reliable⟩ }

theorem deliver (inv : Inv calculateHash schemas s trace) {p' i : ℕ} {octets : List UInt8}
    {rest : List (List UInt8)} {there : Subscription ζ κ}
    (onTheWay : s.flight p' i = octets :: rest) (found : s.subs[i]? = some there) :
    Inv calculateHash schemas
      { s.setFlight p' i rest with
        subs := s.subs.set i { there with queue := (there.queue.push octets).1 } } trace := by
  obtain ⟨h, sink⟩ := inv.sinks i there found
  refine inv.setSub { there with queue := (there.queue.push octets).1 }
    (s.setFlight p' i rest).flight found rfl rfl rfl (fun p j other => ?_)
    (fun p none => ?_) (fun _ _ => rfl) (fun _ _ => rfl)
    (sink.deliver onTheWay (fun p => ?_) fun _ reliable => reliable)
  · rw [State.flight_setFlight, if_neg fun here => other here.2]
  · have idle := inv.idle p i none
    rw [State.flight_setFlight, if_neg]
    · exact idle
    · rintro ⟨rfl, -⟩
      rw [onTheWay] at idle
      cases idle
  · show (s.setFlight p' i rest).flight p i = _
    rw [State.flight_setFlight]
    simp

theorem lose (inv : Inv calculateHash schemas s trace) {p' i k : ℕ} {pub : Publisher ζ κ}
    (found : s.pubs[p']? = some pub) (lossy : pub.entity.qos.reliability = .bestEffort) :
    Inv calculateHash schemas (s.setFlight p' i ((s.flight p' i).eraseIdx k)) trace :=
  { inv with
    idle := fun p j none => by
      have idle := inv.idle p j none
      rw [State.flight_setFlight]
      split_ifs with here
      · obtain ⟨rfl, rfl⟩ := here
        rw [idle]
        rfl
      · exact idle
    sinks := fun j sub listed => by
      obtain ⟨h, sink⟩ := inv.sinks j sub listed
      refine ⟨h, { sink with lanes := fun p => ?_ }⟩
      obtain ⟨waiting, onTheWay, carries⟩ := sink.lanes p
      rw [State.flight_setFlight]
      split_ifs with here
      · obtain ⟨rfl, rfl⟩ := here
        refine ⟨waiting.eraseIdx k, ?_, carries.lose (fun reliable => ?_) k⟩
        · rw [onTheWay, List.eraseIdx_map]
        · exact absurd (lossy.symm.trans (reliable pub found)) nofun
      · exact ⟨waiting, onTheWay, carries⟩ }

theorem tryRecv (inv : Inv calculateHash schemas s trace) {i : ℕ} {octets : List UInt8}
    {queue : BoundedQueue (List UInt8)} {there : Subscription ζ κ} (found : s.subs[i]? = some there)
    (taken : there.queue.tryRecv = some (octets, queue)) :
    Inv calculateHash schemas { s with subs := s.subs.set i { there with queue } }
      (trace ++ [.received i (deserializeCdr octets there.dynSchema)]) := by
  obtain ⟨h, sink⟩ := inv.sinks i there found
  refine inv.setSub { there with queue } s.flight found rfl rfl rfl
    (fun _ _ _ => rfl)
    (fun p none => inv.idle p i none) (fun _ _ => route_snoc_received _ _) (fun j other => ?_)
    (sink.tryRecv taken (fun _ => rfl) fun _ reliable => reliable)
  rw [receivedBy_snoc_received, if_neg (Ne.symm other)]

variable [ZenohId ζ]

theorem addPub (inv : Inv calculateHash schemas s trace) {entity : EndpointEntity ζ}
    {schema : MessageSchema} (among : schema ∈ schemas)
    (typed : entity.typeInfo = some (typeInfoOf calculateHash schema)) :
    Inv calculateHash schemas (s.addPub entity schema) trace := by
  unfold State.addPub
  split
  case h_2 => exact inv
  case h_1 built key lvKe done =>
    obtain ⟨qualified, -, rfl, made, -⟩ := Node.build_eq_ok done
    exact
      { inv with
        pubs := fun pub member => by
          rcases List.mem_append.mp member with old | new
          · exact inv.pubs pub old
          · rw [List.mem_singleton.mp new]
            exact ⟨among, typed, made⟩
        keyed := fun p i connected =>
          let ⟨pub, sub, found, there, same⟩ := inv.keyed p i connected
          ⟨pub, sub, getElem?_concat_of_some found, there, same⟩
        proper := fun p i msg member =>
          let ⟨conforms, pub, found, same⟩ := inv.proper p i msg member
          ⟨conforms, pub, getElem?_concat_of_some found, same⟩
        sinks := fun i sub found =>
          let ⟨h, sink⟩ := inv.sinks i sub found
          ⟨h, sink.frame (fun _ => rfl) (fun _ => rfl) rfl fun _ reliable pub listed =>
            reliable pub (getElem?_concat_of_some listed)⟩ }

theorem addSub (inv : Inv calculateHash schemas s trace) {entity : EndpointEntity ζ}
    {schema known : MessageSchema} (among : known ∈ schemas)
    (typed : entity.typeInfo = some (typeInfoOf calculateHash known))
    (same : schema.plain = known.plain) (room : 0 < queueSize entity.qos) :
    Inv calculateHash schemas (s.addSub entity schema) trace := by
  unfold State.addSub
  split
  case h_2 => exact inv
  case h_1 built key lvKe done =>
    obtain ⟨qualified, -, rfl, made, -⟩ := Node.build_eq_ok done
    exact
      { inv with
        subs := fun sub member => by
          rcases List.mem_append.mp member with old | new
          · exact inv.subs sub old
          · rw [List.mem_singleton.mp new]
            exact ⟨known, among, typed, same, made⟩
        keyed := fun p i connected =>
          let ⟨pub, sub, found, there, same⟩ := inv.keyed p i connected
          ⟨pub, sub, found, getElem?_concat_of_some there, same⟩
        silent := fun i none => inv.silent i (by
          rw [List.getElem?_eq_none_iff] at none ⊢
          rw [List.length_append] at none
          omega)
        sinks := fun i sub found => by
          rcases getElem?_concat_cases found with old | ⟨rfl, rfl⟩
          · obtain ⟨h, sink⟩ := inv.sinks i sub old
            exact ⟨h, sink.frame (fun _ => rfl) (fun _ => rfl) rfl fun _ reliable => reliable⟩
          · have none : s.subs[s.subs.length]? = none := List.getElem?_eq_none (Nat.le_refl _)
            refine ⟨.empty, sink_new room rfl rfl (inv.silent _ none)
              (fun p => inv.idle p _ (inv.not_connected none)) fun p => ?_⟩
            exact sent_of_not_connected ((inv.wired p _).trans (inv.not_connected none)) }

end Inv

/-- A node that answers has registered schemas of these. -/
theorem Inv.honest_ask (inv : Inv calculateHash schemas s trace)
    {answers : List (Except String ℕ)} {place : ℕ} {node : NodeEntity ζ}
    {request : GetTypeDescriptionRequest} {response : GetTypeDescriptionResponse}
    (asked : s.ask answers place node request = .ok response) :
    ∃ registered, Registers calculateHash schemas registered ∧
      response = buildResponse registered request := by
  unfold State.ask at asked
  split at asked
  case h_2 => cases asked
  case h_1 n _ =>
    split at asked
    case h_2 => cases asked
    case h_1 registered enabled =>
      cases asked
      unfold State.serviceOf at enabled
      split at enabled
      case h_2 => cases enabled
      case h_1 there found =>
        split_ifs at enabled
        exact ⟨registered, inv.nodes there (List.mem_of_getElem? found) registered enabled, rfl⟩

theorem publishersSeen_const (listed : List (Entity ζ)) :
    publishersSeen (fun _ => listed) = listed := by
  cases listed with
  | nil => rfl
  | cons first rest => rfl

omit [KeyExpr κ] in
/-- What is listed are publishers. -/
theorem mem_listed {topic : String} {seen : List ℕ} {e : Entity ζ}
    (member : e ∈ s.listed topic seen) : ∃ pub ∈ s.pubs, e = .endpoint pub.entity := by
  obtain ⟨pub, found, same⟩ := List.mem_filterMap.mp member
  obtain ⟨p, -, there⟩ := List.mem_filterMap.mp found
  split_ifs at same
  exact ⟨pub, List.mem_of_getElem? there, (Option.some.inj same).symm⟩

end States

/-! ### Runs -/

section Runs

variable [ZenohId ζ] [KeyExpr κ] [DecidableEq κ] {ε : Type}
  {toString : Json.Value → Except ε String} {sha256 : List UInt8 → Vector UInt8 32}
  {schemas : Set MessageSchema}

omit [DecidableEq κ] in
/-- A subscription to a topic of unknown type. -/
theorem Inv.createDynSubAuto (suited : Suited toString sha256 schemas)
    (inv : Inv (digest toString sha256) schemas s trace) {node : NodeEntity ζ} {id : UInt64}
    {topic : String} {seen : List ℕ} {answers : List (Except String ℕ)}
    {entity : EndpointEntity ζ} {schema : MessageSchema}
    (made : Dynamic.createDynSubAuto (digest toString sha256) (s.ask answers)
      (fun _ => s.listed topic seen) answers.length node id topic = .ok (entity, schema)) :
    Inv (digest toString sha256) schemas (s.addSub entity schema) trace := by
  cases listing : s.listed topic seen with
  | nil =>
      rw [listing] at made
      cases made
  | cons first rest =>
      obtain ⟨pub, among, rfl⟩ := mem_listed (listing ▸ List.mem_cons_self)
      obtain ⟨known, typed, -⟩ := inv.pubs pub among
      obtain ⟨found, lost⟩ := createDynSubAuto_spec suited
        (fun _ _ _ _ asked => inv.honest_ask asked)
        ((publishersSeen_const (s.listed topic seen)).trans listing) known typed answers.length node
        id topic
      by_cases answered : Answered (s.ask answers)
          (requestFor (typeInfoOf (digest toString sha256) pub.dynSchema)) answers.length 0
          (.endpoint pub.entity :: rest)
      · obtain ⟨restored, done, plain⟩ := found answered
        rw [made] at done
        cases done
        exact inv.addSub known typed plain (show 0 < queueSize {} by decide)
      · obtain ⟨e, failed⟩ := lost answered
        rw [made] at failed
        cases failed

theorem queueSize_pos (qos : Qos.QosProfile) : 0 < queueSize qos.toProtocolQos := by
  obtain ⟨reliability, durability, history⟩ := qos
  cases history with
  | keepAll => exact (show 0 < 2 ^ 64 - 1 by decide)
  | keepLast depth =>
      have some : depth.val.toNat ≠ 0 := fun zero =>
        depth.property (UInt64.toNat_inj.mp zero)
      exact Nat.pos_of_ne_zero some

theorem Inv.step (suited : Suited toString sha256 schemas) {c : Config (State ζ κ) Event}
    (inv : Inv (digest toString sha256) schemas c.state c.trace) {label : Label ζ}
    (proper : Proper schemas c label) {observed : List Event}
    (stepped : c.state.step (digest toString sha256) label = some (s', observed)) :
    Inv (digest toString sha256) schemas s' (c.trace ++ observed) := by
  cases label with
  | createNode entity described =>
      cases stepped
      rw [List.append_nil]
      refine inv.withNodes _ fun node member registered enabled => ?_
      rcases List.mem_append.mp member with old | new
      · exact inv.nodes node old registered enabled
      · rw [List.mem_singleton.mp new] at enabled
        dsimp only at enabled
        split_ifs at enabled
        cases enabled
        exact registers_none _
  | createDynPub n id topic schema qos =>
      obtain ⟨node, -, same⟩ := Option.map_eq_some_iff.mp stepped
      cases same
      rw [List.append_nil]
      exact (inv.register proper n).addPub proper rfl
  | createDynSub n id topic schema qos =>
      obtain ⟨node, -, same⟩ := Option.map_eq_some_iff.mp stepped
      cases same
      rw [List.append_nil]
      exact inv.addSub proper rfl rfl (queueSize_pos qos)
  | createDynSubAuto n id topic seen answers =>
      obtain ⟨node, -, same⟩ := Option.map_eq_some_iff.mp stepped
      split at same
      case h_2 =>
        cases same
        rw [List.append_nil]
        exact inv
      case h_1 entity schema made =>
        cases same
        rw [List.append_nil]
        exact inv.createDynSubAuto suited made
  | connect p i =>
      simp only [State.step] at stepped
      split at stepped
      case h_2 => cases stepped
      case h_1 pub there found found' =>
        split_ifs at stepped with same
        cases stepped
        exact inv.connect found found' same
  | publish p msg =>
      simp only [State.step] at stepped
      split at stepped
      case h_2 => cases stepped
      case h_1 pub octets found encoded =>
        cases stepped
        rw [← payload_eq encoded]
        exact inv.publish found proper.1 (proper.2 pub found)
  | deliver p i =>
      simp only [State.step] at stepped
      split at stepped
      case h_2 => cases stepped
      case h_1 octets rest there onTheWay found =>
        cases stepped
        rw [List.append_nil]
        exact inv.deliver onTheWay found
  | lose p i k =>
      simp only [State.step] at stepped
      split at stepped
      case h_2 => cases stepped
      case h_1 pub found =>
        split_ifs at stepped with lossy
        cases stepped
        rw [List.append_nil]
        exact inv.lose found lossy
  | tryRecv i =>
      simp only [State.step] at stepped
      split at stepped
      case h_2 => cases stepped
      case h_1 there found =>
        split at stepped
        case h_1 octets queue taken =>
          cases stepped
          exact inv.tryRecv found taken
        case h_2 =>
          cases stepped
          rw [List.append_nil]
          exact inv

theorem inv_of_reachable (suited : Suited toString sha256 schemas)
    {c : Config (State ζ κ) Event}
    (reached : (topics (digest toString sha256)).Reachable (Proper schemas) c) :
    Inv (digest toString sha256) schemas c.state c.trace := by
  refine reached.invariant (P := fun c => Inv (digest toString sha256) schemas c.state c.trace)
    .init fun c label c' inv proper moved => ?_
  obtain ⟨observed, stepped, grown⟩ := Machine.next_eq_some moved
  rw [grown]
  exact inv.step suited proper stepped

/-! ### What is received -/

variable [LawfulKeyExpr κ]

omit [DecidableEq κ] [ZenohId ζ] in
/-- What is sent to a subscription is what it can decode. -/
theorem Inv.exists_decoded (suited : Suited toString sha256 schemas)
    (inv : Inv (digest toString sha256) schemas s trace) (found : s.subs[i]? = some sub)
    {msg : DynamicMessage} (member : msg ∈ (route trace p i).sent) :
    ∃ back, deserializeCdr (payload msg) sub.dynSchema = .ok back ∧
      back.plain = msg.canonical.plain := by
  have connected : s.connected p i = true := by
    rw [← inv.wired p i]
    by_contra off
    have none : (route trace p i).sent = [] := sent_of_not_connected (Bool.eq_false_iff.mpr off)
    rw [none] at member
    cases member
  obtain ⟨conforms, pub, listed, same⟩ := inv.proper p i msg member
  obtain ⟨pub', sub', listed', found', keys⟩ := inv.keyed p i connected
  rw [listed] at listed'
  rw [found] at found'
  obtain rfl := Option.some.inj listed'
  obtain rfl := Option.some.inj found'
  obtain ⟨among, typed, made⟩ := inv.pubs pub (List.mem_of_getElem? listed)
  obtain ⟨schema, among', typed', plain, made'⟩ := inv.subs sub (List.mem_of_getElem? found)
  have agree := suited.plain_eq_of_key among among' typed typed' made (keys ▸ made')
  obtain ⟨data, encoded, decoded⟩ := decodes_serializeCdr conforms.representable
  rw [payload_eq encoded]
  exact exists_decoded_of_plain_eq (same.trans (agree.trans plain.symm)) decoded

end Runs

end Invariant

/-! ## A subscription that asks for the type -/

/-- A key expression that is taken as it is. -/
structure TextKey where
  text : String
  deriving DecidableEq

instance : KeyExpr TextKey where
  tryFrom s := some ⟨s⟩
  asStr := TextKey.text

instance : LawfulKeyExpr TextKey where
  asStr_of_tryFrom made := by
    cases made
    rfl

def sampleMessage : DynamicMessage := { schema := sampleSchema, values := [.int32 5] }

/-- The publisher has the schema with a default value, and its node describes it. -/
def demoSchedule : List (Label SessionId) :=
  [.createNode demoNode true, .createNode { demoNode with name := "listener" } false,
    .createDynPub 0 2 "/chatter" presetSchema Qos.QosProfile.default,
    .createDynSubAuto 1 3 "/chatter" [0] [.ok 0],
    .connect 0 0, .publish 0 sampleMessage, .deliver 0 0, .tryRecv 0]

theorem demoSchedule_proper : ∀ label ∈ demoSchedule,
    ∀ c, (topics (κ := TextKey) sampleHash).Reachable
      (Proper {sampleSchema, presetSchema}) c → Proper {sampleSchema, presetSchema} c label := by
  intro label member c reached
  simp only [demoSchedule, List.mem_cons, List.not_mem_nil, or_false] at member
  rcases member with rfl | rfl | rfl | rfl | rfl | rfl | rfl | rfl
  all_goals first | trivial | skip
  · exact .inr rfl
  · refine ⟨?_, fun pub found => ?_⟩
    · simp [sampleMessage, sampleSchema, DynamicMessage.Conforming, MessageConforms, FieldsConform,
        Conforms]
    · rcases ((inv_of_reachable suited_samples reached).pubs pub
        (List.mem_of_getElem? found)).1 with same | same
      · rw [same]
        rfl
      · rw [Set.mem_singleton_iff.mp same]
        rfl

end RosZ.Pubsub.DynamicTopics
