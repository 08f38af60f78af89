import RosZ.Graph.Runs

/-!
# Matched events

A publisher is told how many subscriptions its topic has, and a subscription how many publishers.
The count starts with what the graph has when the endpoint is created and is then changed by one
whenever an entity appears or disappears.

## Design notes

The machine has the graph, the callbacks that endpoints have registered, and the calls that create
and destroy endpoints.  A step takes one lock: that of the callbacks, or that of the graph.  The
callback of the liveliness subscriber holds the lock of the graph while it takes that of the
callbacks, so it is one step; a call for a local entity releases the graph first, and its trigger
is a step of its own.

A creation keeps the entities that it has checked for compatible QoS until it returns.  The check
itself, whose events are other ones, is left out, and so are the guard conditions.  A callback
stays registered when its endpoint is destroyed.

The identity of an endpoint, which the program hashes from the session and the number of the
entity, is a parameter.
-/

namespace RosZ.Graph

open Protocol Transition

/-! ## Events -/

/-- The event types that count matching entities. -/
inductive MatchedEvent where
  | subscriptionMatched | publicationMatched
deriving DecidableEq, Repr

/-- The entities that the event counts. -/
def MatchedEvent.kind : MatchedEvent → EntityKind
  | .subscriptionMatched => .publisher
  | .publicationMatched => .subscription

/-- `ZenohEventStatus`, as far as matched events use it. -/
structure EventStatus where
  totalCount : ℤ := 0
  totalCountChange : ℤ := 0
  currentCount : ℤ := 0
  currentCountChange : ℤ := 0
  changed : Bool := false
deriving DecidableEq, Repr

/-- `update_event_status`. -/
def EventStatus.update (status : EventStatus) (change : ℤ) : EventStatus where
  totalCount := status.totalCount + max change 0
  totalCountChange := status.totalCountChange + max change 0
  currentCount := status.currentCount + change
  currentCountChange := status.currentCountChange + change
  changed := true

abbrev EndpointId := ℕ

variable {κ ζ γ : Type} [DecidableEq κ] [DecidableEq γ]

/-- How far the calls that create and destroy an endpoint have got.  Between its check and its
return a creation holds the entities it has found. -/
inductive EndpointStage (κ ζ : Type) where
  /-- About to register the callback. -/
  | registering
  | counting
  | checking
  | adding (held : List (Arc κ ζ))
  /-- About to trigger the change of the graph. -/
  | announcing (held : List (Arc κ ζ))
  | returning (held : List (Arc κ ζ))
  | live
  /-- Removed from the graph, and about to trigger that. -/
  | leaving
  | gone

/-- A publisher or a subscription of this session. -/
structure LocalEndpoint (κ ζ : Type) where
  entity : EndpointEntity ζ
  stage : EndpointStage κ ζ
  status : EventStatus

/-- The event that an endpoint registers for. -/
def LocalEndpoint.event (e : LocalEndpoint κ ζ) : MatchedEvent :=
  if e.entity.kind = .publisher then .publicationMatched else .subscriptionMatched

/-- A call of `trigger_graph_change` that is still to come. -/
structure Trigger (ζ : Type) where
  owner : EndpointId
  entity : EndpointEntity ζ
  appeared : Bool

structure MatchedState (κ ζ γ : Type) where
  graph : GraphData κ ζ
  /-- The endpoints whose callbacks are registered, by identity and event. -/
  callbacks : AList (fun _ : γ × MatchedEvent => EndpointId)
  endpoints : EndpointId → Option (LocalEndpoint κ ζ)
  nextEndpoint : EndpointId
  triggers : List (Trigger ζ)

/-- The event that an entity raises when it appears or disappears. -/
def matchedEvent : Entity ζ → Option MatchedEvent
  | .node _ => none
  | .endpoint e =>
      match e.kind with
      | .publisher => some .subscriptionMatched
      | .subscription => some .publicationMatched
      | .service | .client | .node => none

/-- The callback of an endpoint. -/
def callback (change : ℤ) (endpoints : EndpointId → Option (LocalEndpoint κ ζ))
    (i : EndpointId) : EndpointId → Option (LocalEndpoint κ ζ) :=
  match endpoints i with
  | some e => Function.update endpoints i (some { e with status := e.status.update change })
  | none => endpoints

namespace MatchedState

def setStage (s : MatchedState κ ζ γ) (i : EndpointId) (e : LocalEndpoint κ ζ)
    (stage : EndpointStage κ ζ) : MatchedState κ ζ γ :=
  { s with endpoints := Function.update s.endpoints i (some { e with stage }) }

/-- Every endpoint that has registered for the event is told, whatever its topic. -/
def triggerGraphChange (s : MatchedState κ ζ γ) (entity : Entity ζ) (appeared : Bool) :
    MatchedState κ ζ γ :=
  let change : ℤ := if appeared then 1 else -1
  match matchedEvent entity with
  | none => s
  | some event =>
      { s with endpoints := s.callbacks.entries.foldl (fun endpoints entry =>
          if entry.1.2 = event then callback change endpoints entry.2 else endpoints) s.endpoints }

end MatchedState

/-! ## Steps -/

inductive MatchedLabel (κ ζ : Type) where
  /-- A token that `Graph::new` finds. -/
  | discover (ke : κ)
  | put (ke : κ)
  | delete (ke : κ)
  /-- A publisher or a subscription is built. -/
  | create (entity : EndpointEntity ζ)
  | register (i : EndpointId)
  /-- `count`, which drains the cached keys in the given order. -/
  | count (i : EndpointId) (order : List κ)
  /-- `get_entities_by_topic`. -/
  | check (i : EndpointId) (order : List κ)
  | add (i : EndpointId)
  | trigger (k : ℕ)
  | finish (i : EndpointId)
  | destroy (i : EndpointId)

/-- What the trigger of a call is followed by. -/
def EndpointStage.triggered : EndpointStage κ ζ → EndpointStage κ ζ
  | .announcing held => .returning held
  | .leaving => .gone
  | stage => stage

/-- The references that a call drops. -/
def dropHeld (held dropped : List (Arc κ ζ)) : List (Arc κ ζ) :=
  dropped.foldl (fun held a => held.eraseP fun b => b.id == a.id) held

namespace MatchedState

variable (fmt : Format κ ζ) (gid : ζ → UInt64 → γ)

/-- The result of a step: the state after it and what became of keys. -/
abbrev After (κ ζ γ : Type) : Type := MatchedState κ ζ γ × List (GraphEvent κ ζ)

/-- The liveliness subscriber is told of a token. -/
def put (s : MatchedState κ ζ γ) (ke : κ) : MatchedState κ ζ γ :=
  let s := { s with graph := s.graph.insert ke }
  match fmt.parser ke with
  | some entity => s.triggerGraphChange entity true
  | none => s

/-- The liveliness subscriber is told that a token is gone. -/
def delete (s : MatchedState κ ζ γ) (ke : κ) : MatchedState κ ζ γ :=
  let s :=
    match fmt.parser ke with
    | some entity => s.triggerGraphChange entity false
    | none => s
  { s with graph := s.graph.remove ke }

/-- The matching entities that exist are counted, and the event is triggered if there are any. -/
def count (s : MatchedState κ ζ γ) (i : EndpointId) (order : List κ) :
    Option (MatchedState κ ζ γ) :=
  match s.endpoints i with
  | some e@⟨entity, .counting, status⟩ =>
      if order.Perm s.graph.cached then
        (s.graph.report fmt (.count e.event.kind entity.topic) order).map fun (graph, counted) =>
          let status := if 0 < counted.length then status.update counted.length else status
          { s with
            graph
            endpoints := Function.update s.endpoints i (some ⟨entity, .checking, status⟩) }
      else none
  | _ => none

def check (s : MatchedState κ ζ γ) (i : EndpointId) (order : List κ) :
    Option (MatchedState κ ζ γ) :=
  match s.endpoints i with
  | some e@⟨entity, .checking, _⟩ =>
      if order.Perm s.graph.cached then
        (s.graph.report fmt (.getEntitiesByTopic e.event.kind entity.topic) order).map
          fun (graph, found) =>
            { s.setStage i e (.adding found) with
              graph := { graph with held := graph.held ++ found } }
      else none
  | _ => none

/-- `add_local_entity`, up to its trigger. -/
def add (s : MatchedState κ ζ γ) (i : EndpointId) : Option (After κ ζ γ) :=
  match s.endpoints i with
  | some e@⟨entity, .adding held, _⟩ =>
      match fmt.toKe (.endpoint entity), s.graph.addLocalEntity fmt (.endpoint entity) with
      | some ke, some graph =>
          if ke ∈ s.graph.parsed then
            some ({ s.setStage i e (.returning held) with graph }, [.added ke (.endpoint entity)])
          else
            some ({ s.setStage i e (.announcing held) with
              graph
              triggers := s.triggers ++ [⟨i, entity, true⟩] }, [.added ke (.endpoint entity)])
      | _, _ => some (s.setStage i e (.returning held), [])
  | _ => none

/-- `remove_local_entity`, up to its trigger. -/
def destroy (s : MatchedState κ ζ γ) (i : EndpointId) : Option (After κ ζ γ) :=
  match s.endpoints i with
  | some e@⟨entity, .live, _⟩ =>
      match fmt.toKe (.endpoint entity), s.graph.removeLocalEntity fmt (.endpoint entity) with
      | some ke, some graph =>
          some ({ s.setStage i e .leaving with
            graph
            triggers := s.triggers ++ [⟨i, entity, false⟩] }, [.removed ke])
      | _, _ => some (s.setStage i e .gone, [])
  | _ => none

/-- One of the triggers that are to come. -/
def trigger (s : MatchedState κ ζ γ) (k : ℕ) : Option (MatchedState κ ζ γ) :=
  s.triggers[k]?.map fun t =>
    let told := s.triggerGraphChange (.endpoint t.entity) t.appeared
    let told := { told with triggers := s.triggers.eraseIdx k }
    match told.endpoints t.owner with
    | some e => told.setStage t.owner e e.stage.triggered
    | none => told

def step (s : MatchedState κ ζ γ) : MatchedLabel κ ζ → Option (After κ ζ γ)
  | .discover ke =>
      if s.nextEndpoint = 0 then some ({ s with graph := s.graph.insert ke }, [.inserted ke])
      else none
  | .put ke => some (s.put fmt ke, [.inserted ke])
  | .delete ke => some (s.delete fmt ke, [.removed ke])
  | .create entity =>
      if entity.kind = .publisher ∨ entity.kind = .subscription then
        some ({ s with
          endpoints := Function.update s.endpoints s.nextEndpoint (some ⟨entity, .registering, {}⟩)
          nextEndpoint := s.nextEndpoint + 1 }, [])
      else none
  | .register i =>
      match s.endpoints i with
      | some e@⟨entity, .registering, _⟩ =>
          some ({ s.setStage i e .counting with
            callbacks := s.callbacks.insert (gid entity.node.zId entity.id, e.event) i }, [])
      | _ => none
  | .count i order => (s.count fmt i order).map (·, [])
  | .check i order => (s.check fmt i order).map (·, [])
  | .add i => s.add fmt i
  | .trigger k => (s.trigger k).map (·, [])
  | .finish i =>
      match s.endpoints i with
      | some e@⟨_, .returning held, _⟩ =>
          some ({ s.setStage i e .live with
            graph := { s.graph with held := dropHeld s.graph.held held } }, [])
      | _ => none
  | .destroy i => s.destroy fmt i

end MatchedState

/-- A session whose endpoints have registered for their matched events. -/
def matched (fmt : Format κ ζ) (gid : ζ → UInt64 → γ) :
    Machine (MatchedState κ ζ γ) (MatchedLabel κ ζ) (GraphEvent κ ζ) where
  init :=
    { graph := .new, callbacks := ∅, endpoints _ := none, nextEndpoint := 0, triggers := [] }
  step := MatchedState.step fmt gid

/-! ## Accurate counts -/

/-- No call for the endpoint is under way. -/
def EndpointStage.settled : EndpointStage κ ζ → Bool
  | live | gone => true
  | _ => false

namespace MatchedState

/-- No call is under way. -/
def Quiescent (s : MatchedState κ ζ γ) : Prop :=
  s.triggers.length = 0 ∧ ∀ i < s.nextEndpoint, ∀ e ∈ s.endpoints i, e.stage.settled = true

instance (s : MatchedState κ ζ γ) : Decidable s.Quiescent :=
  inferInstanceAs (Decidable (_ ∧ _))

/-- The current count of each live endpoint is what the graph counts. -/
def Accurate (fmt : Format κ ζ) (s : MatchedState κ ζ γ) : Prop :=
  ∀ i e, s.endpoints i = some e → e.stage = .live → ∀ order, order.Perm s.graph.cached →
    (s.graph.count fmt e.event.kind e.entity.topic order).map Int.ofNat =
      some e.status.currentCount

end MatchedState

/-! ## Announced changes -/

/-- The event and the topic that an entity counts for. -/
def concerns (entity : Entity ζ) : Option (MatchedEvent × Topic) :=
  match entity with
  | .node _ => none
  | .endpoint e => (matchedEvent entity).map (·, e.topic)

/-- The entity that the graph has under a key, parsed or not. -/
def GraphData.entityAt (fmt : Format κ ζ) (s : GraphData κ ζ) (ke : κ) : Option (Entity ζ) :=
  match s.parsed.lookup ke with
  | some a => some a.entity
  | none => if ke ∈ s.cached then fmt.parser ke else none

namespace EndpointStage

/-- The callback is registered and the endpoint not destroyed. -/
def listens : EndpointStage κ ζ → Bool
  | registering | leaving | gone => false
  | _ => true

/-- The endpoint has counted what existed and is not destroyed. -/
def counted : EndpointStage κ ζ → Bool
  | registering | counting | leaving | gone => false
  | _ => true

end EndpointStage

/-- What the current count of an endpoint is about. -/
def LocalEndpoint.about (e : LocalEndpoint κ ζ) : MatchedEvent × Topic := (e.event, e.entity.topic)

/-- An endpoint that is told of the entity has counted and is on its topic. -/
def LocalEndpoint.ToldRightly (e : LocalEndpoint κ ζ) (entity : Entity ζ) : Prop :=
  e.stage.listens = true → matchedEvent entity = some e.event →
    e.stage.counted = true ∧ concerns entity = some e.about

instance (e : LocalEndpoint κ ζ) (entity : Entity ζ) : Decidable (e.ToldRightly entity) :=
  inferInstanceAs (Decidable (e.stage.listens = true → matchedEvent entity = some e.event →
    e.stage.counted = true ∧ concerns entity = some e.about))

namespace MatchedState

/-- For what each endpoint that has counted is about. -/
def EachCounted (s : MatchedState κ ζ γ) (P : MatchedEvent × Topic → Prop) : Prop :=
  ∀ i < s.nextEndpoint, ∀ e ∈ s.endpoints i, e.stage.counted = true → P e.about

instance (s : MatchedState κ ζ γ) (P : MatchedEvent × Topic → Prop) [DecidablePred P] :
    Decidable (s.EachCounted P) :=
  inferInstanceAs (Decidable (∀ i < s.nextEndpoint, ∀ e ∈ s.endpoints i,
    e.stage.counted = true → P e.about))

/-- Every endpoint that is told of the entity has counted and is on its topic. -/
def ToldRightly (s : MatchedState κ ζ γ) (entity : Entity ζ) : Prop :=
  ∀ i < s.nextEndpoint, ∀ e ∈ s.endpoints i, e.ToldRightly entity

instance (s : MatchedState κ ζ γ) (entity : Entity ζ) : Decidable (s.ToldRightly entity) :=
  inferInstanceAs (Decidable (∀ i < s.nextEndpoint, ∀ e ∈ s.endpoints i, e.ToldRightly entity))

end MatchedState

open MatchedState in
/-- What endpoints are told of happens, to entities that count for them, and once they have counted
what was there before.  Nothing is taken from the graph that a creation holds. -/
def AnnouncesChanges (fmt : Format κ ζ) (gid : ζ → UInt64 → γ)
    (c : Config (MatchedState κ ζ γ) (GraphEvent κ ζ)) : MatchedLabel κ ζ → Prop
  | .put ke =>
      (∀ entity ∈ fmt.parser ke, c.state.ToldRightly entity) ∧
      c.state.EachCounted fun x =>
        (fmt.parser ke).bind concerns = some x → c.state.graph.entityAt fmt ke = none
  | .delete ke =>
      Undisturbed fmt ⟨c.state.graph, []⟩ (.remove ke) ∧
      (∀ entity ∈ fmt.parser ke, c.state.ToldRightly entity) ∧
      c.state.EachCounted fun x => ((fmt.parser ke).bind concerns = some x ↔
        (c.state.graph.entityAt fmt ke).bind concerns = some x)
  | .register i => ∀ e ∈ c.state.endpoints i, ∀ j < c.state.nextEndpoint,
      ∀ other ∈ c.state.endpoints j, j ≠ i → other.stage.listens = true → other.event = e.event →
        gid other.entity.node.zId other.entity.id ≠ gid e.entity.node.zId e.entity.id
  | .count i _ => ∀ e ∈ c.state.endpoints i, ∀ t ∈ c.state.triggers,
      concerns (.endpoint t.entity) ≠ some e.about
  | .add i => ∀ e ∈ c.state.endpoints i,
      Undisturbed fmt ⟨c.state.graph, []⟩ (.addLocalEntity (.endpoint e.entity)) ∧
      ∀ ke ∈ fmt.toKe (.endpoint e.entity), c.state.EachCounted fun x =>
        if ke ∈ c.state.graph.parsed then (concerns (.endpoint e.entity) = some x ↔
          (c.state.graph.entityAt fmt ke).bind concerns = some x)
        else (c.state.graph.entityAt fmt ke).bind concerns ≠ some x
  | .destroy i => ∀ e ∈ c.state.endpoints i,
      Undisturbed fmt ⟨c.state.graph, []⟩ (.removeLocalEntity (.endpoint e.entity)) ∧
      ∀ ke ∈ fmt.toKe (.endpoint e.entity), c.state.EachCounted fun x =>
        (concerns (.endpoint e.entity) = some x ↔
          (c.state.graph.entityAt fmt ke).bind concerns = some x)
  | .trigger k => ∀ t ∈ c.state.triggers[k]?, c.state.ToldRightly (.endpoint t.entity)
  | _ => True

instance (fmt : Format κ ζ) (gid : ζ → UInt64 → γ) : DecidableRel (AnnouncesChanges fmt gid) := by
  intro c label
  cases label <;> unfold AnnouncesChanges <;> infer_instance

end RosZ.Graph
