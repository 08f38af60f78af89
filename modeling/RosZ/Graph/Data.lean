import Mathlib.Data.List.AList
import RosZ.Lib.Machine
import RosZ.Protocol.Entity

/-!
# The graph of entities

`GraphData` knows which entities are alive from the liveliness keys it was told about.
New keys are cached and parsed lazily; a parsed entity is owned by the map `parsed` and
found through slabs of weak references, by topic, by service and by node.

## Design notes

* An `Arc` has an identity of its own.  A weak reference to it upgrades as long as the
  map or a caller holds the `Arc`; `held` are the ones that callers hold.  The key of an
  `Arc` is the one it was stored under; no function looks at it.
* The three index maps are one map here, whose keys say which of the three is meant.
  Which slot of a slab an entry takes is left open: a slab lists its entries in the
  order of insertion.
* A hash set is drained in an order of its own, so whatever parses takes that order as
  an argument.
* Queries assert that they are asked for a sensible kind; `none` is the panic.
-/

namespace RosZ.Graph

open Protocol Transition

abbrev Topic := String

/-- The namespace and the name of a node. -/
abbrev NodeKey := String × String

variable {κ ζ : Type} [DecidableEq κ]

/-- Get the key for this node; the root namespace is the empty one. -/
def nodeKey (entity : NodeEntity ζ) : NodeKey :=
  (if entity.namespace' = "/" then "" else entity.namespace', entity.name)

/-- Get the kind of entity. -/
def entityKind : Entity ζ → EntityKind
  | .node _ => .node
  | .endpoint e => e.kind

/-- A key of one of the index maps `by_topic`, `by_service` and `by_node`. -/
inductive Place where
  | topic (name : Topic)
  | service (name : Topic)
  | node (key : NodeKey)
  deriving DecidableEq

/-- Where an entity is indexed. -/
def places : Entity ζ → List Place
  | .node n => [.node (nodeKey n)]
  | .endpoint e =>
      (match e.kind with
        | .publisher | .subscription => [.topic e.topic]
        | .service | .client => [.service e.topic]
        | .node => []) ++ [.node (nodeKey e.node)]

/-- How keys are read and made. -/
structure Format (κ ζ : Type) where
  parser : κ → Option (Entity ζ)
  /-- `entity_to_liveliness_ke`. -/
  toKe : Entity ζ → Option κ

/-- A shared entity. -/
structure Arc (κ ζ : Type) where
  id : ℕ
  key : κ
  entity : Entity ζ

/-- A slab of weak references. -/
structure Slab (κ ζ : Type) where
  entries : List (Arc κ ζ)
  capacity : ℕ

def defaultSlabCapacity : ℕ := 128

def Slab.empty : Slab κ ζ := { entries := [], capacity := defaultSlabCapacity }

/-- A slab grows when it is full. -/
def Slab.insert (slab : Slab κ ζ) (a : Arc κ ζ) : Slab κ ζ where
  entries := slab.entries ++ [a]
  capacity :=
    if slab.capacity ≤ slab.entries.length then 2 * slab.capacity else slab.capacity

/-- The graph, with the references that callers hold. -/
structure GraphData (κ ζ : Type) where
  cached : List κ
  parsed : AList (fun _ : κ => Arc κ ζ)
  index : AList (fun _ : Place => Slab κ ζ)
  held : List (Arc κ ζ)
  /-- The identity of the next `Arc`. -/
  nextArc : ℕ

namespace GraphData

def new : GraphData κ ζ := { cached := [], parsed := ∅, index := ∅, held := [], nextArc := 0 }

/-- A weak reference can be upgraded: somebody holds the `Arc`. -/
def upgrades (s : GraphData κ ζ) (a : Arc κ ζ) : Bool :=
  s.parsed.entries.any (fun entry => entry.2.id == a.id) || s.held.any (fun b => b.id == a.id)

/-- Remove failing weak pointers. -/
def retainAlive (s : GraphData κ ζ) (slab : Slab κ ζ) : Slab κ ζ :=
  { slab with entries := slab.entries.filter s.upgrades }

/-- Put a weak reference into the slab of a place; a full slab is cleaned first. -/
def indexAt (a : Arc κ ζ) (s : GraphData κ ζ) (p : Place) : GraphData κ ζ :=
  let slab := (s.index.lookup p).getD .empty
  let slab := if slab.capacity ≤ slab.entries.length then s.retainAlive slab else slab
  { s with index := s.index.insert p (slab.insert a) }

/-- Add to appropriate indexes. -/
def indexAll (s : GraphData κ ζ) (a : Arc κ ζ) : GraphData κ ζ :=
  (places a.entity).foldl (indexAt a) s

/-! ## Operations -/

def insert (s : GraphData κ ζ) (ke : κ) : GraphData κ ζ :=
  if ke ∈ s.parsed ∨ ke ∈ s.cached then s else { s with cached := ke :: s.cached }

def remove (s : GraphData κ ζ) (ke : κ) : GraphData κ ζ :=
  { s with cached := s.cached.filter (· ≠ ke), parsed := s.parsed.erase ke }

variable (fmt : Format κ ζ)

/-- The body of the loop of `parse`. -/
def parseKey (s : GraphData κ ζ) (ke : κ) : GraphData κ ζ :=
  if ke ∈ s.parsed then s
  else
    match fmt.parser ke with
    | none => s
    | some entity =>
        let arc : Arc κ ζ := { id := s.nextArc, key := ke, entity }
        let indexed := { s with nextArc := s.nextArc + 1 }.indexAll arc
        { indexed with parsed := indexed.parsed.insert ke arc }

/-- Drain the cached keys, in the given order. -/
def parse (s : GraphData κ ζ) (order : List κ) : GraphData κ ζ :=
  order.foldl (parseKey fmt) { s with cached := [] }

/-- `visit_by_topic`, `visit_by_service` and `visit_by_node`, with what they visit. -/
def visit (s : GraphData κ ζ) (p : Place) (order : List κ) :
    GraphData κ ζ × List (Arc κ ζ) :=
  let s := s.parse fmt order
  match s.index.lookup p with
  | none => (s, [])
  | some slab =>
      let slab := s.retainAlive slab
      ({ s with index := s.index.insert p slab }, slab.entries)

/-- Add a local entity to the graph for immediate discovery, unless it has no key. -/
def addLocalEntity (s : GraphData κ ζ) (entity : Entity ζ) : Option (GraphData κ ζ) :=
  (fmt.toKe entity).map fun ke =>
    let arc : Arc κ ζ := { id := s.nextArc, key := ke, entity }
    { s with parsed := s.parsed.insert ke arc, nextArc := s.nextArc + 1 }.indexAll arc

/-- Remove the entries of a key from the slab of a place, and those that do not upgrade. -/
def dropKey (ke : κ) (s : GraphData κ ζ) (p : Place) : GraphData κ ζ :=
  match s.index.lookup p with
  | none => s
  | some slab =>
      let kept := slab.entries.filter fun a => s.upgrades a && decide (fmt.toKe a.entity ≠ some ke)
      { s with index := s.index.insert p { slab with entries := kept } }

/-- Remove a local entity from the graph, unless it has no key. -/
def removeLocalEntity (s : GraphData κ ζ) (entity : Entity ζ) : Option (GraphData κ ζ) :=
  (fmt.toKe entity).map fun ke => (places entity).foldl (dropKey fmt ke) (s.remove ke)

end GraphData

/-! ## Queries -/

inductive Query where
  | count (kind : EntityKind) (name : Topic)
  | getEntitiesByTopic (kind : EntityKind) (topic : Topic)
  | getEntitiesByService (kind : EntityKind) (serviceName : Topic)
  | getEntitiesByNode (kind : EntityKind) (node : NodeKey)
  | getNodeNames
  deriving DecidableEq

/-- The index that `count` looks into. -/
def countPlace (kind : EntityKind) (name : Topic) : Place :=
  match kind with
  | .service | .client => .service name
  | _ => .topic name

/-- `matches!(entity, Entity::Node(_))`. -/
def isNode : Entity ζ → Bool
  | .node _ => true
  | .endpoint _ => false

/-- Denormalize namespace: the empty one becomes a slash. -/
def denormalize (ns : String) : String :=
  if ns.isEmpty then "/"
  else if ns.toList.head? ≠ some '/' then "/" ++ ns
  else ns

/-- `entity_get_endpoint`. -/
def entityGetEndpoint : Entity ζ → Option (EndpointEntity ζ)
  | .node _ => none
  | .endpoint e => some e

namespace GraphData

variable (fmt : Format κ ζ)

/-- Visit a place and keep the entities of a kind. -/
def visitKind (s : GraphData κ ζ) (kind : EntityKind) (p : Place) (order : List κ) :
    GraphData κ ζ × List (Arc κ ζ) :=
  let (s, visited) := s.visit fmt p order
  (s, visited.filter fun a => entityKind a.entity = kind)

/-- The node entities in the slabs of `by_node`, with the keys of their slabs. -/
def nodeEntries (s : GraphData κ ζ) : List (NodeKey × Arc κ ζ) :=
  s.index.entries.flatMap fun entry =>
    match entry.1 with
    | .node key => (entry.2.entries.filter fun a => s.upgrades a && isNode a.entity).map (key, ·)
    | _ => []

/-- The entities that a query goes through. -/
def report (s : GraphData κ ζ) (query : Query) (order : List κ) :
    Option (GraphData κ ζ × List (Arc κ ζ)) :=
  match query with
  | .count kind name =>
      if kind ≠ .node then some (s.visitKind fmt kind (countPlace kind name) order) else none
  | .getEntitiesByTopic kind topic =>
      if kind ≠ .node then some (s.visitKind fmt kind (.topic topic) order) else none
  | .getEntitiesByService kind serviceName =>
      if kind = .service ∨ kind = .client then
        some (s.visitKind fmt kind (.service serviceName) order)
      else none
  | .getEntitiesByNode kind node =>
      if kind ≠ .node then some (s.visitKind fmt kind (.node node) order) else none
  | .getNodeNames =>
      let s := s.parse fmt order
      some (s, s.nodeEntries.map (·.2))

def count (s : GraphData κ ζ) (kind : EntityKind) (name : Topic) (order : List κ) : Option ℕ :=
  (s.report fmt (.count kind name) order).map fun reported => reported.2.length

def getEntitiesByTopic (s : GraphData κ ζ) (kind : EntityKind) (topic : Topic) (order : List κ) :
    Option (List (Arc κ ζ)) :=
  (s.report fmt (.getEntitiesByTopic kind topic) order).map (·.2)

def getEntitiesByService (s : GraphData κ ζ) (kind : EntityKind) (serviceName : Topic)
    (order : List κ) : Option (List (Arc κ ζ)) :=
  (s.report fmt (.getEntitiesByService kind serviceName) order).map (·.2)

def getEntitiesByNode (s : GraphData κ ζ) (kind : EntityKind) (node : NodeKey) (order : List κ) :
    Option (List (EndpointEntity ζ)) :=
  (s.report fmt (.getEntitiesByNode kind node) order).map fun reported =>
    reported.2.filterMap fun a => entityGetEndpoint a.entity

/-- One entry per node instance, even if several nodes have the same name and namespace. -/
def getNodeNames (s : GraphData κ ζ) (order : List κ) : List (String × String) :=
  (s.parse fmt order).nodeEntries.map fun entry => (entry.1.2, denormalize entry.1.1)

/-- The references that a query hands to its caller. -/
def handedOut (query : Query) (reported : List (Arc κ ζ)) : List (Arc κ ζ) :=
  match query with
  | .getEntitiesByTopic _ _ | .getEntitiesByService _ _ => reported
  | _ => []

end GraphData

/-! ## Runs -/

inductive GraphLabel (κ ζ : Type) where
  | insert (ke : κ)
  | remove (ke : κ)
  | parse (order : List κ)
  | visit (p : Place) (order : List κ)
  | addLocalEntity (entity : Entity ζ)
  | removeLocalEntity (entity : Entity ζ)
  | query (query : Query) (order : List κ)
  /-- A caller drops one of the references it holds. -/
  | release (i : ℕ)

/-- What became of a key. -/
inductive GraphEvent (κ ζ : Type) where
  | inserted (ke : κ)
  | added (ke : κ) (entity : Entity ζ)
  | removed (ke : κ)

namespace GraphData

variable (fmt : Format κ ζ)

/-- The result of a step: the state after it and what is observed of it. -/
abbrev After (κ ζ : Type) : Type := GraphData κ ζ × List (GraphEvent κ ζ)

/-- A local entity without a key is refused, and nothing changes. -/
def step (s : GraphData κ ζ) : GraphLabel κ ζ → Option (After κ ζ)
  | .insert ke => some (s.insert ke, [.inserted ke])
  | .remove ke => some (s.remove ke, [.removed ke])
  | .parse order => if order.Perm s.cached then some (s.parse fmt order, []) else none
  | .visit p order => if order.Perm s.cached then some ((s.visit fmt p order).1, []) else none
  | .addLocalEntity entity =>
      match fmt.toKe entity, s.addLocalEntity fmt entity with
      | some ke, some s' => some (s', [.added ke entity])
      | _, _ => some (s, [])
  | .removeLocalEntity entity =>
      match fmt.toKe entity, s.removeLocalEntity fmt entity with
      | some ke, some s' => some (s', [.removed ke])
      | _, _ => some (s, [])
  | .query query order =>
      if order.Perm s.cached then
        (s.report fmt query order).map fun (s', reported) =>
          ({ s' with held := s'.held ++ handedOut query reported }, [])
      else none
  | .release i =>
      if i < s.held.length then some ({ s with held := s.held.eraseIdx i }, []) else none

end GraphData

/-- The graph of a session and the callers of its queries. -/
def graph (fmt : Format κ ζ) : Machine (GraphData κ ζ) (GraphLabel κ ζ) (GraphEvent κ ζ) where
  init := .new
  step := GraphData.step fmt

/-! ## Live keys -/

/-- What an event does to the live keys.  A key that is live keeps its entity when it is
inserted again; a key that does not parse does not become live. -/
def track (fmt : Format κ ζ) (live : AList (fun _ : κ => Entity ζ)) :
    GraphEvent κ ζ → AList (fun _ : κ => Entity ζ)
  | .inserted ke =>
      if ke ∈ live then live
      else
        match fmt.parser ke with
        | some entity => live.insert ke entity
        | none => live
  | .added ke entity => live.insert ke entity
  | .removed ke => live.erase ke

/-- The keys that were inserted or added and not removed since, with their entities. -/
def live (fmt : Format κ ζ) (trace : List (GraphEvent κ ζ)) : AList (fun _ : κ => Entity ζ) :=
  trace.foldl (track fmt) ∅

/-- The entities that a query asks for. -/
def Query.asks : Query → Entity ζ → Bool
  | .count kind name, e => entityKind e = kind ∧ countPlace kind name ∈ places e
  | .getEntitiesByTopic kind topic, e => entityKind e = kind ∧ .topic topic ∈ places e
  | .getEntitiesByService kind serviceName, e =>
      entityKind e = kind ∧ .service serviceName ∈ places e
  | .getEntitiesByNode kind node, e => entityKind e = kind ∧ .node node ∈ places e
  | .getNodeNames, e => isNode e

end RosZ.Graph
