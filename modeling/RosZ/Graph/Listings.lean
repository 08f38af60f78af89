import Mathlib.Data.Prod.Lex
import Mathlib.Data.String.Basic
import RosZ.Lib.SortDedup
import RosZ.Graph.Runs

/-!
# Names and types

The listings of topics and services go through a whole index map and take one type from each slab:
that of the first entity found that has one.  `get_topic_names_and_types` and
`get_service_names_and_types` are one function with the index map and the entities it looks for as
parameters (`Listing`).

So a listing is exact just where all entities under a name that have a type have the same one
(`lists_exactly_iff`).  The listing of a node goes through all endpoints of the node and has every
type (`getNamesAndTypesByNode_exactly`).
-/

namespace RosZ.Graph

open Protocol Transition

variable {κ ζ : Type} [DecidableEq κ]

/-! ## The listings -/

/-- What a listing looks for: the names it lists, as keys of an index map, and the type name that
it takes from an entity found there. -/
structure Listing (ζ : Type) where
  nameOf : Place → Option Topic
  typeOf : Entity ζ → Option String

/-- Both publishers and subscribers. -/
def Listing.topics : Listing ζ where
  nameOf
    | .topic name => some name
    | _ => none
  typeOf ent := (entityGetEndpoint ent).bind fun enp =>
    if enp.kind = .publisher ∨ enp.kind = .subscription then enp.typeInfo.map (·.name) else none

def Listing.services : Listing ζ where
  nameOf
    | .service name => some name
    | _ => none
  typeOf ent := (entityGetEndpoint ent).bind fun enp =>
    if enp.kind = .service then enp.typeInfo.map (·.name) else none

namespace GraphData

/-- Clean the slab of a place. -/
def retainAt (s : GraphData κ ζ) (p : Place) : GraphData κ ζ :=
  match s.index.lookup p with
  | none => s
  | some slab => { s with index := s.index.insert p (s.retainAlive slab) }

variable (fmt : Format κ ζ)

/-- Go through all slabs of an index map, clean each and take the first type found in it. -/
def namesAndTypes (listing : Listing ζ) (s : GraphData κ ζ) (order : List κ) :
    GraphData κ ζ × List (Topic × String) :=
  let s := s.parse fmt order
  ((s.index.keys.filter fun p => (listing.nameOf p).isSome).foldl retainAt s,
    s.index.entries.filterMap fun entry =>
      (listing.nameOf entry.1).bind fun name =>
        ((s.retainAlive entry.2).entries.findSome? fun a => listing.typeOf a.entity).map (name, ·))

def getTopicNamesAndTypes (s : GraphData κ ζ) (order : List κ) :
    GraphData κ ζ × List (Topic × String) :=
  s.namesAndTypes fmt Listing.topics order

def getServiceNamesAndTypes (s : GraphData κ ζ) (order : List κ) :
    GraphData κ ζ × List (Topic × String) :=
  s.namesAndTypes fmt Listing.services order

/-- What the listing of a node takes from an entity. -/
def typedOfKind (kind : EntityKind) (ent : Entity ζ) : Option (Topic × String) :=
  (entityGetEndpoint ent).bind fun enp =>
    if enp.kind = kind then enp.typeInfo.map fun typeInfo => (enp.topic, typeInfo.name) else none

/-- Use a set to deduplicate and sort results by topic and type. -/
def getNamesAndTypesByNode (s : GraphData κ ζ) (nodeKey : NodeKey) (kind : EntityKind)
    (order : List κ) : GraphData κ ζ × List (Topic × String) :=
  let (s, visited) := s.visit fmt (.node nodeKey) order
  let found := visited.filterMap fun a => typedOfKind kind a.entity
  (s, (SortDedup.sortDedup (found.map toLex)).map ofLex)

end GraphData

/-! ## What is there to list -/

/-- The topic and the type of a publisher or subscription with type information. -/
def topicAndType : Entity ζ → Option (Topic × String)
  | .endpoint e =>
      if e.kind = .publisher ∨ e.kind = .subscription then e.typeInfo.map fun t => (e.topic, t.name)
      else none
  | .node _ => none

/-- The service and the type of a service with type information. -/
def serviceAndType : Entity ζ → Option (Topic × String)
  | .endpoint e => if e.kind = .service then e.typeInfo.map fun t => (e.topic, t.name) else none
  | .node _ => none

/-- The topic and the type of an endpoint of a kind and of a node, with type information. -/
def typedAtNode (node : NodeKey) (kind : EntityKind) : Entity ζ → Option (Topic × String)
  | .endpoint e =>
      if e.kind = kind ∧ nodeKey e.node = node then e.typeInfo.map fun t => (e.topic, t.name)
      else none
  | .node _ => none

/-- **A listing is exact**: it has the pairs of the live entities, each once. -/
def ListsExactly (listed : List (Topic × String)) (pairOf : Entity ζ → Option (Topic × String))
    (live : AList (fun _ : κ => Entity ζ)) : Prop :=
  listed.Nodup ∧ ∀ pair, pair ∈ listed ↔ ∃ entry ∈ live.entries, pairOf entry.2 = some pair

/-- Live entities under one name have one type. -/
def OneTypeEach (pairOf : Entity ζ → Option (Topic × String))
    (live : AList (fun _ : κ => Entity ζ)) : Prop :=
  ∀ entry ∈ live.entries, ∀ entry' ∈ live.entries, ∀ name type type',
    pairOf entry.2 = some (name, type) → pairOf entry'.2 = some (name, type') → type = type'

/-! ## The first and all -/

/-- Where there is a value, one is found. -/
theorem exists_findSome {α β : Type} {f : α → Option β} {xs : List α} {a : α} {b : β}
    (member : a ∈ xs) (value : f a = some b) : ∃ first, xs.findSome? f = some first := by
  cases found : xs.findSome? f with
  | none =>
      rw [List.findSome?_eq_none_iff.mp found a member] at value
      cases value
  | some first => exact ⟨first, rfl⟩

/-- The first value found is the only one just where all values are the same. -/
theorem findSome_exact_iff {α β : Type} {f : α → Option β} {xs : List α} :
    (∀ b, xs.findSome? f = some b ↔ ∃ a ∈ xs, f a = some b) ↔
      ∀ a ∈ xs, ∀ a' ∈ xs, ∀ b b', f a = some b → f a' = some b' → b = b' := by
  constructor
  · intro exact a member a' member' b b' value value'
    have first := (exact b).mpr ⟨a, member, value⟩
    rw [(exact b').mpr ⟨a', member', value'⟩] at first
    exact (Option.some.inj first).symm
  · intro same b
    refine ⟨List.exists_of_findSome?_eq_some, ?_⟩
    rintro ⟨a, member, value⟩
    obtain ⟨first, found⟩ := exists_findSome member value
    obtain ⟨a', member', value'⟩ := List.exists_of_findSome?_eq_some found
    rw [found, same a' member' a member first b value' value]

/-! ## What is listed -/

/-- The names of a listing are keys of their own, and an entity has a pair just where it is indexed
under the name and has the type. -/
structure Listing.Pairs (listing : Listing ζ) (pairOf : Entity ζ → Option (Topic × String)) :
    Prop where
  injective : ∀ p p' name, listing.nameOf p = some name → listing.nameOf p' = some name → p = p'
  pair_iff : ∀ entity name type, pairOf entity = some (name, type) ↔
    ∃ p ∈ places entity, listing.nameOf p = some name ∧ listing.typeOf entity = some type

theorem Listing.topics_pairs : (Listing.topics : Listing ζ).Pairs topicAndType where
  injective p p' name named named' := by
    cases p <;> cases p' <;> simp_all [Listing.topics]
  pair_iff entity name type := by
    cases entity with
    | node n => simp [topicAndType, Listing.topics, entityGetEndpoint]
    | endpoint e =>
        cases kind : e.kind <;> cases typed : e.typeInfo <;>
          simp [topicAndType, Listing.topics, entityGetEndpoint, places, kind, typed]

theorem Listing.services_pairs : (Listing.services : Listing ζ).Pairs serviceAndType where
  injective p p' name named named' := by
    cases p <;> cases p' <;> simp_all [Listing.services]
  pair_iff entity name type := by
    cases entity with
    | node n => simp [serviceAndType, Listing.services, entityGetEndpoint]
    | endpoint e =>
        cases kind : e.kind <;> cases typed : e.typeInfo <;>
          simp [serviceAndType, Listing.services, entityGetEndpoint, places, kind, typed]

namespace GraphData

variable {fmt : Format κ ζ} {s : GraphData κ ζ} {live : AList (fun _ : κ => Entity ζ)}
  {listing : Listing ζ} {pairOf : Entity ζ → Option (Topic × String)} {order : List κ}

/-- The type of a name is the first one at its place. -/
theorem mem_namesAndTypes {name : Topic} {type : String} :
    (name, type) ∈ (s.namesAndTypes fmt listing order).2 ↔
      ∃ p, listing.nameOf p = some name ∧
        (s.visit fmt p order).2.findSome? (fun a => listing.typeOf a.entity) = some type := by
  simp only [visit_eq, namesAndTypes, List.mem_filterMap, Option.bind_eq_some_iff,
    Option.map_eq_some_iff, Prod.mk.injEq]
  constructor
  · rintro ⟨⟨p, slab⟩, member, name', named, type', found, rfl, rfl⟩
    refine ⟨p, named, ?_⟩
    rw [entriesAt, AList.mem_lookup_iff.mpr member]
    exact found
  · rintro ⟨p, named, found⟩
    cases stored : (s.parse fmt order).index.lookup p with
    | none =>
        rw [entriesAt, stored] at found
        cases found
    | some slab =>
        rw [entriesAt, stored] at found
        exact ⟨⟨p, slab⟩, AList.mem_lookup_iff.mp stored, name, named, type, found, rfl, rfl⟩

/-- Each name is listed once. -/
theorem nodup_names (pairs : listing.Pairs pairOf) :
    ((s.namesAndTypes fmt listing order).2.map Prod.fst).Nodup := by
  unfold namesAndTypes
  rw [List.map_filterMap]
  refine List.Pairwise.filterMap _ ?_
    (List.nodupKeys_iff_pairwise.mp (s.parse fmt order).index.nodupKeys)
  intro entry entry' differ name listed name' listed' same
  subst same
  simp only [Option.map_eq_some_iff, Option.bind_eq_some_iff] at listed listed'
  obtain ⟨_, ⟨first, named, type, -, rfl⟩, same⟩ := listed
  obtain ⟨_, ⟨first', named', type', -, rfl⟩, same'⟩ := listed'
  obtain rfl : first = name := same
  obtain rfl : first' = first := same'
  exact differ (pairs.injective entry.1 entry'.1 first' named named')

theorem nodup_namesAndTypes (pairs : listing.Pairs pairOf) :
    (s.namesAndTypes fmt listing order).2.Nodup :=
  (nodup_names pairs).of_map _

/-- What is visited at a place are the live entities there. -/
theorem Inv.visited_iff (inv : s.Inv fmt live) (drained : order.Perm s.cached) (p : Place)
    (wanted : Entity ζ → Prop) :
    (∃ a ∈ (s.visit fmt p order).2, wanted a.entity) ↔
      ∃ entry ∈ live.entries, p ∈ places entry.2 ∧ wanted entry.2 := by
  have perm := (inv.parse drained).visited_perm (cached_parse order) p
  rw [← visit_eq] at perm
  constructor
  · rintro ⟨a, visited, isWanted⟩
    have member := perm.mem_iff.mp (List.mem_map_of_mem visited)
    obtain ⟨alive, place⟩ := List.mem_filter.mp member
    exact ⟨a.entry, alive, of_decide_eq_true place, isWanted⟩
  · rintro ⟨entry, alive, place, isWanted⟩
    obtain ⟨a, visited, rfl⟩ := List.mem_map.mp
      (perm.mem_iff.mpr (List.mem_filter.mpr ⟨alive, decide_eq_true place⟩))
    exact ⟨a, visited, isWanted⟩

/-- What is listed is live. -/
theorem Inv.of_mem_namesAndTypes (inv : s.Inv fmt live) (drained : order.Perm s.cached)
    (pairs : listing.Pairs pairOf) {pair : Topic × String}
    (listed : pair ∈ (s.namesAndTypes fmt listing order).2) :
    ∃ entry ∈ live.entries, pairOf entry.2 = some pair := by
  obtain ⟨name, type⟩ := pair
  obtain ⟨p, named, found⟩ := mem_namesAndTypes.mp listed
  obtain ⟨entry, alive, place, typed⟩ := (inv.visited_iff drained p
    (listing.typeOf · = some type)).mp (List.exists_of_findSome?_eq_some found)
  exact ⟨entry, alive, (pairs.pair_iff _ _ _).mpr ⟨p, place, named, typed⟩⟩

/-- A name with a live entity that has a type is listed. -/
theorem Inv.exists_mem_namesAndTypes (inv : s.Inv fmt live) (drained : order.Perm s.cached)
    (pairs : listing.Pairs pairOf) {entry : Sigma fun _ : κ => Entity ζ}
    (alive : entry ∈ live.entries) {name : Topic} {type : String}
    (pair : pairOf entry.2 = some (name, type)) :
    ∃ first, (name, first) ∈ (s.namesAndTypes fmt listing order).2 := by
  obtain ⟨p, place, named, typed⟩ := (pairs.pair_iff _ _ _).mp pair
  obtain ⟨a, visited, value⟩ := (inv.visited_iff drained p (listing.typeOf · = some type)).mpr
    ⟨entry, alive, place, typed⟩
  obtain ⟨first, found⟩ := exists_findSome (f := fun a => listing.typeOf a.entity) visited value
  exact ⟨first, mem_namesAndTypes.mpr ⟨p, named, found⟩⟩

/-- **A listing is exact just where the live entities under each name have one type.** -/
theorem Inv.lists_exactly_iff (inv : s.Inv fmt live) (drained : order.Perm s.cached)
    (pairs : listing.Pairs pairOf) :
    ListsExactly (s.namesAndTypes fmt listing order).2 pairOf live ↔ OneTypeEach pairOf live := by
  constructor
  · rintro ⟨-, exact⟩ entry alive entry' alive' name type type' pair pair'
    obtain ⟨p, named, found⟩ := mem_namesAndTypes.mp ((exact _).mpr ⟨entry, alive, pair⟩)
    obtain ⟨p', named', found'⟩ := mem_namesAndTypes.mp ((exact _).mpr ⟨entry', alive', pair'⟩)
    rw [pairs.injective p p' name named named', found'] at found
    exact (Option.some.inj found).symm
  · intro same
    refine ⟨nodup_namesAndTypes pairs, fun pair => ⟨inv.of_mem_namesAndTypes drained pairs, ?_⟩⟩
    obtain ⟨name, type⟩ := pair
    rintro ⟨entry, alive, pair⟩
    obtain ⟨p, place, named, typed⟩ := (pairs.pair_iff _ _ _).mp pair
    refine mem_namesAndTypes.mpr ⟨p, named, (findSome_exact_iff.mpr ?_ type).mpr
      ((inv.visited_iff drained p (listing.typeOf · = some type)).mpr ⟨entry, alive, place, typed⟩)⟩
    intro a visited a' visited' first second value value'
    obtain ⟨one, alive, pair⟩ := (inv.visited_iff drained p (listing.typeOf · = some first)).mp
      ⟨a, visited, value⟩
    obtain ⟨other, alive', pair'⟩ := (inv.visited_iff drained p (listing.typeOf · = some second)).mp
      ⟨a', visited', value'⟩
    exact same one alive other alive' name first second
      ((pairs.pair_iff _ _ _).mpr ⟨p, pair.1, named, pair.2⟩)
      ((pairs.pair_iff _ _ _).mpr ⟨p, pair'.1, named, pair'.2⟩)

/-- The listing of a node has every type. -/
theorem Inv.getNamesAndTypesByNode_exactly (inv : s.Inv fmt live)
    (drained : order.Perm s.cached) (node : NodeKey) (kind : EntityKind) :
    ListsExactly (s.getNamesAndTypesByNode fmt node kind order).2 (typedAtNode node kind) live := by
  refine ⟨(SortDedup.nodup_sortDedup _).map toLex.symm.injective, fun pair => ?_⟩
  have typed : ∀ entity : Entity ζ, typedAtNode node kind entity = some pair ↔
      .node node ∈ places entity ∧ typedOfKind kind entity = some pair := by
    intro entity
    cases entity with
    | node n => simp [typedAtNode, typedOfKind, entityGetEndpoint]
    | endpoint e =>
        cases eKind : e.kind <;> by_cases here : nodeKey e.node = node <;>
          simp [typedAtNode, typedOfKind, entityGetEndpoint, places, eKind, here,
            eq_comm (a := node)]
  have listed : pair ∈ (s.getNamesAndTypesByNode fmt node kind order).2 ↔
      ∃ a ∈ (s.visit fmt (.node node) order).2, typedOfKind kind a.entity = some pair := by
    rw [getNamesAndTypesByNode, List.mem_map, ← List.mem_filterMap]
    constructor
    · rintro ⟨_, sorted, rfl⟩
      obtain ⟨found, member, rfl⟩ := List.mem_map.mp (SortDedup.mem_sortDedup.mp sorted)
      exact member
    · intro member
      exact ⟨toLex pair, SortDedup.mem_sortDedup.mpr (List.mem_map_of_mem member), rfl⟩
  rw [listed, inv.visited_iff drained (.node node) (typedOfKind kind · = some pair)]
  simp only [typed]

end GraphData

/-! ## Listings as steps of the graph -/

section Runs

variable {fmt : Format κ ζ} {c : Config (GraphData κ ζ) (GraphEvent κ ζ)}

/-- Cleaning a slab is a visit once everything is parsed. -/
theorem GraphData.visit_eq_retainAt {s : GraphData κ ζ} (drained : s.cached = []) (p : Place) :
    (s.visit fmt p []).1 = s.retainAt p := by
  have same : s.parse fmt [] = s := by
    obtain ⟨cached, parsed, index, held, nextArc⟩ := s
    obtain rfl : cached = [] := drained
    rfl
  cases stored : s.index.lookup p with
  | none => simp only [GraphData.visit, GraphData.retainAt, same, stored]
  | some slab => simp only [GraphData.visit, GraphData.retainAt, same, stored]

/-- A listing takes the graph where visits of the places that it lists take it. -/
theorem runs_namesAndTypes (listing : Listing ζ) {order : List κ}
    (drained : order.Perm c.state.cached) :
    (graph fmt).Runs (Undisturbed fmt) c
      ⟨(c.state.namesAndTypes fmt listing order).1, c.trace⟩ := by
  have visits : ∀ (ps : List Place) (s : GraphData κ ζ), s.cached = [] →
      (graph fmt).Runs (Undisturbed fmt) ⟨s, c.trace⟩
        ⟨ps.foldl GraphData.retainAt s, c.trace⟩ := by
    intro ps
    induction ps with
    | nil => exact fun s _ => .refl
    | cons p ps ih =>
        intro s parsed
        have kept : (s.retainAt p).cached = [] := by
          unfold GraphData.retainAt
          split <;> exact parsed
        refine .head ⟨.visit p [], trivial, ?_⟩ (ih _ kept)
        rw [Machine.next]
        simp [graph, GraphData.step, parsed, GraphData.visit_eq_retainAt parsed]
  refine .head ⟨.parse order, trivial, ?_⟩ (visits _ _ (GraphData.cached_parse order))
  rw [Machine.next]
  simp [graph, GraphData.step, drained]

/-- **Topics and services are listed exactly just where each has one type among its live entities**,
in every run in which no entity is taken from its key while a caller holds it. -/
theorem listings_exact_iff (fmt : Format κ ζ) (c : Config (GraphData κ ζ) (GraphEvent κ ζ))
    (reached : (graph fmt).Reachable (Undisturbed fmt) c) (order : List κ)
    (drained : order.Perm c.state.cached) :
    (ListsExactly (c.state.getTopicNamesAndTypes fmt order).2 topicAndType (live fmt c.trace) ↔
      OneTypeEach topicAndType (live fmt c.trace)) ∧
    (ListsExactly (c.state.getServiceNamesAndTypes fmt order).2 serviceAndType (live fmt c.trace) ↔
      OneTypeEach serviceAndType (live fmt c.trace)) := by
  have inv := inv_of_reachable reached
  exact ⟨inv.lists_exactly_iff drained Listing.topics_pairs,
    inv.lists_exactly_iff drained Listing.services_pairs⟩

end Runs

/-! ## Runs with the tokens of rmw_zenoh -/

section Tokens

open RmwZenoh

/-- The tokens of a publisher and of two subscriptions on one topic, one of them of another type. -/
def wordsKey : PlainKey where
  text := "@ros2_lv/0/a/1/2/MP/%/%/n/%t/std_msgs::msg::dds_::String_/TypeHashNotSupported/::,10:,:,:,,"
  chunked := by decide +kernel

def readerKey : PlainKey where
  text := "@ros2_lv/0/b/1/3/MS/%/%/m/%t/std_msgs::msg::dds_::String_/TypeHashNotSupported/::,10:,:,:,,"
  chunked := by decide +kernel

def numbersKey : PlainKey where
  text := "@ros2_lv/0/b/1/4/MS/%/%/m/%t/std_msgs::msg::dds_::Int32_/TypeHashNotSupported/::,10:,:,:,,"
  chunked := by decide +kernel

/-- A publisher and a subscription of one type, and a subscription of another type that leaves. -/
theorem listings_exact_iff_sameType :
    ∃ c, (graph (rmwZenohFormat false)).Reachable (Undisturbed (rmwZenohFormat false)) c ∧
      ListsExactly (c.state.getTopicNamesAndTypes (rmwZenohFormat false) [wordsKey, readerKey]).2
        topicAndType (live (rmwZenohFormat false) c.trace) := by
  obtain ⟨c, reached, seen⟩ := (graph (rmwZenohFormat false)).exists_of_schedule
    (Undisturbed (rmwZenohFormat false))
    [.insert numbersKey, .parse [numbersKey], .insert readerKey, .insert wordsKey,
      .remove numbersKey]
    (fun c => (c.state.cached, (live (rmwZenohFormat false) c.trace).entries.filterMap
      fun entry => topicAndType entry.2))
    ([wordsKey, readerKey],
      [("/t", "std_msgs::msg::dds_::String_"), ("/t", "std_msgs::msg::dds_::String_")])
    (by decide +kernel)
  obtain ⟨cached, pairs⟩ := Prod.mk.inj seen
  have drained : [wordsKey, readerKey].Perm c.state.cached := by rw [cached]
  have only : ∀ entry ∈ (live (rmwZenohFormat false) c.trace).entries, ∀ pair,
      topicAndType entry.2 = some pair → pair = ("/t", "std_msgs::msg::dds_::String_") := by
    intro entry alive pair typed
    have member : pair ∈ (live (rmwZenohFormat false) c.trace).entries.filterMap
        fun entry => topicAndType entry.2 := List.mem_filterMap.mpr ⟨entry, alive, typed⟩
    rw [pairs] at member
    simpa using member
  refine ⟨c, reached, (listings_exact_iff _ c reached _ drained).1.mpr ?_⟩
  intro entry alive entry' alive' name type type' pair pair'
  rw [(Prod.mk.inj (only entry alive _ pair)).2, (Prod.mk.inj (only entry' alive' _ pair')).2]

/-- A publisher and a subscription of different types on one topic: one type is listed, and the
order in which their tokens are parsed decides which. -/
theorem oneType_listed :
    ∃ c, (graph (rmwZenohFormat false)).Reachable Machine.anyStep c ∧
      (c.state.getTopicNamesAndTypes (rmwZenohFormat false) [wordsKey, numbersKey]).2 =
        [("/t", "std_msgs::msg::dds_::String_")] ∧
      (c.state.getTopicNamesAndTypes (rmwZenohFormat false) [numbersKey, wordsKey]).2 =
        [("/t", "std_msgs::msg::dds_::Int32_")] ∧
      ¬ ∀ c, (graph (rmwZenohFormat false)).Reachable Machine.anyStep c → ∀ order,
        order.Perm c.state.cached →
        ListsExactly (c.state.getTopicNamesAndTypes (rmwZenohFormat false) order).2 topicAndType
          (live (rmwZenohFormat false) c.trace) := by
  obtain ⟨c, reached, seen⟩ := (graph (rmwZenohFormat false)).exists_of_schedule Machine.anyStep
    [.insert numbersKey, .insert wordsKey]
    (fun c => (c.state.cached,
      [(c.state.getTopicNamesAndTypes (rmwZenohFormat false) [wordsKey, numbersKey]).2,
        (c.state.getTopicNamesAndTypes (rmwZenohFormat false) [numbersKey, wordsKey]).2,
        (live (rmwZenohFormat false) c.trace).entries.filterMap fun entry => topicAndType entry.2]))
    ([wordsKey, numbersKey], [[("/t", "std_msgs::msg::dds_::String_")],
      [("/t", "std_msgs::msg::dds_::Int32_")],
      [("/t", "std_msgs::msg::dds_::String_"), ("/t", "std_msgs::msg::dds_::Int32_")]])
    (by decide +kernel)
  simp only [Prod.mk.injEq, List.cons.injEq, and_true] at seen
  obtain ⟨cached, words, numbers, pairs⟩ := seen
  refine ⟨c, reached, words, numbers, fun claim => ?_⟩
  have drained : [wordsKey, numbersKey].Perm c.state.cached := by rw [cached]
  have exact := (claim c reached _ drained).2 ("/t", "std_msgs::msg::dds_::Int32_")
  rw [words, ← List.mem_filterMap, pairs] at exact
  exact absurd (exact.mpr (by decide)) (by decide)

end Tokens

end RosZ.Graph
