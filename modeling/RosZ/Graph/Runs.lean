import RosZ.Graph.Queries
import RosZ.Lib.PartialMap
import RosZ.Protocol.RmwZenoh

/-!
# Runs of the graph

What queries report along whole runs of the graph and its callers.

## Main results

* `queries_exact`: while no caller holds an entity, every query reports each live key it
  asks for once, and nothing else.
* `removal_final`: whatever callers hold, a key that is not live is never reported and a
  live one is reported once, in every run in which no entity is taken from its key while
  a caller holds it.

The first follows from the second's invariant: without callers that hold anything, only
the removal of a local entity could disturb the index, and it does not when every stored
entity has the liveliness key it is stored under (`KeysMatch`).
-/

namespace RosZ.Graph

open Protocol Transition

variable {κ ζ : Type} [DecidableEq κ]

/-! ## Steps -/

namespace GraphData

/-- What a step can do.  A local entity without a key changes nothing. -/
inductive Step (fmt : Format κ ζ) (s : GraphData κ ζ) :
    GraphLabel κ ζ → List (GraphEvent κ ζ) → GraphData κ ζ → Prop
  | insert (ke : κ) : Step fmt s (.insert ke) [.inserted ke] (s.insert ke)
  | remove (ke : κ) : Step fmt s (.remove ke) [.removed ke] (s.remove ke)
  | parse {order : List κ} (drained : order.Perm s.cached) :
      Step fmt s (.parse order) [] (s.parse fmt order)
  | visit (p : Place) {order : List κ} (drained : order.Perm s.cached) :
      Step fmt s (.visit p order) [] (s.visit fmt p order).1
  | addLocalEntity {entity : Entity ζ} {ke : κ} {s' : GraphData κ ζ}
      (keyed : fmt.toKe entity = some ke) (added : s.addLocalEntity fmt entity = some s') :
      Step fmt s (.addLocalEntity entity) [.added ke entity] s'
  | removeLocalEntity {entity : Entity ζ} {ke : κ} {s' : GraphData κ ζ}
      (keyed : fmt.toKe entity = some ke) (removed : s.removeLocalEntity fmt entity = some s') :
      Step fmt s (.removeLocalEntity entity) [.removed ke] s'
  | addUnkeyed (entity : Entity ζ) : Step fmt s (.addLocalEntity entity) [] s
  | removeUnkeyed (entity : Entity ζ) : Step fmt s (.removeLocalEntity entity) [] s
  | query {query : Query} {order : List κ} {s' : GraphData κ ζ} {reported : List (Arc κ ζ)}
      (drained : order.Perm s.cached) (answered : s.report fmt query order = some (s', reported)) :
      Step fmt s (.query query order) [] { s' with held := s'.held ++ handedOut query reported }
  | release {i : ℕ} (held : i < s.held.length) :
      Step fmt s (.release i) [] { s with held := s.held.eraseIdx i }

variable {fmt : Format κ ζ} {s s' : GraphData κ ζ}

theorem step_sound {label : GraphLabel κ ζ} {observed : List (GraphEvent κ ζ)}
    (stepped : s.step fmt label = some (s', observed)) : Step fmt s label observed s' := by
  unfold GraphData.step at stepped
  split at stepped
  · cases stepped
    exact .insert _
  · cases stepped
    exact .remove _
  · obtain ⟨drained, same⟩ := Option.ite_none_right_eq_some.mp stepped
    cases same
    exact .parse drained
  · obtain ⟨drained, same⟩ := Option.ite_none_right_eq_some.mp stepped
    cases same
    exact .visit _ drained
  · split at stepped
    · next keyed added =>
        cases stepped
        exact .addLocalEntity keyed added
    · cases stepped
      exact .addUnkeyed _
  · split at stepped
    · next keyed removed =>
        cases stepped
        exact .removeLocalEntity keyed removed
    · cases stepped
      exact .removeUnkeyed _
  · obtain ⟨drained, asked⟩ := Option.ite_none_right_eq_some.mp stepped
    obtain ⟨⟨after, reported⟩, answered, same⟩ := Option.map_eq_some_iff.mp asked
    cases same
    exact .query drained answered
  · obtain ⟨held, same⟩ := Option.ite_none_right_eq_some.mp stepped
    cases same
    exact .release held

/-- A local entity is stored under its key; the rest of the change is to the index. -/
theorem addLocalEntity_eq {entity : Entity ζ} {ke : κ} (keyed : fmt.toKe entity = some ke)
    (added : s.addLocalEntity fmt entity = some s') :
    ∃ index, s' = { s with
      parsed := s.parsed.insert ke ⟨s.nextArc, ke, entity⟩, nextArc := s.nextArc + 1, index } := by
  rw [GraphData.addLocalEntity, keyed] at added
  cases added
  exact indexAll_eq _ _

theorem removeLocalEntity_eq {entity : Entity ζ} {ke : κ} (keyed : fmt.toKe entity = some ke)
    (removed : s.removeLocalEntity fmt entity = some s') :
    ∃ index, s' = { s.remove ke with index } := by
  rw [GraphData.removeLocalEntity, keyed] at removed
  cases removed
  exact (foldl_dropKey fmt ke (nodup_places entity) (s.remove ke)).1

end GraphData

/-! ## Taking entities from callers -/

section Runs

variable {fmt : Format κ ζ}

/-- A caller holds the `Arc`. -/
def GraphData.isHeld (s : GraphData κ ζ) (a : Arc κ ζ) : Bool := s.held.any fun b => b.id = a.id

/-- No entity is taken from its key while a caller holds it, unless the key is that of a local
entity with the same key and all its places; and a local entity is not removed while another
key has an entity with the same liveliness key in one of the same places. -/
def Undisturbed (fmt : Format κ ζ) (c : Config (GraphData κ ζ) (GraphEvent κ ζ)) :
    GraphLabel κ ζ → Prop
  | .remove ke => ∀ a ∈ c.state.parsed.lookup ke, c.state.isHeld a = false
  | .addLocalEntity entity =>
      ∀ ke ∈ fmt.toKe entity, ∀ a ∈ c.state.parsed.lookup ke, c.state.isHeld a = false
  | .removeLocalEntity entity =>
      ∀ ke ∈ fmt.toKe entity,
        (∀ a ∈ c.state.parsed.lookup ke, c.state.isHeld a = false ∨
          (fmt.toKe a.entity = some ke ∧ ∀ p ∈ places a.entity, p ∈ places entity)) ∧
        ∀ entry ∈ c.state.parsed.entries, entry.1 ≠ ke → fmt.toKe entry.2.entity = some ke →
          ∀ p ∈ places entity, p ∉ places entry.2.entity
  | _ => True

instance : DecidableRel (Undisturbed fmt) := by
  intro c label
  unfold Undisturbed
  split <;> infer_instance

variable {s s' : GraphData κ ζ} {live' : AList (fun _ : κ => Entity ζ)}

omit [DecidableEq κ] in
theorem GraphData.not_held {a : Arc κ ζ} (free : s.isHeld a = false) : a ∉ s.held := by
  intro held
  have found : s.isHeld a = true := List.any_eq_true.mpr ⟨a, held, by simp⟩
  rw [free] at found
  cases found

/-- The graph follows the live keys, step by step. -/
theorem GraphData.Step.inv {label : GraphLabel κ ζ} {observed trace : List (GraphEvent κ ζ)}
    (step : Step fmt s label observed s') (inv : s.Inv fmt live')
    (meets : Undisturbed fmt ⟨s, trace⟩ label) :
    s'.Inv fmt (observed.foldl (track fmt) live') := by
  cases step with
  | insert ke =>
      refine ⟨?_, inv.tracks.insert ke⟩
      unfold GraphData.insert
      split
      · exact inv.indexed
      · exact inv.indexed.withCached _
  | remove ke =>
      exact ⟨inv.indexed.remove fun a owned => not_held (meets a owned), inv.tracks.remove ke⟩
  | parse drained => exact inv.parse drained
  | visit p drained => exact inv.visit drained p
  | @addLocalEntity entity ke _ keyed added =>
      refine ⟨?_, ?_⟩
      · rw [GraphData.addLocalEntity, keyed] at added
        cases added
        exact inv.indexed.addLocalEntity fun a owned => not_held (meets ke keyed a owned)
      · obtain ⟨index, rfl⟩ := addLocalEntity_eq keyed added
        exact inv.tracks.store ⟨s.nextArc, ke, entity⟩ rfl rfl
  | @removeLocalEntity entity ke _ keyed removed =>
      refine ⟨?_, ?_⟩
      · obtain ⟨own, foreign⟩ := meets ke keyed
        rw [GraphData.removeLocalEntity, keyed] at removed
        cases removed
        refine inv.indexed.removeLocalEntity (fun a owned => (own a owned).imp_left not_held) ?_
        intro k a other owned
        exact foreign ⟨k, a⟩ (AList.mem_lookup_iff.mp owned) other
      · obtain ⟨index, rfl⟩ := removeLocalEntity_eq keyed removed
        exact inv.tracks.remove ke
  | addUnkeyed | removeUnkeyed => exact inv
  | query drained answered => exact inv.query drained answered
  | release => exact ⟨inv.indexed.release _, inv.tracks⟩

variable {c : Config (GraphData κ ζ) (GraphEvent κ ζ)}

theorem inv_of_reachable (reached : (graph fmt).Reachable (Undisturbed fmt) c) :
    c.state.Inv fmt (live fmt c.trace) := by
  refine reached.invariant (P := fun c => c.state.Inv fmt (live fmt c.trace)) ?_ ?_
  · exact ⟨GraphData.indexed_new, fun ke => rfl⟩
  · intro c label c' inv meets moved
    obtain ⟨observed, stepped, grown⟩ := Machine.next_eq_some moved
    rw [grown, live, List.foldl_append]
    exact (GraphData.step_sound stepped).inv inv meets

/-- The entries of one key. -/
theorem filter_key {β : Type} {entries : List (Sigma fun _ : κ => β)} (distinct : entries.NodupKeys)
    (ke : κ) : entries.filter (fun entry => entry.1 = ke) =
      ((entries.dlookup ke).map (Sigma.mk ke)).toList := by
  induction entries with
  | nil => rfl
  | cons entry rest ih =>
      obtain ⟨k, b⟩ := entry
      obtain ⟨fresh, others⟩ := List.nodupKeys_cons.mp distinct
      rw [List.filter_cons, ih others]
      by_cases same : k = ke
      · subst same
        rw [List.dlookup_eq_none.mpr fresh]
        simp
      · rw [List.dlookup_cons_ne _ _ (Ne.symm same)]
        simp [same]

/-- How often a key with a wanted value is among the entries. -/
theorem countP_key {β : Type} (m : AList (fun _ : κ => β)) (wanted : β → Bool) (ke : κ) :
    (m.entries.filter fun entry => wanted entry.2).countP (fun entry => entry.1 = ke) =
      if (m.lookup ke).any wanted then 1 else 0 := by
  rw [List.countP_eq_length_filter, List.filter_comm, filter_key m.nodupKeys ke]
  show _ = if (m.entries.dlookup ke).any wanted then 1 else 0
  cases m.entries.dlookup ke with
  | none => rfl
  | some b => cases found : wanted b <;> simp [found]

/-- **Removal is final, whoever holds references.**  A key that is not live is not reported by
any query, and a live one is reported once by every query that asks for its entity. -/
theorem removal_final (fmt : Format κ ζ) (c : Config (GraphData κ ζ) (GraphEvent κ ζ))
    (reached : (graph fmt).Reachable (Undisturbed fmt) c) (ke : κ) (query : Query) (order : List κ)
    (drained : order.Perm c.state.cached) (s' : GraphData κ ζ) (reported : List (Arc κ ζ))
    (asked : c.state.report fmt query order = some (s', reported)) :
    reported.countP (fun a => a.key = ke) =
      if ((live fmt c.trace).lookup ke).any query.asks then 1 else 0 := by
  have perm := (inv_of_reachable reached).report_perm drained asked
  have counted := perm.countP_eq fun entry => decide (entry.1 = ke)
  rw [List.countP_map] at counted
  exact counted.trans (countP_key _ query.asks ke)

/-! ## Graphs whose entities nobody holds -/

/-- The graph is used only while no caller holds an entity, and every key that is inserted is the
liveliness key of the entity it parses to. -/
def Unshared (fmt : Format κ ζ) (c : Config (GraphData κ ζ) (GraphEvent κ ζ)) :
    GraphLabel κ ζ → Prop
  | .insert ke => c.state.held.length = 0 ∧ ∀ entity ∈ fmt.parser ke, fmt.toKe entity = some ke
  | .release _ => True
  | _ => c.state.held.length = 0

instance : DecidableRel (Unshared fmt) := by
  intro c label
  unfold Unshared
  split <;> infer_instance

/-- Every stored entity has the liveliness key it is stored under, and so will every cached
one. -/
structure KeysMatch (fmt : Format κ ζ) (s : GraphData κ ζ) : Prop where
  owned : ∀ ke a, s.Owns ke a → fmt.toKe a.entity = some ke
  cached : ∀ ke ∈ s.cached, ∀ entity ∈ fmt.parser ke, fmt.toKe entity = some ke

omit [DecidableEq κ] in
theorem isHeld_of_unheld (free : s.held.length = 0) (a : Arc κ ζ) : s.isHeld a = false := by
  rw [GraphData.isHeld, List.length_eq_zero_iff.mp free]
  rfl

theorem undisturbed_of_unshared {trace : List (GraphEvent κ ζ)} {label : GraphLabel κ ζ}
    (keys : KeysMatch fmt s) (meets : Unshared fmt ⟨s, trace⟩ label) :
    Undisturbed fmt ⟨s, trace⟩ label := by
  cases label with
  | remove ke => exact fun a _ => isHeld_of_unheld meets a
  | addLocalEntity entity => exact fun ke _ a _ => isHeld_of_unheld meets a
  | removeLocalEntity entity =>
      refine fun ke _ => ⟨fun a _ => .inl (isHeld_of_unheld meets a), ?_⟩
      intro entry stored other same
      have own := keys.owned entry.1 entry.2 (AList.mem_lookup_iff.mpr stored)
      exact absurd (Option.some.inj (own.symm.trans same)) other
  | _ => trivial

/-- An entity is stored under its own key, whatever becomes of the index. -/
theorem KeysMatch.store (keys : KeysMatch fmt s) {ke : κ} {arc : Arc κ ζ}
    (keyed : fmt.toKe arc.entity = some ke) (parsed : s'.parsed = s.parsed.insert ke arc)
    (cached : s'.cached = s.cached) : KeysMatch fmt s' := by
  refine ⟨fun k a own => ?_, ?_⟩
  · rw [GraphData.Owns, parsed] at own
    rcases PartialMap.lookup_insert_eq_some_iff.mp own with ⟨rfl, rfl⟩ | ⟨-, before⟩
    · exact keyed
    · exact keys.owned k a before
  · rw [cached]
    exact keys.cached

theorem KeysMatch.parseKey (keys : KeysMatch fmt s) {ke : κ}
    (matching : ∀ entity ∈ fmt.parser ke, fmt.toKe entity = some ke) :
    KeysMatch fmt (s.parseKey fmt ke) := by
  unfold GraphData.parseKey
  split
  · exact keys
  · cases parses : fmt.parser ke with
    | none => exact keys
    | some entity =>
        obtain ⟨index, shape⟩ := GraphData.indexAll_eq { s with nextArc := s.nextArc + 1 }
          ⟨s.nextArc, ke, entity⟩
        refine @KeysMatch.store _ _ _ _ _ _ keys ke ⟨s.nextArc, ke, entity⟩
          (matching entity parses) ?_ ?_
        · simp only [shape]
        · simp only [shape]

theorem KeysMatch.parse (keys : KeysMatch fmt s) {order : List κ}
    (drained : order.Perm s.cached) : KeysMatch fmt (s.parse fmt order) := by
  have each : ∀ ke ∈ order, ∀ entity ∈ fmt.parser ke, fmt.toKe entity = some ke :=
    fun ke member => keys.cached ke (drained.mem_iff.mp member)
  have start : KeysMatch fmt { s with cached := [] } := ⟨keys.owned, by simp⟩
  unfold GraphData.parse
  generalize { s with cached := [] } = t at start
  clear drained
  induction order generalizing t with
  | nil => exact start
  | cons ke rest ih =>
      refine ih (fun k member => each k (List.mem_cons_of_mem _ member)) _ ?_
      exact start.parseKey (each ke List.mem_cons_self)

/-- The keys match whatever becomes of the index and the callers. -/
theorem KeysMatch.of_parsed (keys : KeysMatch fmt s) (parsed : s'.parsed = s.parsed)
    (cached : s'.cached = s.cached) : KeysMatch fmt s' := by
  refine ⟨fun ke a own => keys.owned ke a ?_, ?_⟩
  · rwa [GraphData.Owns, parsed] at own
  · rw [cached]
    exact keys.cached

theorem KeysMatch.visit (keys : KeysMatch fmt s) {order : List κ} (drained : order.Perm s.cached)
    (p : Place) : KeysMatch fmt (s.visit fmt p order).1 := by
  have parsed := keys.parse drained
  cases found : (s.parse fmt order).index.lookup p with
  | none =>
      simp only [GraphData.visit, found]
      exact parsed
  | some slab =>
      simp only [GraphData.visit, found]
      exact parsed.of_parsed rfl rfl

theorem KeysMatch.report (keys : KeysMatch fmt s) {order : List κ}
    (drained : order.Perm s.cached) {query : Query} {reported : List (Arc κ ζ)}
    (asked : s.report fmt query order = some (s', reported)) : KeysMatch fmt s' := by
  cases GraphData.report_sound asked with
  | visit kind p => exact keys.visit drained p
  | nodes => exact keys.parse drained

theorem KeysMatch.remove (keys : KeysMatch fmt s) (ke : κ) : KeysMatch fmt (s.remove ke) := by
  refine ⟨fun k a own => keys.owned k a (GraphData.owns_remove.mp own).2, fun k member => ?_⟩
  exact keys.cached k (List.mem_filter.mp member).1

theorem KeysMatch.insert (keys : KeysMatch fmt s) {ke : κ}
    (matching : ∀ entity ∈ fmt.parser ke, fmt.toKe entity = some ke) :
    KeysMatch fmt (s.insert ke) := by
  unfold GraphData.insert
  split
  · exact keys
  · refine ⟨keys.owned, fun k member => ?_⟩
    rcases List.mem_cons.mp member with rfl | old
    · exact matching
    · exact keys.cached k old

theorem GraphData.Step.keysMatch {label : GraphLabel κ ζ}
    {observed trace : List (GraphEvent κ ζ)} (step : GraphData.Step fmt s label observed s')
    (keys : KeysMatch fmt s) (meets : Unshared fmt ⟨s, trace⟩ label) : KeysMatch fmt s' := by
  cases step with
  | insert ke => exact keys.insert meets.2
  | remove ke => exact keys.remove ke
  | parse drained => exact keys.parse drained
  | visit p drained => exact keys.visit drained p
  | @addLocalEntity entity ke _ keyed added =>
      obtain ⟨index, rfl⟩ := GraphData.addLocalEntity_eq keyed added
      exact @KeysMatch.store _ _ _ _ _ _ keys ke ⟨s.nextArc, ke, entity⟩ keyed rfl rfl
  | removeLocalEntity keyed removed =>
      obtain ⟨index, rfl⟩ := GraphData.removeLocalEntity_eq keyed removed
      exact (keys.remove _).of_parsed rfl rfl
  | addUnkeyed | removeUnkeyed => exact keys
  | query drained answered => exact (keys.report drained answered).of_parsed rfl rfl
  | release => exact keys.of_parsed rfl rfl

theorem inv_of_unshared (reached : (graph fmt).Reachable (Unshared fmt) c) :
    c.state.Inv fmt (live fmt c.trace) := by
  suffices both : c.state.Inv fmt (live fmt c.trace) ∧ KeysMatch fmt c.state from both.1
  refine reached.invariant (P := fun c => c.state.Inv fmt (live fmt c.trace) ∧
    KeysMatch fmt c.state) ?_ ?_
  · refine ⟨⟨GraphData.indexed_new, fun ke => rfl⟩, ⟨fun ke a own => ?_, by simp [graph,
      Machine.start, GraphData.new]⟩⟩
    cases own
  · intro c label c' both meets moved
    obtain ⟨inv, keys⟩ := both
    obtain ⟨observed, stepped, grown⟩ := Machine.next_eq_some moved
    refine ⟨?_, (GraphData.step_sound stepped).keysMatch keys meets⟩
    rw [grown, live, List.foldl_append]
    have unshared : Unshared fmt ⟨c.state, c.trace⟩ label := meets
    exact (GraphData.step_sound stepped).inv inv (undisturbed_of_unshared keys unshared)

/-- The name and namespace under which a node is listed. -/
def nodeName : Entity ζ → Option (String × String)
  | .node n => some ((nodeKey n).2, denormalize (nodeKey n).1)
  | .endpoint _ => none

/-- What the queries return when they are exact: each live key that is asked for once, and nothing
else. -/
structure Exact (fmt : Format κ ζ) (s : GraphData κ ζ) (order : List κ)
    (live : AList (fun _ : κ => Entity ζ)) : Prop where
  count : ∀ kind name, kind ≠ .node → s.count fmt kind name order =
    some (live.entries.filter fun entry =>
      entityKind entry.2 = kind ∧ countPlace kind name ∈ places entry.2).length
  byTopic : ∀ kind topic, kind ≠ .node → ∃ arcs,
    s.getEntitiesByTopic fmt kind topic order = some arcs ∧
    (arcs.map Arc.entry).Perm (live.entries.filter fun entry =>
      entityKind entry.2 = kind ∧ .topic topic ∈ places entry.2)
  byService : ∀ kind serviceName, kind = .service ∨ kind = .client → ∃ arcs,
    s.getEntitiesByService fmt kind serviceName order = some arcs ∧
    (arcs.map Arc.entry).Perm (live.entries.filter fun entry =>
      entityKind entry.2 = kind ∧ .service serviceName ∈ places entry.2)
  byNode : ∀ kind node, kind ≠ .node → ∃ endpoints,
    s.getEntitiesByNode fmt kind node order = some endpoints ∧
    endpoints.Perm ((live.entries.filter fun entry =>
      entityKind entry.2 = kind ∧ .node node ∈ places entry.2).filterMap
        fun entry => entityGetEndpoint entry.2)
  nodeNames : (s.getNodeNames fmt order).Perm
    (live.entries.filterMap fun entry => nodeName entry.2)

/-- The names are listed with the keys of the slabs, which are those of the nodes. -/
theorem getNodeNames_eq {live : AList (fun _ : κ => Entity ζ)} (inv : s.Inv fmt live)
    {order : List κ} (drained : order.Perm s.cached) :
    s.getNodeNames fmt order =
      (((s.parse fmt order).nodeEntries.map (·.2)).map Arc.entry).filterMap
        fun entry => nodeName entry.2 := by
  have parsed := inv.parse drained
  rw [GraphData.getNodeNames, List.map_map, List.filterMap_map, ← List.filterMap_eq_map]
  refine List.filterMap_congr ?_
  rintro ⟨key, a⟩ member
  obtain ⟨-, n, entity, rfl⟩ := parsed.nodeEntries_owned member
  simp only [Function.comp_apply, Arc.entry, entity, nodeName]

/-- **Queries are exact** in every run in which the graph is used only while nobody holds an
entity and every inserted key is the liveliness key of the entity it parses to. -/
theorem queries_exact (fmt : Format κ ζ) (c : Config (GraphData κ ζ) (GraphEvent κ ζ))
    (reached : (graph fmt).Reachable (Unshared fmt) c) (order : List κ)
    (drained : order.Perm c.state.cached) :
    Exact fmt c.state order (live fmt c.trace) := by
  have inv := inv_of_unshared reached
  refine ⟨?_, ?_, ?_, ?_, ?_⟩
  · intro kind name sensible
    have visited := inv.visitKind_perm drained kind (countPlace kind name)
    rw [GraphData.count, GraphData.report, if_pos sensible, Option.map_some,
      ← visited.length_eq, List.length_map]
  · intro kind topic sensible
    refine ⟨_, ?_, inv.visitKind_perm drained kind (.topic topic)⟩
    rw [GraphData.getEntitiesByTopic, GraphData.report, if_pos sensible, Option.map_some]
  · intro kind serviceName sensible
    refine ⟨_, ?_, inv.visitKind_perm drained kind (.service serviceName)⟩
    rw [GraphData.getEntitiesByService, GraphData.report, if_pos sensible, Option.map_some]
  · intro kind node sensible
    have visited := (inv.visitKind_perm drained kind (.node node)).filterMap
      fun entry => entityGetEndpoint entry.2
    rw [List.filterMap_map] at visited
    refine ⟨_, ?_, visited⟩
    rw [GraphData.getEntitiesByNode, GraphData.report, if_pos sensible, Option.map_some]
    rfl
  · have nodes := ((inv.parse drained).nodeEntries_perm (GraphData.cached_parse order)).filterMap
      fun entry => nodeName entry.2
    rw [getNodeNames_eq inv drained]
    refine nodes.trans (List.Perm.of_eq ?_)
    rw [List.filterMap_filter]
    refine List.filterMap_congr fun entry _ => ?_
    cases entry.2 with
    | node n => rfl
    | endpoint e => rfl

end Runs

/-! ## Runs with the tokens of rmw_zenoh -/

section Tokens

open RmwZenoh

/-- The keys of a graph that is not given another pattern and parser. -/
def rmwZenohFormat (noTypeHash : Bool) : Format PlainKey SessionId where
  parser ke := (parseLiveliness ke).toOption
  toKe
    | .node n => nodeLivelinessKeyExpr n
    | .endpoint e => livelinessKeyExpr noTypeHash e e.node.zId

/-- The token of a publisher that does not announce its type. -/
def talkerKey : PlainKey where
  text := "@ros2_lv/0/a/1/2/MP/%/%/n/%t/EMPTY_TOPIC_TYPE/EMPTY_TOPIC_HASH/::,10:,:,:,,"
  chunked := by decide +kernel

/-- The talker is asked for, then its key goes and comes back. -/
def comesBack : List (GraphLabel PlainKey SessionId) :=
  [.insert talkerKey, .query (.getEntitiesByTopic .publisher "/t") [talkerKey],
    .release 0, .remove talkerKey, .insert talkerKey]

theorem queries_exact_comesBack :
    ∃ c, (graph (rmwZenohFormat false)).Reachable (Unshared (rmwZenohFormat false)) c ∧
      c.state.count (rmwZenohFormat false) .publisher "/t" [talkerKey] = some 1 := by
  obtain ⟨c, c', reached, run, seen⟩ := @Machine.exists_of_execution _ _ _
    (graph (rmwZenohFormat false)) (Unshared (rmwZenohFormat false)) _ _ comesBack []
    (fun c _ => (c.state.cached, ((live (rmwZenohFormat false) c.trace).entries.filter
      fun entry => entityKind entry.2 = .publisher ∧
        countPlace .publisher "/t" ∈ places entry.2).length))
    ([talkerKey], 1) (by decide +kernel)
  obtain ⟨cached, counted⟩ := Prod.mk.inj seen
  have drained : [talkerKey].Perm c.state.cached := by rw [cached]
  have one := (queries_exact (rmwZenohFormat false) c reached [talkerKey] drained).count
    .publisher "/t" (by decide)
  rw [counted] at one
  exact ⟨c, reached, one⟩

/-- The entity of the talker. -/
def talker : Entity SessionId :=
  .endpoint {
    id := 2
    node := ⟨0, ⟨0xa, by decide, by decide⟩, 1, "n", "", ""⟩
    kind := .publisher
    topic := "/t"
    typeInfo := none
    qos := {} }

/-- A caller keeps a local talker that is removed. -/
def keptLocally : List (GraphLabel PlainKey SessionId) :=
  [.addLocalEntity talker, .query (.getEntitiesByTopic .publisher "/t") [],
    .removeLocalEntity talker]

theorem removal_final_keptLocally :
    ∃ c, (graph (rmwZenohFormat false)).Reachable (Undisturbed (rmwZenohFormat false)) c ∧
      c.state.held.length = 1 ∧ ∃ s' reported,
        c.state.report (rmwZenohFormat false) (.count .publisher "/t") [] = some (s', reported) ∧
        reported.countP (fun a => a.key = talkerKey) = 0 := by
  obtain ⟨c, c', reached, run, seen⟩ := @Machine.exists_of_execution _ _ _
    (graph (rmwZenohFormat false)) (Undisturbed (rmwZenohFormat false)) _ _ keptLocally []
    (fun c _ => (c.state.cached.isEmpty, c.state.held.length,
      ((live (rmwZenohFormat false) c.trace).lookup talkerKey).any
        (Query.count .publisher "/t").asks))
    (true, 1, false) (by decide +kernel)
  simp only [Prod.mk.injEq, List.isEmpty_iff] at seen
  obtain ⟨cached, held, gone⟩ := seen
  have drained : [].Perm c.state.cached := by rw [cached]
  have final := removal_final (rmwZenohFormat false) c reached talkerKey (.count .publisher "/t") []
    drained _ _ rfl
  rw [gone, if_neg Bool.false_ne_true] at final
  exact ⟨c, reached, held, _, _, rfl, final⟩

/-- The event is the removal of the key. -/
def GraphEvent.removes {κ ζ : Type} [DecidableEq κ] (ke : κ) : GraphEvent κ ζ → Bool
  | .removed k => k = ke
  | _ => false

/-- A caller keeps a talker whose key is removed. -/
def keptAfterRemoval : List (GraphLabel PlainKey SessionId) :=
  [.insert talkerKey, .query (.getEntitiesByTopic .publisher "/t") [talkerKey],
    .remove talkerKey]

/-- **An entity that a caller holds is still reported after its key was removed.** -/
theorem removal_not_final :
    ¬ ∀ c, (graph (rmwZenohFormat false)).Reachable Machine.anyStep c →
      ∀ ke query order s' reported, c.trace.any (·.removes ke) = true →
        order.Perm c.state.cached →
        c.state.report (rmwZenohFormat false) query order = some (s', reported) →
        reported.countP (fun a => a.key = ke) =
          if ((live (rmwZenohFormat false) c.trace).lookup ke).any query.asks then 1 else 0 := by
  intro final
  obtain ⟨c, c', reached, run, seen⟩ := @Machine.exists_of_execution _ _ _
    (graph (rmwZenohFormat false)) Machine.anyStep _ _ keptAfterRemoval []
    (fun c _ => (c.trace.any (·.removes talkerKey), c.state.cached.isEmpty,
      (c.state.visitKind (rmwZenohFormat false) .publisher (.topic "/t") []).2.countP
        (fun a => a.key = talkerKey),
      ((live (rmwZenohFormat false) c.trace).lookup talkerKey).any
        (Query.count .publisher "/t").asks))
    (true, true, 1, false) (by decide +kernel)
  simp only [Prod.mk.injEq, List.isEmpty_iff] at seen
  obtain ⟨removed, cached, counted, gone⟩ := seen
  have drained : [].Perm c.state.cached := by rw [cached]
  have none := final c reached talkerKey (.count .publisher "/t") [] _ _ removed drained rfl
  rw [gone, if_neg Bool.false_ne_true] at none
  exact absurd (counted.symm.trans none) Nat.one_ne_zero

end Tokens

end RosZ.Graph
