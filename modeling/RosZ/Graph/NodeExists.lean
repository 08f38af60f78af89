import RosZ.Graph.Runs

/-!
# Which nodes exist, and which keys are pending

Two questions about the maps of the graph, along whole runs.

* `node_exists` looks for a slab, and a slab stays when its last entity leaves.  So its
  answer is right as long as no step takes the last live entity of a node that has a
  slab, and wrong right after the first step that does (`nodeExists_exact`).
* A key that is cached is not parsed, unless an entity is added locally while its key is
  still cached (`separate_exact`).

## Design notes

Slabs are only ever added, so what a step does to the places that have one is the same
for all of them: `mem_index_parse` for everything that parses, and no change for
everything that removes.
-/

namespace RosZ.Graph

open Protocol Transition

variable {κ ζ : Type} [DecidableEq κ]

/-- The key of an entity's node, or of the node itself. -/
def nodeOf : Entity ζ → NodeKey
  | .node n => nodeKey n
  | .endpoint e => nodeKey e.node

omit [DecidableEq κ] in
/-- An entity is indexed under its node, and under no other. -/
theorem node_mem_places_iff {entity : Entity ζ} {k : NodeKey} :
    .node k ∈ places entity ↔ nodeOf entity = k := by
  cases entity with
  | node n => simp [places, nodeOf, eq_comm]
  | endpoint e =>
      obtain ⟨id, node, kind, topic, typeInfo, qos⟩ := e
      cases kind <;> simp [places, nodeOf, eq_comm]

namespace GraphData

/-- Check if a node exists in the graph. -/
def nodeExists (fmt : Format κ ζ) (s : GraphData κ ζ) (k : NodeKey) (order : List κ) :
    GraphData κ ζ × Bool :=
  let s := s.parse fmt order
  (s, decide (Place.node k ∈ s.index))

/-! ## Places with a slab -/

section Places

variable {fmt : Format κ ζ} {q : Place}

omit [DecidableEq κ] in
theorem mem_index_foldl_indexAt (a : Arc κ ζ) (ps : List Place) (s : GraphData κ ζ) :
    q ∈ (ps.foldl (indexAt a) s).index ↔ q ∈ ps ∨ q ∈ s.index := by
  induction ps generalizing s with
  | nil => simp
  | cons p ps ih =>
      have first : q ∈ (indexAt a s p).index ↔ q = p ∨ q ∈ s.index := AList.mem_insert _
      rw [List.foldl_cons, ih, first, List.mem_cons]
      tauto

theorem mem_index_foldl_dropKey (ke : κ) (ps : List Place) (s : GraphData κ ζ) :
    q ∈ (ps.foldl (dropKey fmt ke) s).index ↔ q ∈ s.index := by
  induction ps generalizing s with
  | nil => rfl
  | cons p ps ih =>
      rw [List.foldl_cons, ih]
      unfold dropKey
      cases stored : s.index.lookup p with
      | none => rfl
      | some slab =>
          have known : p ∈ s.index := AList.lookup_isSome.mp (by rw [stored]; rfl)
          refine (AList.mem_insert _).trans (or_iff_right_of_imp ?_)
          rintro rfl
          exact known

/-- A place gets a slab from a key that parses to an entity there, if the key was not parsed
before. -/
theorem mem_index_parseKey {s : GraphData κ ζ} {ke : κ} :
    q ∈ (s.parseKey fmt ke).index ↔
      (ke ∉ s.parsed ∧ ∃ entity, fmt.parser ke = some entity ∧ q ∈ places entity) ∨
        q ∈ s.index := by
  unfold parseKey
  by_cases owned : ke ∈ s.parsed
  · simp [owned]
  · rw [if_neg owned]
    cases parses : fmt.parser ke with
    | none => simp
    | some entity =>
        refine (mem_index_foldl_indexAt _ _ _).trans ?_
        simp [owned]

/-- Parsing takes no slab away. -/
theorem mem_index_parse {s : GraphData κ ζ} (order : List κ) (known : q ∈ s.index) :
    q ∈ (s.parse fmt order).index := by
  have start : q ∈ { s with cached := [] }.index := known
  unfold parse
  generalize { s with cached := [] } = t at start
  induction order generalizing t with
  | nil => exact start
  | cons ke rest ih => exact ih _ (mem_index_parseKey.mpr (.inr start))

/-- A visit parses and cleans a slab. -/
theorem visit_state (fmt : Format κ ζ) (s : GraphData κ ζ) (p : Place) (order : List κ) :
    ∃ index, (s.visit fmt p order).1 = { s.parse fmt order with index } ∧
      ∀ q, q ∈ index ↔ q ∈ (s.parse fmt order).index := by
  cases stored : (s.parse fmt order).index.lookup p with
  | none => exact ⟨_, by simp only [visit, stored], fun q => Iff.rfl⟩
  | some slab =>
      have known : p ∈ (s.parse fmt order).index := AList.lookup_isSome.mp (by rw [stored]; rfl)
      refine ⟨(s.parse fmt order).index.insert p ((s.parse fmt order).retainAlive slab),
        by simp only [visit, stored], fun q => ?_⟩
      refine (AList.mem_insert _).trans (or_iff_right_of_imp ?_)
      rintro rfl
      exact known

/-- A query parses and cleans at most one slab. -/
theorem report_state {s s' : GraphData κ ζ} {query : Query} {order : List κ}
    {reported : List (Arc κ ζ)} (asked : s.report fmt query order = some (s', reported)) :
    ∃ index, s' = { s.parse fmt order with index } ∧
      ∀ q, q ∈ index ↔ q ∈ (s.parse fmt order).index := by
  cases report_sound asked with
  | visit kind p => exact visit_state fmt s p order
  | nodes => exact ⟨_, rfl, fun q => Iff.rfl⟩

end Places

/-! ## Live keys and slabs -/

/-- The live keys are known, and every stored entity has a slab at each of its places. -/
structure Listed (fmt : Format κ ζ) (s : GraphData κ ζ) (pending : List κ)
    (live : AList (fun _ : κ => Entity ζ)) : Prop where
  tracks : s.Tracks fmt pending live
  complete : ∀ ke a, s.Owns ke a → ∀ p ∈ places a.entity, p ∈ s.index

/-- Every node with a slab has a live entity. -/
def Populated (s : GraphData κ ζ) (live : AList (fun _ : κ => Entity ζ)) : Prop :=
  ∀ k, .node k ∈ s.index → ∃ ke e, live.lookup ke = some e ∧ nodeOf e = k

variable {fmt : Format κ ζ} {s s' : GraphData κ ζ} {live' : AList (fun _ : κ => Entity ζ)}

/-- A new entity that is stored gets its slabs. -/
theorem Listed.store {pending : List κ} (listed : s.Listed fmt pending live') {ke : κ}
    {arc : Arc κ ζ} (parsed : s'.parsed = s.parsed.insert ke arc)
    (grown : ∀ q, q ∈ s'.index ↔ q ∈ places arc.entity ∨ q ∈ s.index) :
    ∀ k a, s'.Owns k a → ∀ p ∈ places a.entity, p ∈ s'.index := by
  intro k a owned p member
  rw [Owns, parsed] at owned
  rcases PartialMap.lookup_insert_eq_some_iff.mp owned with ⟨-, rfl⟩ | ⟨-, before⟩
  · exact (grown p).mpr (.inl member)
  · exact (grown p).mpr (.inr (listed.complete k a before p member))

theorem Listed.parseKey {ke : κ} {rest : List κ} (listed : s.Listed fmt (ke :: rest) live') :
    (s.parseKey fmt ke).Listed fmt rest live' := by
  refine ⟨listed.tracks.parseKey, ?_⟩
  unfold GraphData.parseKey
  split
  · exact listed.complete
  · cases parses : fmt.parser ke with
    | none => exact listed.complete
    | some entity =>
        obtain ⟨index, shape⟩ := indexAll_eq { s with nextArc := s.nextArc + 1 }
          ⟨s.nextArc, ke, entity⟩
        refine @Listed.store _ _ _ _ _ _ _ _ listed ke ⟨s.nextArc, ke, entity⟩ ?_ fun q =>
          mem_index_foldl_indexAt _ _ _
        simp only [shape]

/-- What becomes a slab on parsing is that of a live key. -/
theorem Populated.parseKey {ke : κ} {rest : List κ} (populated : s.Populated live')
    (tracks : s.Tracks fmt (ke :: rest) live') : (s.parseKey fmt ke).Populated live' := by
  intro k known
  rcases mem_index_parseKey.mp known with ⟨absent, entity, parses, member⟩ | before
  · refine ⟨ke, entity, ?_, node_mem_places_iff.mp member⟩
    rw [tracks ke, AList.lookup_eq_none.mpr absent]
    simp [parses]
  · exact populated k before

theorem Listed.parse (listed : s.Listed fmt s.cached live') {order : List κ}
    (drained : order.Perm s.cached) : (s.parse fmt order).Listed fmt [] live' ∧
      (s.Populated live' → (s.parse fmt order).Populated live') := by
  have start : Listed fmt { s with cached := [] } order live' :=
    ⟨listed.tracks.congr fun ke => drained.mem_iff.symm, listed.complete⟩
  have same : s.Populated live' → Populated { s with cached := [] } live' := id
  unfold GraphData.parse
  generalize { s with cached := [] } = t at start same
  clear drained
  induction order generalizing t with
  | nil => exact ⟨start, same⟩
  | cons ke rest ih =>
      exact ih _ start.parseKey fun populated => (same populated).parseKey start.tracks

/-- After parsing, a live key is stored with its entity. -/
theorem Listed.owned_of_live (listed : s.Listed fmt [] live') {ke : κ} {e : Entity ζ}
    (alive : live'.lookup ke = some e) : ∃ a, s.Owns ke a ∧ a.entity = e := by
  have found := listed.tracks ke
  rw [alive] at found
  cases stored : s.parsed.lookup ke with
  | none => simp [stored] at found
  | some a =>
      simp only [stored, Option.some.injEq] at found
      exact ⟨a, stored, found.symm⟩

/-- `node_exists` answers, for every node, whether it has a live entity. -/
def NodesExact (fmt : Format κ ζ) (s : GraphData κ ζ) (live : AList (fun _ : κ => Entity ζ)) :
    Prop :=
  ∀ k order, order.Perm s.cached →
    ((s.nodeExists fmt k order).2 = true ↔ ∃ ke e, live.lookup ke = some e ∧ nodeOf e = k)

/-- **The answers are right exactly when every node with a slab has a live entity.** -/
theorem Listed.nodesExact_iff (listed : s.Listed fmt s.cached live') :
    s.NodesExact fmt live' ↔ s.Populated live' := by
  constructor
  · intro exact' k known
    refine (exact' k s.cached (.refl _)).mp ?_
    exact decide_eq_true (mem_index_parse s.cached known)
  · intro populated k order drained
    obtain ⟨listed', populated'⟩ := listed.parse drained
    show decide (Place.node k ∈ (s.parse fmt order).index) = true ↔ _
    rw [decide_eq_true_eq]
    refine ⟨populated' populated k, ?_⟩
    rintro ⟨ke, e, alive, rfl⟩
    obtain ⟨a, owned, rfl⟩ := listed'.owned_of_live alive
    exact listed'.complete ke a owned _ (node_mem_places_iff.mpr rfl)

/-! ## Steps -/

/-- Nothing that is listed depends on who holds references, or on what is in a slab. -/
theorem Listed.withIndex (listed : s.Listed fmt s.cached live')
    {index : AList (fun _ : Place => Slab κ ζ)} (same : ∀ q, q ∈ index ↔ q ∈ s.index)
    (held : List (Arc κ ζ)) : Listed fmt { s with index, held } s.cached live' :=
  ⟨listed.tracks, fun ke a owned p member => (same p).mpr (listed.complete ke a owned p member)⟩

theorem Listed.remove (listed : s.Listed fmt s.cached live') (ke : κ) :
    (s.remove ke).Listed fmt (s.remove ke).cached (live'.erase ke) :=
  ⟨listed.tracks.remove ke, fun k a owned => listed.complete k a (owns_remove.mp owned).2⟩

theorem mem_index_addLocalEntity {entity : Entity ζ} {ke : κ} (keyed : fmt.toKe entity = some ke)
    (added : s.addLocalEntity fmt entity = some s') (q : Place) :
    q ∈ s'.index ↔ q ∈ places entity ∨ q ∈ s.index := by
  rw [GraphData.addLocalEntity, keyed] at added
  cases added
  exact mem_index_foldl_indexAt _ _ _

theorem mem_index_removeLocalEntity {entity : Entity ζ} {ke : κ}
    (keyed : fmt.toKe entity = some ke) (removed : s.removeLocalEntity fmt entity = some s')
    (q : Place) : q ∈ s'.index ↔ q ∈ s.index := by
  rw [GraphData.removeLocalEntity, keyed] at removed
  cases removed
  exact mem_index_foldl_dropKey _ _ _

/-- The live keys and the slabs follow every step. -/
theorem Step.listed {label : GraphLabel κ ζ} {observed : List (GraphEvent κ ζ)}
    (step : Step fmt s label observed s') (listed : s.Listed fmt s.cached live') :
    s'.Listed fmt s'.cached (observed.foldl (track fmt) live') := by
  cases step with
  | insert ke =>
      refine ⟨listed.tracks.insert ke, ?_⟩
      unfold GraphData.insert
      split
      · exact listed.complete
      · exact listed.complete
  | remove ke => exact listed.remove ke
  | parse drained =>
      rw [cached_parse]
      exact (listed.parse drained).1
  | @visit p order drained =>
      obtain ⟨index, shape, same⟩ := visit_state fmt s p order
      have parsed := (listed.parse drained).1
      rw [← @cached_parse _ _ _ fmt s order] at parsed
      rw [shape]
      exact parsed.withIndex same _
  | @addLocalEntity entity ke _ keyed added =>
      have grown := mem_index_addLocalEntity keyed added
      obtain ⟨index, rfl⟩ := addLocalEntity_eq keyed added
      exact ⟨listed.tracks.store ⟨s.nextArc, ke, entity⟩ rfl rfl,
        @Listed.store _ _ _ _ _ _ _ _ listed ke ⟨s.nextArc, ke, entity⟩ rfl grown⟩
  | @removeLocalEntity entity ke _ keyed removed =>
      have same := mem_index_removeLocalEntity keyed removed
      obtain ⟨index, rfl⟩ := removeLocalEntity_eq keyed removed
      exact (listed.remove ke).withIndex same _
  | addUnkeyed | removeUnkeyed => exact listed
  | @query _ order _ _ drained answered =>
      obtain ⟨index, rfl, same⟩ := report_state answered
      have parsed := (listed.parse drained).1
      rw [← @cached_parse _ _ _ fmt s order] at parsed
      exact parsed.withIndex same _
  | release => exact ⟨listed.tracks, listed.complete⟩

/-- Taking a key leaves a live entity to its node, if the node has a slab. -/
def NodeSurvives (s : GraphData κ ζ) (live : AList (fun _ : κ => Entity ζ)) (ke : κ) : Prop :=
  ∀ e ∈ live.lookup ke, .node (nodeOf e) ∈ s.index →
    ∃ entry ∈ live.entries, entry.1 ≠ ke ∧ nodeOf entry.2 = nodeOf e

instance (s : GraphData κ ζ) (live : AList (fun _ : κ => Entity ζ)) (ke : κ) :
    Decidable (s.NodeSurvives live ke) := by
  unfold NodeSurvives
  infer_instance

/-- Taking a key leaves every slab of a node with a live entity exactly when its own node
survives. -/
theorem Populated.erase_iff (populated : s.Populated live') (ke : κ)
    (same : ∀ q, q ∈ s'.index ↔ q ∈ s.index) :
    s'.Populated (live'.erase ke) ↔ s.NodeSurvives live' ke := by
  constructor
  · intro after e alive known
    obtain ⟨k, e', found, node⟩ := after (nodeOf e) ((same _).mpr known)
    have other : k ≠ ke := by
      rintro rfl
      rw [AList.lookup_erase] at found
      cases found
    rw [AList.lookup_erase_ne other] at found
    exact ⟨⟨k, e'⟩, AList.mem_lookup_iff.mp found, other, node⟩
  · intro survives k known
    obtain ⟨k', e, alive, rfl⟩ := populated k ((same _).mp known)
    by_cases taken : k' = ke
    · subst taken
      obtain ⟨⟨k'', e'⟩, found, other, node⟩ := survives e alive ((same _).mp known)
      exact ⟨k'', e', by rw [AList.lookup_erase_ne other]; exact AList.mem_lookup_iff.mpr found,
        node⟩
    · exact ⟨k', e, by rw [AList.lookup_erase_ne taken]; exact alive, rfl⟩

/-- Storing an entity leaves every slab of a node with a live entity exactly when the node that
loses the key survives. -/
theorem Populated.insert_iff (populated : s.Populated live') (ke : κ) (entity : Entity ζ)
    (grown : ∀ q, q ∈ s'.index ↔ q ∈ places entity ∨ q ∈ s.index) :
    s'.Populated (live'.insert ke entity) ↔
      (∀ e ∈ live'.lookup ke, nodeOf e = nodeOf entity) ∨ s.NodeSurvives live' ke := by
  constructor
  · intro after
    by_cases replaced : ∀ e ∈ live'.lookup ke, nodeOf e = nodeOf entity
    · exact .inl replaced
    · refine .inr fun e alive known => ?_
      obtain ⟨k, e', found, node⟩ := after (nodeOf e) ((grown _).mpr (.inr known))
      rcases PartialMap.lookup_insert_eq_some_iff.mp found with ⟨-, rfl⟩ | ⟨other, before⟩
      · refine absurd (fun e'' alive' => ?_) replaced
        rw [Option.mem_def.mp alive, Option.mem_some_iff] at alive'
        rw [← alive', node]
      · exact ⟨⟨k, e'⟩, AList.mem_lookup_iff.mp before, other, node⟩
  · intro survives k known
    have stored : (live'.insert ke entity).lookup ke = some entity := AList.lookup_insert live'
    rcases (grown _).mp known with here | before
    · exact ⟨ke, entity, stored, node_mem_places_iff.mp here⟩
    · obtain ⟨k', e, alive, rfl⟩ := populated k before
      by_cases taken : k' = ke
      · subst taken
        rcases survives with sameNode | survives
        · exact ⟨k', entity, stored, (sameNode e alive).symm⟩
        · obtain ⟨⟨k'', e'⟩, found, other, node⟩ := survives e alive before
          exact ⟨k'', e', by rw [AList.lookup_insert_ne other]; exact AList.mem_lookup_iff.mpr found,
            node⟩
      · exact ⟨k', e, by rw [AList.lookup_insert_ne taken]; exact alive, rfl⟩

/-- A key that becomes live takes nothing from the others. -/
theorem Populated.inserted (populated : s.Populated live') (ke : κ)
    (same : s'.index = s.index) : s'.Populated (track fmt live' (.inserted ke)) := by
  intro k known
  rw [same] at known
  obtain ⟨k', e, alive, node⟩ := populated k known
  refine ⟨k', e, ?_, node⟩
  simp only [track]
  split
  · exact alive
  · next absent =>
    split
    · have other : k' ≠ ke := by
        rintro rfl
        exact absent (AList.lookup_isSome.mp (by rw [alive]; rfl))
      rw [AList.lookup_insert_ne other]
      exact alive
    · exact alive

end GraphData

/-! ## Whole runs -/

section Runs

variable {fmt : Format κ ζ}

/-- No step takes the last live entity of a node that has a slab. -/
def KeepsNodes (fmt : Format κ ζ) (c : Config (GraphData κ ζ) (GraphEvent κ ζ)) :
    GraphLabel κ ζ → Prop
  | .remove ke => c.state.NodeSurvives (live fmt c.trace) ke
  | .removeLocalEntity entity =>
      ∀ ke ∈ fmt.toKe entity, c.state.NodeSurvives (live fmt c.trace) ke
  | .addLocalEntity entity =>
      ∀ ke ∈ fmt.toKe entity,
        (∀ e ∈ (live fmt c.trace).lookup ke, nodeOf e = nodeOf entity) ∨
          c.state.NodeSurvives (live fmt c.trace) ke
  | _ => True

instance : DecidableRel (KeepsNodes fmt)
  | _, .remove _ => inferInstanceAs (Decidable (GraphData.NodeSurvives ..))
  | _, .removeLocalEntity _ => inferInstanceAs (Decidable (∀ _ ∈ _, _))
  | _, .addLocalEntity _ => inferInstanceAs (Decidable (∀ _ ∈ _, _ ∨ _))
  | _, .insert _ | _, .parse _ | _, .visit .. | _, .query .. | _, .release _ =>
      inferInstanceAs (Decidable True)

variable {s s' : GraphData κ ζ}

/-- A local entity that is passed over has no key. -/
theorem unkeyed_of_step {entity : Entity ζ}
    (stepped : s.step fmt (.addLocalEntity entity) = some (s', []) ∨
      s.step fmt (.removeLocalEntity entity) = some (s', [])) : fmt.toKe entity = none := by
  cases keyed : fmt.toKe entity with
  | none => rfl
  | some ke =>
      simp [GraphData.step, GraphData.addLocalEntity, GraphData.removeLocalEntity, keyed] at stepped

/-- **A step leaves every slab of a node with a live entity exactly when it keeps the nodes.** -/
theorem populated_step_iff {label : GraphLabel κ ζ} {observed trace : List (GraphEvent κ ζ)}
    (stepped : s.step fmt label = some (s', observed))
    (listed : s.Listed fmt s.cached (live fmt trace)) (populated : s.Populated (live fmt trace)) :
    s'.Populated (live fmt (trace ++ observed)) ↔ KeepsNodes fmt ⟨s, trace⟩ label := by
  rw [live, List.foldl_append]
  cases GraphData.step_sound stepped with
  | insert ke =>
      refine iff_of_true (populated.inserted ke ?_) trivial
      unfold GraphData.insert
      split <;> rfl
  | remove ke => exact populated.erase_iff ke fun q => Iff.rfl
  | parse drained => exact iff_of_true ((listed.parse drained).2 populated) trivial
  | @visit p order drained =>
      obtain ⟨index, shape, same⟩ := GraphData.visit_state fmt s p order
      refine iff_of_true (fun k known => ?_) trivial
      rw [shape] at known
      exact (listed.parse drained).2 populated k ((same _).mp known)
  | @addLocalEntity entity ke _ keyed added =>
      have grown := GraphData.mem_index_addLocalEntity keyed added
      refine (populated.insert_iff ke entity grown).trans ?_
      simp [KeepsNodes, keyed]
  | @removeLocalEntity entity ke _ keyed removed =>
      have same := GraphData.mem_index_removeLocalEntity keyed removed
      refine (populated.erase_iff ke same).trans ?_
      simp [KeepsNodes, keyed]
  | addUnkeyed entity =>
      refine iff_of_true populated ?_
      simp [KeepsNodes, unkeyed_of_step (.inl stepped)]
  | removeUnkeyed entity =>
      refine iff_of_true populated ?_
      simp [KeepsNodes, unkeyed_of_step (.inr stepped)]
  | @query _ order _ _ drained answered =>
      obtain ⟨index, rfl, same⟩ := GraphData.report_state answered
      exact iff_of_true (fun k known => (listed.parse drained).2 populated k ((same _).mp known))
        trivial
  | release => exact iff_of_true populated trivial

variable {allowed : Config (GraphData κ ζ) (GraphEvent κ ζ) → GraphLabel κ ζ → Prop}
  {c c' : Config (GraphData κ ζ) (GraphEvent κ ζ)}

/-- Whatever the run, live keys and slabs agree. -/
theorem listed_of_reachable (reached : (graph fmt).Reachable allowed c) :
    c.state.Listed fmt c.state.cached (live fmt c.trace) := by
  refine reached.invariant
    (P := fun c => c.state.Listed fmt c.state.cached (live fmt c.trace)) ?_ ?_
  · refine ⟨fun ke => rfl, fun ke a owned => ?_⟩
    cases owned
  · intro c label c' listed _ moved
    obtain ⟨observed, stepped, grown⟩ := Machine.next_eq_some moved
    rw [grown, live, List.foldl_append]
    exact (GraphData.step_sound stepped).listed listed

theorem populated_next_iff {label : GraphLabel κ ζ} (reached : (graph fmt).Reachable allowed c)
    (populated : c.state.Populated (live fmt c.trace)) (moved : (graph fmt).next c label = some c') :
    c'.state.Populated (live fmt c'.trace) ↔ KeepsNodes fmt c label := by
  obtain ⟨observed, stepped, grown⟩ := Machine.next_eq_some moved
  rw [grown]
  exact populated_step_iff stepped (listed_of_reachable reached) populated

theorem populated_of_reachable (reached : (graph fmt).Reachable (KeepsNodes fmt) c) :
    c.state.Populated (live fmt c.trace) := by
  suffices both : (graph fmt).Reachable (KeepsNodes fmt) c ∧
      c.state.Populated (live fmt c.trace) from both.2
  refine reached.invariant (P := fun c => (graph fmt).Reachable (KeepsNodes fmt) c ∧
    c.state.Populated (live fmt c.trace)) ⟨.refl, fun k known => ?_⟩ ?_
  · cases known
  · intro c label c' ih meets moved
    obtain ⟨before, populated⟩ := ih
    exact ⟨before.step meets moved, (populated_next_iff before populated moved).mpr meets⟩

/-- **`node_exists` is exact as long as every node keeps a live entity.**  In a run whose steps all
do, it answers for every node whether one of its entities is live; after the first step that does
not, it does not. -/
theorem nodeExists_exact (fmt : Format κ ζ) (c : Config (GraphData κ ζ) (GraphEvent κ ζ))
    (reached : (graph fmt).Reachable (KeepsNodes fmt) c) :
    c.state.NodesExact fmt (live fmt c.trace) ∧
      ∀ label c', (graph fmt).next c label = some c' →
        (c'.state.NodesExact fmt (live fmt c'.trace) ↔ KeepsNodes fmt c label) := by
  have populated := populated_of_reachable reached
  refine ⟨(listed_of_reachable reached).nodesExact_iff.mpr populated, fun label c' moved => ?_⟩
  have listed' := listed_of_reachable (Relation.ReflTransGen.tail
    (reached.mono fun _ _ _ => trivial : (graph fmt).Reachable Machine.anyStep c)
    ⟨label, trivial, moved⟩)
  rw [listed'.nodesExact_iff, populated_next_iff reached populated moved]

end Runs

/-! ## Cached and parsed keys -/

/-- No key is both cached and parsed. -/
def GraphData.Separate (s : GraphData κ ζ) : Prop := ∀ ke ∈ s.cached, ke ∉ s.parsed

section Separate

variable {fmt : Format κ ζ} {s s' : GraphData κ ζ}

/-- An entity is added locally only while its key is not cached. -/
def AddedFresh (fmt : Format κ ζ) (c : Config (GraphData κ ζ) (GraphEvent κ ζ)) :
    GraphLabel κ ζ → Prop
  | .addLocalEntity entity => ∀ ke ∈ fmt.toKe entity, ke ∉ c.state.cached
  | _ => True

instance : DecidableRel (AddedFresh fmt)
  | _, .addLocalEntity _ => inferInstanceAs (Decidable (∀ _ ∈ _, _))
  | _, .insert _ | _, .remove _ | _, .parse _ | _, .visit .. | _, .removeLocalEntity _
  | _, .query .. | _, .release _ => inferInstanceAs (Decidable True)

omit [DecidableEq κ] in
theorem GraphData.separate_of_drained (drained : s.cached = []) : s.Separate := by
  intro ke member
  rw [drained] at member
  cases member

theorem GraphData.Separate.insert (separate : s.Separate) (ke : κ) : (s.insert ke).Separate := by
  unfold GraphData.insert
  split
  · exact separate
  · next unknown =>
    intro k member
    rcases List.mem_cons.mp member with rfl | before
    · exact (not_or.mp unknown).1
    · exact separate k before

theorem GraphData.Separate.remove (separate : s.Separate) (ke : κ) : (s.remove ke).Separate := by
  intro k member owned
  exact separate k (List.mem_filter.mp member).1 (AList.mem_erase.mp owned).2

/-- **A step keeps cached and parsed keys apart exactly when it adds no cached key.** -/
theorem separate_step_iff {label : GraphLabel κ ζ} {observed trace : List (GraphEvent κ ζ)}
    (stepped : s.step fmt label = some (s', observed)) (separate : s.Separate) :
    s'.Separate ↔ AddedFresh fmt ⟨s, trace⟩ label := by
  cases GraphData.step_sound stepped with
  | insert ke => exact iff_of_true (separate.insert ke) trivial
  | remove ke => exact iff_of_true (separate.remove ke) trivial
  | parse => exact iff_of_true (GraphData.separate_of_drained (GraphData.cached_parse _)) trivial
  | visit p =>
      obtain ⟨index, shape, -⟩ := GraphData.visit_state fmt s p _
      rw [shape]
      exact iff_of_true (GraphData.separate_of_drained (GraphData.cached_parse _)) trivial
  | @addLocalEntity entity ke _ keyed added =>
      obtain ⟨index, rfl⟩ := GraphData.addLocalEntity_eq keyed added
      have fresh : AddedFresh fmt ⟨s, trace⟩ (.addLocalEntity entity) ↔ ke ∉ s.cached := by
        simp [AddedFresh, keyed]
      rw [fresh]
      constructor
      · intro apart pending
        exact apart ke pending (AList.mem_insert _ |>.mpr (.inl rfl))
      · intro apart k pending owned
        rcases (AList.mem_insert _).mp owned with rfl | before
        · exact apart pending
        · exact separate k pending before
  | removeLocalEntity keyed removed =>
      obtain ⟨index, rfl⟩ := GraphData.removeLocalEntity_eq keyed removed
      exact iff_of_true (separate.remove _) trivial
  | addUnkeyed entity =>
      refine iff_of_true separate ?_
      simp [AddedFresh, unkeyed_of_step (.inl stepped)]
  | removeUnkeyed => exact iff_of_true separate trivial
  | query drained answered =>
      obtain ⟨index, rfl, -⟩ := GraphData.report_state answered
      exact iff_of_true (GraphData.separate_of_drained (GraphData.cached_parse _)) trivial
  | release => exact iff_of_true separate trivial

/-- **No key is both cached and parsed as long as no cached key is added locally.**  After the
first step that adds one, that key is both. -/
theorem separate_exact (fmt : Format κ ζ) (c : Config (GraphData κ ζ) (GraphEvent κ ζ))
    (reached : (graph fmt).Reachable (AddedFresh fmt) c) :
    c.state.Separate ∧ ∀ label c', (graph fmt).next c label = some c' →
      (c'.state.Separate ↔ AddedFresh fmt c label) := by
  have separate : c.state.Separate := by
    refine reached.invariant (P := fun c => c.state.Separate)
      (GraphData.separate_of_drained rfl) ?_
    intro c label c' separate meets moved
    obtain ⟨observed, stepped, -⟩ := Machine.next_eq_some moved
    exact (separate_step_iff stepped separate).mpr meets
  refine ⟨separate, fun label c' moved => ?_⟩
  obtain ⟨observed, stepped, -⟩ := Machine.next_eq_some moved
  exact separate_step_iff stepped separate

end Separate

section Tokens

open RmwZenoh

/-- The node of the talker. -/
def talkerNode : Entity SessionId :=
  match talker with
  | .endpoint e => .node e.node
  | .node n => .node n

/-- A talker goes, its node stays. -/
def nodeStays : List (GraphLabel PlainKey SessionId) :=
  [.addLocalEntity talkerNode, .insert talkerKey, .parse [talkerKey], .remove talkerKey]

theorem nodeExists_exact_nodeStays :
    ∃ c, (graph (rmwZenohFormat false)).Reachable (KeepsNodes (rmwZenohFormat false)) c ∧
      (c.state.nodeExists (rmwZenohFormat false) ("", "n") []).2 = true := by
  obtain ⟨c, reached, seen⟩ := Machine.exists_of_schedule (graph (rmwZenohFormat false))
    (KeepsNodes (rmwZenohFormat false)) nodeStays
    (fun c => (c.state.cached.isEmpty,
      (live (rmwZenohFormat false) c.trace).entries.any fun entry => nodeOf entry.2 = ("", "n")))
    (true, true) (by decide +kernel)
  simp only [Prod.mk.injEq, List.isEmpty_iff, List.any_eq_true, decide_eq_true_eq] at seen
  obtain ⟨cached, ⟨ke, e⟩, member, node⟩ := seen
  have drained : [].Perm c.state.cached := by rw [cached]
  exact ⟨c, reached, ((nodeExists_exact (rmwZenohFormat false) c reached).1 ("", "n") []
    drained).mpr ⟨ke, e, AList.mem_lookup_iff.mpr member, node⟩⟩

/-- A talker that was seen goes. -/
def nodeGoes : List (GraphLabel PlainKey SessionId) :=
  [.insert talkerKey, .parse [talkerKey], .remove talkerKey]

/-- **A node whose last entity has gone is still reported to exist.** -/
theorem nodeExists_not_exact :
    ¬ ∀ c, (graph (rmwZenohFormat false)).Reachable Machine.anyStep c →
      c.state.NodesExact (rmwZenohFormat false) (live (rmwZenohFormat false) c.trace) := by
  intro exact'
  obtain ⟨c, reached, seen⟩ := Machine.exists_of_schedule (graph (rmwZenohFormat false))
    Machine.anyStep nodeGoes
    (fun c => (c.state.cached.isEmpty, (live (rmwZenohFormat false) c.trace).entries.isEmpty,
      (c.state.nodeExists (rmwZenohFormat false) ("", "n") []).2))
    (true, true, true) (by decide +kernel)
  simp only [Prod.mk.injEq, List.isEmpty_iff] at seen
  obtain ⟨cached, gone, answer⟩ := seen
  have drained : [].Perm c.state.cached := by rw [cached]
  obtain ⟨ke, e, alive, -⟩ := (exact' c reached ("", "n") [] drained).mp answer
  have member := AList.mem_lookup_iff.mp alive
  rw [gone] at member
  cases member

/-- A talker is added before its token comes back through the subscriber. -/
def addedFirst : List (GraphLabel PlainKey SessionId) :=
  [.addLocalEntity talker, .insert talkerKey]

theorem separate_exact_addedFirst :
    ∃ c, (graph (rmwZenohFormat false)).Reachable (AddedFresh (rmwZenohFormat false)) c ∧
      talkerKey ∈ c.state.parsed ∧ c.state.Separate := by
  obtain ⟨c, reached, seen⟩ := Machine.exists_of_schedule (graph (rmwZenohFormat false))
    (AddedFresh (rmwZenohFormat false)) addedFirst
    (fun c => decide (talkerKey ∈ c.state.parsed)) true (by decide +kernel)
  exact ⟨c, reached, of_decide_eq_true seen,
    (separate_exact (rmwZenohFormat false) c reached).1⟩

/-- The token of a talker comes back before the talker is added. -/
def echoedFirst : List (GraphLabel PlainKey SessionId) :=
  [.insert talkerKey, .addLocalEntity talker]

/-- **A key that is cached when its entity is added is both cached and parsed.** -/
theorem not_separate :
    ¬ ∀ c, (graph (rmwZenohFormat false)).Reachable Machine.anyStep c → c.state.Separate := by
  intro separate
  obtain ⟨c, reached, seen⟩ := Machine.exists_of_schedule (graph (rmwZenohFormat false))
    Machine.anyStep echoedFirst
    (fun c => (decide (talkerKey ∈ c.state.cached), decide (talkerKey ∈ c.state.parsed)))
    (true, true) (by decide +kernel)
  simp only [Prod.mk.injEq, decide_eq_true_eq] at seen
  exact separate c reached talkerKey seen.1 seen.2

end Tokens

end RosZ.Graph
