import RosZ.Graph.Index

/-!
# Queries report the live entities

The live keys follow from the events of a run alone (`live`).  `Tracks` ties them to the
graph: a live key is owned with its entity, or it is still cached and parses to it.  With
the index in order, what a query goes through is what it asks for among the live keys
(`Inv.report_perm`), and operations keep both.

## Design notes

A slab may hold references that no longer upgrade, and slabs are cleaned at different
moments.  So everything is said of the entries that upgrade: they are owned, and the owned
ones are told apart by their keys (`nodup_map_entry`).  Lists of reports are compared up
to their order, which hashing decides.
-/

namespace RosZ.Graph

open Protocol Transition

variable {κ ζ : Type} [DecidableEq κ]

/-- A key with its entity. -/
def Arc.entry (a : Arc κ ζ) : Sigma fun _ : κ => Entity ζ := ⟨a.key, a.entity⟩

namespace GraphData

/-! ## Live keys and stored entities -/

/-- The live keys are the owned ones, and those among the pending ones that parse. -/
def Tracks (fmt : Format κ ζ) (s : GraphData κ ζ) (pending : List κ)
    (live : AList (fun _ : κ => Entity ζ)) : Prop :=
  ∀ ke, live.lookup ke =
    match s.parsed.lookup ke with
    | some a => some a.entity
    | none => if ke ∈ pending then fmt.parser ke else none

/-- The index is in order and the live keys are known. -/
structure Inv (fmt : Format κ ζ) (s : GraphData κ ζ) (live : AList (fun _ : κ => Entity ζ)) :
    Prop where
  indexed : s.Indexed
  tracks : s.Tracks fmt s.cached live

variable {fmt : Format κ ζ} {s : GraphData κ ζ} {live : AList (fun _ : κ => Entity ζ)}

theorem Tracks.congr {pending pending' : List κ} (tracks : s.Tracks fmt pending live)
    (same : ∀ ke, ke ∈ pending ↔ ke ∈ pending') : s.Tracks fmt pending' live := by
  intro ke
  rw [tracks ke]
  simp only [same ke]

/-- Parsing a key makes its entity owned, if it is not already. -/
theorem Tracks.parseKey {ke : κ} {rest : List κ} (tracks : s.Tracks fmt (ke :: rest) live) :
    (s.parseKey fmt ke).Tracks fmt rest live := by
  unfold GraphData.parseKey
  split
  · next owned =>
      intro k
      rw [tracks k]
      cases stored : s.parsed.lookup k with
      | some a => rfl
      | none =>
          have other : k ≠ ke := by
            rintro rfl
            exact AList.lookup_eq_none.mp stored owned
          simp [other]
  · next absent =>
      have unowned : s.parsed.lookup ke = none := AList.lookup_eq_none.mpr absent
      cases parses : fmt.parser ke with
      | none =>
          intro k
          rw [tracks k]
          cases stored : s.parsed.lookup k with
          | some a => rfl
          | none =>
              by_cases same : k = ke
              · subst same
                simp [parses]
              · simp [same]
      | some entity =>
          obtain ⟨index, shape⟩ := indexAll_eq { s with nextArc := s.nextArc + 1 }
            ⟨s.nextArc, ke, entity⟩
          intro k
          simp only [shape]
          by_cases same : k = ke
          · subst same
            rw [AList.lookup_insert, tracks k, unowned]
            simp [parses]
          · rw [AList.lookup_insert_ne same, tracks k]
            simp [same]

theorem indexed_foldl_parseKey (inv : s.Indexed) (order : List κ) :
    (order.foldl (GraphData.parseKey fmt) s).Indexed := by
  induction order generalizing s with
  | nil => exact inv
  | cons ke rest ih => exact ih (inv.parseKey fmt ke)

theorem tracks_foldl_parseKey {order : List κ} (tracks : s.Tracks fmt order live) :
    (order.foldl (GraphData.parseKey fmt) s).Tracks fmt [] live := by
  induction order generalizing s with
  | nil => exact tracks
  | cons ke rest ih => exact ih tracks.parseKey

theorem cached_foldl_parseKey (order : List κ) (s : GraphData κ ζ) :
    (order.foldl (GraphData.parseKey fmt) s).cached = s.cached := by
  induction order generalizing s with
  | nil => rfl
  | cons ke rest ih =>
      rw [List.foldl_cons, ih]
      unfold GraphData.parseKey
      split
      · rfl
      · cases fmt.parser ke with
        | none => rfl
        | some entity =>
            obtain ⟨index, shape⟩ := indexAll_eq { s with nextArc := s.nextArc + 1 }
              ⟨s.nextArc, ke, entity⟩
            simp only [shape]

theorem cached_parse (order : List κ) : (s.parse fmt order).cached = [] :=
  cached_foldl_parseKey order _

theorem Inv.parse (inv : s.Inv fmt live) {order : List κ} (drained : order.Perm s.cached) :
    (s.parse fmt order).Inv fmt live := by
  refine ⟨indexed_foldl_parseKey (inv.indexed.withCached []) order, ?_⟩
  rw [cached_parse]
  refine tracks_foldl_parseKey ?_
  exact inv.tracks.congr fun ke => drained.mem_iff.symm

/-! ## What is visited -/

theorem visit_eq (s : GraphData κ ζ) (p : Place) (order : List κ) :
    (s.visit fmt p order).2 =
      ((s.parse fmt order).entriesAt p).filter (s.parse fmt order).upgrades := by
  cases stored : (s.parse fmt order).index.lookup p with
  | none => simp only [visit, entriesAt, stored, Option.map_none, Option.getD_none, List.filter_nil]
  | some slab =>
      simp only [visit, entriesAt, stored, Option.map_some, Option.getD_some, retainAlive]

theorem Inv.visit (inv : s.Inv fmt live) {order : List κ} (drained : order.Perm s.cached)
    (p : Place) : (s.visit fmt p order).1.Inv fmt live := by
  have parsed := inv.parse drained
  cases stored : (s.parse fmt order).index.lookup p with
  | none =>
      simp only [GraphData.visit, stored]
      exact parsed
  | some slab =>
      simp only [GraphData.visit, stored]
      exact ⟨parsed.indexed.retain stored, parsed.tracks⟩

/-- What is live once everything is parsed. -/
theorem Inv.lookup_eq_some (inv : s.Inv fmt live) (drained : s.cached = []) {ke : κ}
    {entity : Entity ζ} :
    live.lookup ke = some entity ↔ ∃ a, s.Owns ke a ∧ a.entity = entity := by
  rw [inv.tracks ke, drained]
  unfold Owns
  cases s.parsed.lookup ke <;> simp

theorem Inv.mem_entries (inv : s.Inv fmt live) (drained : s.cached = [])
    {entry : Sigma fun _ : κ => Entity ζ} :
    entry ∈ live.entries ↔ ∃ a, s.Owns a.key a ∧ a.entry = entry := by
  obtain ⟨ke, entity⟩ := entry
  rw [← AList.mem_lookup_iff, Option.mem_def, inv.lookup_eq_some drained]
  constructor
  · rintro ⟨a, owned, rfl⟩
    have key := inv.indexed.keyed ke a owned
    subst key
    exact ⟨a, owned, rfl⟩
  · rintro ⟨a, owned, same⟩
    cases same
    exact ⟨a, owned, rfl⟩

/-- References that are owned are told apart by their keys. -/
theorem nodup_map_entry {arcs : List (Arc κ ζ)} (distinct : arcs.Nodup)
    (owned : ∀ a ∈ arcs, s.Owns a.key a) : (arcs.map Arc.entry).Nodup := by
  refine distinct.map_on ?_
  intro a ha b hb same
  have key : a.key = b.key := congrArg Sigma.fst same
  have here := owned a ha
  rw [key] at here
  exact Option.some.inj (here.symm.trans (owned b hb))

/-- A list of all owned references to entities of a sort is the live keys of these entities. -/
theorem Inv.perm_live (inv : s.Inv fmt live) (drained : s.cached = []) {arcs : List (Arc κ ζ)}
    (distinct : arcs.Nodup) (wanted : Entity ζ → Bool)
    (listed : ∀ a, a ∈ arcs ↔ s.Owns a.key a ∧ wanted a.entity = true) :
    (arcs.map Arc.entry).Perm (live.entries.filter fun entry => wanted entry.2) := by
  have owned : ∀ a ∈ arcs, s.Owns a.key a := fun a member => ((listed a).mp member).1
  rw [List.perm_ext_iff_of_nodup (nodup_map_entry distinct owned) (live.nodupKeys.nodup.filter _)]
  intro entry
  rw [List.mem_map, List.mem_filter, inv.mem_entries drained]
  constructor
  · rintro ⟨a, member, rfl⟩
    obtain ⟨own, isWanted⟩ := (listed a).mp member
    exact ⟨⟨a, own, rfl⟩, isWanted⟩
  · rintro ⟨⟨a, own, rfl⟩, isWanted⟩
    exact ⟨a, (listed a).mpr ⟨own, isWanted⟩, rfl⟩

/-- **A visit goes through the live keys of the place**, each once. -/
theorem Inv.visited_perm (inv : s.Inv fmt live) (drained : s.cached = []) (p : Place) :
    (((s.entriesAt p).filter s.upgrades).map Arc.entry).Perm
      (live.entries.filter fun entry => p ∈ places entry.2) := by
  refine inv.perm_live drained ((inv.indexed.once p).filter s.upgrades)
    (fun entity => p ∈ places entity) fun a => ?_
  rw [List.mem_filter, decide_eq_true_eq]
  constructor
  · rintro ⟨stored, alive⟩
    exact inv.indexed.sound p a stored alive
  · rintro ⟨own, place⟩
    exact ⟨inv.indexed.complete a.key a own p place, own.upgrades⟩

theorem Inv.visitKind_perm (inv : s.Inv fmt live) {order : List κ}
    (drained : order.Perm s.cached) (kind : EntityKind) (p : Place) :
    ((s.visitKind fmt kind p order).2.map Arc.entry).Perm
      (live.entries.filter fun entry => entityKind entry.2 = kind ∧ p ∈ places entry.2) := by
  have visited := (inv.parse drained).visited_perm (cached_parse order) p
  rw [← visit_eq] at visited
  have kinds := visited.filter fun entry => decide (entityKind entry.2 = kind)
  rw [List.filter_map, List.filter_filter] at kinds
  simp only [Bool.decide_and]
  exact kinds

/-! ## Nodes -/

omit [DecidableEq κ] in
theorem mem_nodeEntries {key : NodeKey} {a : Arc κ ζ} :
    (key, a) ∈ s.nodeEntries ↔
      a ∈ s.entriesAt (.node key) ∧ s.upgrades a = true ∧ isNode a.entity = true := by
  unfold nodeEntries
  rw [List.mem_flatMap]
  constructor
  · rintro ⟨⟨place, slab⟩, stored, member⟩
    cases place with
    | node found =>
        obtain ⟨b, listed, same⟩ := List.mem_map.mp member
        cases same
        obtain ⟨inSlab, both⟩ := List.mem_filter.mp listed
        rw [entriesAt, AList.mem_lookup_iff.mpr stored]
        exact ⟨inSlab, by simpa using both⟩
    | topic name => cases member
    | service name => cases member
  · rintro ⟨inSlab, alive, node⟩
    unfold entriesAt at inSlab
    cases stored : s.index.lookup (.node key) with
    | none =>
        rw [stored] at inSlab
        cases inSlab
    | some slab =>
        rw [stored] at inSlab
        refine ⟨⟨.node key, slab⟩, AList.mem_lookup_iff.mp stored, List.mem_map.mpr ?_⟩
        exact ⟨a, List.mem_filter.mpr ⟨inSlab, by simp [alive, node]⟩, rfl⟩

/-- A node is indexed under its own key. -/
theorem Inv.nodeEntries_owned (inv : s.Inv fmt live) {key : NodeKey} {a : Arc κ ζ}
    (member : (key, a) ∈ s.nodeEntries) :
    s.Owns a.key a ∧ ∃ n, a.entity = .node n ∧ nodeKey n = key := by
  obtain ⟨stored, alive, node⟩ := mem_nodeEntries.mp member
  obtain ⟨owned, place⟩ := inv.indexed.sound _ a stored alive
  refine ⟨owned, ?_⟩
  cases entity : a.entity with
  | endpoint e =>
      rw [entity] at node
      cases node
  | node n =>
      rw [entity] at place
      cases List.mem_singleton.mp place
      exact ⟨n, rfl, rfl⟩

theorem Inv.nodup_nodeEntries (inv : s.Inv fmt live) : s.nodeEntries.Nodup := by
  unfold nodeEntries
  rw [List.nodup_flatMap]
  constructor
  · rintro ⟨place, slab⟩ stored
    cases place with
    | node key =>
        have entries : slab.entries = s.entriesAt (.node key) := by
          rw [entriesAt, AList.mem_lookup_iff.mpr stored]
          rfl
        refine List.Nodup.map (fun a b same => (Prod.mk.inj same).2) (List.Nodup.filter _ ?_)
        rw [entries]
        exact inv.indexed.once _
    | topic name => exact List.nodup_nil
    | service name => exact List.nodup_nil
  · refine (List.nodupKeys_iff_pairwise.mp s.index.nodupKeys).imp ?_
    rintro ⟨place, slab⟩ ⟨place', slab'⟩ differ ⟨key, a⟩ first second
    cases place with
    | node found =>
        cases place' with
        | node found' =>
            obtain ⟨b, -, same⟩ := List.mem_map.mp first
            obtain ⟨b', -, same'⟩ := List.mem_map.mp second
            have equal : found = found' :=
              (Prod.mk.inj same).1.trans (Prod.mk.inj same').1.symm
            exact differ (congrArg Place.node equal)
        | topic name => cases second
        | service name => cases second
    | topic name => cases first
    | service name => cases first

/-- **The node names are those of the live nodes**, each once. -/
theorem Inv.nodeEntries_perm (inv : s.Inv fmt live) (drained : s.cached = []) :
    ((s.nodeEntries.map (·.2)).map Arc.entry).Perm
      (live.entries.filter fun entry => isNode entry.2) := by
  have distinct : (s.nodeEntries.map (·.2)).Nodup := by
    refine inv.nodup_nodeEntries.map_on ?_
    rintro ⟨key, a⟩ first ⟨key', b⟩ second rfl
    obtain ⟨-, n, entity, named⟩ := inv.nodeEntries_owned first
    obtain ⟨-, n', entity', named'⟩ := inv.nodeEntries_owned second
    cases entity.symm.trans entity'
    rw [← named, named']
  refine inv.perm_live drained distinct isNode fun a => ?_
  rw [List.mem_map]
  constructor
  · rintro ⟨⟨key, b⟩, listed, rfl⟩
    exact ⟨(inv.nodeEntries_owned listed).1, (mem_nodeEntries.mp listed).2.2⟩
  · rintro ⟨own, node⟩
    obtain ⟨n, entity⟩ : ∃ n, a.entity = .node n := by
      cases shape : a.entity with
      | node n => exact ⟨n, rfl⟩
      | endpoint e =>
          rw [shape] at node
          cases node
    have stored := inv.indexed.complete a.key a own (.node (nodeKey n)) (by simp [entity, places])
    exact ⟨(nodeKey n, a), mem_nodeEntries.mpr ⟨stored, own.upgrades, node⟩, rfl⟩

/-! ## What queries do -/

/-- A query visits a place for the entities of a kind, or goes through all nodes. -/
inductive Reports (fmt : Format κ ζ) (s : GraphData κ ζ) (order : List κ) :
    Query → GraphData κ ζ → List (Arc κ ζ) → Prop
  | visit {query : Query} (kind : EntityKind) (p : Place)
      (asks : ∀ entity : Entity ζ, query.asks entity = decide (entityKind entity = kind ∧
        p ∈ places entity)) :
      Reports fmt s order query (s.visitKind fmt kind p order).1 (s.visitKind fmt kind p order).2
  | nodes : Reports fmt s order .getNodeNames (s.parse fmt order)
      ((s.parse fmt order).nodeEntries.map (·.2))

theorem report_sound {query : Query} {order : List κ} {s' : GraphData κ ζ}
    {reported : List (Arc κ ζ)} (asked : s.report fmt query order = some (s', reported)) :
    Reports fmt s order query s' reported := by
  cases query with
  | count kind name =>
      obtain ⟨-, same⟩ := Option.ite_none_right_eq_some.mp asked
      cases same
      exact .visit kind (countPlace kind name) fun _ => rfl
  | getEntitiesByTopic kind topic =>
      obtain ⟨-, same⟩ := Option.ite_none_right_eq_some.mp asked
      cases same
      exact .visit kind (.topic topic) fun _ => rfl
  | getEntitiesByService kind serviceName =>
      obtain ⟨-, same⟩ := Option.ite_none_right_eq_some.mp asked
      cases same
      exact .visit kind (.service serviceName) fun _ => rfl
  | getEntitiesByNode kind node =>
      obtain ⟨-, same⟩ := Option.ite_none_right_eq_some.mp asked
      cases same
      exact .visit kind (.node node) fun _ => rfl
  | getNodeNames =>
      cases asked
      exact .nodes

/-- **Queries go through what they ask for among the live keys**, each once. -/
theorem Inv.report_perm (inv : s.Inv fmt live) {order : List κ} (drained : order.Perm s.cached)
    {query : Query} {s' : GraphData κ ζ} {reported : List (Arc κ ζ)}
    (asked : s.report fmt query order = some (s', reported)) :
    (reported.map Arc.entry).Perm (live.entries.filter fun entry => query.asks entry.2) := by
  cases report_sound asked with
  | visit kind p asks =>
      simp only [asks]
      exact inv.visitKind_perm drained kind p
  | nodes => exact (inv.parse drained).nodeEntries_perm (cached_parse order)

/-! ## Steps -/

theorem Tracks.insert (tracks : s.Tracks fmt s.cached live) (ke : κ) :
    (s.insert ke).Tracks fmt (s.insert ke).cached (track fmt live (.inserted ke)) := by
  simp only [GraphData.insert, track]
  by_cases known : ke ∈ s.parsed ∨ ke ∈ s.cached
  · rw [if_pos known]
    by_cases alive : ke ∈ live
    · rw [if_pos alive]
      exact tracks
    · -- a cached key that is not live does not parse
      rw [if_neg alive]
      have found := tracks ke
      rw [AList.lookup_eq_none.mpr alive] at found
      cases stored : s.parsed.lookup ke with
      | some a => simp [stored] at found
      | none =>
          have cached := known.resolve_left (AList.lookup_eq_none.mp stored)
          simp only [stored, cached, if_true] at found
          rw [← found]
          exact tracks
  · rw [if_neg known]
    obtain ⟨unowned, uncached⟩ := not_or.mp known
    have stored : s.parsed.lookup ke = none := AList.lookup_eq_none.mpr unowned
    have dead : ke ∉ live := by
      rw [← AList.lookup_eq_none, tracks ke, stored]
      simp [uncached]
    rw [if_neg dead]
    intro k
    by_cases same : k = ke
    · subst same
      cases parses : fmt.parser k with
      | none => simp [stored, AList.lookup_eq_none.mpr dead]
      | some entity => simp [stored]
    · have before := tracks k
      cases parses : fmt.parser ke with
      | none => simpa [same] using before
      | some entity => simpa [same, AList.lookup_insert_ne same] using before

theorem Tracks.remove (tracks : s.Tracks fmt s.cached live) (ke : κ) :
    (s.remove ke).Tracks fmt (s.remove ke).cached (live.erase ke) := by
  intro k
  simp only [GraphData.remove]
  by_cases same : k = ke
  · subst same
    simp
  · rw [AList.lookup_erase_ne same, AList.lookup_erase_ne same, tracks k]
    simp [same]

theorem Tracks.store {ke : κ} {s' : GraphData κ ζ}
    (tracks : s.Tracks fmt s.cached live) (arc : Arc κ ζ) (cached : s'.cached = s.cached)
    (parsed : s'.parsed = s.parsed.insert ke arc) :
    s'.Tracks fmt s'.cached (live.insert ke arc.entity) := by
  intro k
  rw [cached, parsed]
  by_cases same : k = ke
  · subst same
    simp
  · rw [AList.lookup_insert_ne same, AList.lookup_insert_ne same, tracks k]

theorem Inv.visitKind (inv : s.Inv fmt live) {order : List κ} (drained : order.Perm s.cached)
    (kind : EntityKind) (p : Place) :
    (s.visitKind fmt kind p order).1.Inv fmt live ∧
      ∀ a ∈ (s.visitKind fmt kind p order).2, (s.visitKind fmt kind p order).1.Owns a.key a := by
  refine ⟨inv.visit drained p, fun a member => ?_⟩
  have parsed := inv.parse drained
  have visited : a ∈ (s.visit fmt p order).2 := (List.mem_filter.mp member).1
  rw [visit_eq] at visited
  obtain ⟨stored, alive⟩ := List.mem_filter.mp visited
  have owned := (parsed.indexed.sound p a stored alive).1
  have same : (s.visit fmt p order).1.parsed = (s.parse fmt order).parsed := by
    cases found : (s.parse fmt order).index.lookup p with
    | none => simp only [GraphData.visit, found]
    | some slab => simp only [GraphData.visit, found]
  show (s.visit fmt p order).1.parsed.lookup a.key = some a
  rw [same]
  exact owned

/-- A query leaves the graph in order and reports entities that are owned. -/
theorem Inv.report (inv : s.Inv fmt live) {order : List κ} (drained : order.Perm s.cached)
    {query : Query} {s' : GraphData κ ζ} {reported : List (Arc κ ζ)}
    (asked : s.report fmt query order = some (s', reported)) :
    s'.Inv fmt live ∧ ∀ a ∈ reported, s'.Owns a.key a := by
  cases report_sound asked with
  | visit kind p => exact inv.visitKind drained kind p
  | nodes =>
      have parsed := inv.parse drained
      refine ⟨parsed, fun a member => ?_⟩
      obtain ⟨⟨key, b⟩, listed, rfl⟩ := List.mem_map.mp member
      exact (parsed.nodeEntries_owned listed).1

theorem Inv.query (inv : s.Inv fmt live) {order : List κ} (drained : order.Perm s.cached)
    {query : Query} {s' : GraphData κ ζ} {reported : List (Arc κ ζ)}
    (asked : s.report fmt query order = some (s', reported)) :
    Inv fmt { s' with held := s'.held ++ handedOut query reported } live := by
  obtain ⟨after, owned⟩ := inv.report drained asked
  refine ⟨after.indexed.handOut fun a member => ?_, after.tracks⟩
  unfold handedOut at member
  split at member
  · exact owned a member
  · exact owned a member
  · cases member

end GraphData

end RosZ.Graph
