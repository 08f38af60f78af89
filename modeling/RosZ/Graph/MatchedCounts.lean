import RosZ.Graph.Matched

/-!
# Matched counts

What the current count of an endpoint is to be: the live entities that match (`matching`), less
those whose appearance is still to be triggered and with those whose disappearance is
(`announced`).  The callbacks keep it so (`Sound.told`), if each change is announced once and to
the endpoints on its topic.

## Design notes

What the graph has follows from the live keys (`Inv`), so the effect of a step on it is that on the
entries of a map.

`Sound` speaks of the endpoints and their callbacks only, and takes the counts as a parameter: a
step of the graph moves the counts, and a step of a call moves the endpoints.
-/

namespace RosZ.Graph

open Protocol Transition

variable {κ ζ γ : Type}

/-! ## Counting live keys -/

section Counting

variable [DecidableEq κ]

/-- The live entities that count for an event on a topic. -/
def matching (live : AList (fun _ : κ => Entity ζ)) (x : MatchedEvent × Topic) : ℕ :=
  live.entries.countP fun entry => concerns entry.2 = some x

/-- One, if the entity counts for `x`. -/
def share (entity : Option (Entity ζ)) (x : MatchedEvent × Topic) : ℕ :=
  if entity.bind concerns = some x then 1 else 0

theorem share_none (x : MatchedEvent × Topic) : share (none : Option (Entity ζ)) x = 0 := rfl

theorem countP_kerase {β : Type} {entries : List (Sigma fun _ : κ => β)}
    (distinct : entries.NodupKeys) (wanted : β → Bool) (ke : κ) :
    entries.countP (fun entry => wanted entry.2) =
      (entries.kerase ke).countP (fun entry => wanted entry.2) +
        if (entries.dlookup ke).any wanted then 1 else 0 := by
  induction entries with
  | nil => rfl
  | cons entry rest ih =>
      obtain ⟨k, b⟩ := entry
      obtain ⟨fresh, others⟩ := List.nodupKeys_cons.mp distinct
      by_cases same : ke = k
      · have here : (⟨k, b⟩ :: rest).kerase ke = rest := List.kerase_cons_eq same
        subst same
        rw [here, List.dlookup_cons_eq, List.countP_cons]
        rfl
      · rw [List.kerase_cons_ne same, List.dlookup_cons_ne _ _ same, List.countP_cons,
          List.countP_cons, ih others]
        omega

theorem matching_erase (live : AList (fun _ : κ => Entity ζ)) (ke : κ)
    (x : MatchedEvent × Topic) :
    matching live x = matching (live.erase ke) x + share (live.lookup ke) x := by
  have counted := countP_kerase live.nodupKeys
    (fun entity : Entity ζ => decide (concerns entity = some x)) ke
  refine counted.trans (congrArg _ ?_)
  show _ = share (live.entries.dlookup ke) x
  unfold share
  cases live.entries.dlookup ke with
  | none => rfl
  | some entity => simp

theorem matching_insert (live : AList (fun _ : κ => Entity ζ)) (ke : κ) (entity : Entity ζ)
    (x : MatchedEvent × Topic) :
    matching (live.insert ke entity) x + share (live.lookup ke) x =
      matching live x + share (some entity) x := by
  have inserted : matching (live.insert ke entity) x =
      matching (live.erase ke) x + share (some entity) x := by
    unfold matching share
    rw [AList.entries_insert, List.countP_cons]
    simp only [Option.bind_some, decide_eq_true_eq]
    rfl
  rw [inserted, matching_erase live ke]
  omega

/-- A key that is inserted counts if it was not live. -/
theorem matching_inserted (fmt : Format κ ζ) (live : AList (fun _ : κ => Entity ζ)) (ke : κ)
    (x : MatchedEvent × Topic) : matching (track fmt live (.inserted ke)) x =
      matching live x + if live.lookup ke = none then share (fmt.parser ke) x else 0 := by
  simp only [track]
  by_cases known : ke ∈ live
  · rw [if_pos known, if_neg (fun none => AList.lookup_eq_none.mp none known), Nat.add_zero]
  · have none := AList.lookup_eq_none.mpr known
    rw [if_neg known, if_pos none]
    cases fmt.parser ke with
    | none => rfl
    | some entity =>
        have counted := matching_insert live ke entity x
        rw [none] at counted
        exact counted

/-! ### What the graph counts -/

omit [DecidableEq κ] in
theorem concerns_eq_some {entity : Entity ζ} {event : MatchedEvent} {topic : Topic} :
    concerns entity = some (event, topic) ↔
      (Query.count event.kind topic).asks entity = true := by
  cases entity with
  | node n => cases event <;> simp [concerns, Query.asks, entityKind, MatchedEvent.kind]
  | endpoint e =>
      obtain ⟨id, node, kind, name, typeInfo, qos⟩ := e
      cases kind <;> cases event <;>
        simp [concerns, matchedEvent, Query.asks, entityKind, MatchedEvent.kind, countPlace,
          places, eq_comm]

variable {fmt : Format κ ζ} {live' : AList (fun _ : κ => Entity ζ)}

/-- **The graph counts the live entities that match.** -/
theorem GraphData.Inv.length_report {s s' : GraphData κ ζ} (inv : s.Inv fmt live')
    {order : List κ} (drained : order.Perm s.cached) {event : MatchedEvent} {topic : Topic}
    {counted : List (Arc κ ζ)}
    (asked : s.report fmt (.count event.kind topic) order = some (s', counted)) :
    counted.length = matching live' (event, topic) := by
  have perm := (inv.report_perm drained asked).length_eq
  rw [List.length_map, ← List.countP_eq_length_filter] at perm
  rw [perm, matching]
  refine List.countP_congr fun entry _ => ?_
  rw [decide_eq_true_eq]
  exact concerns_eq_some.symm

/-- The entity under a key is the live one. -/
theorem GraphData.Inv.entityAt {s : GraphData κ ζ} (inv : s.Inv fmt live') (ke : κ) :
    s.entityAt fmt ke = live'.lookup ke := (inv.tracks ke).symm

end Counting

/-! ## Triggers to come -/

section Triggers

/-- The change that is triggered when an entity appears or disappears. -/
def changeBy (appeared : Bool) : ℤ := if appeared then 1 else -1

def pending (triggers : List (Trigger ζ)) (appeared : Bool) (x : MatchedEvent × Topic) : ℕ :=
  triggers.countP fun t => t.appeared = appeared ∧ concerns (.endpoint t.entity) = some x

/-- What has been announced of the live entities that match. -/
def announced (live : AList (fun _ : κ => Entity ζ)) (triggers : List (Trigger ζ))
    (x : MatchedEvent × Topic) : ℤ :=
  matching live x - pending triggers true x + pending triggers false x

theorem announced_cons (live : AList (fun _ : κ => Entity ζ)) {triggers rest : List (Trigger ζ)}
    {t : Trigger ζ} (perm : triggers.Perm (t :: rest)) (x : MatchedEvent × Topic) :
    announced live triggers x =
      announced live rest x - changeBy t.appeared * share (some (.endpoint t.entity)) x := by
  obtain ⟨owner, entity, appeared⟩ := t
  unfold announced pending changeBy share
  rw [perm.countP_eq, perm.countP_eq, List.countP_cons, List.countP_cons]
  by_cases concerned : concerns (.endpoint entity) = some x
  · cases appeared <;> simp [concerned] <;> ring
  · simp [concerned]

theorem pending_eq_zero {triggers : List (Trigger ζ)} {x : MatchedEvent × Topic}
    (none : ∀ t ∈ triggers, concerns (.endpoint t.entity) ≠ some x) (appeared : Bool) :
    pending triggers appeared x = 0 := by
  refine List.countP_eq_zero.mpr fun t member => ?_
  rw [decide_eq_true_eq]
  exact fun both => none t member both.2

/-- Once nothing is to be triggered for them, all that match have been announced. -/
theorem announced_eq_matching (live : AList (fun _ : κ => Entity ζ)) {triggers : List (Trigger ζ)}
    {x : MatchedEvent × Topic} (none : ∀ t ∈ triggers, concerns (.endpoint t.entity) ≠ some x) :
    announced live triggers x = matching live x := by
  unfold announced
  rw [pending_eq_zero none, pending_eq_zero none]
  omega

end Triggers

/-! ## Endpoints -/

namespace LocalEndpoint

/-- The key under which the callback is registered. -/
def key (gid : ζ → UInt64 → γ) (e : LocalEndpoint κ ζ) : γ × MatchedEvent :=
  (gid e.entity.node.zId e.entity.id, e.event)

/-- Before it counts an endpoint has no matches, and from then on it has those given. -/
structure Balanced (e : LocalEndpoint κ ζ) (counts : MatchedEvent × Topic → ℤ) : Prop where
  uncounted : e.stage = .registering ∨ e.stage = .counting → e.status.currentCount = 0
  counted : e.stage.counted = true → e.status.currentCount = counts e.about

/-- A change of an endpoint that neither registers nor counts. -/
structure Evolves (counts counts' : MatchedEvent × Topic → ℤ) (e e' : LocalEndpoint κ ζ) :
    Prop where
  entity : e'.entity = e.entity
  listens : e'.stage.listens = true → e.stage.listens = true
  registering : e'.stage = .registering → e.stage = .registering
  balanced : e.Balanced counts → e'.Balanced counts'

variable {counts counts' : MatchedEvent × Topic → ℤ} {e e' : LocalEndpoint κ ζ}

theorem listens_of_counted {stage : EndpointStage κ ζ} (counted : stage.counted = true) :
    stage.listens = true := by
  cases stage with
  | registering | counting | leaving | gone => cases counted
  | checking | adding | announcing | returning | live => rfl

theorem Balanced.congr (balanced : e.Balanced counts)
    (same : e.stage.counted = true → counts' e.about = counts e.about) : e.Balanced counts' :=
  ⟨balanced.uncounted, fun counted => (balanced.counted counted).trans (same counted).symm⟩

theorem Evolves.key {gid : ζ → UInt64 → γ} (evolves : e.Evolves counts counts' e') :
    e'.key gid = e.key gid := by
  unfold LocalEndpoint.key LocalEndpoint.event
  rw [evolves.entity]

end LocalEndpoint

/-! ## Callbacks -/

section Callbacks

theorem callback_none {change : ℤ} {endpoints : EndpointId → Option (LocalEndpoint κ ζ)}
    {i j : EndpointId} (absent : endpoints i = none) : callback change endpoints j i = none := by
  unfold callback
  cases found : endpoints j with
  | none => exact absent
  | some e =>
      have other : i ≠ j := by
        rintro rfl
        cases absent.symm.trans found
      exact (Function.update_of_ne other _ _).trans absent

theorem callback_some (change : ℤ) (j : EndpointId)
    {endpoints : EndpointId → Option (LocalEndpoint κ ζ)} {i : EndpointId}
    {e : LocalEndpoint κ ζ} (found : endpoints i = some e) :
    callback change endpoints j i =
      some { e with status := if j = i then e.status.update change else e.status } := by
  unfold callback
  by_cases same : j = i
  · subst same
    simp [found]
  · cases endpoints j with
    | none => simp [found, same]
    | some other => simp [Function.update_of_ne (Ne.symm same), found, same]

variable (event : MatchedEvent) (change : ℤ)

theorem foldl_callback_none (entries : List (Sigma fun _ : γ × MatchedEvent => EndpointId))
    {endpoints : EndpointId → Option (LocalEndpoint κ ζ)} {i : EndpointId}
    (absent : endpoints i = none) :
    entries.foldl (fun endpoints entry => if entry.1.2 = event then
      callback change endpoints entry.2 else endpoints) endpoints i = none := by
  induction entries generalizing endpoints with
  | nil => exact absent
  | cons entry rest ih =>
      rw [List.foldl_cons]
      split
      · exact ih (callback_none absent)
      · exact ih absent

/-- An endpoint is told as often as it has registered for the event. -/
theorem foldl_callback (entries : List (Sigma fun _ : γ × MatchedEvent => EndpointId))
    {endpoints : EndpointId → Option (LocalEndpoint κ ζ)} {i : EndpointId}
    {e : LocalEndpoint κ ζ} (found : endpoints i = some e) :
    ∃ status, entries.foldl (fun endpoints entry => if entry.1.2 = event then
        callback change endpoints entry.2 else endpoints) endpoints i = some { e with status } ∧
      status.currentCount = e.status.currentCount +
        entries.countP (fun entry => entry.1.2 = event ∧ entry.2 = i) * change := by
  induction entries generalizing endpoints e with
  | nil => exact ⟨e.status, found, by simp⟩
  | cons entry rest ih =>
      rw [List.foldl_cons, List.countP_cons]
      by_cases raised : entry.1.2 = event
      · obtain ⟨status, told, counted⟩ := ih (callback_some change entry.2 found)
        rw [if_pos raised]
        refine ⟨status, told, counted.trans ?_⟩
        by_cases same : entry.2 = i
        · simp [raised, same, EventStatus.update]
          ring
        · simp [raised, same]
      · obtain ⟨status, told, counted⟩ := ih found
        rw [if_neg raised]
        exact ⟨status, told, by simpa [raised] using counted⟩

theorem triggerGraphChange_graph (s : MatchedState κ ζ γ) (entity : Entity ζ) (appeared : Bool) :
    (s.triggerGraphChange entity appeared).graph = s.graph := by
  unfold MatchedState.triggerGraphChange
  cases matchedEvent entity <;> rfl

theorem triggerGraphChange_triggers (s : MatchedState κ ζ γ) (entity : Entity ζ)
    (appeared : Bool) : (s.triggerGraphChange entity appeared).triggers = s.triggers := by
  unfold MatchedState.triggerGraphChange
  cases matchedEvent entity <;> rfl

end Callbacks

/-! ## Sound sessions -/

variable [DecidableEq γ]

/-- Those who listen have their callbacks registered, and every endpoint is balanced. -/
structure Sound (gid : ζ → UInt64 → γ) (s : MatchedState κ ζ γ)
    (counts : MatchedEvent × Topic → ℤ) : Prop where
  fresh : ∀ i, s.nextEndpoint ≤ i → s.endpoints i = none
  owned : ∀ key i, s.callbacks.lookup key = some i →
    ∃ e, s.endpoints i = some e ∧ e.stage ≠ .registering ∧ e.key gid = key
  listed : ∀ i e, s.endpoints i = some e → e.stage.listens = true →
    s.callbacks.lookup (e.key gid) = some i
  balanced : ∀ i e, s.endpoints i = some e → e.Balanced counts

namespace Sound

variable {gid : ζ → UInt64 → γ} {s s' : MatchedState κ ζ γ}
  {counts counts' : MatchedEvent × Topic → ℤ} {i : EndpointId} {e : LocalEndpoint κ ζ}

theorem lt_next (sound : Sound gid s counts) (found : s.endpoints i = some e) :
    i < s.nextEndpoint :=
  PartialMap.lt_of_found sound.fresh found

/-- Endpoints evolve, and nobody registers. -/
theorem evolve (sound : Sound gid s counts) (callbacks : s'.callbacks = s.callbacks)
    (next : s'.nextEndpoint = s.nextEndpoint)
    (absent : ∀ i, s.endpoints i = none → s'.endpoints i = none)
    (present : ∀ i e, s.endpoints i = some e →
      ∃ e', s'.endpoints i = some e' ∧ e.Evolves counts counts' e') : Sound gid s' counts' := by
  have before : ∀ i e', s'.endpoints i = some e' →
      ∃ e, s.endpoints i = some e ∧ e.Evolves counts counts' e' := by
    intro i e' found
    cases origin : s.endpoints i with
    | none => cases (absent i origin).symm.trans found
    | some e =>
        obtain ⟨e'', result, evolves⟩ := present i e origin
        cases result.symm.trans found
        exact ⟨e, rfl, evolves⟩
  refine ⟨?_, ?_, ?_, ?_⟩
  · intro i late
    rw [next] at late
    exact absent i (sound.fresh i late)
  · intro key i registered
    rw [callbacks] at registered
    obtain ⟨e, found, begun, same⟩ := sound.owned key i registered
    obtain ⟨e', result, evolves⟩ := present i e found
    exact ⟨e', result, fun early => begun (evolves.registering early),
      evolves.key.trans same⟩
  · intro i e' found listens
    obtain ⟨e, origin, evolves⟩ := before i e' found
    rw [callbacks, evolves.key]
    exact sound.listed i e origin (evolves.listens listens)
  · intro i e' found
    obtain ⟨e, origin, evolves⟩ := before i e' found
    exact evolves.balanced (sound.balanced i e origin)

/-- How often an endpoint is told of an event. -/
theorem countP_callbacks (sound : Sound gid s counts) (found : s.endpoints i = some e)
    (event : MatchedEvent) :
    s.callbacks.entries.countP (fun entry => entry.1.2 = event ∧ entry.2 = i) =
      if e.event = event ∧ s.callbacks.lookup (e.key gid) = some i then 1 else 0 := by
  have own : ∀ entry ∈ s.callbacks.entries, entry.2 = i → entry.1 = e.key gid := by
    rintro ⟨key, j⟩ stored rfl
    obtain ⟨e', found', -, same⟩ := sound.owned key j (AList.mem_lookup_iff.mpr stored)
    cases found.symm.trans found'
    exact same.symm
  by_cases same : e.event = event
  · have once := countP_key s.callbacks (fun j => decide (j = i)) (e.key gid)
    rw [List.countP_filter] at once
    rw [if_congr (and_iff_right same) rfl rfl]
    refine (List.countP_congr fun entry stored => ?_).trans (once.trans ?_)
    · simp only [Bool.and_eq_true, decide_eq_true_eq]
      constructor
      · exact fun both => ⟨own entry stored both.2, both.2⟩
      · rintro ⟨key, value⟩
        rw [key]
        exact ⟨same, value⟩
    · cases s.callbacks.lookup (e.key gid) <;> simp
  · rw [if_neg (fun both => same both.1)]
    refine List.countP_eq_zero.mpr fun entry stored => ?_
    rw [decide_eq_true_eq]
    rintro ⟨raised, value⟩
    rw [own entry stored value] at raised
    exact same raised

/-- The callbacks change the count of those that an entity is about, and of no one else. -/
theorem told (sound : Sound gid s counts) {entity : Entity ζ} (appeared : Bool)
    (rightly : s.ToldRightly entity) (moved : s.EachCounted fun x =>
      counts' x = counts x + changeBy appeared * share (some entity) x) :
    Sound gid (s.triggerGraphChange entity appeared) counts' := by
  unfold MatchedState.triggerGraphChange
  cases raised : matchedEvent entity with
  | none =>
      -- nobody is told, and the entity counts for nobody
      have unconcerned : concerns entity = none := by
        cases entity with
        | node n => rfl
        | endpoint endpoint => rw [concerns, raised, Option.map_none]
      refine sound.evolve rfl rfl (fun _ absent => absent) fun i e found => ?_
      refine ⟨e, found, rfl, id, id, fun balanced => balanced.congr fun counted => ?_⟩
      have here := moved i (sound.lt_next found) e found counted
      simpa [share, unconcerned] using here
  | some event =>
      have concerned : ∃ topic, concerns entity = some (event, topic) := by
        cases entity with
        | node n => cases raised
        | endpoint endpoint => exact ⟨endpoint.topic, by rw [concerns, raised, Option.map_some]⟩
      refine sound.evolve rfl rfl (fun _ absent => foldl_callback_none _ _ _ absent)
        fun i e found => ?_
      obtain ⟨status, result, counted⟩ :=
        foldl_callback event (changeBy appeared) s.callbacks.entries found
      rw [sound.countP_callbacks found event] at counted
      have rightly := rightly i (sound.lt_next found) e found
      refine ⟨_, result, rfl, id, id, fun balanced => ⟨fun early => ?_, fun has => ?_⟩⟩
      · -- whoever has not counted is not told
        have untold : ¬ (e.event = event ∧ s.callbacks.lookup (e.key gid) = some i) := by
          rintro ⟨same, registered⟩
          rcases early with registering | counting
          · obtain ⟨e', found', begun, -⟩ := sound.owned _ _ registered
            cases found.symm.trans found'
            exact begun registering
          · have listens : e.stage.listens = true := by
              rw [show e.stage = .counting from counting]
              rfl
            have has := (rightly listens (raised.trans (congrArg some same.symm))).1
            rw [show e.stage = .counting from counting] at has
            cases has
        rw [if_neg untold] at counted
        have before := balanced.uncounted early
        simp only [counted, before]
        simp
      · have listens := LocalEndpoint.listens_of_counted has
        have here := moved i (sound.lt_next found) e found has
        have before := balanced.counted has
        have registered := sound.listed i e found listens
        show status.currentCount = counts' e.about
        rw [counted, here, before]
        by_cases same : e.event = event
        · have concerned := (rightly listens (raised.trans (congrArg some same.symm))).2
          simp [same, registered, share, concerned]
        · obtain ⟨topic, concerned⟩ := concerned
          have other : (event, topic) ≠ e.about := by
            intro equal
            exact same (congrArg Prod.fst equal).symm
          simp [same, share, concerned, other]

theorem congr (sound : Sound gid s counts)
    (same : s.EachCounted fun x => counts' x = counts x) : Sound gid s counts' := by
  refine sound.evolve rfl rfl (fun _ absent => absent) fun i e found => ?_
  refine ⟨e, found, rfl, id, id, fun balanced => balanced.congr ?_⟩
  exact same i (sound.lt_next found) e found

/-- Neither the graph nor the triggers play a part. -/
theorem withGraph (sound : Sound gid s counts) (graph : GraphData κ ζ)
    (triggers : List (Trigger ζ)) : Sound gid { s with graph, triggers } counts :=
  ⟨sound.fresh, sound.owned, sound.listed, sound.balanced⟩

theorem update (sound : Sound gid s counts) (found : s.endpoints i = some e)
    {e' : LocalEndpoint κ ζ} (evolves : e.Evolves counts counts e') :
    Sound gid { s with endpoints := Function.update s.endpoints i (some e') } counts := by
  refine sound.evolve rfl rfl (fun j absent => ?_) fun j other present => ?_
  · have apart : j ≠ i := by
      rintro rfl
      cases absent.symm.trans found
    exact (Function.update_of_ne apart _ _).trans absent
  · by_cases same : j = i
    · subst same
      cases found.symm.trans present
      exact ⟨e', Function.update_self .., evolves⟩
    · exact ⟨other, (Function.update_of_ne same _ _).trans present, rfl, id, id, id⟩

/-- A call goes on from one stage to the next. -/
theorem setStage (sound : Sound gid s counts) (found : s.endpoints i = some e)
    (stage : EndpointStage κ ζ) (listens : stage.listens = true → e.stage.listens = true)
    (counted : stage.counted = true → e.stage.counted = true)
    (registering : stage = .registering → e.stage = .registering)
    (counting : stage = .counting → e.stage = .registering ∨ e.stage = .counting) :
    Sound gid (s.setStage i e stage) counts := by
  refine sound.update found ⟨rfl, listens, registering, fun balanced => ⟨?_, fun has => ?_⟩⟩
  · rintro (early | early)
    · exact balanced.uncounted (.inl (registering early))
    · exact balanced.uncounted (counting early)
  · exact balanced.counted (counted has)

/-- A new endpoint has neither registered nor counted. -/
theorem create (sound : Sound gid s counts) (entity : EndpointEntity ζ) :
    Sound gid { s with
      endpoints := Function.update s.endpoints s.nextEndpoint (some ⟨entity, .registering, {}⟩)
      nextEndpoint := s.nextEndpoint + 1 } counts := by
  refine ⟨PartialMap.unused_next sound.fresh _, fun key i registered => ?_,
    fun i e found listens => ?_, fun i e found => ?_⟩
  · obtain ⟨e, found, begun, same⟩ := sound.owned key i registered
    have apart : i ≠ s.nextEndpoint := Nat.ne_of_lt (sound.lt_next found)
    exact ⟨e, PartialMap.update_eq_some_iff.mpr (.inr ⟨apart, found⟩), begun, same⟩
  · rcases PartialMap.update_eq_some_iff.mp found with ⟨-, new⟩ | ⟨-, before⟩
    · cases new
      cases listens
    · exact sound.listed i e before listens
  · rcases PartialMap.update_eq_some_iff.mp found with ⟨-, new⟩ | ⟨-, before⟩
    · cases new
      exact ⟨fun _ => rfl, fun has => by cases has⟩
    · exact sound.balanced i e before

/-- The identity of an endpoint that registers is not that of another one that listens. -/
theorem register (sound : Sound gid s counts) (found : s.endpoints i = some e)
    (early : e.stage = .registering)
    (distinct : ∀ j other, s.endpoints j = some other → j ≠ i → other.stage.listens = true →
      other.key gid ≠ e.key gid) :
    Sound gid { s.setStage i e .counting with
      callbacks := s.callbacks.insert (e.key gid) i } counts := by
  refine ⟨PartialMap.unused_update sound.fresh found _, fun key j registered => ?_,
    fun j e' present listens => ?_, fun j e' present => ?_⟩
  · rcases PartialMap.lookup_insert_eq_some_iff.mp registered with ⟨rfl, rfl⟩ | ⟨-, before⟩
    · exact ⟨_, Function.update_self .., nofun, rfl⟩
    · obtain ⟨e', present, begun, same⟩ := sound.owned key j before
      have apart : j ≠ i := by
        rintro rfl
        cases found.symm.trans present
        exact begun early
      exact ⟨e', PartialMap.update_eq_some_iff.mpr (.inr ⟨apart, present⟩), begun, same⟩
  · rcases PartialMap.update_eq_some_iff.mp present with ⟨rfl, new⟩ | ⟨apart, before⟩
    · cases new
      exact AList.lookup_insert ..
    · exact PartialMap.lookup_insert_eq_some_iff.mpr
        (.inr ⟨distinct j e' before apart listens, sound.listed j e' before listens⟩)
  · rcases PartialMap.update_eq_some_iff.mp present with ⟨rfl, new⟩ | ⟨apart, before⟩
    · cases new
      exact ⟨fun _ => (sound.balanced j e found).uncounted (.inl early), fun has => by cases has⟩
    · exact sound.balanced j e' before

end Sound

end RosZ.Graph
