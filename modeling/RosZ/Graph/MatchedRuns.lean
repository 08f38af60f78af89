import RosZ.Graph.MatchedCounts
import RosZ.Lib.ByteOrder

/-!
# Runs of a session with matched events

In every run in which what is announced has happened, once and to endpoints on its topic, the
current counts at rest are those of the graph (`accurate_of_reachable`).

A local call changes the graph before it triggers the event, so in between the counts lag behind.
At rest nothing is to be triggered, and what is announced is what matches.
-/

namespace RosZ.Graph

open Protocol Transition

variable {κ ζ γ : Type} [DecidableEq κ] [DecidableEq γ]

/-! ## Steps -/

section Steps

/-- The graph follows the live keys, and the session what is announced of them. -/
structure Consistent (fmt : Format κ ζ) (gid : ζ → UInt64 → γ) (s : MatchedState κ ζ γ)
    (alive : AList (fun _ : κ => Entity ζ)) : Prop where
  inv : s.graph.Inv fmt alive
  sound : Sound gid s (announced alive s.triggers)

omit [DecidableEq γ] [DecidableEq κ] in
theorem dropHeld_sublist (dropped held : List (Arc κ ζ)) :
    (dropHeld held dropped).Sublist held := by
  induction dropped generalizing held with
  | nil => exact List.Sublist.refl held
  | cons a rest ih => exact (ih _).trans List.eraseP_sublist

namespace Consistent

variable {fmt : Format κ ζ} {gid : ζ → UInt64 → γ} {s s' : MatchedState κ ζ γ}
  {alive : AList (fun _ : κ => Entity ζ)} {i : EndpointId}

/-- There is no endpoint yet. -/
theorem discover (consistent : Consistent fmt gid s alive) (ke : κ) (none : s.nextEndpoint = 0) :
    Consistent fmt gid { s with graph := s.graph.insert ke } (track fmt alive (.inserted ke)) where
  inv := GraphData.Step.inv (.insert ke) consistent.inv
    (show Undisturbed fmt ⟨_, []⟩ _ from trivial)
  sound := by
    refine Sound.withGraph (consistent.sound.congr fun i bound => ?_) _ _
    rw [none] at bound
    exact absurd bound (Nat.not_lt_zero i)

theorem put (consistent : Consistent fmt gid s alive) {ke : κ}
    (rightly : ∀ entity ∈ fmt.parser ke, s.ToldRightly entity)
    (new : s.EachCounted fun x =>
      (fmt.parser ke).bind concerns = some x → s.graph.entityAt fmt ke = none) :
    Consistent fmt gid (s.put fmt ke) (track fmt alive (.inserted ke)) := by
  have inv := GraphData.Step.inv (.insert ke) consistent.inv
    (show Undisturbed fmt ⟨_, []⟩ _ from trivial)
  have moved : s.EachCounted fun x => announced (track fmt alive (.inserted ke)) s.triggers x =
      announced alive s.triggers x + share (fmt.parser ke) x := by
    intro i bound e found counted
    unfold announced
    rw [matching_inserted]
    by_cases concerned : (fmt.parser ke).bind concerns = some e.about
    · have absent := new i bound e found counted concerned
      rw [consistent.inv.entityAt] at absent
      rw [if_pos absent]
      omega
    · have unshared : share (fmt.parser ke) e.about = 0 := if_neg concerned
      rw [unshared]
      split <;> omega
  unfold MatchedState.put
  cases parses : fmt.parser ke with
  | none =>
      rw [parses] at moved
      refine ⟨inv, (consistent.sound.congr fun i bound e found counted => ?_).withGraph _ _⟩
      simpa only [share_none, Nat.cast_zero, add_zero] using moved i bound e found counted
  | some entity =>
      rw [parses] at moved
      have told := (consistent.sound.withGraph (s.graph.insert ke) s.triggers).told true
        (rightly entity parses) fun i bound e found counted =>
          (moved i bound e found counted).trans (by rw [changeBy, if_pos rfl, one_mul])
      refine ⟨?_, ?_⟩
      · simp only [triggerGraphChange_graph]
        exact inv
      · simp only [triggerGraphChange_triggers]
        exact told

theorem delete (consistent : Consistent fmt gid s alive) {ke : κ}
    (undisturbed : Undisturbed fmt ⟨s.graph, []⟩ (.remove ke))
    (rightly : ∀ entity ∈ fmt.parser ke, s.ToldRightly entity)
    (known : s.EachCounted fun x => ((fmt.parser ke).bind concerns = some x ↔
      (s.graph.entityAt fmt ke).bind concerns = some x)) :
    Consistent fmt gid (s.delete fmt ke) (alive.erase ke) := by
  have inv := GraphData.Step.inv (.remove ke) consistent.inv undisturbed
  have moved : s.EachCounted fun x => announced (alive.erase ke) s.triggers x =
      announced alive s.triggers x - share (fmt.parser ke) x := by
    intro i bound e found counted
    have same : share (fmt.parser ke) e.about = share (alive.lookup ke) e.about := by
      rw [← consistent.inv.entityAt]
      exact if_congr (known i bound e found counted) rfl rfl
    unfold announced
    rw [matching_erase alive ke, same]
    omega
  unfold MatchedState.delete
  cases parses : fmt.parser ke with
  | none =>
      rw [parses] at moved
      refine ⟨inv, (consistent.sound.congr fun i bound e found counted => ?_).withGraph _ _⟩
      simpa only [share_none, Nat.cast_zero, sub_zero] using moved i bound e found counted
  | some entity =>
      rw [parses] at moved
      have told := consistent.sound.told false (rightly entity parses)
        fun i bound e found counted => (moved i bound e found counted).trans
          (by rw [changeBy, if_neg Bool.false_ne_true, neg_one_mul, sub_eq_add_neg])
      refine ⟨?_, ?_⟩
      · simp only [triggerGraphChange_graph]
        exact inv
      · simp only [triggerGraphChange_triggers]
        exact told.withGraph _ _

/-- With no trigger to come for its topic, an endpoint counts what is announced. -/
theorem count (consistent : Consistent fmt gid s alive) {order : List κ}
    (counted : s.count fmt i order = some s')
    (settled : ∀ e ∈ s.endpoints i, ∀ t ∈ s.triggers,
      concerns (.endpoint t.entity) ≠ some e.about) : Consistent fmt gid s' alive := by
  unfold MatchedState.count at counted
  split at counted
  · next entity status found =>
      obtain ⟨drained, asked⟩ := Option.ite_none_right_eq_some.mp counted
      obtain ⟨⟨graph, matched⟩, answered, rfl⟩ := Option.map_eq_some_iff.mp asked
      have length := consistent.inv.length_report drained answered
      have all := announced_eq_matching alive (settled _ found)
      have taken : LocalEndpoint.Evolves (announced alive s.triggers) (announced alive s.triggers)
          (⟨entity, .counting, status⟩ : LocalEndpoint κ ζ) ⟨entity, .checking,
            if 0 < matched.length then status.update matched.length else status⟩ := by
        refine ⟨rfl, fun _ => rfl, nofun, fun balanced => ⟨?_, fun _ => ?_⟩⟩
        · rintro (early | early) <;> cases early
        · have none : status.currentCount = 0 := balanced.uncounted (.inr rfl)
          refine Eq.trans ?_ ((congrArg Int.ofNat length).trans all.symm)
          split
          · simp [EventStatus.update, none]
          · next empty =>
              rw [none, Nat.eq_zero_of_not_pos empty]
              rfl
      exact ⟨(consistent.inv.report drained answered).1,
        (consistent.sound.update found taken).withGraph graph s.triggers⟩
  · cases counted

theorem check (consistent : Consistent fmt gid s alive) {order : List κ}
    (checked : s.check fmt i order = some s') : Consistent fmt gid s' alive := by
  unfold MatchedState.check at checked
  split at checked
  · next entity status found =>
      obtain ⟨drained, asked⟩ := Option.ite_none_right_eq_some.mp checked
      obtain ⟨⟨graph, found'⟩, answered, rfl⟩ := Option.map_eq_some_iff.mp asked
      have goesOn := consistent.sound.setStage found (.adding found') (fun _ => rfl)
        (fun _ => rfl) nofun nofun
      exact ⟨consistent.inv.query drained answered, goesOn.withGraph _ s.triggers⟩
  · cases checked

/-- A local entity replaces one that counts for the same, or is new and its trigger is to come. -/
theorem add (consistent : Consistent fmt gid s alive) {observed : List (GraphEvent κ ζ)}
    (added : s.add fmt i = some (s', observed))
    (meets : ∀ e ∈ s.endpoints i,
      Undisturbed fmt ⟨s.graph, []⟩ (.addLocalEntity (.endpoint e.entity)) ∧
      ∀ ke ∈ fmt.toKe (.endpoint e.entity), s.EachCounted fun x =>
        if ke ∈ s.graph.parsed then (concerns (.endpoint e.entity) = some x ↔
          (s.graph.entityAt fmt ke).bind concerns = some x)
        else (s.graph.entityAt fmt ke).bind concerns ≠ some x) :
    Consistent fmt gid s' (observed.foldl (track fmt) alive) := by
  unfold MatchedState.add at added
  split at added
  · next entity held status found =>
      obtain ⟨undisturbed, known⟩ := meets _ found
      split at added
      · next ke graph keyed stored =>
          have inv := GraphData.Step.inv (.addLocalEntity keyed stored) consistent.inv undisturbed
          split at added
          · next parsed =>
              cases added
              have moved : s.EachCounted fun x =>
                  announced (alive.insert ke (.endpoint entity)) s.triggers x =
                    announced alive s.triggers x := by
                intro j bound e present counted
                have alike := known ke keyed j bound e present counted
                simp only [if_pos parsed, consistent.inv.entityAt] at alike
                have same : share (some (.endpoint entity)) e.about =
                    share (alive.lookup ke) e.about := if_congr alike rfl rfl
                have matched := matching_insert alive ke (.endpoint entity) e.about
                unfold announced
                omega
              have goesOn := (consistent.sound.congr moved).setStage found (.returning held)
                (fun _ => rfl) (fun _ => rfl) nofun nofun
              exact ⟨inv, goesOn.withGraph graph s.triggers⟩
          · next unparsed =>
              cases added
              have moved : s.EachCounted fun x =>
                  announced (alive.insert ke (.endpoint entity))
                    (s.triggers ++ [⟨i, entity, true⟩]) x = announced alive s.triggers x := by
                intro j bound e present counted
                have absent := known ke keyed j bound e present counted
                simp only [if_neg unparsed, consistent.inv.entityAt] at absent
                have unshared : share (alive.lookup ke) e.about = 0 := if_neg absent
                have matched := matching_insert alive ke (.endpoint entity) e.about
                rw [announced_cons _ (List.perm_append_singleton _ _)]
                simp only [announced, changeBy, if_true]
                omega
              have goesOn := (consistent.sound.congr moved).setStage found (.announcing held)
                (fun _ => rfl) (fun _ => rfl) nofun nofun
              exact ⟨inv, goesOn.withGraph graph _⟩
      · cases added
        exact ⟨consistent.inv, consistent.sound.setStage found (.returning held) (fun _ => rfl)
          (fun _ => rfl) nofun nofun⟩
  · cases added

theorem destroy (consistent : Consistent fmt gid s alive) {observed : List (GraphEvent κ ζ)}
    (destroyed : s.destroy fmt i = some (s', observed))
    (meets : ∀ e ∈ s.endpoints i,
      Undisturbed fmt ⟨s.graph, []⟩ (.removeLocalEntity (.endpoint e.entity)) ∧
      ∀ ke ∈ fmt.toKe (.endpoint e.entity), s.EachCounted fun x =>
        (concerns (.endpoint e.entity) = some x ↔
          (s.graph.entityAt fmt ke).bind concerns = some x)) :
    Consistent fmt gid s' (observed.foldl (track fmt) alive) := by
  unfold MatchedState.destroy at destroyed
  split at destroyed
  · next entity status found =>
      obtain ⟨undisturbed, known⟩ := meets _ found
      split at destroyed
      · next ke graph keyed removed =>
          cases destroyed
          have inv :=
            GraphData.Step.inv (.removeLocalEntity keyed removed) consistent.inv undisturbed
          have moved : s.EachCounted fun x =>
              announced (alive.erase ke) (s.triggers ++ [⟨i, entity, false⟩]) x =
                announced alive s.triggers x := by
            intro j bound e present counted
            have alike := known ke keyed j bound e present counted
            simp only [consistent.inv.entityAt] at alike
            have same : share (some (.endpoint entity)) e.about =
                share (alive.lookup ke) e.about := if_congr alike rfl rfl
            have matched := matching_erase alive ke e.about
            rw [announced_cons _ (List.perm_append_singleton _ _)]
            simp only [announced, changeBy, if_neg Bool.false_ne_true]
            omega
          have goesOn := (consistent.sound.congr moved).setStage found .leaving nofun nofun nofun
            nofun
          exact ⟨inv, goesOn.withGraph graph _⟩
      · cases destroyed
        exact ⟨consistent.inv,
          consistent.sound.setStage found .gone nofun nofun nofun nofun⟩
  · cases destroyed

theorem trigger (consistent : Consistent fmt gid s alive) {k : ℕ}
    (triggered : s.trigger k = some s')
    (rightly : ∀ t ∈ s.triggers[k]?, s.ToldRightly (.endpoint t.entity)) :
    Consistent fmt gid s' alive := by
  unfold MatchedState.trigger at triggered
  obtain ⟨t, here, rfl⟩ := Option.map_eq_some_iff.mp triggered
  obtain ⟨bound, rfl⟩ := List.getElem?_eq_some_iff.mp here
  have moved : s.EachCounted fun x => announced alive (s.triggers.eraseIdx k) x =
      announced alive s.triggers x +
        changeBy s.triggers[k].appeared * share (some (.endpoint s.triggers[k].entity)) x := by
    intro i _ e found counted
    rw [announced_cons alive (List.getElem_cons_eraseIdx_perm bound).symm]
    omega
  have told := consistent.sound.told s.triggers[k].appeared (rightly _ here) moved
  have inv := consistent.inv
  rw [← triggerGraphChange_graph s (.endpoint s.triggers[k].entity) s.triggers[k].appeared] at inv
  dsimp only
  generalize s.triggerGraphChange (.endpoint s.triggers[k].entity) s.triggers[k].appeared =
    changed at told inv
  have rest := told.withGraph changed.graph (s.triggers.eraseIdx k)
  split
  · next e found =>
      refine ⟨inv, rest.setStage found _ ?_ ?_ ?_ ?_⟩
      all_goals cases e.stage <;> simp [EndpointStage.triggered, EndpointStage.listens,
        EndpointStage.counted]
  · exact ⟨inv, rest⟩

theorem finish (consistent : Consistent fmt gid s alive) {entity : EndpointEntity ζ}
    {held : List (Arc κ ζ)} {status : EventStatus}
    (found : s.endpoints i = some ⟨entity, .returning held, status⟩) :
    Consistent fmt gid { s.setStage i ⟨entity, .returning held, status⟩ .live with
      graph := { s.graph with held := dropHeld s.graph.held held } } alive := by
  have goesOn := consistent.sound.setStage found .live (fun _ => rfl) (fun _ => rfl) nofun nofun
  exact ⟨⟨consistent.inv.indexed.unhold (dropHeld_sublist held _).subset,
    consistent.inv.tracks⟩, goesOn.withGraph _ _⟩

theorem register (consistent : Consistent fmt gid s alive) {e : LocalEndpoint κ ζ}
    (found : s.endpoints i = some e) (early : e.stage = .registering)
    (meets : ∀ e ∈ s.endpoints i, ∀ j < s.nextEndpoint, ∀ other ∈ s.endpoints j, j ≠ i →
      other.stage.listens = true → other.event = e.event →
        gid other.entity.node.zId other.entity.id ≠ gid e.entity.node.zId e.entity.id) :
    Consistent fmt gid { s.setStage i e .counting with
      callbacks := s.callbacks.insert (e.key gid) i } alive := by
  refine ⟨consistent.inv, consistent.sound.register found early ?_⟩
  intro j other present apart listens same
  obtain ⟨identity, event⟩ := Prod.mk.inj same
  have bound := consistent.sound.lt_next present
  exact meets e found j bound other present apart listens event identity

theorem step (consistent : Consistent fmt gid s alive) {trace : List (GraphEvent κ ζ)}
    {label : MatchedLabel κ ζ} {observed : List (GraphEvent κ ζ)}
    (meets : AnnouncesChanges fmt gid ⟨s, trace⟩ label)
    (stepped : s.step fmt gid label = some (s', observed)) :
    Consistent fmt gid s' (observed.foldl (track fmt) alive) := by
  cases label with
  | discover ke =>
      obtain ⟨none, same⟩ := Option.ite_none_right_eq_some.mp stepped
      cases same
      exact consistent.discover ke none
  | put ke =>
      cases stepped
      exact consistent.put meets.1 meets.2
  | delete ke =>
      cases stepped
      exact consistent.delete meets.1 meets.2.1 meets.2.2
  | create entity =>
      obtain ⟨-, same⟩ := Option.ite_none_right_eq_some.mp stepped
      cases same
      exact ⟨consistent.inv, consistent.sound.create entity⟩
  | register i =>
      simp only [MatchedState.step] at stepped
      split at stepped
      · next found =>
          cases stepped
          exact consistent.register found rfl meets
      · cases stepped
  | count i order =>
      obtain ⟨after, counted, same⟩ := Option.map_eq_some_iff.mp stepped
      cases same
      exact consistent.count counted meets
  | check i order =>
      obtain ⟨after, checked, same⟩ := Option.map_eq_some_iff.mp stepped
      cases same
      exact consistent.check checked
  | add i => exact consistent.add stepped meets
  | trigger k =>
      obtain ⟨after, triggered, same⟩ := Option.map_eq_some_iff.mp stepped
      cases same
      exact consistent.trigger triggered meets
  | finish i =>
      simp only [MatchedState.step] at stepped
      split at stepped
      · next found =>
          cases stepped
          exact consistent.finish found
      · cases stepped
  | destroy i => exact consistent.destroy stepped meets

/-- At rest nothing is to be triggered, so what is announced is what the graph counts. -/
theorem accurate (consistent : Consistent fmt gid s alive) (rest : s.Quiescent) :
    s.Accurate fmt := by
  intro i e found isLive order drained
  have balanced := (consistent.sound.balanced i e found).counted (by rw [isLive]; rfl)
  have untold : s.triggers = [] := List.length_eq_zero_iff.mp rest.1
  rw [announced_eq_matching alive fun t member => by rw [untold] at member; cases member]
    at balanced
  have sensible : e.event.kind ≠ .node := by cases e.event <;> nofun
  obtain ⟨⟨after, counted⟩, asked⟩ : ∃ answer,
      s.graph.report fmt (.count e.event.kind e.entity.topic) order = some answer :=
    ⟨_, if_pos sensible⟩
  have length := consistent.inv.length_report drained asked
  rw [GraphData.count, asked, balanced]
  exact congrArg (fun n : ℕ => some (n : ℤ)) length

end Consistent

/-! ## Runs -/

variable {fmt : Format κ ζ} {gid : ζ → UInt64 → γ}

theorem consistent_start : Consistent fmt gid (matched fmt gid).init ∅ where
  inv := ⟨GraphData.indexed_new, fun _ => rfl⟩
  sound := {
    fresh _ _ := rfl
    owned key i registered := by cases registered
    listed i e found := by cases found
    balanced i e found := by cases found }

theorem consistent_of_reachable {c : Config (MatchedState κ ζ γ) (GraphEvent κ ζ)}
    (reached : (matched fmt gid).Reachable (AnnouncesChanges fmt gid) c) :
    Consistent fmt gid c.state (live fmt c.trace) := by
  refine reached.invariant (P := fun c => Consistent fmt gid c.state (live fmt c.trace))
    consistent_start ?_
  intro c label c' consistent meets moved
  obtain ⟨observed, stepped, grown⟩ := Machine.next_eq_some moved
  rw [grown, live, List.foldl_append]
  exact consistent.step meets stepped

/-- **At rest the counts are accurate**, in every run in which what is announced has happened. -/
theorem accurate_of_reachable (fmt : Format κ ζ) (gid : ζ → UInt64 → γ)
    (c : Config (MatchedState κ ζ γ) (GraphEvent κ ζ))
    (reached : (matched fmt gid).Reachable (AnnouncesChanges fmt gid) c)
    (rest : c.state.Quiescent) : c.state.Accurate fmt :=
  (consistent_of_reachable reached).accurate rest

end Steps

/-! ## Runs with the tokens of rmw_zenoh -/

section Tokens

open RmwZenoh Wire

/-- `endpoint_gid`, given the digest. -/
def endpointGid (sha256 : List UInt8 → List UInt8) (zId : SessionId) (id : UInt64) :
    List UInt8 :=
  (sha256 (leBytes 16 zId.value ++ leBytes 8 id.toNat)).take 16

def talkerEndpoint : EndpointEntity SessionId := (entityGetEndpoint talker).get rfl

/-- The SHA-256 digest of the session and the number of the publisher. -/
def talkerDigest : List UInt8 :=
  [0x5b, 0x30, 0x0b, 0xc7, 0xe1, 0x7f, 0xed, 0xcb, 0x66, 0xe4, 0x66, 0x6b, 0xad, 0xe7, 0x27, 0xca,
    0x0c, 0x33, 0xaa, 0xb1, 0xc2, 0x69, 0x38, 0xef, 0xfc, 0x06, 0x48, 0x7d, 0x18, 0x66, 0xca, 0x12]

/-- A subscription of another session on the topic of the publisher. -/
def listenerKey : PlainKey where
  text := "@ros2_lv/0/b/1/3/MS/%/%/m/%t/EMPTY_TOPIC_TYPE/EMPTY_TOPIC_HASH/::,10:,:,:,,"
  chunked := by decide +kernel

/-- A second one. -/
def secondListenerKey : PlainKey where
  text := "@ros2_lv/0/b/1/4/MS/%/%/m/%t/EMPTY_TOPIC_TYPE/EMPTY_TOPIC_HASH/::,10:,:,:,,"
  chunked := by decide +kernel

/-- The publisher is created when these keys are cached. -/
def talkerCreated (cached : List PlainKey) : List (MatchedLabel PlainKey SessionId) :=
  [.create talkerEndpoint, .register 0, .count 0 cached, .check 0 [], .add 0, .trigger 0, .finish 0]

/-- What is to be known of a session with the publisher. -/
structure TalkerView where
  quiescent : Bool
  nextEndpoint : EndpointId
  cached : List PlainKey
  /-- What the publisher has counted. -/
  current : Option (Bool × (MatchedEvent × Topic) × ℤ)
  /-- The subscriptions that the graph counts. -/
  count : Option ℕ
deriving DecidableEq

def talkerView (order : List PlainKey)
    (c : Config (MatchedState PlainKey SessionId (List UInt8)) (GraphEvent PlainKey SessionId)) :
    TalkerView where
  quiescent := c.state.Quiescent
  nextEndpoint := c.state.nextEndpoint
  cached := c.state.graph.cached
  current := (c.state.endpoints 0).map fun e => (e.stage.counted, e.about, e.status.currentCount)
  count := c.state.graph.count (rmwZenohFormat false) .subscription "/t" order

/-- A second subscription comes after the publisher, and the first one goes. -/
theorem accurate_of_reachable_talker :
    ∃ c, (matched (rmwZenohFormat false) (endpointGid fun _ => talkerDigest)).Reachable
        (AnnouncesChanges (rmwZenohFormat false) (endpointGid fun _ => talkerDigest)) c ∧
      c.state.graph.count (rmwZenohFormat false) .subscription "/t" [secondListenerKey] =
        some 1 ∧
      c.state.Accurate (rmwZenohFormat false) := by
  obtain ⟨c, reached, seen⟩ := Machine.exists_of_schedule
    (matched (rmwZenohFormat false) (endpointGid fun _ => talkerDigest))
    (AnnouncesChanges (rmwZenohFormat false) (endpointGid fun _ => talkerDigest))
    (.discover listenerKey :: talkerCreated [listenerKey] ++
      [.put talkerKey, .put secondListenerKey, .delete listenerKey])
    (talkerView [secondListenerKey])
    ⟨true, 1, [secondListenerKey], some (true, (.publicationMatched, "/t"), 1), some 1⟩
    (by decide +kernel)
  have rest : c.state.Quiescent := of_decide_eq_true (congrArg TalkerView.quiescent seen)
  exact ⟨c, reached, congrArg TalkerView.count seen,
    accurate_of_reachable (rmwZenohFormat false) (endpointGid fun _ => talkerDigest) c reached rest⟩

/-- A subscription whose token is put twice is counted twice. -/
theorem matched_not_accurate :
    ¬ ∀ c, (matched (rmwZenohFormat false) (endpointGid fun _ => talkerDigest)).Reachable
        Machine.anyStep c → c.state.Quiescent → c.state.Accurate (rmwZenohFormat false) := by
  obtain ⟨c, reached, seen⟩ := Machine.exists_of_schedule
    (matched (rmwZenohFormat false) (endpointGid fun _ => talkerDigest)) Machine.anyStep
    (talkerCreated [] ++ [.put listenerKey, .put listenerKey]) (talkerView [listenerKey])
    ⟨true, 1, [listenerKey], some (true, (.publicationMatched, "/t"), 2), some 1⟩
    (by decide +kernel)
  simp only [talkerView, TalkerView.mk.injEq, decide_eq_true_eq, Option.map_eq_some_iff,
    Prod.mk.injEq] at seen
  obtain ⟨rest, created, cached, ⟨e, found, has, about, current⟩, one⟩ := seen
  obtain ⟨event, topic⟩ := Prod.mk.inj about
  have settled := rest.2 0 (by rw [created]; exact Nat.one_pos) e found
  have isLive : e.stage = .live := by
    cases stage : e.stage <;> simp_all [EndpointStage.settled, EndpointStage.counted]
  intro claim
  have counted := claim c reached rest 0 e found isLive [listenerKey] (by rw [cached])
  rw [event, topic, current] at counted
  change (c.state.graph.count (rmwZenohFormat false) .subscription "/t" _).map _ = _ at counted
  rw [one] at counted
  cases counted

end Tokens

end RosZ.Graph
