import RosZ.Graph.Runs
import RosZ.Lib.Replica

/-!
# Discovery

Every session declares liveliness tokens for its entities and keeps a graph of those of all
sessions.  `Graph::new_with_pattern` declares a liveliness subscriber, whose samples change the
graph, and then asks for the tokens that are there already; local entities are added and removed
besides.  Samples about different keys may overtake each other, and what the subscriber hears is not
in step with the replies to the question.

* `discovered_of_settled`: when nothing about a key is on its way, the queries of an observer report
  the key if and only if its token is declared, unless a late reply has brought it back.
* `ghost_of_lateReply`: a reply that is handled after the token has gone brings it back for good.

## Design notes

* `leaving` are the local entities that the owner has removed from the graph before it drops the
  token.  Only the theorems look at it.
* What the callbacks tell the event manager is left out here.
-/

namespace RosZ.Graph.Discovery

open Protocol Transition Replica

/-- A session with a graph. -/
structure Observer (κ ζ : Type) where
  /-- The liveliness subscriber is declared. -/
  subscribed : Bool
  /-- The samples on their way to the subscriber. -/
  samples : List (Change κ)
  /-- The replies that are not yet handled. -/
  replies : List κ
  leaving : List κ
  graph : GraphData κ ζ

def Observer.new {κ ζ : Type} : Observer κ ζ :=
  { subscribed := false, samples := [], replies := [], leaving := [], graph := .new }

structure State (ι κ ζ : Type) where
  /-- The tokens that are declared. -/
  declared : List κ
  observers : ι → Observer κ ζ

inductive Label (ι κ ζ : Type) where
  | declare (ke : κ)
  | undeclare (ke : κ)
  /-- The subscriber is declared, with history. -/
  | subscribe (o : ι) (history : List κ)
  /-- The subscriber will hear of a token once more. -/
  | announce (o : ι) (ke : κ)
  | deliver (o : ι) (i : ℕ)
  /-- A token is found by the question for the tokens that are there. -/
  | reply (o : ι) (ke : κ)
  | handleReply (o : ι) (i : ℕ)
  | addLocalEntity (o : ι) (entity : Entity ζ)
  | removeLocalEntity (o : ι) (entity : Entity ζ)
  /-- Callers query the graph and drop what they hold. -/
  | use (o : ι) (used : GraphLabel κ ζ)

/-- An entity that belongs to the session. -/
def isEntityLocal {ζ : Type} [DecidableEq ζ] (zid : ζ) : Entity ζ → Bool
  | .node n => n.zId = zid
  | .endpoint e => e.node.zId = zid

/-- Neither a sample nor the owner of an entity makes this step. -/
def isUse {κ ζ : Type} : GraphLabel κ ζ → Bool
  | .parse _ | .visit _ _ | .query _ _ | .release _ => true
  | _ => false

namespace State

variable {ι κ ζ : Type} [DecidableEq ι] [DecidableEq κ] [DecidableEq ζ]

/-- The result of a step: the state after it and what is observed of it. -/
abbrev After (ι κ ζ : Type) : Type := State ι κ ζ × List (ι × GraphEvent κ ζ)

def setObserver (s : State ι κ ζ) (o : ι) (observer : Observer κ ζ) : State ι κ ζ :=
  { s with observers := Function.update s.observers o observer }

omit [DecidableEq κ] [DecidableEq ζ] in
@[simp] theorem declared_setObserver (s : State ι κ ζ) (o : ι) (observer : Observer κ ζ) :
    (s.setObserver o observer).declared = s.declared := rfl

omit [DecidableEq κ] [DecidableEq ζ] in
@[simp] theorem observers_setObserver_self (s : State ι κ ζ) (o : ι) (observer : Observer κ ζ) :
    (s.setObserver o observer).observers o = observer :=
  Function.update_self ..

omit [DecidableEq κ] [DecidableEq ζ] in
theorem observers_setObserver_of_ne (s : State ι κ ζ) {o p : ι} (other : p ≠ o)
    (observer : Observer κ ζ) : (s.setObserver o observer).observers p = s.observers p :=
  Function.update_of_ne other ..

omit [DecidableEq κ] [DecidableEq ζ] in
@[simp] theorem setObserver_setObserver (s : State ι κ ζ) (o : ι) (observer later : Observer κ ζ) :
    (s.setObserver o observer).setObserver o later = s.setObserver o later := by
  simp only [setObserver, Function.update_idem]

/-- A sample goes out to an observer. -/
def hear (observer : Observer κ ζ) (change : Change κ) : Observer κ ζ :=
  { observer with
    samples := if observer.subscribed then observer.samples ++ [change] else observer.samples }

/-- What becomes of tokens, samples and replies. -/
def prepare (fmt : Format κ ζ) (s : State ι κ ζ) : Label ι κ ζ → Option (State ι κ ζ)
  | .declare ke =>
      if ke ∈ s.declared then none
      else some
        { declared := ke :: s.declared, observers := fun o => hear (s.observers o) (.put ke) }
  | .undeclare ke =>
      if ke ∈ s.declared then some
        { declared := s.declared.filter (· ≠ ke)
          observers := fun o =>
            { hear (s.observers o) (.delete ke) with
              leaving := (s.observers o).leaving.filter (· ≠ ke) } }
      else none
  | .subscribe o history =>
      if (s.observers o).subscribed = false ∧ history.Perm s.declared then some
        (s.setObserver o
          { s.observers o with subscribed := true, samples := history.map .put })
      else none
  | .announce o ke =>
      if ke ∈ s.declared then some (s.setObserver o (hear (s.observers o) (.put ke))) else none
  | .deliver o i =>
      (s.observers o).samples[i]?.bind fun change =>
        -- samples about one key stay in order
        if About change.key ((s.observers o).samples.take i) then none
        else some (s.setObserver o
          { s.observers o with samples := (s.observers o).samples.eraseIdx i })
  | .reply o ke =>
      if ke ∈ s.declared then some
        (s.setObserver o { s.observers o with replies := (s.observers o).replies ++ [ke] })
      else none
  | .handleReply o i =>
      some (s.setObserver o
        { s.observers o with replies := (s.observers o).replies.eraseIdx i })
  | .addLocalEntity _ _ => some s
  | .removeLocalEntity o entity =>
      match fmt.toKe entity with
      | some ke =>
          if ke ∈ s.declared then some
            (s.setObserver o { s.observers o with leaving := ke :: (s.observers o).leaving })
          else some s
      | none => some s
  | .use _ used => if isUse used then some s else none

variable (fmt : Format κ ζ) (zid : ι → ζ)

/-- What is done to which graph. -/
def act (s : State ι κ ζ) : Label ι κ ζ → Option (ι × GraphLabel κ ζ)
  | .deliver o i =>
      (s.observers o).samples[i]?.map fun
        | .put ke => (o, .insert ke)
        | .delete ke => (o, .remove ke)
  | .handleReply o i =>
      -- entities of the session itself are skipped
      (s.observers o).replies[i]?.bind fun ke =>
        match fmt.parser ke with
        | some entity => if isEntityLocal (zid o) entity then none else some (o, .insert ke)
        | none => none
  | .addLocalEntity o entity => some (o, .addLocalEntity entity)
  | .removeLocalEntity o entity => some (o, .removeLocalEntity entity)
  | .use o used => some (o, used)
  | _ => none

/-- A step of the graph of an observer, which exists from the subscription on. -/
def graphStep (s : State ι κ ζ) (o : ι) (used : GraphLabel κ ζ) : Option (After ι κ ζ) :=
  if (s.observers o).subscribed then
    ((s.observers o).graph.step fmt used).map fun (graph, observed) =>
      (s.setObserver o { s.observers o with graph }, observed.map (o, ·))
  else none

def step (s : State ι κ ζ) (label : Label ι κ ζ) : Option (After ι κ ζ) :=
  (s.prepare fmt label).bind fun prepared =>
    match s.act fmt zid label with
    | some (o, used) => prepared.graphStep fmt o used
    | none => some (prepared, [])

end State

/-- Sessions that watch each other's tokens. -/
def discovery {ι κ ζ : Type} [DecidableEq ι] [DecidableEq κ] [DecidableEq ζ] (fmt : Format κ ζ)
    (zid : ι → ζ) : Machine (State ι κ ζ) (Label ι κ ζ) (ι × GraphEvent κ ζ) where
  init := { declared := [], observers := fun _ => .new }
  step := State.step fmt zid

/-! ## Steps -/

section Steps

variable {ι κ ζ : Type} [DecidableEq ι] [DecidableEq κ] [DecidableEq ζ] {fmt : Format κ ζ}
  {zid : ι → ζ} {s s' : State ι κ ζ} {label : Label ι κ ζ} {observed : List (ι × GraphEvent κ ζ)}

/-- A step prepares and then acts on at most one graph. -/
theorem step_cases (stepped : s.step fmt zid label = some (s', observed)) :
    ∃ prepared, s.prepare fmt label = some prepared ∧
      (s.act fmt zid label = none ∧ s' = prepared ∧ observed = [] ∨
        ∃ o used graph events, s.act fmt zid label = some (o, used) ∧
          (prepared.observers o).subscribed = true ∧
          (prepared.observers o).graph.step fmt used = some (graph, events) ∧
          s' = prepared.setObserver o { prepared.observers o with graph } ∧
          observed = events.map (o, ·)) := by
  obtain ⟨prepared, ready, acted⟩ := Option.bind_eq_some_iff.mp stepped
  refine ⟨prepared, ready, ?_⟩
  split at acted
  · next o used acts =>
      obtain ⟨there, moved⟩ := Option.ite_none_right_eq_some.mp acted
      obtain ⟨⟨graph, events⟩, ran, same⟩ := Option.map_eq_some_iff.mp moved
      obtain ⟨rfl, rfl⟩ := Prod.mk.inj same
      exact .inr ⟨o, used, graph, events, acts, there, ran, rfl, rfl⟩
  · next idle =>
      obtain ⟨rfl, rfl⟩ := Prod.mk.inj (Option.some.inj acted)
      exact .inl ⟨idle, rfl, rfl⟩

omit [DecidableEq κ] [DecidableEq ζ] in
theorem graph_setObserver {o : ι} {observer : Observer κ ζ}
    (same : observer.graph = (s.observers o).graph) (p : ι) :
    ((s.setObserver o observer).observers p).graph = (s.observers p).graph := by
  by_cases own : p = o
  · subst own
    rw [State.observers_setObserver_self, same]
  · rw [State.observers_setObserver_of_ne s own]

omit [DecidableEq ζ] in
theorem prepare_removeLocalEntity {o : ι} {entity : Entity ζ} {prepared : State ι κ ζ}
    (ready : s.prepare fmt (.removeLocalEntity o entity) = some prepared) :
    ∃ leaving, (s.observers o).leaving ⊆ leaving ∧
      (∀ ke ∈ fmt.toKe entity, ke ∈ s.declared → ke ∈ leaving) ∧
      prepared = s.setObserver o { s.observers o with leaving } := by
  have unchanged : s = s.setObserver o { s.observers o with leaving := (s.observers o).leaving } :=
    congrArg (State.mk s.declared) (Function.update_eq_self o s.observers).symm
  rw [State.prepare] at ready
  split at ready
  · next ke keyed =>
      split_ifs at ready with declared <;> cases ready
      · refine ⟨ke :: (s.observers o).leaving, List.subset_cons_self _ _, ?_, rfl⟩
        intro k same _
        obtain rfl := Option.some.inj (keyed.symm.trans same)
        exact List.mem_cons_self
      · refine ⟨_, List.Subset.refl _, fun k same there => ?_, unchanged⟩
        obtain rfl := Option.some.inj (keyed.symm.trans same)
        exact absurd there declared
  · next unkeyed =>
      cases ready
      refine ⟨_, List.Subset.refl _, fun k same _ => ?_, unchanged⟩
      cases unkeyed.symm.trans same

omit [DecidableEq ζ] in
/-- Preparations leave the graphs alone. -/
theorem graph_prepare {prepared : State ι κ ζ} (ready : s.prepare fmt label = some prepared)
    (p : ι) : (prepared.observers p).graph = (s.observers p).graph := by
  cases label with
  | declare ke =>
      obtain ⟨-, same⟩ := Option.ite_none_left_eq_some.mp ready
      cases same
      rfl
  | undeclare ke | use o used =>
      obtain ⟨-, same⟩ := Option.ite_none_right_eq_some.mp ready
      cases same
      rfl
  | subscribe o | announce o | reply o =>
      obtain ⟨-, same⟩ := Option.ite_none_right_eq_some.mp ready
      cases same
      exact graph_setObserver (by rfl) p
  | deliver o i =>
      obtain ⟨change, -, kept⟩ := Option.bind_eq_some_iff.mp ready
      obtain ⟨-, same⟩ := Option.ite_none_left_eq_some.mp kept
      cases same
      exact graph_setObserver (by rfl) p
  | handleReply o i =>
      cases ready
      exact graph_setObserver (by rfl) p
  | addLocalEntity o entity =>
      cases ready
      rfl
  | removeLocalEntity o entity =>
      obtain ⟨leaving, -, -, rfl⟩ := prepare_removeLocalEntity ready
      exact graph_setObserver (by rfl) p

end Steps

/-! ## The graph of one observer -/

section Views

variable {ι κ ζ : Type} [DecidableEq ι]

/-- What was observed of the graph of an observer. -/
def seenBy (o : ι) (trace : List (ι × GraphEvent κ ζ)) : List (GraphEvent κ ζ) :=
  trace.filterMap fun entry => if entry.1 = o then some entry.2 else none

variable {o p : ι} {trace : List (ι × GraphEvent κ ζ)} (events : List (GraphEvent κ ζ))

theorem seenBy_append_self : seenBy o (trace ++ events.map (o, ·)) = seenBy o trace ++ events := by
  simp [seenBy, List.filterMap_append, List.filterMap_map]

theorem seenBy_append_of_ne (other : p ≠ o) :
    seenBy p (trace ++ events.map (o, ·)) = seenBy p trace := by
  simp [seenBy, List.filterMap_append, List.filterMap_map, Ne.symm other]

/-- The graph of an observer, with what was observed of it. -/
def view (c : Config (State ι κ ζ) (ι × GraphEvent κ ζ)) (o : ι) :
    Config (GraphData κ ζ) (GraphEvent κ ζ) :=
  ⟨(c.state.observers o).graph, seenBy o c.trace⟩

variable [DecidableEq κ] [DecidableEq ζ] (fmt : Format κ ζ) (zid : ι → ζ)

/-- No entity is taken from its key while a caller holds it. -/
def Considerate (c : Config (State ι κ ζ) (ι × GraphEvent κ ζ)) (label : Label ι κ ζ) : Prop :=
  ∀ acted ∈ c.state.act fmt zid label, Undisturbed fmt (view c acted.1) acted.2

instance : DecidableRel (Considerate fmt zid) := by
  intro c label
  unfold Considerate
  infer_instance

variable {fmt} {zid} {c c' : Config (State ι κ ζ) (ι × GraphEvent κ ζ)} {label : Label ι κ ζ}

/-- The steps of an observer's graph are steps of a graph. -/
theorem view_step (runs : ∀ o, (graph fmt).Reachable (Undisturbed fmt) (view c o))
    (meets : Considerate fmt zid c label) (moved : (discovery fmt zid).next c label = some c')
    (o : ι) : (graph fmt).Reachable (Undisturbed fmt) (view c' o) := by
  obtain ⟨observed, stepped, grown⟩ := Machine.next_eq_some moved
  obtain ⟨prepared, ready, ⟨-, after, rfl⟩ | ⟨p, used, graph, events, acts, -, ran, after, rfl⟩⟩ :=
    step_cases stepped
  · have same : view c' o = view c o := by
      rw [view, view, after, graph_prepare ready, grown, List.append_nil]
    exact same ▸ runs o
  · by_cases own : o = p
    · subst own
      refine (runs o).step (meets _ acts) ?_
      rw [graph_prepare ready] at ran
      simp only [Machine.next, RosZ.Graph.graph, view, ran, Option.map_some, after, grown,
        State.observers_setObserver_self, seenBy_append_self]
    · have same : view c' o = view c o := by
        rw [view, view, after, grown, seenBy_append_of_ne events own,
          State.observers_setObserver_of_ne _ own, graph_prepare ready]
      exact same ▸ runs o

end Views

/-! ## Following the tokens -/

section Following

variable {κ ζ : Type} [DecidableEq κ]

/-- The change that an event of the graph comes down to. -/
def effect : GraphEvent κ ζ → Change κ
  | .inserted ke => .put ke
  | .added ke _ => .put ke
  | .removed ke => .delete ke

/-- The graph of an observer, with what is on its way to it, follows the tokens that are
declared. -/
structure Follows (fmt : Format κ ζ) (declared : List κ) (observer : Observer κ ζ)
    (live : AList (fun _ : κ => Entity ζ)) : Prop where
  reads : ∀ ke entity, live.lookup ke = some entity → fmt.parser ke = some entity
  settles : observer.subscribed = true → ∀ ke, (fmt.parser ke).isSome = true →
    ke ∉ observer.leaving →
      settle ke (decide (ke ∈ live)) observer.samples = decide (ke ∈ declared)
  unaware : observer.subscribed = false → observer.samples = [] ∧ ∀ ke, ke ∉ live

variable {fmt : Format κ ζ} {declared : List κ} {observer : Observer κ ζ}
  {live : AList (fun _ : κ => Entity ζ)}

theorem mem_track {ke : κ} (parses : (fmt.parser ke).isSome = true) (event : GraphEvent κ ζ) :
    decide (ke ∈ track fmt live event) = (effect event).apply ke (decide (ke ∈ live)) := by
  by_cases same : (effect event).key = ke
  · rw [Change.apply, if_pos same]
    cases event with
    | inserted k =>
        obtain rfl : k = ke := same
        obtain ⟨entity, read⟩ := Option.isSome_iff_exists.mp parses
        by_cases known : k ∈ live <;> simp [track, effect, Change.isPut, known, read]
    | added k entity =>
        obtain rfl : k = ke := same
        simp [track, effect, Change.isPut]
    | removed k =>
        obtain rfl : k = ke := same
        simp [track, effect, Change.isPut, AList.mem_erase]
  · rw [Change.apply_of_ne same]
    cases event with
    | inserted k =>
        have other : ke ≠ k := Ne.symm same
        simp only [track]
        split
        · rfl
        · split
          · simp [AList.mem_insert, other]
          · rfl
    | added k entity =>
        have other : ke ≠ k := Ne.symm same
        simp [track, AList.mem_insert, other]
    | removed k =>
        have other : ke ≠ k := Ne.symm same
        simp [track, AList.mem_erase, other]

/-- What is live after an event was so before, or is new. -/
theorem lookup_track {event : GraphEvent κ ζ} {ke : κ} {entity : Entity ζ}
    (found : (track fmt live event).lookup ke = some entity) :
    live.lookup ke = some entity ∨ fmt.parser ke = some entity ∨ event = .added ke entity := by
  cases event with
  | inserted k =>
      simp only [track] at found
      split at found
      · exact .inl found
      · split at found
        · next read =>
            rcases PartialMap.lookup_insert_eq_some_iff.mp found with ⟨rfl, rfl⟩ | ⟨-, before⟩
            · exact .inr (.inl read)
            · exact .inl before
        · exact .inl found
  | added k e =>
      rcases PartialMap.lookup_insert_eq_some_iff.mp found with ⟨rfl, rfl⟩ | ⟨-, before⟩
      · exact .inr (.inr rfl)
      · exact .inl before
  | removed k =>
      by_cases same : ke = k
      · subst same
        rw [track, AList.lookup_erase] at found
        cases found
      · rw [track, AList.lookup_erase_ne same] at found
        exact .inl found

/-- The graph is told of a change, and what is on its way leads to the tokens as before. -/
theorem Follows.tell (follows : Follows fmt declared observer live) {told : Observer κ ζ}
    (there : told.subscribed = true) {event : GraphEvent κ ζ}
    (reads : ∀ ke entity, event = .added ke entity → fmt.parser ke = some entity)
    (settles : ∀ ke, (fmt.parser ke).isSome = true → ke ∉ told.leaving →
      settle ke ((effect event).apply ke (decide (ke ∈ live))) told.samples =
        decide (ke ∈ declared)) :
    Follows fmt declared told (track fmt live event) := by
  refine ⟨fun ke entity found => ?_, fun _ ke parses staying => ?_, fun away => ?_⟩
  · rcases lookup_track found with before | read | rfl
    · exact follows.reads ke entity before
    · exact read
    · exact reads ke entity rfl
  · rw [mem_track parses]
    exact settles ke parses staying
  · rw [there] at away
    cases away

/-- The graph of the observer is left alone. -/
theorem Follows.congr (follows : Follows fmt declared observer live) {other : Observer κ ζ}
    (subscribed : other.subscribed = observer.subscribed)
    (samples : other.samples = observer.samples) (leaving : observer.leaving ⊆ other.leaving) :
    Follows fmt declared other live := by
  refine ⟨follows.reads, fun there ke parses staying => ?_, fun away => ?_⟩
  · rw [samples]
    exact follows.settles (subscribed ▸ there) ke parses fun left => staying (leaving left)
  · rw [samples]
    exact follows.unaware (subscribed ▸ away)

/-- The set of tokens changes, or is said to, and the observer hears of it. -/
theorem Follows.hear (follows : Follows fmt declared observer live) {declared' : List κ}
    (change : Change κ) {other : Observer κ ζ}
    (subscribed : other.subscribed = observer.subscribed)
    (samples : other.samples = (State.hear observer change).samples)
    (leaving : ∀ ke ∈ observer.leaving, ke ≠ change.key → ke ∈ other.leaving)
    (changed : ∀ ke, decide (ke ∈ declared') = change.apply ke (decide (ke ∈ declared))) :
    Follows fmt declared' other live := by
  refine ⟨follows.reads, fun there ke parses staying => ?_, fun away => ?_⟩
  · rw [subscribed] at there
    rw [samples, State.hear, there, if_pos rfl, settle_snoc, changed]
    by_cases same : change.key = ke
    · rw [Change.apply, Change.apply, if_pos same, if_pos same]
    · rw [Change.apply_of_ne same, Change.apply_of_ne same]
      refine follows.settles there ke parses fun left => staying ?_
      exact leaving ke left (Ne.symm same)
  · rw [subscribed] at away
    rw [samples, State.hear, away, if_neg Bool.false_ne_true]
    exact follows.unaware away

section Tells

variable (follows : Follows fmt declared observer live) (there : observer.subscribed = true)
  {other : Observer κ ζ} (subscribed : other.subscribed = observer.subscribed)

include follows there subscribed

/-- A change is delivered that is the first one about its key. -/
theorem Follows.deliver (event : GraphEvent κ ζ) {i : ℕ} {change : Change κ}
    (found : observer.samples[i]? = some change)
    (first : ¬ About change.key (observer.samples.take i)) (told : effect event = change)
    (reads : ∀ k entity, event = .added k entity → fmt.parser k = some entity)
    (samples : other.samples = observer.samples.eraseIdx i)
    (leaving : other.leaving = observer.leaving) :
    Follows fmt declared other (track fmt live event) := by
  refine follows.tell (subscribed.trans there) reads fun ke parses staying => ?_
  rw [told, samples, settle_eraseIdx found first]
  exact follows.settles there ke parses (leaving ▸ staying)

/-- The graph is told of a key that is there, or about which it will be told again. -/
theorem Follows.learn (event : GraphEvent κ ζ) {ke : κ}
    (timely : ke ∈ declared ∨ About ke observer.samples) (told : effect event = .put ke)
    (reads : ∀ k entity, event = .added k entity → fmt.parser k = some entity)
    (samples : other.samples = observer.samples) (leaving : other.leaving = observer.leaving) :
    Follows fmt declared other (track fmt live event) := by
  refine follows.tell (subscribed.trans there) reads fun k parses staying => ?_
  have before := follows.settles there k parses (leaving ▸ staying)
  rw [told, samples, ← before]
  by_cases about : About k observer.samples
  · exact settle_of_about about _
  · refine settle_apply fun same => ?_
    obtain rfl : ke = k := same
    rw [before]
    exact decide_eq_true (timely.resolve_right about)

/-- A local entity is removed, before or after its token. -/
theorem Follows.leave (event : GraphEvent κ ζ) {ke : κ} (told : effect event = .delete ke)
    (reads : ∀ k entity, event = .added k entity → fmt.parser k = some entity)
    (samples : other.samples = observer.samples) (leaving : observer.leaving ⊆ other.leaving)
    (left : ke ∈ declared → ke ∈ other.leaving) :
    Follows fmt declared other (track fmt live event) := by
  refine follows.tell (subscribed.trans there) reads fun k parses staying => ?_
  have before := follows.settles there k parses fun old => staying (leaving old)
  rw [told, samples, ← before]
  refine settle_apply fun same => ?_
  obtain rfl : ke = k := same
  rw [before]
  exact decide_eq_false fun declared => staying (left declared)

end Tells

end Following

/-! ## Runs -/

section Runs

variable {ι κ ζ : Type} [DecidableEq ι] [DecidableEq κ] [DecidableEq ζ] (fmt : Format κ ζ)
  (zid : ι → ζ)

/-- Every observer follows the tokens. -/
def Inv (s : State ι κ ζ) (trace : List (ι × GraphEvent κ ζ)) : Prop :=
  ∀ o, Follows fmt s.declared (s.observers o) (live fmt (seenBy o trace))

/-- A reply is handled while its token is there, or while the subscriber has yet to hear of it; and
local entities are added while their tokens are there, which read back.  No entity is taken from its
key while a caller holds it. -/
def Timely (c : Config (State ι κ ζ) (ι × GraphEvent κ ζ)) (label : Label ι κ ζ) : Prop :=
  Considerate fmt zid c label ∧
    match label with
    | .handleReply o i => ∀ ke ∈ (c.state.observers o).replies[i]?,
        ke ∈ c.state.declared ∨ About ke (c.state.observers o).samples
    | .addLocalEntity _ entity => ∀ ke ∈ fmt.toKe entity,
        ke ∈ c.state.declared ∧ fmt.parser ke = some entity
    | _ => True

variable {fmt} {zid} {s s' : State ι κ ζ} {trace observed : List (ι × GraphEvent κ ζ)}
  {label : Label ι κ ζ}

omit [DecidableEq ζ] in
theorem Inv.setObserver (inv : Inv fmt s trace) {o : ι} {observer : Observer κ ζ}
    {events : List (GraphEvent κ ζ)} (own : Follows fmt s.declared observer
      (events.foldl (track fmt) (live fmt (seenBy o trace)))) :
    Inv fmt (s.setObserver o observer) (trace ++ events.map (o, ·)) := by
  intro p
  by_cases same : p = o
  · subst same
    rw [State.observers_setObserver_self, seenBy_append_self, live, List.foldl_append]
    exact own
  · rw [State.observers_setObserver_of_ne s same, seenBy_append_of_ne events same]
    exact inv p

omit [DecidableEq ζ] in
theorem Inv.replace (inv : Inv fmt s trace) {o : ι} {observer : Observer κ ζ}
    (own : Follows fmt s.declared observer (live fmt (seenBy o trace))) :
    Inv fmt (s.setObserver o observer) trace := by
  have changed : Inv fmt (s.setObserver o observer) (trace ++ [].map (o, ·)) :=
    inv.setObserver own
  rwa [List.map_nil, List.append_nil] at changed

omit [DecidableEq ζ] in
/-- An observer changes and then its graph takes a step. -/
theorem Inv.act (inv : Inv fmt s trace) {o : ι} {told : Observer κ ζ} {graph : GraphData κ ζ}
    {events : List (GraphEvent κ ζ)} (own : Follows fmt s.declared { told with graph }
      (events.foldl (track fmt) (live fmt (seenBy o trace)))) :
    Inv fmt ((s.setObserver o told).setObserver o
      { (s.setObserver o told).observers o with graph }) (trace ++ events.map (o, ·)) := by
  rw [State.setObserver_setObserver, State.observers_setObserver_self]
  exact inv.setObserver own

omit [DecidableEq ζ] in
/-- The tokens change, and all observers hear of it. -/
theorem Inv.publish (inv : Inv fmt s trace) (change : Change κ) {declared : List κ}
    {observers : ι → Observer κ ζ}
    (heard : ∀ o, (observers o).subscribed = (s.observers o).subscribed ∧
      (observers o).samples = (State.hear (s.observers o) change).samples ∧
      ∀ ke ∈ (s.observers o).leaving, ke ≠ change.key → ke ∈ (observers o).leaving)
    (changed : ∀ ke, decide (ke ∈ declared) = change.apply ke (decide (ke ∈ s.declared))) :
    Inv fmt { declared, observers } trace := by
  intro o
  obtain ⟨subscribed, samples, leaving⟩ := heard o
  exact (inv o).hear change subscribed samples leaving changed

omit [DecidableEq ζ] in
theorem Inv.subscribe (inv : Inv fmt s trace) {o : ι} {history : List κ}
    (away : (s.observers o).subscribed = false) (whole : history.Perm s.declared) :
    Inv fmt (s.setObserver o
      { s.observers o with subscribed := true, samples := history.map .put }) trace := by
  refine inv.replace ⟨(inv o).reads, fun _ ke parses staying => ?_, fun away => nomatch away⟩
  rw [settle_map_put, decide_eq_false (((inv o).unaware away).2 ke), Bool.false_or]
  exact decide_eq_decide.mpr whole.mem_iff

omit [DecidableEq ζ] in
theorem Inv.announce (inv : Inv fmt s trace) (o : ι) {ke : κ} (there : ke ∈ s.declared) :
    Inv fmt (s.setObserver o (State.hear (s.observers o) (.put ke))) trace := by
  refine inv.replace ((inv o).hear (.put ke) rfl rfl (fun _ left _ => left) fun k => ?_)
  by_cases same : k = ke
  · subst same
    simp [Change.apply, Change.key, Change.isPut, there]
  · exact (Change.apply_of_ne (Ne.symm same) _).symm

/-- Tokens come and go, and are announced, without the graphs. -/
theorem Inv.prepare {prepared : State ι κ ζ} (inv : Inv fmt s trace)
    (ready : s.prepare fmt label = some prepared) (idle : s.act fmt zid label = none) :
    Inv fmt prepared trace := by
  cases label with
  | declare ke =>
      obtain ⟨-, same⟩ := Option.ite_none_left_eq_some.mp ready
      cases same
      refine inv.publish (.put ke) (fun o => ⟨rfl, rfl, fun _ left _ => left⟩) fun k => ?_
      by_cases same : k = ke
      · simp [Change.apply, Change.key, Change.isPut, same]
      · simp [Change.apply, Change.key, same, Ne.symm same]
  | undeclare ke =>
      obtain ⟨-, same⟩ := Option.ite_none_right_eq_some.mp ready
      cases same
      refine inv.publish (.delete ke) (fun o => ⟨rfl, rfl, fun k left other => ?_⟩) fun k => ?_
      · exact List.mem_filter.mpr ⟨left, decide_eq_true other⟩
      · by_cases same : k = ke
        · simp [Change.apply, Change.key, Change.isPut, same]
        · simp [Change.apply, Change.key, same, Ne.symm same]
  | subscribe o history =>
      obtain ⟨⟨away, whole⟩, same⟩ := Option.ite_none_right_eq_some.mp ready
      cases same
      exact inv.subscribe away whole
  | announce o ke =>
      obtain ⟨there, same⟩ := Option.ite_none_right_eq_some.mp ready
      cases same
      exact inv.announce o there
  | reply o ke =>
      obtain ⟨-, same⟩ := Option.ite_none_right_eq_some.mp ready
      cases same
      exact inv.replace ((inv o).congr rfl rfl (List.Subset.refl _))
  | handleReply o i =>
      cases ready
      exact inv.replace ((inv o).congr rfl rfl (List.Subset.refl _))
  | deliver o i =>
      obtain ⟨change, found, -⟩ := Option.bind_eq_some_iff.mp ready
      rw [State.act, found] at idle
      cases idle
  | addLocalEntity | removeLocalEntity | use => cases idle

theorem Inv.step (inv : Inv fmt s trace) (meets : Timely fmt zid ⟨s, trace⟩ label)
    (stepped : s.step fmt zid label = some (s', observed)) : Inv fmt s' (trace ++ observed) := by
  obtain ⟨prepared, ready, ⟨idle, rfl, rfl⟩ |
    ⟨o, used, graph, events, acts, there, ran, rfl, rfl⟩⟩ := step_cases stepped
  · rw [List.append_nil]
    exact inv.prepare ready idle
  have ran := GraphData.step_sound ran
  cases label with
  | declare | undeclare | subscribe | announce | reply => cases acts
  | deliver o i =>
      obtain ⟨change, found, kept⟩ := Option.bind_eq_some_iff.mp ready
      obtain ⟨first, same⟩ := Option.ite_none_left_eq_some.mp kept
      cases same
      rw [State.act, found] at acts
      cases change with
      | put ke =>
          cases acts
          cases ran
          exact inv.act ((inv o).deliver (by simpa using there) (by rfl) (.inserted ke) found first
            rfl nofun (by rfl) (by rfl))
      | delete ke =>
          cases acts
          cases ran
          exact inv.act ((inv o).deliver (by simpa using there) (by rfl) (.removed ke) found first
            rfl nofun (by rfl) (by rfl))
  | handleReply o i =>
      cases ready
      obtain ⟨ke, found, remote⟩ := Option.bind_eq_some_iff.mp acts
      split at remote
      · obtain ⟨-, same⟩ := Option.ite_none_left_eq_some.mp remote
        cases same
        cases ran
        exact inv.act ((inv o).learn (by simpa using there) (by rfl) (.inserted ke)
          (meets.2 ke found) rfl nofun (by rfl) (by rfl))
      · cases remote
  | addLocalEntity p entity =>
      cases ready
      cases acts
      cases ran with
      | addLocalEntity keyed added =>
          obtain ⟨declared, read⟩ := meets.2 _ keyed
          refine inv.setObserver ((inv o).learn there (by rfl) (.added _ entity) (.inl declared) rfl
            ?_ (by rfl) (by rfl))
          rintro k e same
          cases same
          exact read
      | addUnkeyed => exact inv.setObserver ((inv o).congr rfl rfl (List.Subset.refl _))
  | removeLocalEntity p entity =>
      obtain ⟨leaving, more, left, rfl⟩ := prepare_removeLocalEntity ready
      cases acts
      cases ran with
      | @removeLocalEntity _ ke _ keyed removed =>
          exact inv.act ((inv o).leave (by simpa using there) (by rfl) (.removed ke) rfl nofun
            (by rfl) more (left ke keyed))
      | removeUnkeyed => exact inv.act ((inv o).congr (by rfl) (by rfl) more)
  | use p used =>
      obtain ⟨used, same⟩ := Option.ite_none_right_eq_some.mp ready
      cases same
      cases acts
      cases ran with
      | insert | remove | addLocalEntity | removeLocalEntity | addUnkeyed | removeUnkeyed =>
          cases used
      | parse | visit | query | release =>
          exact inv.setObserver ((inv o).congr rfl rfl (List.Subset.refl _))

variable {c c' : Config (State ι κ ζ) (ι × GraphEvent κ ζ)}

theorem inv_of_reachable (reached : (discovery fmt zid).Reachable (Timely fmt zid) c) :
    Inv fmt c.state c.trace ∧ ∀ o, (graph fmt).Reachable (Undisturbed fmt) (view c o) := by
  refine reached.invariant (P := fun c : Config (State ι κ ζ) (ι × GraphEvent κ ζ) =>
    Inv fmt c.state c.trace ∧ ∀ o, (graph fmt).Reachable (Undisturbed fmt) (view c o)) ?_ ?_
  · refine ⟨fun o => ⟨fun ke entity found => ?_, fun there => ?_, fun _ => ⟨rfl, fun ke => ?_⟩⟩,
      fun o => .refl⟩
    · cases found
    · cases there
    · exact AList.notMem_empty ke
  · rintro c label c' ⟨inv, runs⟩ meets moved
    refine ⟨?_, view_step runs meets.1 moved⟩
    obtain ⟨observed, stepped, grown⟩ := Machine.next_eq_some moved
    rw [grown]
    exact inv.step meets stepped

/-- Nothing about the key is on its way to the observer. -/
structure Settled (s : State ι κ ζ) (o : ι) (ke : κ) : Prop where
  subscribed : (s.observers o).subscribed = true
  delivered : ¬ About ke (s.observers o).samples
  staying : ke ∉ (s.observers o).leaving

omit [DecidableEq ζ] in
/-- What is live is what is declared. -/
theorem Inv.lookup_of_settled (inv : Inv fmt s trace) {o : ι} {ke : κ} (settled : Settled s o ke) :
    (live fmt (seenBy o trace)).lookup ke = if ke ∈ s.declared then fmt.parser ke else none := by
  cases found : (live fmt (seenBy o trace)).lookup ke with
  | some entity =>
      have read := (inv o).reads ke entity found
      have settles := (inv o).settles settled.subscribed ke (by rw [read]; rfl) settled.staying
      have known : ke ∈ live fmt (seenBy o trace) := AList.lookup_isSome.mp (by rw [found]; rfl)
      rw [settle_of_not_about settled.delivered, decide_eq_true known] at settles
      rw [if_pos (of_decide_eq_true settles.symm), read]
  | none =>
      symm
      refine ite_eq_right_iff.mpr fun declared => Option.eq_none_iff_forall_ne_some.mpr ?_
      intro entity read
      have settles := (inv o).settles settled.subscribed ke (by rw [read]; rfl) settled.staying
      have unknown : ke ∉ live fmt (seenBy o trace) := AList.lookup_eq_none.mp found
      rw [settle_of_not_about settled.delivered, decide_eq_false unknown] at settles
      exact of_decide_eq_false settles.symm declared

omit [DecidableEq ζ] in
/-- A query reports a key once if it is live and its entity is asked for. -/
theorem countP_report (runs : (graph fmt).Reachable (Undisturbed fmt) (view c o)) (ke : κ)
    {query : Query} {order : List κ} {s' : GraphData κ ζ} {reported : List (Arc κ ζ)}
    (drained : order.Perm (c.state.observers o).graph.cached)
    (asked : (c.state.observers o).graph.report fmt query order = some (s', reported)) :
    reported.countP (fun a => a.key = ke) =
      if ((live fmt (seenBy o c.trace)).lookup ke).any query.asks then 1 else 0 := by
  have perm := (Graph.inv_of_reachable runs).report_perm drained asked
  have counted := perm.countP_eq fun entry => decide (entry.1 = ke)
  rw [List.countP_map] at counted
  exact counted.trans (countP_key _ query.asks ke)

end Runs

/-! ## Late replies -/

section Late

variable {ι κ ζ : Type} [DecidableEq ι] [DecidableEq κ] [DecidableEq ζ] {fmt : Format κ ζ}
  {zid : ι → ζ} {s : State ι κ ζ} {label : Label ι κ ζ} {o : ι} {ke : κ}

/-- Nobody declares the key again, and it is not that of a local entity. -/
def Forgets (fmt : Format κ ζ) (ke : κ) : Label ι κ ζ → Prop
  | .declare k => k ≠ ke
  | .addLocalEntity _ entity | .removeLocalEntity _ entity => fmt.toKe entity ≠ some ke
  | _ => True

omit [DecidableEq ι] [DecidableEq κ] [DecidableEq ζ] in
theorem not_about_hear {observer : Observer κ ζ} {change : Change κ}
    (quiet : ¬ About ke observer.samples) (other : change.key ≠ ke) :
    ¬ About ke (State.hear observer change).samples := by
  simp only [State.hear]
  split
  · exact fun about => (about_snoc.mp about).elim quiet other
  · exact quiet

omit [DecidableEq κ] [DecidableEq ζ] in
theorem not_about_setObserver {p : ι} {observer : Observer κ ζ}
    (quiet : ¬ About ke (s.observers o).samples) (own : o = p → ¬ About ke observer.samples) :
    ¬ About ke ((s.setObserver p observer).observers o).samples := by
  by_cases same : o = p
  · subst same
    rw [State.observers_setObserver_self]
    exact own rfl
  · rw [State.observers_setObserver_of_ne s same]
    exact quiet

omit [DecidableEq ζ] in
/-- Without a token there is nothing to hear about the key. -/
theorem prepare_forgets {prepared : State ι κ ζ} (ready : s.prepare fmt label = some prepared)
    (forgets : Forgets fmt ke label) (gone : ke ∉ s.declared)
    (quiet : ¬ About ke (s.observers o).samples) :
    ke ∉ prepared.declared ∧ ¬ About ke (prepared.observers o).samples := by
  -- no token of another key is that of this one
  have other : ∀ {k}, k ∈ s.declared → k ≠ ke := fun there same => gone (same ▸ there)
  cases label with
  | declare k =>
      obtain ⟨-, same⟩ := Option.ite_none_left_eq_some.mp ready
      cases same
      exact ⟨List.not_mem_cons_of_ne_of_not_mem (Ne.symm forgets) gone,
        not_about_hear quiet forgets⟩
  | undeclare k =>
      obtain ⟨there, same⟩ := Option.ite_none_right_eq_some.mp ready
      cases same
      exact ⟨fun listed => gone (List.mem_filter.mp listed).1, not_about_hear quiet (other there)⟩
  | subscribe p history =>
      obtain ⟨⟨-, whole⟩, same⟩ := Option.ite_none_right_eq_some.mp ready
      cases same
      refine ⟨gone, not_about_setObserver quiet fun _ about => gone ?_⟩
      exact whole.mem_iff.mp (about_map_put.mp about)
  | announce p k =>
      obtain ⟨there, same⟩ := Option.ite_none_right_eq_some.mp ready
      cases same
      exact ⟨gone, not_about_setObserver quiet fun own =>
        not_about_hear (own ▸ quiet) (other there)⟩
  | deliver p i =>
      obtain ⟨change, -, kept⟩ := Option.bind_eq_some_iff.mp ready
      obtain ⟨-, same⟩ := Option.ite_none_left_eq_some.mp kept
      cases same
      refine ⟨gone, not_about_setObserver quiet ?_⟩
      rintro rfl about
      exact quiet (about.mono (List.eraseIdx_sublist _ _).subset)
  | reply p k =>
      obtain ⟨-, same⟩ := Option.ite_none_right_eq_some.mp ready
      cases same
      exact ⟨gone, not_about_setObserver quiet fun own => own ▸ quiet⟩
  | handleReply p i =>
      cases ready
      exact ⟨gone, not_about_setObserver quiet fun own => own ▸ quiet⟩
  | addLocalEntity =>
      cases ready
      exact ⟨gone, quiet⟩
  | removeLocalEntity p entity =>
      obtain ⟨leaving, -, -, rfl⟩ := prepare_removeLocalEntity ready
      exact ⟨gone, not_about_setObserver quiet fun own => own ▸ quiet⟩
  | use =>
      obtain ⟨-, same⟩ := Option.ite_none_right_eq_some.mp ready
      cases same
      exact ⟨gone, quiet⟩

/-- The event takes neither the key nor its entity away. -/
def Keeps (ke : κ) : GraphEvent κ ζ → Prop
  | .inserted _ => True
  | .added k _ | .removed k => k ≠ ke

omit [DecidableEq ζ] in
theorem Keeps.lookup_track {event : GraphEvent κ ζ} (keeps : Keeps ke event)
    {live : AList (fun _ : κ => Entity ζ)} {entity : Entity ζ}
    (alive : live.lookup ke = some entity) : (track fmt live event).lookup ke = some entity := by
  cases event with
  | inserted k =>
      have known : ke ∈ live := AList.lookup_isSome.mp (by rw [alive]; rfl)
      simp only [track]
      split
      · exact alive
      · next unknown =>
          have other : ke ≠ k := fun same => unknown (same ▸ known)
          split
          · rw [AList.lookup_insert_ne other, alive]
          · exact alive
  | added k e => rw [track, AList.lookup_insert_ne (Ne.symm keeps), alive]
  | removed k => rw [track, AList.lookup_erase_ne (Ne.symm keeps), alive]

/-- What an observer makes of its graph keeps a key about which it hears nothing. -/
theorem keeps_of_act {prepared : State ι κ ζ} {graph graph' : GraphData κ ζ}
    {used : GraphLabel κ ζ} {events : List (GraphEvent κ ζ)}
    (ready : s.prepare fmt label = some prepared) (forgets : Forgets fmt ke label)
    (quiet : ¬ About ke (s.observers o).samples) (acts : s.act fmt zid label = some (o, used))
    (ran : GraphData.Step fmt graph used events graph') : ∀ event ∈ events, Keeps ke event := by
  intro event listed
  cases label with
  | declare | undeclare | subscribe | announce | reply => cases acts
  | deliver p i =>
      obtain ⟨change, found, told⟩ := Option.map_eq_some_iff.mp acts
      cases change with
      | put k =>
          cases told
          cases ran
          obtain rfl := List.mem_singleton.mp listed
          trivial
      | delete k =>
          cases told
          cases ran
          obtain rfl := List.mem_singleton.mp listed
          exact fun same => quiet ⟨.delete k, List.mem_of_getElem? found, same⟩
  | handleReply p i =>
      obtain ⟨k, found, remote⟩ := Option.bind_eq_some_iff.mp acts
      split at remote
      · obtain ⟨-, same⟩ := Option.ite_none_left_eq_some.mp remote
        cases same
        cases ran
        obtain rfl := List.mem_singleton.mp listed
        trivial
      · cases remote
  | addLocalEntity p entity =>
      cases acts
      cases ran with
      | addLocalEntity keyed =>
          obtain rfl := List.mem_singleton.mp listed
          exact fun same => forgets (same ▸ keyed)
      | addUnkeyed => cases listed
  | removeLocalEntity p entity =>
      cases acts
      cases ran with
      | removeLocalEntity keyed =>
          obtain rfl := List.mem_singleton.mp listed
          exact fun same => forgets (same ▸ keyed)
      | removeUnkeyed => cases listed
  | use p used =>
      obtain ⟨used, -⟩ := Option.ite_none_right_eq_some.mp ready
      cases acts
      cases ran with
      | insert | remove | addLocalEntity | removeLocalEntity => cases used
      | _ => cases listed

/-- The observer knows an entity whose token is gone, and will not hear of it. -/
structure Haunted (fmt : Format κ ζ) (s : State ι κ ζ) (trace : List (ι × GraphEvent κ ζ)) (o : ι)
    (ke : κ) (entity : Entity ζ) : Prop where
  gone : ke ∉ s.declared
  quiet : ¬ About ke (s.observers o).samples
  known : (live fmt (seenBy o trace)).lookup ke = some entity

theorem Haunted.step {s' : State ι κ ζ} {trace observed : List (ι × GraphEvent κ ζ)}
    {entity : Entity ζ} (haunted : Haunted fmt s trace o ke entity)
    (forgets : Forgets fmt ke label) (stepped : s.step fmt zid label = some (s', observed)) :
    Haunted fmt s' (trace ++ observed) o ke entity := by
  obtain ⟨prepared, ready, ⟨-, rfl, rfl⟩ | ⟨p, used, graph, events, acts, -, ran, rfl, rfl⟩⟩ :=
    step_cases stepped
  · obtain ⟨gone, quiet⟩ := prepare_forgets ready forgets haunted.gone haunted.quiet
    exact ⟨gone, quiet, by rw [List.append_nil]; exact haunted.known⟩
  · obtain ⟨gone, quiet⟩ := prepare_forgets ready forgets haunted.gone haunted.quiet
    refine ⟨gone, not_about_setObserver quiet fun own => own ▸ quiet, ?_⟩
    by_cases own : o = p
    · subst own
      have keeps := keeps_of_act ready forgets haunted.quiet acts (GraphData.step_sound ran)
      rw [seenBy_append_self, live, List.foldl_append]
      refine List.foldlRecOn events (track fmt)
        (motive := fun live => live.lookup ke = some entity) haunted.known ?_
      exact fun _ alive event listed => (keeps event listed).lookup_track alive
    · rw [seenBy_append_of_ne events own]
      exact haunted.known

omit [DecidableEq ι] [DecidableEq κ] in
theorem act_handleReply {i : ℕ} {entity : Entity ζ}
    (found : (s.observers o).replies[i]? = some ke) (read : fmt.parser ke = some entity)
    (remote : isEntityLocal (zid o) entity = false) :
    s.act fmt zid (.handleReply o i) = some (o, .insert ke) := by
  simp [State.act, found, read, remote]

theorem haunted_of_lateReply {s' : State ι κ ζ} {trace observed : List (ι × GraphEvent κ ζ)}
    {i : ℕ} {entity : Entity ζ} (inv : Inv fmt s trace)
    (found : (s.observers o).replies[i]? = some ke) (read : fmt.parser ke = some entity)
    (remote : isEntityLocal (zid o) entity = false) (gone : ke ∉ s.declared)
    (settled : Settled s o ke)
    (stepped : s.step fmt zid (.handleReply o i) = some (s', observed)) :
    Haunted fmt s' (trace ++ observed) o ke entity := by
  have acting := act_handleReply found read remote
  obtain ⟨prepared, ready, ⟨idle, -, -⟩ | ⟨p, used, graph, events, acts, -, ran, rfl, rfl⟩⟩ :=
    step_cases stepped
  · cases acting.symm.trans idle
  · cases acting.symm.trans acts
    cases ran
    obtain ⟨gone', quiet⟩ := prepare_forgets ready trivial gone settled.delivered
    refine ⟨gone', not_about_setObserver quiet fun _ => quiet, ?_⟩
    have unknown : ke ∉ live fmt (seenBy o trace) := by
      refine AList.lookup_eq_none.mp ?_
      rw [inv.lookup_of_settled settled, if_neg gone]
    rw [seenBy_append_self, live, List.foldl_append]
    show (track fmt (live fmt (seenBy o trace)) (.inserted ke)).lookup ke = some entity
    rw [track, if_neg unknown, read]
    exact AList.lookup_insert _

end Late

/-! ## Two sessions and a talker -/

section Talker

open RmwZenoh

instance {ι κ ζ : Type} [DecidableEq ι] [DecidableEq κ] [DecidableEq ζ] (fmt : Format κ ζ)
    (zid : ι → ζ) : DecidableRel (Timely fmt zid) := by
  intro c label
  unfold Timely
  cases label <;> infer_instance

instance {ι κ ζ : Type} [DecidableEq κ] (s : State ι κ ζ) (o : ι) (ke : κ) :
    Decidable (Settled s o ke) :=
  decidable_of_iff ((s.observers o).subscribed = true ∧ ¬ About ke (s.observers o).samples ∧
      ke ∉ (s.observers o).leaving)
    ⟨fun ⟨subscribed, delivered, staying⟩ => ⟨subscribed, delivered, staying⟩,
      fun settled => ⟨settled.subscribed, settled.delivered, settled.staying⟩⟩

/-- Two sessions that are not the one of the talker. -/
def bystander (o : Bool) : SessionId :=
  if o then ⟨0xe, by decide, by decide⟩ else ⟨0xf, by decide, by decide⟩

/-- One session hears of the talker when it comes, the other finds it there, and is told of it once
more. -/
def comes : List (Label Bool PlainKey SessionId) :=
  [.subscribe true [], .declare talkerKey, .subscribe false [talkerKey], .reply false talkerKey,
    .announce false talkerKey, .deliver true 0, .deliver false 0, .handleReply false 0,
    .deliver false 0]

/-- The token goes while a reply waits. -/
def goes : List (Label Bool PlainKey SessionId) :=
  [.subscribe true [], .declare talkerKey, .reply true talkerKey, .deliver true 0,
    .undeclare talkerKey, .deliver true 0]

end Talker

end RosZ.Graph.Discovery
