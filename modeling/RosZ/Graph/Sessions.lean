import RosZ.Graph.Discovery
import RosZ.Node

/-!
# Sessions

The contexts of several sessions make nodes and endpoints, each with a number of the context's own
counter, declare their tokens and drop them, while the graphs that watch a domain follow these
tokens.

Numbers are taken one at a time, by any threads, and a builder may wait before it declares its
token.  No two tokens are ever the same, and `reported_of_settled` is what comes of it: when nothing
is on its way to a graph, it reports exactly the nodes and endpoints of the domain that are there,
each once, as its token is read.

## Design notes

* A session has one context here.
* `drafts` are what was given a number and is not yet announced.
* The graphs are those of `RosZ.Graph.Discovery`, and all of them watch one domain.  Tokens of other
  domains do not reach them; a context may be in any domain.
-/

namespace RosZ.Graph.Sessions

open Protocol Protocol.RmwZenoh Node Transition

section Model

variable {ι κ ζ : Type}

/-- What has been given a number. -/
inductive Draft (ζ : Type) where
  | node (n : NodeEntity ζ)
  | endpoint (e : EndpointEntity ζ)
  /-- The node of a client that asks for the description of a type. -/
  | clientNode (n : NodeEntity ζ)
  deriving DecidableEq

namespace Draft

def id : Draft ζ → UInt64
  | .node n | .clientNode n => n.id
  | .endpoint e => e.id

def session : Draft ζ → ζ
  | .node n | .clientNode n => n.zId
  | .endpoint e => e.node.zId

end Draft

/-- The part of an entity that a token is about. -/
def draftOf : Entity ζ → Draft ζ
  | .node n => .node n
  | .endpoint e => .endpoint e

def domainOf : Entity ζ → UInt64
  | .node n => n.domainId
  | .endpoint e => e.node.domainId

/-- How the keys of rmw_zenoh are read and made. -/
def format [ZenohId ζ] [KeyExpr κ] (noTypeHash : Bool) : Format κ ζ where
  parser ke := (parseLiveliness ke).toOption
  toKe
    | .node n => nodeLivelinessKeyExpr n
    | .endpoint e => livelinessKeyExpr noTypeHash e e.node.zId

structure State (ι κ ζ : Type) where
  counters : ι → UInt64
  drafts : List (ι × Draft ζ)
  /-- What has a token. -/
  live : List (ι × Entity ζ)
  net : Discovery.State ι κ ζ

inductive Label (ι κ ζ : Type) where
  | createNode (o : ι) (name ns : String)
  /-- An endpoint of a node that is there. -/
  | createEndpoint (i : ℕ) (kind : EntityKind) (topic : String) (typeInfo : Option TypeInfo)
  | createTypeDescriptionService (i : ℕ)
  | createTypeDescriptionNode (o : ι) (ns : String)
  | createTypeDescriptionClient (j : ℕ) (serviceName : String)
  /-- The builder of a node or, with this QoS, of an endpoint is run. -/
  | build (j : ℕ) (qos : QosProfile)
  /-- A node or an endpoint is dropped. -/
  | drop (i : ℕ)
  /-- Anything that happens to the graphs besides. -/
  | net (label : Discovery.Label ι κ ζ)

namespace State

variable [DecidableEq ι] [DecidableEq κ] [DecidableEq ζ] [ZenohId ζ] [KeyExpr κ]

/-- The result of a step: the state after it and what is observed of it. -/
abbrev After (ι κ ζ : Type) : Type := State ι κ ζ × List (ι × GraphEvent κ ζ)

/-- `GlobalCounter::increment`, for something that gets the number. -/
def draw (s : State ι κ ζ) (o : ι) (draft : UInt64 → Draft ζ) : State ι κ ζ :=
  { s with
    counters := Function.update s.counters o (s.counters o + 1)
    drafts := s.drafts ++ [(o, draft (s.counters o))] }

variable (contexts : ι → ZContext ζ) (watched : UInt64) (noTypeHash : Bool)

/-- A step of the graphs. -/
def netStep (s : State ι κ ζ) (label : Discovery.Label ι κ ζ) : Option (After ι κ ζ) :=
  (s.net.step (format noTypeHash) (fun o => (contexts o).session) label).map
    fun (net, observed) => ({ s with net }, observed)

/-- The token is declared. -/
def announce (s : State ι κ ζ) (o : ι) (entity : Entity ζ) (ke : κ) : Option (After ι κ ζ) :=
  let s := { s with live := s.live ++ [(o, entity)] }
  if domainOf entity = watched then s.netStep contexts noTypeHash (.declare ke) else some (s, [])

/-- The token is dropped. -/
def retract (s : State ι κ ζ) (entity : Entity ζ) : Option (After ι κ ζ) :=
  match (format noTypeHash).toKe entity with
  | some ke =>
      if domainOf entity = watched then s.netStep contexts noTypeHash (.undeclare ke)
      else some (s, [])
  | none => some (s, [])

/-- A builder announces what it has built, or gives it up. -/
def build (s : State ι κ ζ) (o : ι) (draft : Draft ζ) (qos : QosProfile) :
    Option (After ι κ ζ) :=
  match draft with
  | .node n =>
      match nodeLivelinessKeyExpr n with
      | some ke => s.announce contexts watched noTypeHash o (.node n) ke
      | none => some (s, [])
  | .endpoint e =>
      match Node.build (κ := κ) noTypeHash { e with qos } with
      | .ok (built, _, ke) => s.announce contexts watched noTypeHash o (.endpoint built) ke
      | .error _ => some (s, [])
  | .clientNode _ => none

def step (s : State ι κ ζ) : Label ι κ ζ → Option (After ι κ ζ)
  | .createNode o name ns =>
      some (s.draw o fun id =>
        .node ((((contexts o).createNode name).withNamespace ns).node id), [])
  | .createEndpoint i kind topic typeInfo =>
      match s.live[i]? with
      | some (o, .node n) =>
          if kind = .node then none
          else some (s.draw o fun id => .endpoint (createImpl kind n id topic typeInfo), [])
      | _ => none
  | .createTypeDescriptionService i =>
      match s.live[i]? with
      | some (o, .node n) => some (s.draw o fun id => .endpoint (typeDescriptionService n id), [])
      | _ => none
  | .createTypeDescriptionNode o ns =>
      some (s.draw o fun id =>
        .clientNode (typeDescriptionClientNode (contexts o).session id ns), [])
  | .createTypeDescriptionClient j serviceName =>
      match s.drafts[j]? with
      | some (o, .clientNode n) =>
          some ({ s with drafts := s.drafts.eraseIdx j }.draw o fun id =>
            .endpoint (typeDescriptionClient n id serviceName), [])
      | _ => none
  | .build j qos =>
      match s.drafts[j]? with
      | some (o, draft) =>
          { s with drafts := s.drafts.eraseIdx j }.build contexts watched noTypeHash o draft qos
      | none => none
  | .drop i =>
      match s.live[i]? with
      | some (_, entity) =>
          { s with live := s.live.eraseIdx i }.retract contexts watched noTypeHash entity
      | none => none
  | .net label =>
      match label with
      | .declare _ | .undeclare _ => none
      | _ => s.netStep contexts noTypeHash label

end State

variable [DecidableEq ι] [DecidableEq κ] [DecidableEq ζ] [ZenohId ζ] [KeyExpr κ]

/-- The sessions of the contexts, and the graphs that watch a domain. -/
def sessions (contexts : ι → ZContext ζ) (watched : UInt64) (noTypeHash : Bool) :
    Machine (State ι κ ζ) (Label ι κ ζ) (ι × GraphEvent κ ζ) where
  init :=
    { counters := fun _ => 0, drafts := [], live := []
      net := (Discovery.discovery (format noTypeHash) fun o => (contexts o).session).init }
  step := State.step contexts watched noTypeHash

end Model

/-! ## Keys -/

section Keys

variable {ζ κ : Type} [ZenohId ζ] [KeyExpr κ] {noTypeHash : Bool}

/-- Endpoints are no nodes. -/
def Draft.Proper : Draft ζ → Prop
  | .endpoint e => e.kind ≠ .node
  | _ => True

theorem parser_toKe [LawfulZenohId ζ] [LawfulKeyExpr κ] {entity : Entity ζ} {ke : κ}
    (proper : (draftOf entity).Proper) (keyed : (format noTypeHash).toKe entity = some ke) :
    (format noTypeHash).parser ke = some (entity.readBack noTypeHash) := by
  cases entity with
  | node n => exact congrArg Except.toOption (parse_nodeLivelinessKeyExpr keyed)
  | endpoint e =>
      exact congrArg Except.toOption
        (@parse_livelinessKeyExpr _ _ _ _ _ _ noTypeHash e e.node.zId ke proper keyed)

omit [ZenohId ζ] in
@[simp] theorem id_readBack (entity : Entity ζ) :
    (draftOf (entity.readBack noTypeHash)).id = (draftOf entity).id := by
  cases entity <;> rfl

omit [ZenohId ζ] in
@[simp] theorem session_readBack (entity : Entity ζ) :
    (draftOf (entity.readBack noTypeHash)).session = (draftOf entity).session := by
  cases entity <;> rfl

/-- An endpoint keeps its session, number and kind when it is built. -/
theorem draftOf_build {e built : EndpointEntity ζ} {topicKe ke : κ}
    (ran : Node.build noTypeHash e = .ok (built, topicKe, ke)) :
    (draftOf (.endpoint built)).id = (Draft.endpoint e).id ∧
      (draftOf (.endpoint built)).session = (Draft.endpoint e).session ∧
      ((Draft.endpoint e).Proper → (draftOf (.endpoint built)).Proper) ∧
      (format noTypeHash).toKe (.endpoint built) = some ke := by
  obtain ⟨q, -, rfl, -, keyed⟩ := build_eq_ok ran
  exact ⟨rfl, rfl, fun proper => proper, keyed⟩

/-- The session and the number of an entity can be read off its token. -/
theorem same_of_toKe [LawfulZenohId ζ] [LawfulKeyExpr κ] {entity other : Entity ζ} {ke : κ}
    (proper : (draftOf entity).Proper) (keyed : (format noTypeHash).toKe entity = some ke)
    (proper' : (draftOf other).Proper) (keyed' : (format noTypeHash).toKe other = some ke) :
    (draftOf entity).session = (draftOf other).session ∧
      (draftOf entity).id = (draftOf other).id := by
  have same : entity.readBack noTypeHash = other.readBack noTypeHash :=
    Option.some.inj ((parser_toKe proper keyed).symm.trans (parser_toKe proper' keyed'))
  constructor
  · rw [← session_readBack entity, same, session_readBack]
  · rw [← id_readBack entity, same, id_readBack]

end Keys

/-! ## Runs of the graphs -/

section Nets

variable {ι κ ζ : Type} [DecidableEq ι] [DecidableEq κ] [DecidableEq ζ] {fmt : Format κ ζ}
  {zid : ι → ζ} {net net' : Discovery.State ι κ ζ} {observed : List (ι × GraphEvent κ ζ)}

theorem declared_of_declare {ke : κ} (stepped : net.step fmt zid (.declare ke) =
    some (net', observed)) : ke ∉ net.declared ∧ net'.declared = ke :: net.declared := by
  obtain ⟨prepared, ready, ⟨-, rfl, -⟩ | ⟨_, _, _, _, acts, -⟩⟩ := Discovery.step_cases stepped
  · obtain ⟨fresh, same⟩ := Option.ite_none_left_eq_some.mp ready
    cases same
    exact ⟨fresh, rfl⟩
  · cases acts

theorem declared_of_undeclare {ke : κ} (stepped : net.step fmt zid (.undeclare ke) =
    some (net', observed)) : net'.declared = net.declared.filter (· ≠ ke) := by
  obtain ⟨prepared, ready, ⟨-, rfl, -⟩ | ⟨_, _, _, _, acts, -⟩⟩ := Discovery.step_cases stepped
  · obtain ⟨-, same⟩ := Option.ite_none_right_eq_some.mp ready
    cases same
    rfl
  · cases acts

/-- Nothing else changes what is declared. -/
theorem declared_of_step {label : Discovery.Label ι κ ζ}
    (stepped : net.step fmt zid label = some (net', observed))
    (declares : ∀ ke, label ≠ .declare ke) (undeclares : ∀ ke, label ≠ .undeclare ke) :
    net'.declared = net.declared := by
  obtain ⟨prepared, ready, after⟩ := Discovery.step_cases stepped
  have kept : net'.declared = prepared.declared := by
    rcases after with ⟨-, rfl, -⟩ | ⟨_, _, _, _, -, -, -, rfl, -⟩
    · rfl
    · rfl
  rw [kept]
  cases label with
  | declare ke => exact absurd rfl (declares ke)
  | undeclare ke => exact absurd rfl (undeclares ke)
  | subscribe | announce | reply | use =>
      obtain ⟨-, same⟩ := Option.ite_none_right_eq_some.mp ready
      cases same
      rfl
  | deliver =>
      obtain ⟨change, -, kept⟩ := Option.bind_eq_some_iff.mp ready
      obtain ⟨-, same⟩ := Option.ite_none_left_eq_some.mp kept
      cases same
      rfl
  | handleReply | addLocalEntity =>
      cases ready
      rfl
  | removeLocalEntity =>
      obtain ⟨leaving, -, -, rfl⟩ := Discovery.prepare_removeLocalEntity ready
      rfl

end Nets

/-! ## Numbers and tokens -/

section Invariant

variable {ι κ ζ : Type} [DecidableEq ι] [DecidableEq κ] [DecidableEq ζ] [ZenohId ζ] [KeyExpr κ]

/-- Every number is used once, and a counter is above those that it gave. -/
structure Numbered (counters : ι → UInt64) (numbers : List (ι × UInt64)) : Prop where
  distinct : numbers.Nodup
  below : ∀ number ∈ numbers, number.2 < counters number.1

section Numbers

variable {counters : ι → UInt64} {ns ms : List (ι × UInt64)}

omit [DecidableEq ι] in
theorem Numbered.of_perm (numbered : Numbered counters ns) (perm : ms.Perm ns) :
    Numbered counters ms :=
  ⟨perm.nodup_iff.mpr numbered.distinct,
    fun number member => numbered.below number (perm.mem_iff.mp member)⟩

omit [DecidableEq ι] in
theorem Numbered.of_sublist (numbered : Numbered counters ns) (sub : ms.Sublist ns) :
    Numbered counters ms :=
  ⟨numbered.distinct.sublist sub,
    fun number member => numbered.below number (sub.subset member)⟩

/-- A counter that does not overflow gives a new number. -/
theorem Numbered.draw (numbered : Numbered counters ns) {o : ι}
    (room : (counters o).toNat + 1 < 2 ^ 64) :
    Numbered (Function.update counters o (counters o + 1)) ((o, counters o) :: ns) := by
  have grown : (counters o + 1).toNat = (counters o).toNat + 1 := by
    rw [UInt64.toNat_add]
    exact Nat.mod_eq_of_lt room
  constructor
  · refine List.nodup_cons.mpr ⟨fun used => ?_, numbered.distinct⟩
    exact absurd (numbered.below _ used) (UInt64.lt_irrefl _)
  · intro number member
    rw [UInt64.lt_iff_toNat_lt]
    rcases List.mem_cons.mp member with rfl | old
    · rw [Function.update_self, grown]
      exact Nat.lt_succ_self _
    · have below := UInt64.lt_iff_toNat_lt.mp (numbered.below number old)
      by_cases own : number.1 = o
      · rw [own, Function.update_self, grown]
        rw [own] at below
        exact Nat.lt_succ_of_lt below
      · rw [Function.update_of_ne own]
        exact below

end Numbers

/-- The numbers that are in use, each with its context. -/
def numbers (s : State ι κ ζ) : List (ι × UInt64) :=
  s.drafts.map (fun d => (d.1, d.2.id)) ++ s.live.map fun e => (e.1, (draftOf e.2).id)

/-- What is declared are the tokens of what is there. -/
structure Inv (contexts : ι → ZContext ζ) (watched : UInt64) (noTypeHash : Bool)
    (s : State ι κ ζ) : Prop where
  numbered : Numbered s.counters (numbers s)
  drafted : ∀ d ∈ s.drafts, d.2.session = (contexts d.1).session ∧ d.2.Proper
  announced : ∀ e ∈ s.live, (draftOf e.2).session = (contexts e.1).session ∧
    (draftOf e.2).Proper ∧ ((format noTypeHash : Format κ ζ).toKe e.2).isSome = true
  declared : ∀ ke, ke ∈ s.net.declared ↔
    ∃ e ∈ s.live, domainOf e.2 = watched ∧ (format noTypeHash).toKe e.2 = some ke
  once : s.net.declared.Nodup

variable {contexts : ι → ZContext ζ} {watched : UInt64} {noTypeHash : Bool} {s s' : State ι κ ζ}
  {observed : List (ι × GraphEvent κ ζ)}

theorem perm_eraseIdx {α : Type} {l : List α} {i : ℕ} {a : α} (found : l[i]? = some a) :
    (a :: l.eraseIdx i).Perm l := by
  obtain ⟨bound, rfl⟩ := List.getElem?_eq_some_iff.mp found
  exact List.getElem_cons_eraseIdx_perm bound

omit [DecidableEq κ] [DecidableEq ζ] in
theorem Inv.draw (inv : Inv contexts watched noTypeHash s) {o : ι} {draft : UInt64 → Draft ζ}
    (room : (s.counters o).toNat + 1 < 2 ^ 64)
    (session : (draft (s.counters o)).session = (contexts o).session)
    (proper : (draft (s.counters o)).Proper)
    (numbered : (draft (s.counters o)).id = s.counters o) :
    Inv contexts watched noTypeHash (s.draw o draft) := by
  refine ⟨(inv.numbered.draw room).of_perm ?_, ?_, inv.announced, inv.declared, inv.once⟩
  · simp only [numbers, State.draw, List.map_append, List.map_cons, List.map_nil, numbered,
      List.append_assoc, List.singleton_append]
    exact List.perm_middle
  · intro d member
    rcases List.mem_append.mp member with old | new
    · exact inv.drafted d old
    · rw [List.mem_singleton.mp new]
      exact ⟨session, proper⟩

omit [DecidableEq ι] [DecidableEq κ] [DecidableEq ζ] in
theorem Inv.forget (inv : Inv contexts watched noTypeHash s) {drafts : List (ι × Draft ζ)}
    (sub : drafts.Sublist s.drafts) : Inv contexts watched noTypeHash { s with drafts } :=
  ⟨inv.numbered.of_sublist ((sub.map _).append (List.Sublist.refl _)),
    fun d member => inv.drafted d (sub.subset member), inv.announced, inv.declared, inv.once⟩

omit [DecidableEq ι] [DecidableEq κ] [DecidableEq ζ] in
theorem Inv.net (inv : Inv contexts watched noTypeHash s) {net : Discovery.State ι κ ζ}
    (kept : net.declared = s.net.declared) : Inv contexts watched noTypeHash { s with net } :=
  ⟨inv.numbered, inv.drafted, inv.announced, fun ke => by rw [kept]; exact inv.declared ke,
    by rw [kept]; exact inv.once⟩

omit [DecidableEq ι] [DecidableEq κ] [DecidableEq ζ] in
/-- Different entities have different tokens. -/
theorem Inv.eq_of_toKe [LawfulZenohId ζ] [LawfulKeyExpr κ] (inv : Inv contexts watched noTypeHash s)
    (apart : Function.Injective fun o => (contexts o).session) {e e' : ι × Entity ζ} {ke : κ}
    (member : e ∈ s.live) (keyed : (format noTypeHash).toKe e.2 = some ke)
    (member' : e' ∈ s.live) (keyed' : (format noTypeHash).toKe e'.2 = some ke) : e = e' := by
  obtain ⟨owned, proper, -⟩ := inv.announced e member
  obtain ⟨owned', proper', -⟩ := inv.announced e' member'
  obtain ⟨session, id⟩ := same_of_toKe proper keyed proper' keyed'
  have context : e.1 = e'.1 := apart (owned.symm.trans (session.trans owned'))
  have distinct := (List.nodup_append.mp inv.numbered.distinct).2.1
  exact List.inj_on_of_nodup_map distinct member member' (Prod.ext context id)

/-- A step of the graphs leaves everything else as it is. -/
theorem netStep_eq_some {label : Discovery.Label ι κ ζ}
    (done : s.netStep contexts noTypeHash label = some (s', observed)) :
    ∃ net, s.net.step (format noTypeHash) (fun o => (contexts o).session) label =
      some (net, observed) ∧ s' = { s with net } := by
  obtain ⟨⟨net, events⟩, stepped, same⟩ := Option.map_eq_some_iff.mp done
  cases same
  exact ⟨net, stepped, rfl⟩

theorem Inv.announce (inv : Inv contexts watched noTypeHash s) (entity : Entity ζ) {o : ι} {ke : κ}
    (fresh : Numbered s.counters ((o, (draftOf entity).id) :: numbers s))
    (session : (draftOf entity).session = (contexts o).session)
    (proper : (draftOf entity).Proper) (keyed : (format noTypeHash).toKe entity = some ke)
    (done : s.announce contexts watched noTypeHash o entity ke = some (s', observed)) :
    Inv contexts watched noTypeHash s' := by
  have numbered : Numbered s.counters (numbers { s with live := s.live ++ [(o, entity)] }) := by
    refine fresh.of_perm ?_
    simp only [numbers, List.map_append, List.map_cons, List.map_nil, ← List.append_assoc]
    exact List.perm_append_singleton _ _
  have announced : ∀ e ∈ s.live ++ [(o, entity)], (draftOf e.2).session = (contexts e.1).session ∧
      (draftOf e.2).Proper ∧ ((format noTypeHash : Format κ ζ).toKe e.2).isSome = true := by
    intro e member
    rcases List.mem_append.mp member with old | new
    · exact inv.announced e old
    · rw [List.mem_singleton.mp new]
      exact ⟨session, proper, Option.isSome_iff_exists.mpr ⟨ke, keyed⟩⟩
  simp only [State.announce] at done
  split_ifs at done with here
  · obtain ⟨net, stepped, rfl⟩ := netStep_eq_some done
    obtain ⟨undeclared, declared⟩ := declared_of_declare stepped
    refine ⟨numbered, inv.drafted, announced, fun k => ?_, ?_⟩
    · dsimp only at declared ⊢
      rw [declared, List.mem_cons, inv.declared k]
      simp only [List.mem_append, List.mem_singleton, or_and_right, exists_or, exists_eq_left,
        here, true_and, keyed, Option.some.injEq]
      rw [or_comm, eq_comm]
    · dsimp only at declared ⊢
      rw [declared]
      exact List.nodup_cons.mpr ⟨undeclared, inv.once⟩
  · cases done
    refine ⟨numbered, inv.drafted, announced, fun k => ?_, inv.once⟩
    rw [inv.declared k]
    simp only [List.mem_append, List.mem_singleton, or_and_right, exists_or, exists_eq_left, here,
      false_and, or_false]

theorem Inv.retract [LawfulZenohId ζ] [LawfulKeyExpr κ] (inv : Inv contexts watched noTypeHash s)
    (apart : Function.Injective fun o => (contexts o).session) {i : ℕ} {o : ι} {entity : Entity ζ}
    (found : s.live[i]? = some (o, entity))
    (done : { s with live := s.live.eraseIdx i }.retract contexts watched noTypeHash entity =
      some (s', observed)) : Inv contexts watched noTypeHash s' := by
  have perm := perm_eraseIdx found
  have sub : (s.live.eraseIdx i).Sublist s.live := List.eraseIdx_sublist ..
  have member : (o, entity) ∈ s.live := perm.subset List.mem_cons_self
  have numbered : Numbered s.counters (numbers { s with live := s.live.eraseIdx i }) :=
    inv.numbered.of_sublist ((List.Sublist.refl _).append (sub.map _))
  have announced := fun e (there : e ∈ s.live.eraseIdx i) => inv.announced e (sub.subset there)
  have distinct : s.live.Nodup :=
    List.Nodup.of_map _ (List.nodup_append.mp inv.numbered.distinct).2.1
  -- what is left is what is different from the entity
  have left : ∀ e, e ∈ s.live.eraseIdx i ↔ e ∈ s.live ∧ e ≠ (o, entity) := by
    intro e
    have gone := (List.nodup_cons.mp (perm.nodup_iff.mpr distinct)).1
    rw [← perm.mem_iff, List.mem_cons]
    constructor
    · exact fun there => ⟨.inr there, fun same => gone (same ▸ there)⟩
    · exact fun both => both.1.resolve_left both.2
  obtain ⟨ke, keyed⟩ := Option.isSome_iff_exists.mp (inv.announced _ member).2.2
  simp only [State.retract, keyed] at done
  split_ifs at done with here
  · obtain ⟨net, stepped, rfl⟩ := netStep_eq_some done
    have declared := declared_of_undeclare stepped
    refine ⟨numbered, inv.drafted, announced, fun k => ?_, ?_⟩
    · dsimp only at declared ⊢
      rw [declared, List.mem_filter, inv.declared k, decide_eq_true_iff]
      constructor
      · rintro ⟨⟨e, there, local', same⟩, other⟩
        refine ⟨e, (left e).mpr ⟨there, ?_⟩, local', same⟩
        rintro rfl
        exact other (Option.some.inj (same.symm.trans keyed))
      · rintro ⟨e, there, local', same⟩
        obtain ⟨there, other⟩ := (left e).mp there
        refine ⟨⟨e, there, local', same⟩, ?_⟩
        rintro rfl
        exact other (inv.eq_of_toKe apart there same member keyed)
    · dsimp only at declared ⊢
      rw [declared]
      exact inv.once.filter _
  · cases done
    refine ⟨numbered, inv.drafted, announced, fun k => ?_, inv.once⟩
    rw [inv.declared k]
    constructor
    · rintro ⟨e, there, local', same⟩
      refine ⟨e, (left e).mpr ⟨there, ?_⟩, local', same⟩
      rintro rfl
      exact here local'
    · rintro ⟨e, there, both⟩
      exact ⟨e, ((left e).mp there).1, both⟩

theorem Inv.build (inv : Inv contexts watched noTypeHash s) {o : ι} {draft : Draft ζ}
    {qos : QosProfile} (fresh : Numbered s.counters ((o, draft.id) :: numbers s))
    (session : draft.session = (contexts o).session) (proper : draft.Proper)
    (done : s.build contexts watched noTypeHash o draft qos = some (s', observed)) :
    Inv contexts watched noTypeHash s' := by
  cases draft with
  | node n =>
      simp only [State.build] at done
      split at done
      · next ke keyed =>
          exact inv.announce (.node n) fresh session trivial keyed done
      · cases done
        exact inv
  | endpoint e =>
      simp only [State.build] at done
      split at done
      · next built topicKe ke ran =>
          obtain ⟨id, session', proper', keyed⟩ := draftOf_build ran
          exact inv.announce (.endpoint built) (by rw [id]; exact fresh)
            (session'.trans session) (proper' proper) keyed done
      · cases done
        exact inv
  | clientNode n => cases done

omit [DecidableEq ι] [DecidableEq κ] [DecidableEq ζ] in
/-- A draft is taken from the others. -/
theorem Inv.take (inv : Inv contexts watched noTypeHash s) {j : ℕ} {o : ι} {draft : Draft ζ}
    (found : s.drafts[j]? = some (o, draft)) :
    Inv contexts watched noTypeHash { s with drafts := s.drafts.eraseIdx j } ∧
      Numbered s.counters
        ((o, draft.id) :: numbers { s with drafts := s.drafts.eraseIdx j }) ∧
      draft.session = (contexts o).session ∧ draft.Proper := by
  have perm := perm_eraseIdx found
  refine ⟨inv.forget (List.eraseIdx_sublist ..), inv.numbered.of_perm ?_,
    inv.drafted _ (perm.subset List.mem_cons_self)⟩
  exact (perm.map fun d => (d.1, d.2.id)).append_right _

variable [LawfulZenohId ζ] [LawfulKeyExpr κ]

theorem Inv.step (inv : Inv contexts watched noTypeHash s)
    (apart : Function.Injective fun o => (contexts o).session)
    (room : ∀ o, (s.counters o).toNat + 1 < 2 ^ 64) {label : Label ι κ ζ}
    (stepped : s.step contexts watched noTypeHash label = some (s', observed)) :
    Inv contexts watched noTypeHash s' := by
  cases label with
  | createNode o name ns =>
      cases stepped
      exact inv.draw (room o) rfl trivial rfl
  | createEndpoint i kind topic typeInfo =>
      simp only [State.step] at stepped
      split at stepped
      · next o n found =>
          split_ifs at stepped with node
          cases stepped
          exact inv.draw (room o) (inv.announced _ (List.mem_of_getElem? found)).1 node rfl
      · cases stepped
  | createTypeDescriptionService i =>
      simp only [State.step] at stepped
      split at stepped
      · next o n found =>
          cases stepped
          exact inv.draw (room o) (inv.announced _ (List.mem_of_getElem? found)).1 nofun rfl
      · cases stepped
  | createTypeDescriptionNode o ns =>
      cases stepped
      exact inv.draw (room o) rfl trivial rfl
  | createTypeDescriptionClient j serviceName =>
      simp only [State.step] at stepped
      split at stepped
      · next o n found =>
          cases stepped
          obtain ⟨rest, -, session, -⟩ := inv.take found
          exact rest.draw (room o) session nofun rfl
      · cases stepped
  | build j qos =>
      simp only [State.step] at stepped
      split at stepped
      · next o draft found =>
          obtain ⟨rest, fresh, session, proper⟩ := inv.take found
          exact rest.build fresh session proper stepped
      · cases stepped
  | drop i =>
      simp only [State.step] at stepped
      split at stepped
      · next o entity found => exact inv.retract apart found stepped
      · cases stepped
  | net label =>
      simp only [State.step] at stepped
      split at stepped
      · cases stepped
      · cases stepped
      · next declares undeclares =>
          obtain ⟨net, ran, rfl⟩ := netStep_eq_some stepped
          exact inv.net (declared_of_step ran declares undeclares)

end Invariant

/-! ## Runs -/

section Runs

variable {ι κ ζ : Type} [DecidableEq ι] [DecidableEq κ] [DecidableEq ζ] [ZenohId ζ] [KeyExpr κ]
  (contexts : ι → ZContext ζ) (watched : UInt64) (noTypeHash : Bool)

/-- The run of the graphs. -/
def netOf (c : Config (State ι κ ζ) (ι × GraphEvent κ ζ)) :
    Config (Discovery.State ι κ ζ) (ι × GraphEvent κ ζ) :=
  ⟨c.state.net, c.trace⟩

/-- No counter is about to overflow, and the graphs are used as in `Discovery.Timely`. -/
def Sound (c : Config (State ι κ ζ) (ι × GraphEvent κ ζ)) (label : Label ι κ ζ) : Prop :=
  (∀ o, (c.state.counters o).toNat + 1 < 2 ^ 64) ∧
    match label with
    | .net label =>
        Discovery.Timely (format noTypeHash) (fun o => (contexts o).session) (netOf c) label
    | _ => True

variable {contexts} {watched} {noTypeHash} {c c' : Config (State ι κ ζ) (ι × GraphEvent κ ζ)}
  {label : Label ι κ ζ}

omit [ZenohId ζ] [KeyExpr κ] in
/-- A token may be declared and dropped at any time. -/
theorem timely_of_quiet {fmt : Format κ ζ} {zid : ι → ζ}
    {net : Config (Discovery.State ι κ ζ) (ι × GraphEvent κ ζ)} {ke : κ} :
    Discovery.Timely fmt zid net (.declare ke) ∧ Discovery.Timely fmt zid net (.undeclare ke) :=
  ⟨⟨nofun, trivial⟩, ⟨nofun, trivial⟩⟩

/-- What a step does to the graphs. -/
inductive ActsOn (contexts : ι → ZContext ζ) (noTypeHash : Bool) (net : Discovery.State ι κ ζ)
    (label : Label ι κ ζ) (after : State.After ι κ ζ) : Prop where
  | nothing (same : after.1.net = net) (unseen : after.2 = [])
  /-- One step of the graphs, which declares or drops a token or is said by the label. -/
  | step (r : State ι κ ζ) (used : Discovery.Label ι κ ζ) (start : r.net = net)
      (done : r.netStep contexts noTypeHash used = some after)
      (how : (∃ ke, used = .declare ke ∨ used = .undeclare ke) ∨ label = .net used)

variable {s : State ι κ ζ} {net : Discovery.State ι κ ζ} {after : State.After ι κ ζ} {o : ι}
  {entity : Entity ζ}

theorem actsOn_announce {ke : κ} (start : s.net = net)
    (done : s.announce contexts watched noTypeHash o entity ke = some after) :
    ActsOn contexts noTypeHash net label after := by
  simp only [State.announce] at done
  split_ifs at done
  · exact .step _ _ (by exact start) done (.inl ⟨ke, .inl rfl⟩)
  · cases done
    exact .nothing start rfl

theorem actsOn_build {draft : Draft ζ} {qos : QosProfile} (start : s.net = net)
    (done : s.build contexts watched noTypeHash o draft qos = some after) :
    ActsOn contexts noTypeHash net label after := by
  cases draft with
  | node | endpoint =>
      simp only [State.build] at done
      split at done
      · exact actsOn_announce start done
      · cases done
        exact .nothing start rfl
  | clientNode => cases done

theorem actsOn_retract (start : s.net = net)
    (done : s.retract contexts watched noTypeHash entity = some after) :
    ActsOn contexts noTypeHash net label after := by
  simp only [State.retract] at done
  split at done
  · next ke keyed =>
      split_ifs at done
      · exact .step _ _ (by exact start) done (.inl ⟨ke, .inr rfl⟩)
      · cases done
        exact .nothing start rfl
  · cases done
    exact .nothing start rfl

theorem actsOn_step (stepped : s.step contexts watched noTypeHash label = some after) :
    ActsOn contexts noTypeHash s.net label after := by
  cases label with
  | createNode | createTypeDescriptionNode =>
      cases stepped
      exact .nothing rfl rfl
  | createEndpoint =>
      simp only [State.step] at stepped
      split at stepped
      · obtain ⟨-, same⟩ := Option.ite_none_left_eq_some.mp stepped
        cases same
        exact .nothing rfl rfl
      · cases stepped
  | createTypeDescriptionService | createTypeDescriptionClient =>
      simp only [State.step] at stepped
      split at stepped
      · cases stepped
        exact .nothing rfl rfl
      · cases stepped
  | build =>
      simp only [State.step] at stepped
      split at stepped
      · exact actsOn_build (by rfl) stepped
      · cases stepped
  | drop =>
      simp only [State.step] at stepped
      split at stepped
      · exact actsOn_retract (by rfl) stepped
      · cases stepped
  | net used =>
      simp only [State.step] at stepped
      split at stepped
      · cases stepped
      · cases stepped
      · exact .step s used rfl stepped (.inr rfl)

/-- The graphs run as they do on their own. -/
theorem netOf_reachable (reached : (sessions contexts watched noTypeHash).Reachable
    (Sound contexts noTypeHash) c) :
    (Discovery.discovery (format noTypeHash) fun o => (contexts o).session).Reachable
      (Discovery.Timely (format noTypeHash) fun o => (contexts o).session) (netOf c) := by
  refine reached.invariant (P := fun c : Config (State ι κ ζ) (ι × GraphEvent κ ζ) =>
    (Discovery.discovery (format noTypeHash) fun o => (contexts o).session).Reachable
      (Discovery.Timely (format noTypeHash) fun o => (contexts o).session) (netOf c)) .refl ?_
  rintro c label c' runs meets moved
  obtain ⟨observed, stepped, grown⟩ := Machine.next_eq_some moved
  cases actsOn_step stepped with
  | nothing same unseen =>
    have stays : netOf c' = netOf c := by
      rw [netOf, netOf, same, grown, show observed = [] from unseen, List.append_nil]
    rw [stays]
    exact runs
  | step r used start done how =>
    obtain ⟨net, ran, after⟩ := netStep_eq_some done
    rw [start] at ran
    have timely : Discovery.Timely (format noTypeHash) (fun o => (contexts o).session) (netOf c)
        used := by
      rcases how with ⟨ke, rfl | rfl⟩ | rfl
      · exact timely_of_quiet.1
      · exact timely_of_quiet.2
      · exact meets.2
    refine runs.step timely ?_
    have left : netOf c' = ⟨net, c.trace ++ observed⟩ := by rw [netOf, after, grown]
    rw [left]
    exact congrArg (Option.map _) ran

variable [LawfulZenohId ζ] [LawfulKeyExpr κ]

theorem inv_of_reachable (apart : Function.Injective fun o => (contexts o).session)
    (reached : (sessions contexts watched noTypeHash).Reachable (Sound contexts noTypeHash) c) :
    Inv contexts watched noTypeHash c.state := by
  refine reached.invariant (P := fun c : Config (State ι κ ζ) (ι × GraphEvent κ ζ) =>
    Inv contexts watched noTypeHash c.state) ?_ ?_
  · refine ⟨⟨List.nodup_nil, nofun⟩, nofun, nofun, fun ke => ⟨nofun, ?_⟩, List.nodup_nil⟩
    rintro ⟨e, there, -⟩
    cases there
  · rintro c label c' inv meets moved
    obtain ⟨observed, stepped, -⟩ := Machine.next_eq_some moved
    exact inv.step apart meets.1 stepped

end Runs

/-! ## What the graphs report -/

section Reports

variable {ι κ ζ : Type} [DecidableEq ι] [DecidableEq κ] [DecidableEq ζ] [ZenohId ζ] [KeyExpr κ]
  [LawfulZenohId ζ] [LawfulKeyExpr κ] {contexts : ι → ZContext ζ} {watched : UInt64}
  {noTypeHash : Bool} {s : State ι κ ζ}

/-- The tokens of a list of entities. -/
def tokens (noTypeHash : Bool) (live : List (ι × Entity ζ)) : List κ :=
  live.filterMap fun e => (format noTypeHash).toKe e.2

omit [DecidableEq ι] [DecidableEq κ] [DecidableEq ζ] in
theorem Inv.nodup_tokens (inv : Inv contexts watched noTypeHash s)
    (apart : Function.Injective fun o => (contexts o).session) {live : List (ι × Entity ζ)}
    (sub : live.Sublist s.live) : (tokens noTypeHash live : List κ).Nodup := by
  have distinct : live.Nodup :=
    (List.Nodup.of_map _ (List.nodup_append.mp inv.numbered.distinct).2.1).sublist sub
  refine List.pairwise_filterMap.mpr (distinct.imp_of_mem ?_)
  rintro e e' member member' other ke keyed ke' keyed' rfl
  exact other (inv.eq_of_toKe apart (sub.subset member) keyed (sub.subset member') keyed')

omit [DecidableEq ι] [DecidableEq κ] [DecidableEq ζ] in
theorem Inv.perm_declared (inv : Inv contexts watched noTypeHash s)
    (apart : Function.Injective fun o => (contexts o).session) :
    s.net.declared.Perm (tokens noTypeHash (s.live.filter fun e => domainOf e.2 = watched)) := by
  refine (List.perm_ext_iff_of_nodup inv.once
    (inv.nodup_tokens apart List.filter_sublist)).mpr fun ke => ?_
  rw [inv.declared ke]
  simp only [tokens, List.mem_filterMap, List.mem_filter, decide_eq_true_eq, and_assoc]

omit [DecidableEq ι] [DecidableEq κ] [DecidableEq ζ] in
/-- What the tokens say. -/
theorem Inv.filterMap_tokens (inv : Inv contexts watched noTypeHash s)
    {live : List (ι × Entity ζ)} (sub : live ⊆ s.live) :
    (tokens noTypeHash live : List κ).filterMap (format noTypeHash).parser =
      live.map fun e => e.2.readBack noTypeHash := by
  rw [tokens, List.filterMap_filterMap, ← List.filterMap_eq_map]
  refine List.filterMap_congr fun e member => ?_
  obtain ⟨-, proper, keyed⟩ := inv.announced e (sub member)
  obtain ⟨ke, keyed⟩ := Option.isSome_iff_exists.mp keyed
  rw [keyed, Option.bind_some]
  exact parser_toKe proper keyed

omit [DecidableEq ι] [DecidableEq κ] [DecidableEq ζ] in
/-- The token of a builder is not that of another entity. -/
theorem Inv.fresh_token (inv : Inv contexts watched noTypeHash s)
    (apart : Function.Injective fun o => (contexts o).session) {o : ι} {entity : Entity ζ} {ke : κ}
    (fresh : Numbered s.counters ((o, (draftOf entity).id) :: numbers s))
    (session : (draftOf entity).session = (contexts o).session)
    (proper : (draftOf entity).Proper) (keyed : (format noTypeHash).toKe entity = some ke) :
    ke ∉ s.net.declared := by
  intro declared
  obtain ⟨e, there, -, keyed'⟩ := (inv.declared ke).mp declared
  obtain ⟨owned, proper', -⟩ := inv.announced e there
  obtain ⟨same, id⟩ := same_of_toKe proper keyed proper' keyed'
  have context : o = e.1 := apart (session.symm.trans (same.trans owned))
  refine (List.nodup_cons.mp fresh.distinct).1 (List.mem_append_right _ ?_)
  exact List.mem_map.mpr ⟨e, there, Prod.ext context.symm id.symm⟩

omit [LawfulZenohId ζ] [LawfulKeyExpr κ] in
theorem isSome_netStep {used : Discovery.Label ι κ ζ} {prepared : Discovery.State ι κ ζ}
    (ready : s.net.prepare (format noTypeHash) used = some prepared)
    (idle : s.net.act (format noTypeHash) (fun o => (contexts o).session) used = none) :
    (s.netStep contexts noTypeHash used).isSome = true := by
  rw [State.netStep, Discovery.State.step, ready, Option.bind_some, idle]
  rfl

theorem Inv.isSome_announce (inv : Inv contexts watched noTypeHash s)
    (apart : Function.Injective fun o => (contexts o).session) (entity : Entity ζ) {o : ι} {ke : κ}
    (fresh : Numbered s.counters ((o, (draftOf entity).id) :: numbers s))
    (session : (draftOf entity).session = (contexts o).session)
    (proper : (draftOf entity).Proper) (keyed : (format noTypeHash).toKe entity = some ke) :
    (s.announce contexts watched noTypeHash o entity ke).isSome = true := by
  have free := inv.fresh_token apart fresh session proper keyed
  simp only [State.announce]
  split_ifs
  · exact isSome_netStep (if_neg free) rfl
  · rfl

theorem Inv.isSome_build (inv : Inv contexts watched noTypeHash s)
    (apart : Function.Injective fun o => (contexts o).session) {o : ι} {draft : Draft ζ}
    {qos : QosProfile} (fresh : Numbered s.counters ((o, draft.id) :: numbers s))
    (session : draft.session = (contexts o).session) (proper : draft.Proper)
    (announces : ∀ n, draft ≠ .clientNode n) :
    (s.build contexts watched noTypeHash o draft qos).isSome = true := by
  cases draft with
  | node n =>
      simp only [State.build]
      split
      · next ke keyed => exact inv.isSome_announce apart (.node n) fresh session trivial keyed
      · rfl
  | endpoint e =>
      simp only [State.build]
      split
      · next built topicKe ke ran =>
          obtain ⟨id, session', proper', keyed⟩ := draftOf_build ran
          exact inv.isSome_announce apart (.endpoint built) (by rw [id]; exact fresh)
            (session'.trans session) (proper' proper) keyed
      · rfl
  | clientNode n => exact absurd rfl (announces n)

omit [LawfulZenohId ζ] [LawfulKeyExpr κ] in
theorem Inv.isSome_drop (inv : Inv contexts watched noTypeHash s) {i : ℕ} {o : ι}
    {entity : Entity ζ} (found : s.live[i]? = some (o, entity)) :
    ({ s with live := s.live.eraseIdx i }.retract contexts watched noTypeHash entity).isSome =
      true := by
  have member := List.mem_of_getElem? found
  obtain ⟨ke, keyed⟩ := Option.isSome_iff_exists.mp (inv.announced _ member).2.2
  simp only [State.retract, keyed]
  split_ifs with here
  · exact isSome_netStep (if_pos ((inv.declared ke).mpr ⟨_, member, here, keyed⟩)) rfl
  · rfl

end Reports

/-! ## A talker and a listener -/

section Demo

instance {κ ζ : Type} [DecidableEq κ] [DecidableEq ζ] [ZenohId ζ] [KeyExpr κ]
    (contexts : Bool → ZContext ζ) (noTypeHash : Bool) :
    DecidableRel (Sound (κ := κ) contexts noTypeHash) := by
  intro c label
  unfold Sound
  cases label <;> infer_instance

def demoContexts (o : Bool) : ZContext SessionId :=
  { session := Discovery.bystander o, domainId := 0, enclave := "" }

theorem demoContexts_apart : Function.Injective fun o => (demoContexts o).session := by
  intro o o' same
  cases o <;> cases o' <;> first | rfl | exact absurd same (by decide)

/-- A session watches how the other makes a node and a publisher. -/
def makesTalker : List (Label Bool PlainKey SessionId) :=
  [.net (.subscribe false []), .createNode true "n" "/", .build 0 {},
    .createEndpoint 0 .publisher "t" none, .build 0 {}, .net (.deliver false 0),
    .net (.deliver false 0)]

/-- Both sessions make a node with the same name, and both nodes get the same number. -/
def sameNames : List (Label Bool PlainKey SessionId) :=
  [.createNode true "n" "", .createNode false "n" "", .build 0 {}, .build 0 {}]

end Demo

end RosZ.Graph.Sessions
