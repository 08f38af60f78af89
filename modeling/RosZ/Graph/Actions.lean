import RosZ.Graph.Listings
import RosZ.TopicName.Requalification

/-!
# Actions in the graph

An action shows in the graph by its endpoints: a server has three services and two publishers, a
client has three clients and two subscriptions.  The discovery of actions looks at feedback topics,
and strips the ending of their names and of their types.

The names come back (`names_recovered`).  The types do not: the generated name of a feedback message
ends in an underscore, and so not in the ending that is stripped (`stripType_feedback`).  What
is returned for an action is the type of its feedback messages, which is longer than that of the
action, so that no set of actions is recovered but the empty one (`recovers_iff`).
-/

namespace RosZ.Graph

open Protocol Transition

variable {κ ζ : Type} [DecidableEq κ]

/-! ## Discovery -/

/-- Look for feedback topics, and strip the endings of their names and, if present, types. -/
def filterActionNamesAndTypes (topics : List (Topic × String)) : List (Topic × String) :=
  topics.filterMap fun (topicName, typeName) =>
    (Names.stripEnd "/_action/feedback" topicName).map fun actionName =>
      (actionName, (Names.stripEnd "_FeedbackMessage" typeName).getD typeName)

namespace GraphData

variable (fmt : Format κ ζ)

/-- Action clients subscribe to feedback topics. -/
def getActionClientNamesAndTypesByNode (s : GraphData κ ζ) (nodeKey : NodeKey) (order : List κ) :
    GraphData κ ζ × List (Topic × String) :=
  let (s, subscribers) := s.getNamesAndTypesByNode fmt nodeKey .subscription order
  (s, filterActionNamesAndTypes subscribers)

/-- Action servers publish feedback topics. -/
def getActionServerNamesAndTypesByNode (s : GraphData κ ζ) (nodeKey : NodeKey) (order : List κ) :
    GraphData κ ζ × List (Topic × String) :=
  let (s, publishers) := s.getNamesAndTypesByNode fmt nodeKey .publisher order
  (s, filterActionNamesAndTypes publishers)

/-- All action names and types, without duplicates. -/
def getActionNamesAndTypes (s : GraphData κ ζ) (order : List κ) :
    GraphData κ ζ × List (Topic × String) :=
  let (s, topics) := s.getTopicNamesAndTypes fmt order
  (s, (SortDedup.sortDedup ((filterActionNamesAndTypes topics).map toLex)).map ofLex)

end GraphData

/-! ## Actions -/

/-- An action as `generate_action_impl` has it: its names, and the hashes in the generated code. -/
structure GeneratedAction where
  package : String
  name : String
  sendGoalHash : TypeHash
  getResultHash : TypeHash
  cancelGoalHash : TypeHash
  feedbackHash : TypeHash
  statusHash : TypeHash
  deriving DecidableEq

namespace GeneratedAction

variable (a : GeneratedAction)

/-- `ZAction::name`. -/
def typeName : String := a.package ++ "::action::dds_::" ++ a.name ++ "_"

def sendGoalTypeInfo : TypeInfo :=
  { name := a.package ++ "::action::dds_::" ++ a.name ++ "_SendGoal_", hash := a.sendGoalHash }

def getResultTypeInfo : TypeInfo :=
  { name := a.package ++ "::action::dds_::" ++ a.name ++ "_GetResult_", hash := a.getResultHash }

def cancelGoalTypeInfo : TypeInfo :=
  { name := "action_msgs::srv::dds_::CancelGoal_", hash := a.cancelGoalHash }

def feedbackTypeInfo : TypeInfo where
  name := a.package ++ "::action::dds_::" ++ a.name ++ "_FeedbackMessage_"
  hash := a.feedbackHash

def statusTypeInfo : TypeInfo :=
  { name := "action_msgs::msg::dds_::GoalStatusArray_", hash := a.statusHash }

end GeneratedAction

/-- The endpoints of a server or client of an action. -/
inductive ActionChannel where
  | goal
  | result
  | cancel
  | feedback
  | status
  deriving DecidableEq

inductive ActionRole where
  | server
  | client
  deriving DecidableEq

/-- A server or a client of an action that runs on a node. -/
structure ActionParty (ζ : Type) where
  role : ActionRole
  node : NodeEntity ζ
  qualifiedActionName : String
  action : GeneratedAction
  id : ActionChannel → UInt64
  qos : ActionChannel → QosProfile

namespace ActionParty

variable (party : ActionParty ζ)

/-- ROS 2 action naming conventions. -/
def topic : ActionChannel → Topic
  | .goal => party.qualifiedActionName ++ "/_action/send_goal"
  | .result => party.qualifiedActionName ++ "/_action/get_result"
  | .cancel => party.qualifiedActionName ++ "/_action/cancel_goal"
  | .feedback => party.qualifiedActionName ++ "/_action/feedback"
  | .status => party.qualifiedActionName ++ "/_action/status"

def typeInfo : ActionChannel → TypeInfo
  | .goal => party.action.sendGoalTypeInfo
  | .result => party.action.getResultTypeInfo
  | .cancel => party.action.cancelGoalTypeInfo
  | .feedback => party.action.feedbackTypeInfo
  | .status => party.action.statusTypeInfo

def kind : ActionChannel → EntityKind
  | .goal | .result | .cancel =>
      match party.role with
      | .server => .service
      | .client => .client
  | .feedback | .status =>
      match party.role with
      | .server => .publisher
      | .client => .subscription

/-- The endpoint that the builder of the server or client creates. -/
def endpoint (channel : ActionChannel) : EndpointEntity ζ where
  id := party.id channel
  node := party.node
  kind := party.kind channel
  topic := party.topic channel
  typeInfo := some (party.typeInfo channel)
  qos := party.qos channel

end ActionParty

/-- The builders of the endpoints qualify their names again, and do not change them. -/
theorem ActionParty.qualifyTopicName_topic (party : ActionParty ζ) (channel : ActionChannel)
    (qualified : TopicName.startsWith '/' party.qualifiedActionName = true) {ns nodeName : String}
    (namespaced : TopicName.validateNamespace ns = .ok ())
    (named : TopicName.validateNodeName nodeName = .ok ()) :
    TopicName.qualifyTopicName (party.topic channel) ns nodeName = .ok (party.topic channel) := by
  have comes := fun x => @TopicName.qualifyTopicName_append _ _ _ qualified namespaced named x
  cases channel with
  | goal => simpa [topic, String.append_assoc] using comes "send_goal" (by decide) (by decide)
  | result => simpa [topic, String.append_assoc] using comes "get_result" (by decide) (by decide)
  | cancel => simpa [topic, String.append_assoc] using comes "cancel_goal" (by decide) (by decide)
  | feedback => simpa [topic, String.append_assoc] using comes "feedback" (by decide) (by decide)
  | status => simpa [topic, String.append_assoc] using comes "status" (by decide) (by decide)

/-- **The actions that run**: all endpoints of their servers and clients are live, and every live
publisher or subscription on a feedback topic is one of them. -/
structure Deployed (live : AList (fun _ : κ => Entity ζ)) (parties : List (ActionParty ζ)) :
    Prop where
  running : ∀ party ∈ parties, ∀ channel, ∃ entry ∈ live.entries,
    entry.2 = .endpoint (party.endpoint channel)
  only : ∀ entry ∈ live.entries, ∀ e, entry.2 = .endpoint e →
    e.kind = .publisher ∨ e.kind = .subscription →
    "/_action/feedback".toList <:+ e.topic.toList →
    ∃ party ∈ parties, e = party.endpoint .feedback

/-- **Actions are recovered**: listed are their names and types, each once. -/
def Recovers (listed : List (Topic × String)) (runs : ActionParty ζ → Prop) : Prop :=
  listed.Nodup ∧ ∀ pair, pair ∈ listed ↔
    ∃ party, runs party ∧ pair = (party.qualifiedActionName, party.action.typeName)

/-! ## Endings -/

theorem stripEnd_append (base ending : String) :
    Names.stripEnd ending (base ++ ending) = some base := by
  cases stripped : Names.stripEnd ending (base ++ ending) with
  | none =>
      refine absurd ⟨base.toList, ?_⟩ (Names.stripEnd_eq_none.mp stripped)
      rw [String.toList_append]
  | some front =>
      have same := Names.append_of_stripEnd stripped
      rw [← String.toList_inj, String.toList_append, String.toList_append] at same
      rw [String.toList_inj.mp (List.append_cancel_right same)]

/-- The type of a feedback message keeps its ending: an underscore stands behind it. -/
theorem stripType_feedback (a : GeneratedAction) :
    (Names.stripEnd "_FeedbackMessage" a.feedbackTypeInfo.name).getD a.feedbackTypeInfo.name =
      a.feedbackTypeInfo.name := by
  cases stripped : Names.stripEnd "_FeedbackMessage" a.feedbackTypeInfo.name with
  | none => rfl
  | some front =>
      have same := congrArg (·.toList.getLast?) (Names.append_of_stripEnd stripped)
      simp only [GeneratedAction.feedbackTypeInfo, String.toList_append] at same
      rw [List.getLast?_append_of_ne_nil _ (by decide),
        List.getLast?_append_of_ne_nil _ (by decide)]
        at same
      exact absurd same (by decide)

/-- It is longer than the type of the action. -/
theorem length_typeName_lt (a : GeneratedAction) :
    a.typeName.length < a.feedbackTypeInfo.name.length := by
  simp only [GeneratedAction.typeName, GeneratedAction.feedbackTypeInfo, String.length_append]
  have shorter : "_".length < "_FeedbackMessage_".length := by decide
  omega

/-- An action is listed for a feedback topic. -/
theorem mem_filterActionNamesAndTypes {topics : List (Topic × String)} {name : Topic}
    {type : String} :
    (name, type) ∈ filterActionNamesAndTypes topics ↔
      ∃ typeName, (name ++ "/_action/feedback", typeName) ∈ topics ∧
        (Names.stripEnd "_FeedbackMessage" typeName).getD typeName = type := by
  simp only [filterActionNamesAndTypes, List.mem_filterMap, Option.map_eq_some_iff, Prod.mk.injEq,
    Prod.exists]
  constructor
  · rintro ⟨topicName, typeName, member, _, stripped, rfl, rfl⟩
    rw [Names.append_of_stripEnd stripped] at member
    exact ⟨typeName, member, rfl⟩
  · rintro ⟨typeName, member, rfl⟩
    exact ⟨_, typeName, member, name, stripEnd_append _ _, rfl, rfl⟩

theorem mem_getActionNamesAndTypes {fmt : Format κ ζ} {s : GraphData κ ζ} {order : List κ}
    {pair : Topic × String} :
    pair ∈ (s.getActionNamesAndTypes fmt order).2 ↔
      pair ∈ filterActionNamesAndTypes (s.getTopicNamesAndTypes fmt order).2 := by
  rw [GraphData.getActionNamesAndTypes, List.mem_map]
  constructor
  · rintro ⟨_, sorted, rfl⟩
    obtain ⟨found, member, rfl⟩ := List.mem_map.mp (SortDedup.mem_sortDedup.mp sorted)
    exact member
  · intro member
    exact ⟨toLex pair, SortDedup.mem_sortDedup.mpr (List.mem_map_of_mem member), rfl⟩

/-! ## What is discovered -/

section Deployed

variable {fmt : Format κ ζ} {s : GraphData κ ζ} {live : AList (fun _ : κ => Entity ζ)}
  {order : List κ} {parties : List (ActionParty ζ)}

omit [DecidableEq κ] in
/-- The live endpoints with types on a feedback topic are those of the actions. -/
theorem Deployed.of_feedback (deployed : Deployed live parties)
    {entry : Sigma fun _ : κ => Entity ζ} (alive : entry ∈ live.entries)
    {e : EndpointEntity ζ} (shape : entry.2 = .endpoint e)
    (kind : e.kind = .publisher ∨ e.kind = .subscription) {name : Topic} {type : String}
    (typed : e.typeInfo.map (fun t => (e.topic, t.name)) =
      some (name ++ "/_action/feedback", type)) :
    ∃ party ∈ parties, e = party.endpoint .feedback ∧
      (name, type) = (party.qualifiedActionName, party.action.feedbackTypeInfo.name) := by
  obtain ⟨info, announced, same⟩ := Option.map_eq_some_iff.mp typed
  obtain ⟨topic, rfl⟩ := Prod.mk.inj same
  obtain ⟨party, member, rfl⟩ := deployed.only entry alive e shape kind
    ⟨name.toList, by rw [topic, String.toList_append]⟩
  refine ⟨party, member, rfl, ?_⟩
  have base := congrArg String.toList topic
  simp only [ActionParty.endpoint, ActionParty.topic, String.toList_append] at base
  rw [String.toList_inj.mp (List.append_cancel_right base)]
  cases announced
  rfl

/-- What is listed is the type of the feedback messages of an action that runs. -/
theorem getActionNamesAndTypes_sound (inv : s.Inv fmt live) (drained : order.Perm s.cached)
    (deployed : Deployed live parties) {pair : Topic × String}
    (listed : pair ∈ (s.getActionNamesAndTypes fmt order).2) :
    ∃ party ∈ parties,
      pair = (party.qualifiedActionName, party.action.feedbackTypeInfo.name) := by
  obtain ⟨name, type⟩ := pair
  obtain ⟨typeName, member, rfl⟩ :=
    mem_filterActionNamesAndTypes.mp (mem_getActionNamesAndTypes.mp listed)
  obtain ⟨entry, alive, typed⟩ := inv.of_mem_namesAndTypes drained Listing.topics_pairs member
  cases shape : entry.2 with
  | node n =>
      rw [shape] at typed
      cases typed
  | endpoint e =>
      rw [shape, topicAndType, Option.ite_none_right_eq_some] at typed
      obtain ⟨party, runs, -, same⟩ := deployed.of_feedback alive shape typed.1 typed.2
      obtain ⟨rfl, rfl⟩ := Prod.mk.inj same
      exact ⟨party, runs, by rw [stripType_feedback]⟩

/-- The parties of a role on a node. -/
def RunsOn (parties : List (ActionParty ζ)) (role : ActionRole) (node : NodeKey)
    (party : ActionParty ζ) : Prop :=
  party ∈ parties ∧ party.role = role ∧ nodeKey party.node = node

/-- What is listed for a node is the type of the feedback messages of an action that the node
runs. -/
theorem getNamesAndTypesByNode_sound (inv : s.Inv fmt live) (drained : order.Perm s.cached)
    (deployed : Deployed live parties) (node : NodeKey) (role : ActionRole) {pair : Topic × String}
    (listed : pair ∈ filterActionNamesAndTypes (s.getNamesAndTypesByNode fmt node
      (match role with
        | .server => .publisher
        | .client => .subscription) order).2) :
    ∃ party, RunsOn parties role node party ∧
      pair = (party.qualifiedActionName, party.action.feedbackTypeInfo.name) := by
  obtain ⟨name, type⟩ := pair
  obtain ⟨typeName, member, rfl⟩ := mem_filterActionNamesAndTypes.mp listed
  obtain ⟨entry, alive, typed⟩ :=
    ((inv.getNamesAndTypesByNode_exactly drained node _).2 _).mp member
  cases shape : entry.2 with
  | node n =>
      rw [shape] at typed
      cases typed
  | endpoint e =>
      rw [shape, typedAtNode, Option.ite_none_right_eq_some] at typed
      obtain ⟨⟨kind, here⟩, typed⟩ := typed
      have either : e.kind = .publisher ∨ e.kind = .subscription := by
        rw [kind]
        cases role
        · exact .inl rfl
        · exact .inr rfl
      obtain ⟨party, runs, rfl, same⟩ := deployed.of_feedback alive shape either typed
      obtain ⟨rfl, rfl⟩ := Prod.mk.inj same
      refine ⟨party, ⟨runs, ?_, here⟩, by rw [stripType_feedback]⟩
      cases side : party.role <;> cases role <;>
        first
        | rfl
        | exact absurd kind (by simp [ActionParty.endpoint, ActionParty.kind, side])

/-- No action is recovered from the types of feedback messages: each name would be that of the
feedback messages of an action with a shorter name. -/
theorem recovers_iff_of_sound {listed : List (Topic × String)} {runs : ActionParty ζ → Prop}
    (sound : ∀ pair ∈ listed, ∃ party, runs party ∧
      pair = (party.qualifiedActionName, party.action.feedbackTypeInfo.name)) :
    Recovers listed runs ↔ ∀ party, ¬ runs party := by
  constructor
  · rintro ⟨-, exact⟩ party
    induction size : party.action.typeName.length using Nat.strong_induction_on
      generalizing party with
    | _ n shorter =>
        subst size
        intro here
        obtain ⟨other, there, same⟩ := sound _ ((exact _).mpr ⟨party, here, rfl⟩)
        have less := length_typeName_lt other.action
        rw [← (Prod.mk.inj same).2] at less
        exact shorter _ less other rfl there
  · intro nobody
    have empty : listed = [] := by
      refine List.eq_nil_iff_forall_not_mem.mpr fun pair member => ?_
      obtain ⟨party, runs, -⟩ := sound pair member
      exact nobody party runs
    subst empty
    refine ⟨List.nodup_nil, fun pair => ⟨fun member => absurd member List.not_mem_nil, ?_⟩⟩
    rintro ⟨party, runs, -⟩
    exact absurd runs (nobody party)

/-- The names of the actions are recovered. -/
theorem names_recovered (inv : s.Inv fmt live) (drained : order.Perm s.cached)
    (deployed : Deployed live parties) (name : Topic) :
    (∃ type, (name, type) ∈ (s.getActionNamesAndTypes fmt order).2) ↔
      ∃ party ∈ parties, party.qualifiedActionName = name := by
  constructor
  · rintro ⟨type, listed⟩
    obtain ⟨party, runs, same⟩ := getActionNamesAndTypes_sound inv drained deployed listed
    exact ⟨party, runs, (Prod.mk.inj same).1.symm⟩
  · rintro ⟨party, runs, rfl⟩
    obtain ⟨entry, alive, shape⟩ := deployed.running party runs .feedback
    have pair : topicAndType entry.2 =
        some (party.topic .feedback, party.action.feedbackTypeInfo.name) := by
      rw [shape]
      cases side : party.role <;>
        simp [topicAndType, ActionParty.endpoint, ActionParty.kind, ActionParty.typeInfo, side]
    obtain ⟨first, listed⟩ := inv.exists_mem_namesAndTypes drained Listing.topics_pairs alive pair
    exact ⟨_, mem_getActionNamesAndTypes.mpr
      (mem_filterActionNamesAndTypes.mpr ⟨first, listed, rfl⟩)⟩

end Deployed

/-- **No action is discovered with its type**: in every run, with any actions on any nodes, names
and types are those of the actions only where there is no action to list. -/
theorem recovers_iff (fmt : Format κ ζ) (c : Config (GraphData κ ζ) (GraphEvent κ ζ))
    (reached : (graph fmt).Reachable (Undisturbed fmt) c) (order : List κ)
    (drained : order.Perm c.state.cached) (parties : List (ActionParty ζ))
    (deployed : Deployed (live fmt c.trace) parties) :
    (Recovers (c.state.getActionNamesAndTypes fmt order).2 (· ∈ parties) ↔
      ∀ party, party ∉ parties) ∧
    ∀ node,
      (Recovers (c.state.getActionClientNamesAndTypesByNode fmt node order).2
          (RunsOn parties .client node) ↔ ∀ party, ¬ RunsOn parties .client node party) ∧
      (Recovers (c.state.getActionServerNamesAndTypesByNode fmt node order).2
          (RunsOn parties .server node) ↔ ∀ party, ¬ RunsOn parties .server node party) := by
  have inv := inv_of_reachable reached
  refine ⟨recovers_iff_of_sound fun pair listed =>
    getActionNamesAndTypes_sound inv drained deployed listed, fun node => ⟨?_, ?_⟩⟩
  · exact recovers_iff_of_sound fun pair listed =>
      getNamesAndTypesByNode_sound inv drained deployed node .client listed
  · exact recovers_iff_of_sound fun pair listed =>
      getNamesAndTypesByNode_sound inv drained deployed node .server listed

/-! ## A server -/

section Server

open RmwZenoh

/-- A server of an action `demo/Fibonacci` on a node `n`. -/
def fibonacciServer : ActionParty SessionId where
  role := .server
  node := ⟨0, ⟨0xd, by decide, by decide⟩, 1, "n", "", ""⟩
  qualifiedActionName := "/fib"
  action := ⟨"demo", "Fibonacci", .zero, .zero, .zero, .zero, .zero⟩
  id
    | .goal => 2
    | .result => 3
    | .cancel => 4
    | .feedback => 5
    | .status => 6
  qos _ := {}

/-- The endpoints of the server, the last one first. -/
def fibonacciEndpoints : List (Entity SessionId) :=
  [.status, .feedback, .cancel, .result, .goal].map fun channel =>
    .endpoint (fibonacciServer.endpoint channel)

/-- The endpoints of the server are those of a graph to which nothing else has been added. -/
theorem deployed_fibonacciServer {live : AList (fun _ : PlainKey => Entity SessionId)}
    (entries : live.entries.map (fun entry => entry.2) = fibonacciEndpoints) :
    Deployed live [fibonacciServer] := by
  constructor
  · intro party runs channel
    obtain rfl := List.mem_singleton.mp runs
    have member : .endpoint (fibonacciServer.endpoint channel) ∈ fibonacciEndpoints := by
      cases channel <;> decide
    rw [← entries] at member
    obtain ⟨entry, alive, same⟩ := List.mem_map.mp member
    exact ⟨entry, alive, same⟩
  · intro entry alive e shape kind topic
    have member := List.mem_map_of_mem (f := fun entry => entry.2) alive
    rw [entries, shape] at member
    obtain ⟨channel, -, same⟩ := List.mem_map.mp member
    cases same
    refine ⟨fibonacciServer, List.mem_singleton.mpr rfl, ?_⟩
    cases channel with
    | feedback => rfl
    | goal | result | cancel => exact absurd kind (by decide)
    | status => exact absurd topic (by decide)

/-- The server is created, and its endpoints are added to the graph. -/
theorem exists_fibonacciServer :
    ∃ c, (graph (rmwZenohFormat true)).Reachable (Undisturbed (rmwZenohFormat true)) c ∧
      Deployed (live (rmwZenohFormat true) c.trace) [fibonacciServer] ∧
      (c.state.getActionNamesAndTypes (rmwZenohFormat true) c.state.cached).2 =
        [("/fib", "demo::action::dds_::Fibonacci_FeedbackMessage_")] := by
  obtain ⟨c, reached, seen⟩ := (graph (rmwZenohFormat true)).exists_of_schedule
    (Undisturbed (rmwZenohFormat true)) (fibonacciEndpoints.reverse.map .addLocalEntity)
    (fun c => ((live (rmwZenohFormat true) c.trace).entries.map fun entry => entry.2,
      (c.state.getActionNamesAndTypes (rmwZenohFormat true) c.state.cached).2))
    (fibonacciEndpoints, [("/fib", "demo::action::dds_::Fibonacci_FeedbackMessage_")])
    (by decide +kernel)
  obtain ⟨entries, listed⟩ := Prod.mk.inj seen
  exact ⟨c, reached, deployed_fibonacciServer entries, listed⟩

theorem recovers_iff_fibonacciServer :
    ∃ c, (graph (rmwZenohFormat true)).Reachable (Undisturbed (rmwZenohFormat true)) c ∧
      ¬ Recovers (c.state.getActionServerNamesAndTypesByNode (rmwZenohFormat true) ("", "n")
        c.state.cached).2 (RunsOn [fibonacciServer] .server ("", "n")) := by
  obtain ⟨c, reached, deployed, -⟩ := exists_fibonacciServer
  refine ⟨c, reached, fun recovered => ?_⟩
  have nobody := ((recovers_iff (rmwZenohFormat true) c reached c.state.cached (.refl _)
    [fibonacciServer] deployed).2 ("", "n")).2.mp recovered
  exact nobody fibonacciServer ⟨List.mem_singleton.mpr rfl, rfl, by decide⟩

/-- The action is listed with the type of its feedback messages. -/
theorem feedbackType_discovered :
    (∃ c, (graph (rmwZenohFormat true)).Reachable Machine.anyStep c ∧
      Deployed (live (rmwZenohFormat true) c.trace) [fibonacciServer] ∧
      (c.state.getActionNamesAndTypes (rmwZenohFormat true) c.state.cached).2 =
        [("/fib", "demo::action::dds_::Fibonacci_FeedbackMessage_")]) ∧
    ¬ ∀ c, (graph (rmwZenohFormat true)).Reachable Machine.anyStep c → ∀ order,
      order.Perm c.state.cached → ∀ parties,
      Deployed (live (rmwZenohFormat true) c.trace) parties →
      Recovers (c.state.getActionNamesAndTypes (rmwZenohFormat true) order).2 (· ∈ parties) := by
  obtain ⟨c, undisturbed, deployed, listed⟩ := exists_fibonacciServer
  have reached := undisturbed.mono fun _ _ _ => trivial
  refine ⟨⟨c, reached, deployed, listed⟩, fun claim => ?_⟩
  have named := ((claim c reached c.state.cached (.refl _) _ deployed).2
    ("/fib", "demo::action::dds_::Fibonacci_")).mpr
    ⟨fibonacciServer, List.mem_singleton.mpr rfl, by decide⟩
  rw [listed] at named
  exact absurd named (by decide)

end Server

end RosZ.Graph
