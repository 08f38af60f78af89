import RosZ.Action.Server

/-!
# The policy of cancel requests

`CancelGoal.srv` says which goals a cancel request selects and what its return code means.
`FollowsPolicy` is that text as a relation between the goal table, the request, the cancel
flags afterwards and the response; `handleCancelRequest` is what the driver computes.

The driver looks up the goal with the requested id and nothing else, so a request with the
zero id, which is how `cancel_all_goals` asks for all goals, reaches no goal unless one has
that id.  Its return codes are those of the policy exchanged: 1 for a request that was
accepted, 0 for one that was not, whatever the reason.

The table does not store when the server accepted a goal, so acceptance times are a
parameter of the policy.
-/

namespace RosZ.Action

variable {Goal Result : Type}

/-! ## What the driver computes -/

/-- `handle_cancel_request`: the critical section, and the response. -/
def ServerState.handleCancelRequest (s : ServerState Goal Result)
    (request : CancelGoalServiceRequest) :
    ServerState Goal Result × CancelGoalServiceResponse :=
  let (marked, cancelled) := s.markCanceling request.goalInfo.goalId
  (marked,
    { returnCode := if cancelled then 1 else 0
      goalsCanceling := if cancelled then [request.goalInfo] else [] })

/-- The two steps in which a driver handles a request amount to `handleCancelRequest`, when
nobody else moves in between. -/
theorem ServerState.replyCancel_of_processCancel {s s₁ s₂ : ServerState Goal Result}
    {w : WorkerId} {mode : Mode} {query : QueryId} {info : GoalInfo}
    {first second : List (Event Result)}
    (taken : s.workers w = some ⟨mode, .cancel query info⟩)
    (processed : s.processCancel w = some (s₁, first))
    (replied : s₁.replyCancel w = some (s₂, second)) :
    s₂.manager = (s.handleCancelRequest ⟨info⟩).1.manager ∧
      s₂.flags = (s.handleCancelRequest ⟨info⟩).1.flags ∧
      second = [.cancelReply query (s.handleCancelRequest ⟨info⟩).2] := by
  simp only [ServerState.processCancel, taken, Option.some.injEq, Prod.mk.injEq] at processed
  obtain ⟨rfl, -⟩ := processed
  have waiting : ((s.markCanceling info.goalId).1.setActivity w mode
      (.cancelReply query info (s.markCanceling info.goalId).2)).workers w =
      some ⟨mode, .cancelReply query info (s.markCanceling info.goalId).2⟩ :=
    Function.update_self ..
  simp only [ServerState.replyCancel, waiting, Option.some.injEq, Prod.mk.injEq] at replied
  obtain ⟨rfl, rfl⟩ := replied
  exact ⟨rfl, rfl, rfl⟩

/-! ## The policy -/

/-- The id that names no goal. -/
def GoalId.zero : GoalId := ⟨Vector.replicate 16 0⟩

def Time.zero : Time := ⟨0, 0⟩

/-- Not later. -/
def Time.NotAfter (t u : Time) : Prop := t.sec < u.sec ∨ t.sec = u.sec ∧ t.nanosec ≤ u.nanosec

/-- The goals that a request selects: its goal, if it names one, and those accepted at or before
its stamp, if it has one; all goals if it has neither. -/
def GoalInfo.Selects (request : GoalInfo) (acceptedAt : GoalId → Time) (g : GoalId) : Prop :=
  if request.goalId = .zero then
    if request.stamp = .zero then True else (acceptedAt g).NotAfter request.stamp
  else if request.stamp = .zero then g = request.goalId
  else g = request.goalId ∨ (acceptedAt g).NotAfter request.stamp

namespace ServerState

/-- The goal is in the table and has not ended. -/
def IsActive (s : ServerState Goal Result) (g : GoalId) : Prop :=
  ∃ state, s.manager.entry g = some state ∧ state.isTerminated = false

/-- The goal runs, and its flag is up. -/
def CancelRequested (s : ServerState Goal Result) (g : GoalId) : Prop :=
  ∃ flag, s.manager.cancelFlag g = some flag ∧ s.flags flag = true

/-- The return code of a request that nothing came of. -/
def refusalCode (s : ServerState Goal Result) (request : GoalInfo) : Int8 :=
  if request.goalId = .zero then 1
  else
    match s.manager.entry request.goalId with
    | none => 2
    | some (.terminated ..) => 3
    | some _ => 1

end ServerState

/-- The policy of `CancelGoal.srv`, for a request that takes the server from `s` to `s'`. -/
structure FollowsPolicy (acceptedAt : GoalId → Time) (s : ServerState Goal Result)
    (request : GoalInfo) (s' : ServerState Goal Result)
    (response : CancelGoalServiceResponse) : Prop where
  /-- The selected goals that are active join those marked before. -/
  marks : ∀ g, s'.CancelRequested g ↔
    s.CancelRequested g ∨ (s.IsActive g ∧ request.Selects acceptedAt g)
  lists : ∀ g, g ∈ response.goalsCanceling.map GoalInfo.goalId ↔
    s.IsActive g ∧ request.Selects acceptedAt g
  accepted : response.returnCode = 0 ↔ response.goalsCanceling ≠ []
  refused : response.goalsCanceling = [] → response.returnCode = s.refusalCode request

/-! ## The driver and the policy -/

section Driver

variable (s : ServerState Goal Result) (request : CancelGoalServiceRequest)

theorem returnCode_handleCancelRequest :
    (s.handleCancelRequest request).2.returnCode = 0 ↔
      (s.handleCancelRequest request).2.goalsCanceling = [] := by
  cases cancelled : (s.markCanceling request.goalInfo.goalId).2 with
  | false => simp [ServerState.handleCancelRequest, cancelled]
  | true => simp [ServerState.handleCancelRequest, cancelled]

/-- The goals listed: the requested one, if it runs. -/
theorem mem_goalsCanceling_handleCancelRequest (g : GoalId) :
    g ∈ (s.handleCancelRequest request).2.goalsCanceling.map GoalInfo.goalId ↔
      g = request.goalInfo.goalId ∧ (s.manager.cancelFlag g).isSome = true := by
  cases target : s.manager.cancelFlag request.goalInfo.goalId with
  | none =>
      simp only [ServerState.handleCancelRequest, ServerState.markCanceling, target]
      constructor
      · intro listed
        cases listed
      · rintro ⟨rfl, runs⟩
        rw [target] at runs
        cases runs
  | some flag =>
      simp only [ServerState.handleCancelRequest, ServerState.markCanceling, target]
      constructor
      · intro listed
        obtain rfl := List.mem_singleton.mp listed
        exact ⟨rfl, by rw [target]; rfl⟩
      · rintro ⟨rfl, -⟩
        exact List.mem_singleton.mpr rfl

/-- The goals marked: the requested one, if it runs, and those marked before. -/
theorem cancelRequested_handleCancelRequest
    (distinct : ∀ g g' flag, s.manager.cancelFlag g = some flag →
      s.manager.cancelFlag g' = some flag → g = g') (g : GoalId) :
    (s.handleCancelRequest request).1.CancelRequested g ↔ s.CancelRequested g ∨
      (g = request.goalInfo.goalId ∧ (s.manager.cancelFlag g).isSome = true) := by
  unfold ServerState.CancelRequested
  simp only [ServerState.handleCancelRequest, ServerState.markCanceling]
  cases target : s.manager.cancelFlag request.goalInfo.goalId with
  | none =>
      refine (or_iff_left ?_).symm
      rintro ⟨rfl, runs⟩
      rw [target] at runs
      cases runs
  | some flag =>
      show (∃ flag', _ ∧ Function.update s.flags flag true flag' = true) ↔ _
      constructor
      · rintro ⟨flag', found, raised⟩
        by_cases same : flag' = flag
        · subst same
          exact .inr ⟨distinct g _ flag' found target, by rw [found]; rfl⟩
        · rw [Function.update_of_ne same] at raised
          exact .inl ⟨flag', found, raised⟩
      · rintro (⟨flag', found, raised⟩ | ⟨rfl, -⟩)
        · refine ⟨flag', found, ?_⟩
          by_cases same : flag' = flag
          · rw [same, Function.update_self]
          · rwa [Function.update_of_ne same]
        · exact ⟨flag, target, Function.update_self ..⟩

/-- The driver marks and lists the goals that the policy selects exactly when the requested one,
if it runs, is the only active goal among them. -/
theorem selection_handleCancelRequest (acceptedAt : GoalId → Time)
    (distinct : ∀ g g' flag, s.manager.cancelFlag g = some flag →
      s.manager.cancelFlag g' = some flag → g = g') :
    (∀ g, ((s.handleCancelRequest request).1.CancelRequested g ↔
        s.CancelRequested g ∨ (s.IsActive g ∧ request.goalInfo.Selects acceptedAt g)) ∧
      (g ∈ (s.handleCancelRequest request).2.goalsCanceling.map GoalInfo.goalId ↔
        s.IsActive g ∧ request.goalInfo.Selects acceptedAt g)) ↔
    ∀ g, s.IsActive g ∧ request.goalInfo.Selects acceptedAt g ↔
      g = request.goalInfo.goalId ∧ (s.manager.cancelFlag g).isSome = true := by
  refine forall_congr' fun g => ?_
  rw [cancelRequested_handleCancelRequest s request distinct g,
    mem_goalsCanceling_handleCancelRequest s request g]
  constructor
  · rintro ⟨-, lists⟩
    exact lists.symm
  · intro only
    exact ⟨by rw [only], only.symm⟩

/-- `cancel_all_goals` has no effect on a server where no goal has the zero id. -/
theorem handleCancelRequest_all (unused : s.manager.entry .zero = none) :
    s.handleCancelRequest ⟨⟨.zero, .zero⟩⟩ = (s, ⟨0, []⟩) := by
  have missing : s.manager.cancelFlag .zero = none := by
    rw [GoalManagerInternal.cancelFlag, unused]
  simp only [ServerState.handleCancelRequest, ServerState.markCanceling, missing]
  rfl

/-- **No answer of the driver follows the policy**: the return code says of every request the
opposite of what the list says. -/
theorem handleCancelRequest_not_followsPolicy (acceptedAt : GoalId → Time) :
    ¬ FollowsPolicy acceptedAt s request.goalInfo (s.handleCancelRequest request).1
      (s.handleCancelRequest request).2 := by
  intro follows
  by_cases empty : (s.handleCancelRequest request).2.goalsCanceling = []
  · exact follows.accepted.mp ((returnCode_handleCancelRequest s request).mpr empty) empty
  · exact empty ((returnCode_handleCancelRequest s request).mp (follows.accepted.mpr empty))

end Driver

/-- A server with one goal, which runs and has flag 0. -/
def runningServer : ServerState Unit Unit :=
  let built : ServerState Unit Unit := .build ⟨1, 1, 1, 0, none⟩
  { built with manager := built.manager.execute 0 ⟨Vector.replicate 16 7⟩ () 0 }

/-- A cancel request that names the running goal marks it, lists it, and is answered with the code
of a request that was rejected. -/
theorem cancel_of_running_goal_not_followsPolicy :
    ¬ ∀ (acceptedAt : GoalId → Time) (request : CancelGoalServiceRequest),
      FollowsPolicy acceptedAt runningServer request.goalInfo
        (runningServer.handleCancelRequest request).1
        (runningServer.handleCancelRequest request).2 := by
  intro always
  let request : CancelGoalServiceRequest := ⟨⟨⟨Vector.replicate 16 7⟩, .zero⟩⟩
  have answer : (runningServer.handleCancelRequest request).2 = ⟨1, [request.goalInfo]⟩ := by
    decide
  have follows := (always (fun _ => .zero) request).accepted
  rw [answer] at follows
  exact absurd (follows.mpr (List.cons_ne_nil _ _)) (by decide)

/-- The same server is asked to cancel all goals: nothing is marked. -/
example : runningServer.handleCancelRequest ⟨⟨.zero, .zero⟩⟩ = (runningServer, ⟨0, []⟩) :=
  handleCancelRequest_all runningServer (by decide)

end RosZ.Action
