import RosZ.Action.CancelPolicy
import RosZ.Action.Handlers

/-!
# Handlers as steps of the server

On a query that is in order, a handler that runs without interruption does what the steps of
the server do when nobody else moves in between: it leaves the same goal manager and the same
cancel flags, and sends the response that the steps record.

## Design notes

`Mirrors` relates the two states.  `Reads` is a query in order: its payload decodes to the
request and its attachment to the one that goes back.
-/

namespace RosZ.Action

open Calls
open Service (Attachment)

variable {Goal Result : Type}

/-- The server of the handlers has the tables of the machine's. -/
structure Mirrors (s : InnerServer Goal Result) (t : ServerState Goal Result) : Prop where
  manager : s.goalManager = t.manager
  flags : s.flags = t.flags
  nextFlag : s.nextFlag = t.nextFlag

/-- A query in order. -/
structure Reads {Request : Type} (rt : Runtime Goal Result)
    (deserialize : List UInt8 → Option Request) (query : Service.Query) (request : Request)
    (attachment : Attachment) : Prop where
  payload : query.payload.bind deserialize = some request
  attachment : query.attachment.bind rt.decodeAttachment = some attachment

section Parts

variable {rt : Runtime Goal Result} {s : InnerServer Goal Result} {query : Service.Query}
  {attachment : Attachment}

/-- The handler gets to its request. -/
theorem Reads.request {α Request : Type} {deserialize : List UInt8 → Option Request}
    {request : Request} (reads : Reads rt deserialize query request attachment) {stop : Stop}
    (next : Request → Call Goal Result α) :
    (do
      let payload ← orStop .panicked query.payload
      let request ← orStop stop (deserialize payload)
      next request) = next request := by
  obtain ⟨payload, carried, decoded⟩ := Option.bind_eq_some_iff.mp reads.payload
  rw [carried]
  show (orStop stop (deserialize payload) >>= next) = _
  rw [decoded]
  rfl

/-- The reply is sent with the attachment of the query. -/
theorem reply_of_decoded (decoded : query.attachment.bind rt.decodeAttachment = some attachment)
    (payload : List UInt8) :
    reply rt query payload s =
      .ok () { s with replies := s.replies ++ [(query.id, { attachment, payload })] } := by
  obtain ⟨bytes, carried, decoded⟩ := Option.bind_eq_some_iff.mp decoded
  unfold reply
  rw [carried]
  show (orStop .panicked (rt.decodeAttachment bytes) >>= _) s = _
  rw [decoded]
  rfl

theorem modifyGoals_of_intact {α : Type} {value : α}
    {f : GoalManagerInternal Goal Result → Option (α × GoalManagerInternal Goal Result)}
    {goalManager : GoalManagerInternal Goal Result} (intact : s.poisoned = false)
    (found : f s.goalManager = some (value, goalManager)) :
    modifyGoals f s = .ok value { s with goalManager } := by
  unfold modifyGoals
  rw [intact, found]
  rfl

theorem readGoals_of_intact {α : Type} (intact : s.poisoned = false)
    (f : GoalManagerInternal Goal Result → α) : readGoals f s = .ok (f s.goalManager) s :=
  modifyGoals_of_intact intact rfl

theorem publishStatus_of_intact {clocks : Clocks} (intact : s.poisoned = false)
    (readable : clocks.time.isSome = true) : publishStatus clocks s = .ok () s :=
  modifyGoals_of_intact intact (if_pos (.inr readable))

/-- The driver finds what the default handler does, when the goal has ended. -/
theorem GoalManagerInternal.handleResult_of_terminatedResult
    {manager : GoalManagerInternal Goal Result} {g : GoalId} {result : Result}
    {status : GoalStatus} (tx : QueryId)
    (ended : manager.terminatedResult g = some (result, status)) :
    manager.handleResult g tx = (manager, .terminated result status) := by
  unfold GoalManagerInternal.terminatedResult at ended
  unfold GoalManagerInternal.handleResult
  split at ended
  · next entered =>
      cases ended
      rw [entered]
  · cases ended

end Parts

variable {rt : Runtime Goal Result} {s : InnerServer Goal Result} {t : ServerState Goal Result}
  {query : Service.Query} {attachment : Attachment}

/-- A cancel request marks the goal and is answered as by `ServerState.handleCancelRequest`, and so
as by `processCancel` and `replyCancel`. -/
theorem Mirrors.handleCancelRequest (mirrors : Mirrors s t) (intact : s.poisoned = false)
    {request : CancelGoalServiceRequest}
    (reads : Reads rt rt.deserializeCancel query request attachment) :
    ∃ s', InnerServer.handleCancelRequest rt query s = .ok () s' ∧
      Mirrors s' (t.handleCancelRequest request).1 ∧
      s'.replies = s.replies ++ [(query.id,
        ⟨attachment, rt.serializeCancel (t.handleCancelRequest request).2⟩)] := by
  unfold InnerServer.handleCancelRequest
  rw [reads.request]
  refine ⟨_, (bind_of_ok (readGoals_of_intact intact _)).trans
    (reply_of_decoded reads.attachment _), ⟨mirrors.manager, ?_, mirrors.nextFlag⟩, ?_⟩
  · show (s.goalManager.cancelFlag _).elim s.flags _ = (t.markCanceling _).1.flags
    rw [mirrors.manager, mirrors.flags]
    unfold ServerState.markCanceling
    cases t.manager.cancelFlag request.goalInfo.goalId with
    | none => rfl
    | some flag => rfl
  · show s.replies ++ _ = s.replies ++ _
    rw [mirrors.manager]
    rfl

/-- The result of a goal that has ended is sent as by `lookupResult` and `replyResult`, by either
of the two handlers. -/
theorem Mirrors.handleResultRequest (mirrors : Mirrors s t) (intact : s.poisoned = false)
    {request : GetResultRequest} (reads : Reads rt rt.deserializeResult query request attachment)
    {result : Result} {status : GoalStatus}
    (ended : s.goalManager.terminatedResult request.goalId = some (result, status))
    {payload : List UInt8}
    (serialized : rt.serializeResult { status := status.toI8, result } = some payload)
    {w : WorkerId} {mode : Mode}
    (taken : t.workers w = some ⟨mode, .result query.id request.goalId⟩)
    (delivered : Option (Result × GoalStatus)) :
    ∃ s' t₁ t₂,
      InnerServer.handleResultRequest rt delivered query s = .ok () s' ∧
      InnerServer.handleResultRequestsLegacyInner rt query s = .ok () s' ∧
      t.lookupResult w = some (t₁, []) ∧
      t₁.replyResult w = some (t₂, [.resultReply query.id request.goalId
        { status := status.toI8, result }]) ∧
      Mirrors s' t₂ ∧ s'.replies = s.replies ++ [(query.id, ⟨attachment, payload⟩)] := by
  have sent : replyResult rt query result status s =
      .ok () { s with replies := s.replies ++ [(query.id, ⟨attachment, payload⟩)] } := by
    unfold replyResult
    rw [serialized]
    exact reply_of_decoded reads.attachment payload
  have handled := GoalManagerInternal.handleResult_of_terminatedResult query.id ended
  refine ⟨{ s with replies := s.replies ++ [(query.id, ⟨attachment, payload⟩)] },
    (t.setActivity w mode (.resultReply query.id request.goalId result status)),
    (t.setActivity w mode (.resultReply query.id request.goalId result status)).setActivity w
      mode .idle, ?_, ?_, ?_, ?_, ⟨mirrors.manager, mirrors.flags, mirrors.nextFlag⟩, rfl⟩
  · unfold InnerServer.handleResultRequest
    rw [reads.request]
    have found : modifyGoals (fun manager =>
        some (manager.handleResult request.goalId query.id).swap) s =
        .ok (.terminated result status) s :=
      modifyGoals_of_intact intact (by rw [handled]; rfl)
    exact (bind_of_ok found).trans sent
  · unfold InnerServer.handleResultRequestsLegacyInner
    rw [reads.request]
    refine (bind_of_ok (readGoals_of_intact intact _)).trans ?_
    rw [ended]
    exact sent
  · rw [mirrors.manager] at ended handled
    unfold ServerState.lookupResult
    cases mode with
    | legacy => simp [taken, ended]
    | driver => simp [taken, handled]
  · unfold ServerState.replyResult
    simp [ServerState.setActivity]

/-- A goal is accepted as by `acceptReply` and `acceptInsert`. -/
theorem Mirrors.accept (mirrors : Mirrors s t) (intact : s.poisoned = false) {goal : Goal}
    {info : GoalInfo} {clocks : Clocks} (now : clocks.instant = t.clock)
    (readable : clocks.time.isSome = true)
    (expires : rt.expires clocks.instant s.goalManager = true)
    (decoded : query.attachment.bind rt.decodeAttachment = some attachment) {h : HandleId}
    (held : t.handles h = some ⟨goal, info, .requested query.id⟩) :
    ∃ s' t₁ t₂,
      RequestedGoal.accept rt { goal, info, query := some query } clocks s =
        .ok { goal, info } s' ∧
      t.acceptReply h = some (t₁, [.goalReply query.id info.goalId
        ⟨true, info.stamp.sec, info.stamp.nanosec⟩]) ∧
      t₁.acceptInsert h = some (t₂, [.accepted h info.goalId]) ∧
      Mirrors s' t₂ ∧
      s'.replies = s.replies ++ [(query.id,
        ⟨attachment, rt.serializeGoal ⟨true, info.stamp.sec, info.stamp.nanosec⟩⟩)] := by
  refine ⟨{ s with
      goalManager := s.goalManager.accept clocks.instant info.goalId goal
      replies := s.replies ++ [(query.id,
        ⟨attachment, rt.serializeGoal ⟨true, info.stamp.sec, info.stamp.nanosec⟩⟩)] },
    t.setStage h ⟨goal, info, .requested query.id⟩ .replied,
    { (t.setStage h ⟨goal, info, .requested query.id⟩ .replied).setStage h
        ⟨goal, info, .replied⟩ .accepted with
      manager := t.manager.accept t.clock info.goalId goal },
    ?_, ?_, ?_, ⟨?_, mirrors.flags, mirrors.nextFlag⟩, rfl⟩
  · unfold RequestedGoal.accept
    refine (bind_of_ok (reply_of_decoded decoded _)).trans ?_
    have entered (replies : List (QueryId × Service.ZServer.Reply)) :
        modifyGoals (fun manager =>
          if rt.expires clocks.instant manager then
            some ((), manager.accept clocks.instant info.goalId goal)
          else none) { s with replies } =
          .ok () { s with
            goalManager := s.goalManager.accept clocks.instant info.goalId goal
            replies } :=
      modifyGoals_of_intact intact (if_pos expires)
    refine (bind_of_ok (entered _)).trans ?_
    exact bind_of_ok (publishStatus_of_intact intact readable)
  · unfold ServerState.acceptReply
    simp only [held]
  · unfold ServerState.acceptInsert
    simp [ServerState.setStage, ServerState.setHandle]
  · show s.goalManager.accept clocks.instant info.goalId goal = _
    rw [mirrors.manager, now]

end RosZ.Action
