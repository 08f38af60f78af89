import RosZ.Action.GoalManager
import RosZ.Action.Server
import RosZ.Lib.Calls
import RosZ.Service.Server

/-!
# Handlers of remote queries

What an action server does with one query, from the bytes that the client chose: the payload
and the attachment of a query may be missing, and need not decode.

`RosZ.Action.Server` interleaves the same handlers over queries that are in order.  Here a
handler is a call that runs without interruption, and what matters is how it ends: it returns,
it returns an `Err`, it drops the query, or it panics.  `RosZ.Action.HandlerSteps` relates the two.

## Design notes

A handler changes the server and then may still panic, so it is a call in the sense of
`Calls`.  The lock of the goal manager is poisoned by a panic inside `modify` or `read`, and
every later use of it panics.  `rx.await` returns what another task sends, so what the channel
delivers is an argument of the handler.

`Time::now()` panics before 1970, and the sum of an `Instant` and a timeout when the platform
cannot represent it; the readings of the clocks are arguments, one for each call.  What
`publish_status` publishes is the subject of `RosZ.Action.StatusTopic`.
-/

namespace RosZ.Action

open Calls
open Service (Attachment)

variable {Goal Result : Type}

/-! ## The server -/

/-- How a handler ends that returns no value. -/
inductive Stop where
  | panicked
  /-- An `Err` is returned. -/
  | failed
  /-- The handler returns without a reply. -/
  | dropped
deriving DecidableEq, Repr

/-- What the handlers need of the transport, of the action's types and of the platform. -/
structure Runtime (Goal Result : Type) where
  decodeAttachment : List UInt8 → Option Attachment
  deserializeGoal : List UInt8 → Option (SendGoalRequest Goal)
  deserializeCancel : List UInt8 → Option CancelGoalServiceRequest
  deserializeResult : List UInt8 → Option GetResultRequest
  serializeGoal : SendGoalResponse → List UInt8
  serializeCancel : CancelGoalServiceResponse → List UInt8
  /-- `none` for a result that the serializer refuses, which its `unwrap` turns into a panic. -/
  serializeResult : GetResultResponse Result → Option (List UInt8)
  /-- The last `Instant` that can be represented. -/
  lastInstant : ℕ

/-- The readings of the clocks. -/
structure Clocks where
  /-- `Time::now()`, if the system time is not before 1970. -/
  time : Option Time
  /-- `Instant::now()`. -/
  instant : ℕ

/-- The server, with the replies that it has sent. -/
structure InnerServer (Goal Result : Type) where
  goalManager : GoalManagerInternal Goal Result
  /-- A call has panicked while it held the lock of the goal manager. -/
  poisoned : Bool
  /-- The cancel flags, by address. -/
  flags : FlagId → Bool
  nextFlag : FlagId
  replies : List (QueryId × Service.ZServer.Reply)

/-- A goal handle in the state `Requested`. -/
structure RequestedGoal (Goal : Type) where
  goal : Goal
  info : GoalInfo
  query : Option Service.Query

/-- A goal handle in the state `Accepted`. -/
structure AcceptedGoal (Goal : Type) where
  goal : Goal
  info : GoalInfo

/-- A goal handle in the state `Executing`. -/
structure ExecutingGoal (Goal : Type) where
  goal : Goal
  info : GoalInfo
  cancelFlag : FlagId

abbrev Call (Goal Result : Type) : Type → Type := EStateM Stop (InnerServer Goal Result)

/-- The call without its value. -/
def forget {α : Type} (call : Call Goal Result α) : Call Goal Result Unit :=
  call >>= fun _ => pure ()

/-! ## The parts of a handler -/

/-- A missing value stops the call: `unwrap` when it panics. -/
def orStop {α : Type} (stop : Stop) (value : Option α) : Call Goal Result α :=
  match value with
  | some found => pure found
  | none => throw stop

/-- `goal_manager.modify`.  A closure that panics returns `none`, and leaves the lock poisoned. -/
def modifyGoals {α : Type}
    (f : GoalManagerInternal Goal Result → Option (α × GoalManagerInternal Goal Result)) :
    Call Goal Result α := fun s =>
  if s.poisoned then .error .panicked s
  else
    match f s.goalManager with
    | some (value, goalManager) => .ok value { s with goalManager }
    | none => .error .panicked { s with poisoned := true }

/-- `goal_manager.read`. -/
def readGoals {α : Type} (f : GoalManagerInternal Goal Result → α) : Call Goal Result α :=
  modifyGoals fun manager => some (f manager, manager)

/-- `GoalInfo::new` for every goal, under the lock. -/
def publishStatus (clocks : Clocks) : Call Goal Result Unit :=
  modifyGoals fun manager =>
    if manager.goals.keys = [] ∨ clocks.time.isSome then some ((), manager) else none

variable (rt : Runtime Goal Result)

/-- A reply carries the attachment of the query; whether it is sent is ignored. -/
def reply (query : Service.Query) (payload : List UInt8) : Call Goal Result Unit := do
  let attachmentBytes ← orStop .panicked query.attachment
  let attachment ← orStop .panicked (rt.decodeAttachment attachmentBytes)
  modify fun s => { s with replies := s.replies ++ [(query.id, { attachment, payload })] }

/-- The reply to the query that a handle still holds. -/
def replyTaken (query : Option Service.Query) (payload : List UInt8) : Call Goal Result Unit :=
  match query with
  | some query => reply rt query payload
  | none => pure ()

/-- The reply to a result request. -/
def replyResult (query : Service.Query) (result : Result) (status : GoalStatus) :
    Call Goal Result Unit := do
  let responseBytes ← orStop .panicked (rt.serializeResult { status := status.toI8, result })
  reply rt query responseBytes

/-- `goal_timeout.map(|timeout| Instant::now() + timeout)` can be computed. -/
def Runtime.expires (now : ℕ) (manager : GoalManagerInternal Goal Result) : Bool :=
  manager.goalTimeout.all fun timeout => now + timeout ≤ rt.lastInstant

/-! ## Goal handles -/

def RequestedGoal.accept (handle : RequestedGoal Goal) (clocks : Clocks) :
    Call Goal Result (AcceptedGoal Goal) := do
  let response : SendGoalResponse :=
    { accepted := true
      stampSec := handle.info.stamp.sec
      stampNanosec := handle.info.stamp.nanosec }
  replyTaken rt handle.query (rt.serializeGoal response)
  modifyGoals fun manager =>
    if rt.expires clocks.instant manager then
      some ((), manager.accept clocks.instant handle.info.goalId handle.goal)
    else none
  publishStatus clocks
  return { goal := handle.goal, info := handle.info }

def RequestedGoal.reject (handle : RequestedGoal Goal) : Call Goal Result Unit :=
  let response : SendGoalResponse := { accepted := false, stampSec := 0, stampNanosec := 0 }
  replyTaken rt handle.query (rt.serializeGoal response)

def AcceptedGoal.execute (handle : AcceptedGoal Goal) (clocks : Clocks) :
    Call Goal Result (ExecutingGoal Goal) := do
  let s ← get
  let cancelFlag := s.nextFlag
  set { s with flags := Function.update s.flags cancelFlag false, nextFlag := cancelFlag + 1 }
  modifyGoals fun manager =>
    if rt.expires clocks.instant manager then
      some ((), manager.execute clocks.instant handle.info.goalId handle.goal cancelFlag)
    else none
  publishStatus clocks
  return { goal := handle.goal, info := handle.info, cancelFlag }

/-! ## Manual mode -/

/-- `GoalInfo::new`. -/
def newGoalInfo (g : GoalId) (time : Option Time) : Call Goal Result GoalInfo := do
  let stamp ← orStop .panicked time
  return ⟨g, stamp⟩

namespace InnerServer

def recvGoal (time : Option Time) (query : Service.Query) :
    Call Goal Result (RequestedGoal Goal) := do
  let payload ← orStop .panicked query.payload
  let request ← orStop .failed (rt.deserializeGoal payload)
  let info ← newGoalInfo request.goalId time
  return { goal := request.goal, info, query := some query }

def recvCancel (query : Service.Query) :
    Call Goal Result (CancelGoalServiceRequest × Service.Query) := do
  let payload ← orStop .panicked query.payload
  let request ← orStop .failed (rt.deserializeCancel payload)
  return (request, query)

def recvResultRequest (query : Service.Query) : Call Goal Result (GoalId × Service.Query) := do
  let payload ← orStop .panicked query.payload
  let request ← orStop .failed (rt.deserializeResult payload)
  return (request.goalId, query)

/-! ## The driver -/

/-- Accepts the goal and executes it; the user's handler runs on the handle returned. -/
def handleGoalRequest (time : Option Time) (accepted executed : Clocks) (query : Service.Query) :
    Call Goal Result (ExecutingGoal Goal) := do
  let payload ← orStop .panicked query.payload
  let request ← orStop .dropped (rt.deserializeGoal payload)
  let info ← newGoalInfo request.goalId time
  let requested : RequestedGoal Goal := { goal := request.goal, info, query := some query }
  let handle ← requested.accept rt accepted
  handle.execute rt executed

def handleCancelRequest (query : Service.Query) : Call Goal Result Unit := do
  let payload ← orStop .panicked query.payload
  let request ← orStop .dropped (rt.deserializeCancel payload)
  let flag ← readGoals fun manager => manager.cancelFlag request.goalInfo.goalId
  modify fun s =>
    { s with flags := flag.elim s.flags fun flag => Function.update s.flags flag true }
  let response : CancelGoalServiceResponse :=
    { returnCode := if flag.isSome then 1 else 0
      goalsCanceling := if flag.isSome then [request.goalInfo] else [] }
  reply rt query (rt.serializeCancel response)

/-- `delivered` is what `rx.await` returns, `none` when the sender is gone. -/
def handleResultRequest (delivered : Option (Result × GoalStatus)) (query : Service.Query) :
    Call Goal Result Unit := do
  let payload ← orStop .panicked query.payload
  let request ← orStop .dropped (rt.deserializeResult payload)
  let resultState ← modifyGoals fun manager =>
    some (manager.handleResult request.goalId query.id).swap
  match resultState with
  | .terminated result status => replyResult rt query result status
  | .waiting =>
      let (result, status) ← orStop .dropped delivered
      replyResult rt query result status
  | .notFound => throw .dropped

/-! ## The default result handler -/

def handleResultRequestsLegacyInner (query : Service.Query) : Call Goal Result Unit := do
  let payload ← orStop .panicked query.payload
  let request ← orStop .dropped (rt.deserializeResult payload)
  let resultData ← readGoals fun manager => manager.terminatedResult request.goalId
  let (result, status) ← orStop .dropped resultData
  replyResult rt query result status

end InnerServer

/-! ## Every handler -/

/-- The handlers, with what each is given besides the query. -/
inductive Handler (Goal Result : Type) where
  | recvGoal (time : Option Time)
  | recvCancel
  | recvResultRequest
  | handleGoalRequest (time : Option Time) (accepted executed : Clocks)
  | handleCancelRequest
  | handleResultRequest (delivered : Option (Result × GoalStatus))
  | handleResultRequestsLegacyInner
  /-- `accept` on a handle that `recv_goal` returned. -/
  | accept (goal : Goal) (info : GoalInfo) (clocks : Clocks)
  | reject (goal : Goal) (info : GoalInfo)

/-- The call of a handler on a query, without the value that it returns. -/
def Handler.run (handler : Handler Goal Result) (query : Service.Query) :
    Call Goal Result Unit :=
  match handler with
  | .recvGoal time => forget (InnerServer.recvGoal rt time query)
  | .recvCancel => forget (InnerServer.recvCancel rt query)
  | .recvResultRequest => forget (InnerServer.recvResultRequest rt query)
  | .handleGoalRequest time accepted executed =>
      forget (InnerServer.handleGoalRequest rt time accepted executed query)
  | .handleCancelRequest => InnerServer.handleCancelRequest rt query
  | .handleResultRequest delivered => InnerServer.handleResultRequest rt delivered query
  | .handleResultRequestsLegacyInner => InnerServer.handleResultRequestsLegacyInner rt query
  | .accept goal info clocks =>
      forget (RequestedGoal.accept rt { goal, info, query := some query } clocks)
  | .reject goal info => RequestedGoal.reject rt { goal, info, query := some query }

/-! ## When the parts panic -/

/-- The call does not panic, and what it returns meets the postcondition. -/
abbrev Safely {α : Type} (call : Call Goal Result α) (post : α → InnerServer Goal Result → Prop) :
    InnerServer Goal Result → Prop :=
  Ensures call post fun reason _ => reason ≠ .panicked

/-- The attachment of the query is there and decodes. -/
def Runtime.Answerable (query : Service.Query) : Prop :=
  (query.attachment.bind rt.decodeAttachment).isSome = true

instance (query : Service.Query) : Decidable (rt.Answerable query) :=
  inferInstanceAs (Decidable (_ = true))

section Parts

variable {α : Type} {s : InnerServer Goal Result} {post : α → InnerServer Goal Result → Prop}
  {done : Unit → InnerServer Goal Result → Prop}

theorem safely_bind {β : Type} {call : Call Goal Result β} {next : β → Call Goal Result α} :
    Safely (call >>= next) post = Safely call fun value => Safely (next value) post :=
  ensures_bind

theorem safely_unwrap {value : Option α} :
    Safely (orStop .panicked value) post s ↔ ∃ found, value = some found ∧ post found s := by
  cases value with
  | none => exact iff_of_false (fun safe => safe rfl) fun ⟨_, impossible, _⟩ => nomatch impossible
  | some found =>
      refine ⟨fun safe => ⟨found, rfl, safe⟩, ?_⟩
      rintro ⟨found', same, safe⟩
      cases same
      exact safe

theorem safely_orStop {value : Option α} {stop : Stop} (quiet : stop ≠ .panicked) :
    Safely (orStop stop value) post s ↔ ∀ found, value = some found → post found s := by
  cases value with
  | none => exact iff_of_true quiet fun _ impossible => nomatch impossible
  | some found =>
      refine ⟨?_, fun safe => safe found rfl⟩
      rintro safe found' same
      cases same
      exact safe

theorem safely_modifyGoals
    {f : GoalManagerInternal Goal Result → Option (α × GoalManagerInternal Goal Result)} :
    Safely (modifyGoals f) post s ↔
      s.poisoned = false ∧ ∃ value goalManager, f s.goalManager = some (value, goalManager) ∧
        post value { s with goalManager } := by
  unfold Safely Ensures modifyGoals
  cases s.poisoned with
  | true => simp
  | false =>
      cases f s.goalManager with
      | none => simp
      | some found =>
          obtain ⟨value, goalManager⟩ := found
          simp

/-- A closure that does not panic. -/
theorem safely_modifyGoals_some
    {f : GoalManagerInternal Goal Result → α × GoalManagerInternal Goal Result} :
    Safely (modifyGoals fun manager => some (f manager)) post s ↔
      s.poisoned = false ∧
        post (f s.goalManager).1 { s with goalManager := (f s.goalManager).2 } := by
  rw [safely_modifyGoals]
  refine and_congr_right fun _ => ?_
  constructor
  · rintro ⟨value, goalManager, same, safe⟩
    rw [Option.some.inj same]
    exact safe
  · intro safe
    exact ⟨_, _, rfl, safe⟩

theorem safely_readGoals {f : GoalManagerInternal Goal Result → α} :
    Safely (readGoals f) post s ↔ s.poisoned = false ∧ post (f s.goalManager) s :=
  safely_modifyGoals_some

theorem safely_publishStatus {clocks : Clocks} :
    Safely (publishStatus clocks) done s ↔
      s.poisoned = false ∧ (s.goalManager.goals.keys = [] ∨ clocks.time.isSome = true) ∧
        done () s := by
  rw [publishStatus, safely_modifyGoals]
  refine and_congr_right fun intact => ?_
  constructor
  · rintro ⟨⟨⟩, goalManager, found, safe⟩
    split at found
    · next listed =>
        cases found
        exact ⟨listed, safe⟩
    · cases found
  · rintro ⟨listed, safe⟩
    exact ⟨(), s.goalManager, if_pos listed, safe⟩

variable {rt}

theorem safely_reply {query : Service.Query} {payload : List UInt8} :
    Safely (reply rt query payload) done s ↔
      ∃ attachment, query.attachment.bind rt.decodeAttachment = some attachment ∧
        done () { s with replies := s.replies ++ [(query.id, { attachment, payload })] } := by
  unfold reply
  rw [safely_bind, safely_unwrap]
  constructor
  · rintro ⟨bytes, carried, safe⟩
    rw [safely_bind, safely_unwrap] at safe
    obtain ⟨attachment, decoded, safe⟩ := safe
    exact ⟨attachment, by rw [carried]; exact decoded, safe⟩
  · rintro ⟨attachment, decoded, safe⟩
    obtain ⟨bytes, carried, decoded⟩ := Option.bind_eq_some_iff.mp decoded
    refine ⟨bytes, carried, ?_⟩
    rw [safely_bind, safely_unwrap]
    exact ⟨attachment, decoded, safe⟩

end Parts

end RosZ.Action
