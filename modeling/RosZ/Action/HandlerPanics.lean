import RosZ.Action.Handlers

/-!
# Panics of the handlers

`Handler.Safe` is what a handler needs so as not to panic, and `handlers_quiet_iff` says that it
needs no less: the payload of the query must be there, the attachment must be there and decode
whenever a reply is sent, and the clocks, the lock and the serializer must do their part.

## Design notes

The conditions on the server are kept by the handlers that meet them: only a panic inside the lock
poisons it (`keepsLock_run`).  So a task that handles queries one after the other lives for as
long as the queries are in order (`task_lives_of_orderly`), and one that is not ends it
(`task_ends`).
-/

namespace RosZ.Action

open Calls

variable {Goal Result : Type} (rt : Runtime Goal Result)

/-! ## When a handler panics -/

/-- The goal manager can be locked, the clocks can be read and the expiry can be computed. -/
def Runtime.Ready (clocks : Clocks) (s : InnerServer Goal Result) : Prop :=
  s.poisoned = false ∧ rt.expires clocks.instant s.goalManager = true ∧ clocks.time.isSome = true

instance (clocks : Clocks) (s : InnerServer Goal Result) : Decidable (rt.Ready clocks s) :=
  inferInstanceAs (Decidable (_ ∧ _ ∧ _))

/-- A result and the reply that carries it can be sent. -/
def Runtime.CanSend (query : Service.Query) (result : Result) (status : GoalStatus) : Prop :=
  (rt.serializeResult { status := status.toI8, result }).isSome = true ∧ rt.Answerable query

instance (query : Service.Query) (result : Result) (status : GoalStatus) :
    Decidable (rt.CanSend query result status) :=
  inferInstanceAs (Decidable (_ ∧ _))

/-- The result that is sent: that of a goal that has ended, or what the channel delivers for any
other goal in the table. -/
def InnerServer.resultFor (delivered : Option (Result × GoalStatus)) (g : GoalId)
    (s : InnerServer Goal Result) : Option (Result × GoalStatus) :=
  match s.goalManager.entry g with
  | some (.terminated result status _ _) => some (result, status)
  | some _ => delivered
  | none => none

/-- What a handler needs of the query and of the server so as not to panic. -/
def Handler.Safe (query : Service.Query) (s : InnerServer Goal Result) :
    Handler Goal Result → Prop
  | .recvGoal time =>
      query.payload.isSome = true ∧
        ∀ _request ∈ query.payload.bind rt.deserializeGoal, time.isSome = true
  | .recvCancel | .recvResultRequest => query.payload.isSome = true
  | .handleGoalRequest time accepted executed =>
      query.payload.isSome = true ∧
        ∀ _request ∈ query.payload.bind rt.deserializeGoal,
          time.isSome = true ∧ rt.Answerable query ∧ rt.Ready accepted s ∧ rt.Ready executed s
  | .handleCancelRequest =>
      query.payload.isSome = true ∧
        ∀ _request ∈ query.payload.bind rt.deserializeCancel,
          s.poisoned = false ∧ rt.Answerable query
  | .handleResultRequest delivered =>
      query.payload.isSome = true ∧
        ∀ request ∈ query.payload.bind rt.deserializeResult,
          s.poisoned = false ∧ ∀ sent ∈ s.resultFor delivered request.goalId,
            rt.CanSend query sent.1 sent.2
  | .handleResultRequestsLegacyInner =>
      query.payload.isSome = true ∧
        ∀ request ∈ query.payload.bind rt.deserializeResult,
          s.poisoned = false ∧ ∀ sent ∈ s.goalManager.terminatedResult request.goalId,
            rt.CanSend query sent.1 sent.2
  | .accept _ _ clocks => rt.Answerable query ∧ rt.Ready clocks s
  | .reject _ _ => rt.Answerable query

section Handlers

variable {rt} {s : InnerServer Goal Result} {query : Service.Query}

/-- The call does not panic. -/
abbrev Quiet {α : Type} (call : Call Goal Result α) : InnerServer Goal Result → Prop :=
  Safely call fun _ _ => True

/-- The critical section of `accept` and of `execute`, and the status message after it. -/
theorem safely_enter {clocks : Clocks} {post : Unit → InnerServer Goal Result → Prop}
    {change : GoalManagerInternal Goal Result → GoalManagerInternal Goal Result}
    (enters : ∀ manager, (change manager).goals.keys ≠ []) :
    Safely (modifyGoals fun manager =>
        if rt.expires clocks.instant manager then some ((), change manager) else none)
      (fun _ => Safely (publishStatus clocks) post) s ↔
      rt.Ready clocks s ∧ post () { s with goalManager := change s.goalManager } := by
  rw [safely_modifyGoals]
  unfold Runtime.Ready
  constructor
  · rintro ⟨intact, ⟨⟩, goalManager, found, safe⟩
    split at found
    · next expires =>
        cases found
        obtain ⟨-, listed, safe⟩ := safely_publishStatus.mp safe
        exact ⟨⟨intact, expires, listed.resolve_left (enters _)⟩, safe⟩
    · cases found
  · rintro ⟨⟨intact, expires, readable⟩, safe⟩
    refine ⟨intact, (), change s.goalManager, if_pos expires, ?_⟩
    exact safely_publishStatus.mpr ⟨intact, .inr readable, safe⟩

theorem keys_accept (manager : GoalManagerInternal Goal Result) (now : ℕ) (g : GoalId)
    (goal : Goal) : (manager.accept now g goal).goals.keys ≠ [] := by
  rw [GoalManagerInternal.accept, AList.keys_insert]
  exact List.cons_ne_nil _ _

theorem keys_execute (manager : GoalManagerInternal Goal Result) (now : ℕ) (g : GoalId)
    (goal : Goal) (flag : FlagId) : (manager.execute now g goal flag).goals.keys ≠ [] := by
  rw [GoalManagerInternal.execute, AList.keys_insert]
  exact List.cons_ne_nil _ _

theorem quiet_execute {handle : AcceptedGoal Goal} {clocks : Clocks} :
    Quiet (handle.execute rt clocks) s ↔ rt.Ready clocks s := by
  unfold AcceptedGoal.execute
  simp only [safely_bind]
  refine (safely_enter fun manager => keys_execute manager _ _ _ _).trans ?_
  exact and_iff_left trivial

theorem safely_accept {goal : Goal} {info : GoalInfo} {clocks : Clocks}
    {post : AcceptedGoal Goal → InnerServer Goal Result → Prop} :
    Safely (RequestedGoal.accept rt { goal, info, query := some query } clocks) post s ↔
      ∃ attachment, query.attachment.bind rt.decodeAttachment = some attachment ∧
        rt.Ready clocks s ∧
        post { goal, info } { s with
          goalManager := s.goalManager.accept clocks.instant info.goalId goal
          replies := s.replies ++ [(query.id,
            ⟨attachment, rt.serializeGoal ⟨true, info.stamp.sec, info.stamp.nanosec⟩⟩)] } := by
  unfold RequestedGoal.accept
  simp only [safely_bind, replyTaken]
  rw [safely_reply]
  refine exists_congr fun attachment => and_congr_right fun _ => ?_
  exact safely_enter fun manager => keys_accept manager _ _ _

theorem quiet_accept {goal : Goal} {info : GoalInfo} {clocks : Clocks} :
    Quiet (RequestedGoal.accept rt { goal, info, query := some query } clocks) s ↔
      rt.Answerable query ∧ rt.Ready clocks s := by
  rw [Runtime.Answerable, Option.isSome_iff_exists, ← exists_and_right]
  refine safely_accept.trans ?_
  exact exists_congr fun attachment => and_congr_right fun _ => and_iff_left trivial

theorem quiet_reply {payload : List UInt8} :
    Quiet (reply rt query payload) s ↔ rt.Answerable query := by
  rw [Runtime.Answerable, Option.isSome_iff_exists]
  refine safely_reply.trans ?_
  exact exists_congr fun attachment => and_iff_left trivial

theorem quiet_replyResult {result : Result} {status : GoalStatus} :
    Quiet (replyResult rt query result status) s ↔ rt.CanSend query result status := by
  unfold replyResult Runtime.CanSend Quiet
  rw [safely_bind, safely_unwrap, Option.isSome_iff_exists, ← exists_and_right]
  exact exists_congr fun responseBytes => and_congr_right fun _ => quiet_reply

/-- Every handler reads the payload of its query first. -/
theorem safely_request {α Request : Type} {deserialize : List UInt8 → Option Request} {stop : Stop}
    {next : Request → Call Goal Result α} {post : α → InnerServer Goal Result → Prop}
    (quiet : stop ≠ .panicked) :
    Safely (do
      let payload ← orStop .panicked query.payload
      let request ← orStop stop (deserialize payload)
      next request) post s ↔
      query.payload.isSome = true ∧
        ∀ request, query.payload.bind deserialize = some request →
          Safely (next request) post s := by
  rw [safely_bind, safely_unwrap]
  cases query.payload with
  | none => simp
  | some payload =>
      simp only [Option.some.injEq, exists_eq_left', safely_bind, Option.isSome_some, true_and,
        Option.bind_some]
      exact safely_orStop quiet

/-! ### The handlers one by one -/

theorem quiet_recvGoal {time : Option Time} :
    Quiet (InnerServer.recvGoal rt time query) s ↔
      query.payload.isSome = true ∧
        ∀ _request ∈ query.payload.bind rt.deserializeGoal, time.isSome = true := by
  unfold InnerServer.recvGoal Quiet newGoalInfo
  rw [safely_request (by decide)]
  refine and_congr_right fun _ => forall₂_congr fun request _ => ?_
  simp only [safely_bind]
  rw [safely_unwrap, Option.isSome_iff_exists]
  exact exists_congr fun stamp => and_iff_left trivial

theorem quiet_recvCancel :
    Quiet (InnerServer.recvCancel rt query) s ↔ query.payload.isSome = true := by
  unfold InnerServer.recvCancel Quiet
  rw [safely_request (by decide)]
  exact and_iff_left fun _ _ => trivial

theorem quiet_recvResultRequest :
    Quiet (InnerServer.recvResultRequest rt query) s ↔ query.payload.isSome = true := by
  unfold InnerServer.recvResultRequest Quiet
  rw [safely_request (by decide)]
  exact and_iff_left fun _ _ => trivial

theorem quiet_handleGoalRequest {time : Option Time} {accepted executed : Clocks} :
    Quiet (InnerServer.handleGoalRequest rt time accepted executed query) s ↔
      query.payload.isSome = true ∧
        ∀ _request ∈ query.payload.bind rt.deserializeGoal,
          time.isSome = true ∧ rt.Answerable query ∧ rt.Ready accepted s ∧
            rt.Ready executed s := by
  unfold InnerServer.handleGoalRequest Quiet newGoalInfo
  rw [safely_request (by decide)]
  refine and_congr_right fun _ => forall₂_congr fun request _ => ?_
  simp only [safely_bind]
  rw [safely_unwrap, Runtime.Answerable, Option.isSome_iff_exists, Option.isSome_iff_exists,
    ← exists_and_right]
  refine exists_congr fun stamp => and_congr_right fun _ => ?_
  refine safely_accept.trans ?_
  rw [← exists_and_right]
  refine exists_congr fun attachment => and_congr_right fun _ => and_congr_right fun _ => ?_
  -- the lock and the timeout are as they were before the goal was accepted
  exact quiet_execute

theorem quiet_handleCancelRequest :
    Quiet (InnerServer.handleCancelRequest rt query) s ↔
      query.payload.isSome = true ∧
        ∀ _request ∈ query.payload.bind rt.deserializeCancel,
          s.poisoned = false ∧ rt.Answerable query := by
  unfold InnerServer.handleCancelRequest Quiet
  rw [safely_request (by decide)]
  refine and_congr_right fun _ => forall₂_congr fun request _ => ?_
  rw [safely_bind, safely_readGoals]
  refine and_congr_right fun _ => ?_
  rw [safely_bind]
  exact quiet_reply

theorem quiet_handleResultRequest {delivered : Option (Result × GoalStatus)} :
    Quiet (InnerServer.handleResultRequest rt delivered query) s ↔
      query.payload.isSome = true ∧
        ∀ request ∈ query.payload.bind rt.deserializeResult,
          s.poisoned = false ∧ ∀ sent ∈ s.resultFor delivered request.goalId,
            rt.CanSend query sent.1 sent.2 := by
  unfold InnerServer.handleResultRequest Quiet
  rw [safely_request (by decide)]
  refine and_congr_right fun _ => forall₂_congr fun request _ => ?_
  rw [safely_bind, safely_modifyGoals_some]
  refine and_congr_right fun _ => ?_
  unfold GoalManagerInternal.handleResult InnerServer.resultFor
  cases s.goalManager.entry request.goalId with
  | none => simp [Safely]
  | some state =>
      cases state with
      | terminated result status _ _ =>
          simp only [Prod.fst_swap, Option.mem_def, Option.some.injEq, forall_eq']
          exact quiet_replyResult
      | _ =>
          simp only [Prod.fst_swap]
          rw [safely_bind, safely_orStop (by decide)]
          exact forall₂_congr fun sent _ => quiet_replyResult

theorem quiet_handleResultRequestsLegacyInner :
    Quiet (InnerServer.handleResultRequestsLegacyInner rt query) s ↔
      query.payload.isSome = true ∧
        ∀ request ∈ query.payload.bind rt.deserializeResult,
          s.poisoned = false ∧
            ∀ sent ∈ s.goalManager.terminatedResult request.goalId,
              rt.CanSend query sent.1 sent.2 := by
  unfold InnerServer.handleResultRequestsLegacyInner Quiet
  rw [safely_request (by decide)]
  refine and_congr_right fun _ => forall₂_congr fun request _ => ?_
  rw [safely_bind, safely_readGoals]
  refine and_congr_right fun _ => ?_
  rw [safely_bind, safely_orStop (by decide)]
  exact forall₂_congr fun sent _ => quiet_replyResult

theorem quiet_forget {α : Type} {call : Call Goal Result α} :
    Quiet (forget call) s ↔ Quiet call s := by
  unfold forget Quiet
  rw [safely_bind]
  exact Iff.rfl

/-- The exact condition, for every handler. -/
theorem quiet_run {handler : Handler Goal Result} :
    Quiet (handler.run rt query) s ↔ handler.Safe rt query s := by
  cases handler with
  | recvGoal time => exact quiet_forget.trans quiet_recvGoal
  | recvCancel => exact quiet_forget.trans quiet_recvCancel
  | recvResultRequest => exact quiet_forget.trans quiet_recvResultRequest
  | handleGoalRequest time accepted executed =>
      exact quiet_forget.trans quiet_handleGoalRequest
  | handleCancelRequest => exact quiet_handleCancelRequest
  | handleResultRequest delivered => exact quiet_handleResultRequest
  | handleResultRequestsLegacyInner => exact quiet_handleResultRequestsLegacyInner
  | accept goal info clocks => exact quiet_forget.trans quiet_accept
  | reject goal info => exact quiet_reply

end Handlers

/-- The handlers of a service and of an action server panic on the queries that lack what is
unwrapped on the way, on a poisoned lock, and where a clock or a serializer fails. -/
theorem handlers_quiet_iff {Request Response : Type} (codec : Service.Codec Request Response)
    (server : Service.ZServer) (handler : Handler Goal Result) (query : Service.Query)
    (s : InnerServer Goal Result) :
    (¬ Service.ZServer.Panics (Service.ZServer.takeRequest codec) server ↔
      ∀ taken ∈ server.queue.data.head?, Service.ZServer.Unwraps codec taken) ∧
    (¬ Service.ZServer.Panics (Service.ZServer.takeRequestAsync codec) server ↔
      ∀ taken ∈ server.queue.data.head?,
        Service.ZServer.UnwrapsAsync codec server.map taken) ∧
    (Quiet (handler.run rt query) s ↔ handler.Safe rt query s) :=
  ⟨Service.ZServer.takeRequest_not_panics_iff, Service.ZServer.takeRequestAsync_not_panics_iff,
    quiet_run⟩

/-- Nothing decodes: the query below carries nothing to decode. -/
def idleRuntime : Runtime Unit Unit where
  decodeAttachment _ := none
  deserializeGoal _ := none
  deserializeCancel _ := none
  deserializeResult _ := none
  serializeGoal _ := []
  serializeCancel _ := []
  serializeResult _ := none
  lastInstant := 0

/-- A server without goals. -/
def idleServer : InnerServer Unit Unit where
  goalManager := .new 10 none
  poisoned := false
  flags _ := false
  nextFlag := 0
  replies := []

/-- A cancel request without a payload, and a goal request without an attachment that is
rejected. -/
theorem bareQuery_panics :
    ¬ Quiet (Handler.run idleRuntime .handleCancelRequest
        { id := 0, attachment := none, payload := none }) idleServer ∧
      ¬ Quiet (Handler.run idleRuntime (.reject () ⟨⟨.replicate 16 0⟩, ⟨0, 0⟩⟩)
        { id := 0, attachment := none, payload := some [] }) idleServer :=
  ⟨fun quiet => quiet rfl, fun quiet => quiet rfl⟩

/-! ## The lock of the goal manager -/

/-- The call leaves the lock as it should be, unless it panics. -/
abbrev KeepsLock {α : Type} (call : Call Goal Result α) : Prop :=
  Keeps (fun s => s.poisoned = false) (· ≠ .panicked) call

section Lock

variable {rt} {α : Type}

theorem keepsLock_orStop {stop : Stop} {value : Option α} :
    KeepsLock (orStop stop value : Call Goal Result α) := by
  cases value with
  | none => exact Keeps.throw stop
  | some found => exact Keeps.pure found

/-- Only a closure that panics poisons the lock. -/
theorem keepsLock_modifyGoals
    {f : GoalManagerInternal Goal Result → Option (α × GoalManagerInternal Goal Result)} :
    KeepsLock (modifyGoals f) := by
  intro s intact
  unfold Ensures modifyGoals
  rw [intact]
  cases f s.goalManager with
  | none => exact fun quiet => absurd rfl quiet
  | some found => exact rfl

theorem keepsLock_reply {query : Service.Query} {payload : List UInt8} :
    KeepsLock (reply rt query payload) :=
  keepsLock_orStop.bind fun _ => keepsLock_orStop.bind fun _ _ intact => intact

theorem keepsLock_replyResult {query : Service.Query} {result : Result} {status : GoalStatus} :
    KeepsLock (replyResult rt query result status) :=
  keepsLock_orStop.bind fun _ => keepsLock_reply

theorem keepsLock_newGoalInfo {g : GoalId} {time : Option Time} :
    KeepsLock (newGoalInfo g time : Call Goal Result GoalInfo) :=
  keepsLock_orStop.bind fun _ => Keeps.pure _

theorem keepsLock_accept {handle : RequestedGoal Goal} {clocks : Clocks} :
    KeepsLock (handle.accept rt clocks) := by
  have replies : KeepsLock (replyTaken rt handle.query
      (rt.serializeGoal ⟨true, handle.info.stamp.sec, handle.info.stamp.nanosec⟩)) := by
    cases handle.query with
    | none => exact Keeps.pure ()
    | some query => exact keepsLock_reply
  refine replies.bind fun _ => keepsLock_modifyGoals.bind fun _ => ?_
  exact keepsLock_modifyGoals.bind fun _ => Keeps.pure _

theorem keepsLock_execute {handle : AcceptedGoal Goal} {clocks : Clocks} :
    KeepsLock (handle.execute rt clocks) := by
  intro s intact
  refine Keeps.bind keepsLock_modifyGoals (fun _ => ?_) _ intact
  exact keepsLock_modifyGoals.bind fun _ => Keeps.pure _

theorem keepsLock_request {Request : Type} {query : Service.Query}
    {deserialize : List UInt8 → Option Request} {stop : Stop}
    {next : Request → Call Goal Result α} (kept : ∀ request, KeepsLock (next request)) :
    KeepsLock (do
      let payload ← orStop .panicked query.payload
      let request ← orStop stop (deserialize payload)
      next request) :=
  keepsLock_orStop.bind fun _ => keepsLock_orStop.bind kept

theorem keepsLock_forget {call : Call Goal Result α} (kept : KeepsLock call) :
    KeepsLock (forget call) :=
  kept.bind fun _ => Keeps.pure ()

theorem keepsLock_handleCancelRequest {query : Service.Query} :
    KeepsLock (InnerServer.handleCancelRequest rt query) := by
  refine keepsLock_request fun request => keepsLock_modifyGoals.bind fun flag => ?_
  refine Keeps.bind (fun s intact => ?_) fun _ => keepsLock_reply
  exact intact

theorem keepsLock_handleResultRequest {delivered : Option (Result × GoalStatus)}
    {query : Service.Query} :
    KeepsLock (InnerServer.handleResultRequest rt delivered query) := by
  refine keepsLock_request fun request => keepsLock_modifyGoals.bind fun resultState => ?_
  cases resultState with
  | terminated result status => exact keepsLock_replyResult
  | waiting => exact keepsLock_orStop.bind fun _ => keepsLock_replyResult
  | notFound => exact Keeps.throw _

end Lock

/-- A handler that does not panic leaves the lock as it should be. -/
theorem keepsLock_run (handler : Handler Goal Result) (query : Service.Query) :
    KeepsLock (handler.run rt query) := by
  cases handler with
  | recvGoal time =>
      refine keepsLock_forget (keepsLock_request fun request => ?_)
      exact keepsLock_newGoalInfo.bind fun _ => Keeps.pure _
  | recvCancel => exact keepsLock_forget (keepsLock_request fun request => Keeps.pure _)
  | recvResultRequest => exact keepsLock_forget (keepsLock_request fun request => Keeps.pure _)
  | handleGoalRequest time accepted executed =>
      refine keepsLock_forget (keepsLock_request fun request => ?_)
      refine keepsLock_newGoalInfo.bind fun info => ?_
      exact keepsLock_accept.bind fun handle => keepsLock_execute
  | handleCancelRequest => exact keepsLock_handleCancelRequest
  | handleResultRequest delivered => exact keepsLock_handleResultRequest
  | handleResultRequestsLegacyInner =>
      refine keepsLock_request fun request => keepsLock_modifyGoals.bind fun resultData => ?_
      exact keepsLock_orStop.bind fun _ => keepsLock_replyResult
  | accept goal info clocks => exact keepsLock_forget keepsLock_accept
  | reject goal info => exact keepsLock_reply

/-! ## The tasks that handle queries

A driver handles cancel and result requests one after the other in its own task, and so does
the default result handler; a panic ends the task, and with it every request that waits.
-/

/-- What happens between two turns of the loop: a query is handled, or other tasks have changed
the server. -/
inductive Turn (Goal Result : Type) where
  | handle (handler : Handler Goal Result) (query : Service.Query)
  | others (after : InnerServer Goal Result)

/-- The handlers that a task runs in its own loop. -/
def Handler.InTask : Handler Goal Result → Prop
  | .handleCancelRequest | .handleResultRequest _ | .handleResultRequestsLegacyInner => True
  | .recvGoal _ | .recvCancel | .recvResultRequest | .handleGoalRequest _ _ _ | .accept _ _ _
  | .reject _ _ => False

/-- One turn; a panic ends the task. -/
def turn (s : InnerServer Goal Result) : Turn Goal Result → Option (InnerServer Goal Result)
  | .others after => some after
  | .handle handler query =>
      match handler.run rt query s with
      | .ok _ after => some after
      | .error stop after => if stop = .panicked then none else some after

/-- The turn does not end the task. -/
def Turn.Safe (s : InnerServer Goal Result) : Turn Goal Result → Prop
  | .others _ => True
  | .handle handler query => handler.Safe rt query s

theorem isSome_turn_iff {s : InnerServer Goal Result} {next : Turn Goal Result} :
    (turn rt s next).isSome = true ↔ next.Safe rt s := by
  cases next with
  | others after => exact iff_of_true rfl trivial
  | handle handler query =>
      show _ ↔ handler.Safe rt query s
      rw [← quiet_run]
      unfold Quiet Safely Ensures turn
      cases ended : handler.run rt query s with
      | ok value after => simp [ended]
      | error stop after => simp [ended]

/-- A task lives as long as every query it takes is safe in the state it is taken in. -/
theorem task_lives_iff (turns : List (Turn Goal Result)) (s : InnerServer Goal Result) :
    (turns.foldlM (turn rt) s).isSome = true ↔
      ∀ before next later, turns = before ++ next :: later → ∀ between,
        before.foldlM (turn rt) s = some between → next.Safe rt between := by
  rw [isSome_foldlM_iff]
  simp only [isSome_turn_iff]

/-- What a task handles is read from the payload. -/
theorem Handler.Safe.carries {handler : Handler Goal Result} {query : Service.Query}
    {s : InnerServer Goal Result} (inTask : handler.InTask) (safe : handler.Safe rt query s) :
    query.payload.isSome = true := by
  cases handler with
  | handleCancelRequest => exact safe.1
  | handleResultRequest delivered => exact safe.1
  | handleResultRequestsLegacyInner => exact safe.1
  | _ => exact inTask.elim

/-- One query without a payload ends it, wherever it stands among the others. -/
theorem task_ends {before later : List (Turn Goal Result)} {handler : Handler Goal Result}
    {query : Service.Query} (s : InnerServer Goal Result) (inTask : handler.InTask)
    (bare : query.payload = none) :
    (before ++ .handle handler query :: later).foldlM (turn rt) s = none := by
  rw [List.foldlM_append]
  cases before.foldlM (turn rt) s with
  | none => rfl
  | some between =>
      have notSafe : ¬ handler.Safe rt query between := by
        intro safe
        have carries := safe.carries rt inTask
        rw [bare] at carries
        cases carries
      have panics : turn rt between (.handle handler query) = none := by
        rw [← Option.not_isSome_iff_eq_none, isSome_turn_iff]
        exact notSafe
      show (Turn.handle handler query :: later).foldlM (turn rt) between = none
      rw [List.foldlM_cons, panics]
      rfl

/-- The turns of a task whose clients send queries that can be read and answered, and whose lock
the other tasks leave as it should be. -/
def Turn.Orderly : Turn Goal Result → Prop
  | .others after => after.poisoned = false
  | .handle handler query =>
      handler.InTask ∧ query.payload.isSome = true ∧ rt.Answerable query

section Orderly

variable {rt} (serializes : ∀ response, (rt.serializeResult response).isSome = true)
include serializes

theorem Turn.Orderly.safe {next : Turn Goal Result} (orderly : next.Orderly rt)
    {s : InnerServer Goal Result} (intact : s.poisoned = false) : next.Safe rt s := by
  cases next with
  | others after => trivial
  | handle handler query =>
      obtain ⟨inTask, carries, answerable⟩ := orderly
      cases handler with
      | handleCancelRequest => exact ⟨carries, fun _ _ => ⟨intact, answerable⟩⟩
      | handleResultRequest delivered =>
          exact ⟨carries, fun _ _ => ⟨intact, fun _ _ => ⟨serializes _, answerable⟩⟩⟩
      | handleResultRequestsLegacyInner =>
          exact ⟨carries, fun _ _ => ⟨intact, fun _ _ => ⟨serializes _, answerable⟩⟩⟩
      | _ => exact inTask.elim

/-- One orderly turn. -/
theorem Turn.Orderly.lives {next : Turn Goal Result} (orderly : next.Orderly rt)
    {s : InnerServer Goal Result} (intact : s.poisoned = false) :
    ∃ after, turn rt s next = some after ∧ after.poisoned = false := by
  obtain ⟨after, lives⟩ := Option.isSome_iff_exists.mp
    ((isSome_turn_iff rt).mpr (orderly.safe serializes intact))
  refine ⟨after, lives, ?_⟩
  cases next with
  | others after' =>
      cases lives
      exact orderly
  | handle handler query =>
      have kept := keepsLock_run rt handler query s intact
      unfold Ensures at kept
      unfold turn at lives
      cases ended : handler.run rt query s with
      | ok value after' =>
          simp only [ended, Option.some.injEq] at kept lives
          exact lives ▸ kept
      | error stop after' =>
          simp only [ended] at kept lives
          split at lives
          · cases lives
          · next quiet =>
              cases lives
              exact kept quiet

/-- An orderly run ends no task. -/
theorem task_lives_of_orderly {turns : List (Turn Goal Result)}
    (orderly : ∀ next ∈ turns, next.Orderly rt) {s : InnerServer Goal Result}
    (intact : s.poisoned = false) :
    ∃ after, turns.foldlM (turn rt) s = some after ∧ after.poisoned = false := by
  induction turns generalizing s with
  | nil => exact ⟨s, rfl, intact⟩
  | cons next rest ih =>
      obtain ⟨between, first, kept⟩ :=
        (orderly next List.mem_cons_self).lives serializes intact
      rw [List.foldlM_cons, first]
      exact ih (fun other member => orderly other (List.mem_cons_of_mem _ member)) kept

end Orderly

end RosZ.Action
