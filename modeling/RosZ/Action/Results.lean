import RosZ.Action.Invariants

/-!
# Result requests

A result reaches a client in one of two ways: the handler finds the goal terminated
and replies from the table, or the driver registers the query as a waiter, and the
call that ends the goal sends the result through the query's channel.

`QueryInvariant` says that each query is taken and answered at most once and in the
name of one goal; `ResultInvariant` that every result on its way, in the table, with a
handle that is notifying, in a channel or with a worker that is about to reply, was
passed to one call of `terminate` on a handle of that goal.  `result_integrity`
combines them.

What becomes of a request that is not answered is the subject of
`RosZ.Action.Delivery`.
-/

namespace RosZ.Action

open Transition
open scoped List

variable {Goal Result : Type}

/-! ## Queries -/

/-- The result query that a worker holds, and the goal it asks for. -/
def Activity.resultQuery : Activity Result → Option (QueryId × GoalId)
  | .result query g => some (query, g)
  | .resultWait query g => some (query, g)
  | .resultReply query g _ _ => some (query, g)
  | _ => none

/-- The event is a reply to the result query. -/
def Event.answers (query : QueryId) : Event Result → Bool
  | .resultReply query' _ _ => query' = query
  | _ => false

section Steps

variable {s s' : ServerState Goal Result} {label : Label Goal Result}
  {observed : List (Event Result)}

theorem Step.nextQuery_le (step : Step s label observed s') : s.nextQuery ≤ s'.nextQuery := by
  cases step with
  | arrive => exact Nat.le_succ _
  | _ => exact le_rfl

theorem Step.nextWorker_le (step : Step s label observed s') : s.nextWorker ≤ s'.nextWorker := by
  cases step with
  | withHandler => exact Nat.le_succ _
  | _ => exact le_rfl

/-- What a step can do to the queue of result requests. -/
inductive QueueChange (s s' : ServerState Goal Result) : Prop
  | kept (same : s'.resultQueue.data = s.resultQueue.data)
  | pushed {left : List (Query GetResultRequest)} {request : Option GetResultRequest}
      (suffix : left <:+ s.resultQueue.data) (number : s'.nextQuery = s.nextQuery + 1)
      (after : s'.resultQueue.data = left ++ [⟨s.nextQuery, request⟩])
  | popped {query : Query GetResultRequest}
      (before : s.resultQueue.data = query :: s'.resultQueue.data)

theorem Step.queueChange (step : Step s label observed s') : QueueChange s s' := by
  cases step with
  | arrive query =>
      cases query with
      | goal | cancel => exact .kept rfl
      | result request =>
          obtain ⟨left, suffix, after⟩ := s.resultQueue.data_push ⟨s.nextQuery, request⟩
          exact .pushed suffix rfl after
  | dropResult queued => exact .popped (BoundedQueue.tryRecv_eq_some queued)
  | takeResult _ queued => exact .popped (BoundedQueue.tryRecv_eq_some queued)
  | _ => exact .kept rfl

/-- A result request that is observed to be taken was first in the queue. -/
theorem Step.of_resultTaken {w : WorkerId} {mode : Mode} {query : QueryId} {g : GoalId}
    {known : Bool} (step : Step s label observed s')
    (seen : .resultTaken w mode query g known ∈ observed) :
    observed = [.resultTaken w mode query g known] ∧
      s.resultQueue.data = ⟨query, some ⟨g⟩⟩ :: s'.resultQueue.data ∧
      known = (s.manager.entry g).isSome ∧ s'.manager = s.manager ∧
      s'.workers w = some ⟨mode, .result query g⟩ := by
  cases step with
  | takeResult idle queued =>
      simp only [List.mem_singleton, Event.resultTaken.injEq] at seen
      obtain ⟨rfl, rfl, rfl, rfl, rfl⟩ := seen
      exact ⟨rfl, BoundedQueue.tryRecv_eq_some queued, rfl, rfl, Function.update_self ..⟩
  | expireGoals => simp at seen
  | _ => simp at seen

/-- A reply that is observed is that of a worker that had the result in hand. -/
theorem Step.of_resultReply {query : QueryId} {g : GoalId} {response : GetResultResponse Result}
    (step : Step s label observed s') (seen : .resultReply query g response ∈ observed) :
    observed = [.resultReply query g response] ∧ ∃ w mode result status,
      s.workers w = some ⟨mode, .resultReply query g result status⟩ ∧
      response = ⟨status.toI8, result⟩ ∧ s'.workers w = some ⟨mode, .idle⟩ := by
  cases step with
  | @replyResult w mode query' g' result status ready =>
      simp only [List.mem_singleton, Event.resultReply.injEq] at seen
      obtain ⟨rfl, rfl, rfl⟩ := seen
      exact ⟨rfl, w, mode, result, status, ready, rfl, Function.update_self ..⟩
  | expireGoals => simp at seen
  | _ => simp at seen

end Steps

/-- How queries, workers and the trace belong together. -/
structure QueryInvariant (s : ServerState Goal Result) (trace : List (Event Result)) : Prop where
  workersFresh : ∀ w, s.nextWorker ≤ w → s.workers w = none
  /-- A query in the queue has not been taken yet. -/
  queued : ∀ query ∈ s.resultQueue.data, query.id < s.nextQuery ∧
    ∀ w mode g known, .resultTaken w mode query.id g known ∉ trace
  distinct : (s.resultQueue.data.map Query.id).Nodup
  numbered : ∀ w mode query g known, .resultTaken w mode query g known ∈ trace →
    query < s.nextQuery
  /-- A query is taken once. -/
  takenOnce : ∀ w mode query g known w' mode' g' known',
    .resultTaken w mode query g known ∈ trace → .resultTaken w' mode' query g' known' ∈ trace →
      w = w' ∧ mode = mode' ∧ g = g'
  /-- A worker holds queries that it has taken. -/
  holds : ∀ w mode activity query g, s.workers w = some ⟨mode, activity⟩ →
    activity.resultQuery = some (query, g) → ∃ known, .resultTaken w mode query g known ∈ trace
  /-- A query that is held has not been answered. -/
  unanswered : ∀ w mode activity query g, s.workers w = some ⟨mode, activity⟩ →
    activity.resultQuery = some (query, g) → ∀ event ∈ trace, event.answers query = false
  replied : ∀ query g response, .resultReply query g response ∈ trace →
    ∃ w mode known, .resultTaken w mode query g known ∈ trace

section Queries

variable {s s' : ServerState Goal Result} {label : Label Goal Result}
  {trace observed : List (Event Result)}

theorem QueryInvariant.step_workersFresh (inv : QueryInvariant s trace)
    (step : Step s label observed s') (w : WorkerId) (unused : s'.nextWorker ≤ w) :
    s'.workers w = none := by
  have fresh := inv.workersFresh w (le_trans step.nextWorker_le unused)
  cases step.workerChange w with
  | kept same => rw [same, fresh]
  | created number next _ =>
      rw [next, number] at unused
      exact absurd unused (Nat.not_succ_le_self _)
  | moved before _ _ => cases before.symm.trans fresh
  | stopped _ after => exact after

theorem QueryInvariant.step_queued (inv : QueryInvariant s trace)
    (step : Step s label observed s') :
    (∀ query ∈ s'.resultQueue.data, query.id < s'.nextQuery ∧
      ∀ w mode g known, .resultTaken w mode query.id g known ∉ trace ++ observed) ∧
    (s'.resultQueue.data.map Query.id).Nodup := by
  -- A query that was in the queue and still is has not been taken by this step either.
  have waiting : ∀ query ∈ s.resultQueue.data, query ∈ s'.resultQueue.data →
      query.id < s'.nextQuery ∧
        ∀ w mode g known, .resultTaken w mode query.id g known ∉ trace ++ observed := by
    intro query before after
    obtain ⟨number, untaken⟩ := inv.queued query before
    refine ⟨lt_of_lt_of_le number step.nextQuery_le, fun w mode g known seen => ?_⟩
    rcases List.mem_append.mp seen with earlier | now
    · exact untaken w mode g known earlier
    · have distinct := inv.distinct
      rw [(step.of_resultTaken now).2.1, List.map_cons, List.nodup_cons] at distinct
      exact distinct.1 (List.mem_map.mpr ⟨query, after, rfl⟩)
  cases step.queueChange with
  | kept same =>
      rw [same] at waiting ⊢
      exact ⟨fun query queued => waiting query queued queued, inv.distinct⟩
  | pushed suffix number after =>
      have left := suffix.sublist.subset
      rw [after] at waiting ⊢
      constructor
      · intro query queued
        rcases List.mem_append.mp queued with old | new
        · exact waiting query (left old) queued
        · obtain rfl := List.mem_singleton.mp new
          refine ⟨by rw [number]; exact Nat.lt_succ_self _, fun w mode g known seen => ?_⟩
          rcases List.mem_append.mp seen with earlier | now
          · exact lt_irrefl _ (inv.numbered w mode _ g known earlier)
          · have head := (step.of_resultTaken now).2.1
            have listed : ⟨s.nextQuery, some ⟨g⟩⟩ ∈ s.resultQueue.data := by rw [head]; simp
            exact lt_irrefl _ (inv.queued _ listed).1
      · rw [List.map_append, List.map_singleton, List.nodup_append]
        refine ⟨(inv.distinct.sublist (suffix.sublist.map _)), List.nodup_singleton _, ?_⟩
        rintro id old _ new rfl
        obtain ⟨query, queued, rfl⟩ := List.mem_map.mp old
        rw [List.mem_singleton] at new
        exact Nat.ne_of_lt (inv.queued query (left queued)).1 new
  | popped before =>
      have distinct := inv.distinct
      rw [before, List.map_cons, List.nodup_cons] at distinct
      refine ⟨fun query queued => waiting query ?_ queued, distinct.2⟩
      rw [before]
      exact List.mem_cons_of_mem _ queued

theorem QueryInvariant.step_numbered (inv : QueryInvariant s trace)
    (step : Step s label observed s') (w : WorkerId) (mode : Mode) (query : QueryId) (g : GoalId)
    (known : Bool) (seen : .resultTaken w mode query g known ∈ trace ++ observed) :
    query < s'.nextQuery := by
  refine lt_of_lt_of_le ?_ step.nextQuery_le
  rcases List.mem_append.mp seen with before | now
  · exact inv.numbered w mode query g known before
  · have listed : ⟨query, some ⟨g⟩⟩ ∈ s.resultQueue.data := by
      rw [(step.of_resultTaken now).2.1]
      exact List.mem_cons_self
    exact (inv.queued _ listed).1

/-- A query that is taken now was not taken before. -/
theorem QueryInvariant.not_taken (inv : QueryInvariant s trace) (step : Step s label observed s')
    {w w' : WorkerId} {mode mode' : Mode} {query : QueryId} {g g' : GoalId} {known known' : Bool}
    (now : .resultTaken w mode query g known ∈ observed) :
    .resultTaken w' mode' query g' known' ∉ trace := by
  have listed : ⟨query, some ⟨g⟩⟩ ∈ s.resultQueue.data := by
    rw [(step.of_resultTaken now).2.1]
    exact List.mem_cons_self
  exact (inv.queued _ listed).2 w' mode' g' known'

theorem QueryInvariant.step_takenOnce (inv : QueryInvariant s trace)
    (step : Step s label observed s') (w : WorkerId) (mode : Mode) (query : QueryId) (g : GoalId)
    (known : Bool) (w' : WorkerId) (mode' : Mode) (g' : GoalId) (known' : Bool)
    (seen : .resultTaken w mode query g known ∈ trace ++ observed)
    (seen' : .resultTaken w' mode' query g' known' ∈ trace ++ observed) :
    w = w' ∧ mode = mode' ∧ g = g' := by
  rcases List.mem_append.mp seen with before | now <;>
    rcases List.mem_append.mp seen' with before' | now'
  · exact inv.takenOnce w mode query g known w' mode' g' known' before before'
  · exact absurd before (inv.not_taken step now')
  · exact absurd before' (inv.not_taken step now)
  · rw [(step.of_resultTaken now).1, List.mem_singleton] at now'
    cases now'
    exact ⟨rfl, rfl, rfl⟩

/-- A worker goes on holding the query that it holds, unless it takes a new one. -/
theorem Activity.Advances.resultQuery {w : WorkerId} {mode : Mode}
    {activity activity' : Activity Result} {query : QueryId} {g : GoalId}
    (advances : activity.Advances s s' w mode observed activity')
    (holds : activity'.resultQuery = some (query, g)) :
    activity.resultQuery = some (query, g) ∧ observed = [] ∨
      ∃ known, observed = [.resultTaken w mode query g known] := by
  cases advances with
  | takeResult _ recorded =>
      cases holds
      exact .inr ⟨_, recorded⟩
  | found _ silent => exact .inl ⟨holds, silent⟩
  | wait _ _ _ _ silent => exact .inl ⟨holds, silent⟩
  | wake _ silent => exact .inl ⟨holds, silent⟩
  | _ => cases holds

/-- A worker that holds a query has held it before the step, or has just taken it. -/
theorem Step.held_or_taken (step : Step s label observed s') {w : WorkerId} {mode : Mode}
    {activity : Activity Result} {query : QueryId} {g : GoalId}
    (worker : s'.workers w = some ⟨mode, activity⟩)
    (holds : activity.resultQuery = some (query, g)) :
    (∃ before, s.workers w = some ⟨mode, before⟩ ∧ before.resultQuery = some (query, g)) ∨
      ∃ known, .resultTaken w mode query g known ∈ observed := by
  cases step.workerChange w with
  | kept same => exact .inl ⟨activity, same ▸ worker, holds⟩
  | created _ _ after =>
      cases after.symm.trans worker
      cases holds
  | moved before after advances =>
      cases after.symm.trans worker
      rcases advances.resultQuery holds with ⟨held, -⟩ | ⟨known, recorded⟩
      · exact .inl ⟨_, before, held⟩
      · exact .inr ⟨known, by simp [recorded]⟩
  | stopped _ after => cases after.symm.trans worker

theorem QueryInvariant.step_holds (inv : QueryInvariant s trace)
    (step : Step s label observed s') (w : WorkerId) (mode : Mode) (activity : Activity Result)
    (query : QueryId) (g : GoalId) (worker : s'.workers w = some ⟨mode, activity⟩)
    (holds : activity.resultQuery = some (query, g)) :
    ∃ known, .resultTaken w mode query g known ∈ trace ++ observed := by
  rcases step.held_or_taken worker holds with ⟨before, found, held⟩ | ⟨known, now⟩
  · obtain ⟨known, taken⟩ := inv.holds w mode before query g found held
    exact ⟨known, List.mem_append_left _ taken⟩
  · exact ⟨known, List.mem_append_right _ now⟩

theorem answers_eq_true {event : Event Result} {query : QueryId}
    (answer : event.answers query = true) :
    ∃ g response, event = .resultReply query g response := by
  cases event with
  | resultReply query' g response =>
      obtain rfl := of_decide_eq_true answer
      exact ⟨g, response, rfl⟩
  | _ => cases answer

theorem QueryInvariant.step_unanswered (inv : QueryInvariant s trace)
    (step : Step s label observed s') (w : WorkerId) (mode : Mode) (activity : Activity Result)
    (query : QueryId) (g : GoalId) (worker : s'.workers w = some ⟨mode, activity⟩)
    (holds : activity.resultQuery = some (query, g)) :
    ∀ event ∈ trace ++ observed, event.answers query = false := by
  intro event recorded
  rw [← Bool.not_eq_true]
  intro answer
  obtain ⟨g', response, rfl⟩ := answers_eq_true answer
  rcases List.mem_append.mp recorded with before | now
  · rcases step.held_or_taken worker holds with ⟨activity', found, held⟩ | ⟨known, fresh⟩
    · -- The worker held the query before this step, and it was open.
      have unanswered := inv.unanswered w mode activity' query g found held _ before
      rw [answer] at unanswered
      cases unanswered
    · obtain ⟨w', mode', known', earlier⟩ := inv.replied query g' response before
      exact inv.not_taken step fresh earlier
  · -- The query is answered by this step, so the worker that holds it is idle now.
    obtain ⟨single, w', mode', result, status, replying, -, idle⟩ := step.of_resultReply now
    obtain ⟨known, taken⟩ := inv.step_holds step w mode activity query g worker holds
    obtain ⟨known', earlier⟩ := inv.holds w' mode' _ query g' replying rfl
    have same := inv.step_takenOnce step w mode query g known w' mode' g' known' taken
      (List.mem_append_left _ earlier)
    rw [same.1, idle] at worker
    cases worker
    cases holds

theorem QueryInvariant.step_replied (inv : QueryInvariant s trace)
    (step : Step s label observed s') (query : QueryId) (g : GoalId)
    (response : GetResultResponse Result)
    (seen : .resultReply query g response ∈ trace ++ observed) :
    ∃ w mode known, .resultTaken w mode query g known ∈ trace ++ observed := by
  rcases List.mem_append.mp seen with before | now
  · obtain ⟨w, mode, known, taken⟩ := inv.replied query g response before
    exact ⟨w, mode, known, List.mem_append_left _ taken⟩
  · obtain ⟨-, w, mode, result, status, replying, -, -⟩ := step.of_resultReply now
    obtain ⟨known, taken⟩ := inv.holds w mode _ query g replying rfl
    exact ⟨w, mode, known, List.mem_append_left _ taken⟩

theorem Step.queryInvariant (step : Step s label observed s') (inv : QueryInvariant s trace) :
    QueryInvariant s' (trace ++ observed) where
  workersFresh := inv.step_workersFresh step
  queued := (inv.step_queued step).1
  distinct := (inv.step_queued step).2
  numbered := inv.step_numbered step
  takenOnce := inv.step_takenOnce step
  holds := inv.step_holds step
  unanswered := inv.step_unanswered step
  replied := inv.step_replied step

/-- The only worker at the start is the idle legacy handler. -/
theorem workers_build {cfg : ServerConfig} {w : WorkerId} {worker : Worker Result}
    (found : (ServerState.build cfg : ServerState Goal Result).workers w = some worker) :
    w = 0 ∧ worker = ⟨.legacy, .idle⟩ := by
  by_cases first : w = 0
  · subst first
    exact ⟨rfl, (Option.some.inj found).symm⟩
  · simp [ServerState.build, first] at found

theorem queryInvariant_build {cfg : ServerConfig} :
    QueryInvariant (.build cfg : ServerState Goal Result) [] where
  workersFresh w unused := by
    have later : w ≠ 0 := Nat.ne_of_gt unused
    simp [ServerState.build, later]
  queued _ member := by cases member
  distinct := List.nodup_nil
  numbered _ _ _ _ _ taken := by cases taken
  takenOnce _ _ _ _ _ _ _ _ _ taken := by cases taken
  holds w mode activity query g worker holds := by
    cases (workers_build worker).2
    cases holds
  unanswered _ _ _ _ _ _ _ _ member := by cases member
  replied _ _ _ member := by cases member

end Queries

/-! ## Results on their way -/

/-- Some call of `terminate` on a handle of `g` was passed this result and status. -/
def Passed (trace : List (Event Result)) (g : GoalId) (result : Result) (status : GoalStatus) :
    Prop :=
  ∃ h, .terminated h g result status ∈ trace

/-- The query was taken by a driver, in the name of `g`. -/
def AskedFor (trace : List (Event Result)) (query : QueryId) (g : GoalId) : Prop :=
  ∃ w mode known, .resultTaken w mode query g known ∈ trace

theorem Passed.append {trace : List (Event Result)} {g : GoalId} {result : Result}
    {status : GoalStatus} (passed : Passed trace g result status) (observed : List (Event Result)) :
    Passed (trace ++ observed) g result status :=
  passed.imp fun _ => List.mem_append_left _

theorem AskedFor.append {trace : List (Event Result)} {query : QueryId} {g : GoalId}
    (asked : AskedFor trace query g) (observed : List (Event Result)) :
    AskedFor (trace ++ observed) query g := by
  obtain ⟨w, mode, known, taken⟩ := asked
  exact ⟨w, mode, known, List.mem_append_left _ taken⟩

/-- Every result on its way was passed to one call of `terminate` on a handle of the goal
it is meant for. -/
structure ResultInvariant (s : ServerState Goal Result) (trace : List (Event Result)) : Prop where
  queries : QueryInvariant s trace
  /-- The table is what the trace says. -/
  recorded : ∀ g state, s.manager.entry g = some state →
    ∃ event, lastWrite trace g = some event ∧ event.Wrote g state
  waiting : ∀ g, ∀ query ∈ s.manager.waiters g, AskedFor trace query g
  notifying : ∀ h goal info result status futures,
    s.handles h = some ⟨goal, info, .notifying result status futures⟩ →
      Passed trace info.goalId result status ∧ ∀ query ∈ futures, AskedFor trace query info.goalId
  sent : ∀ query result status, s.mailbox query = some (result, status) →
    ∃ g, AskedFor trace query g ∧ Passed trace g result status
  replying : ∀ w mode query g result status,
    s.workers w = some ⟨mode, .resultReply query g result status⟩ → Passed trace g result status
  replied : ∀ query g response, .resultReply query g response ∈ trace →
    ∃ h result status, [.terminated h g result status, .resultReply query g response] <+ trace ∧
      response = ⟨status.toI8, result⟩

section Integrity

variable {s s' : ServerState Goal Result} {label : Label Goal Result}
  {trace observed : List (Event Result)}

/-- Waiters are added by a driver for the query it has taken, and taken out by
`terminate`. -/
theorem Step.waiters_subset (step : Step s label observed s') {g : GoalId} {query : QueryId}
    (waits : query ∈ s'.manager.waiters g) :
    query ∈ s.manager.waiters g ∨ ∃ w, s.workers w = some ⟨.driver, .result query g⟩ := by
  cases step with
  | terminate found =>
      simp only [GoalManagerInternal.waiters_terminate] at waits
      split at waits
      · cases waits
      · exact .inl waits
  | @resultWaits w query' g' _ taken _ _ =>
      simp only [GoalManagerInternal.waiters_addWaiter] at waits
      split at waits
      · next own =>
          subst own
          rcases List.mem_append.mp waits with before | new
          · exact .inl before
          · obtain rfl := List.mem_singleton.mp new
            exact .inr ⟨w, taken⟩
      · exact .inl waits
  | _ => exact .inl waits

/-- A channel is written by a handle that is notifying. -/
theorem Step.mailbox_cases (step : Step s label observed s') {query : QueryId} {result : Result}
    {status : GoalStatus} (sent : s'.mailbox query = some (result, status)) :
    s.mailbox query = some (result, status) ∨ ∃ h goal info futures, query ∈ futures ∧
      s.handles h = some ⟨goal, info, .notifying result status futures⟩ := by
  cases step with
  | @notify h goal info result' status' tx rest found =>
      rcases PartialMap.update_eq_some_iff.mp sent with ⟨rfl, same⟩ | ⟨-, before⟩
      · cases same
        exact .inr ⟨h, goal, info, _, List.mem_cons_self, found⟩
      · exact .inl before
  | @wakeResult w mode query' g result' status' waits sent' =>
      exact .inl (PartialMap.of_update_none sent)
  | _ => exact .inl sent

theorem ResultInvariant.step_waiting (inv : ResultInvariant s trace)
    (step : Step s label observed s') (g : GoalId) (query : QueryId)
    (waits : query ∈ s'.manager.waiters g) : AskedFor (trace ++ observed) query g := by
  rcases step.waiters_subset waits with before | ⟨w, taken⟩
  · exact (inv.waiting g query before).append observed
  · obtain ⟨known, asked⟩ := inv.queries.holds w _ _ query g taken rfl
    exact AskedFor.append ⟨w, _, known, asked⟩ observed

theorem ResultInvariant.step_notifying (inv : ResultInvariant s trace)
    (step : Step s label observed s') (h : HandleId) (goal : Goal) (info : GoalInfo)
    (result : Result) (status : GoalStatus) (futures : List QueryId)
    (handle : s'.handles h = some ⟨goal, info, .notifying result status futures⟩) :
    Passed (trace ++ observed) info.goalId result status ∧
      ∀ query ∈ futures, AskedFor (trace ++ observed) query info.goalId := by
  cases step.handleChange h with
  | kept same =>
      obtain ⟨passed, asked⟩ := inv.notifying h goal info result status futures (same ▸ handle)
      exact ⟨passed.append observed, fun query listed => (asked query listed).append observed⟩
  | created _ after => cases after.symm.trans handle
  | moved before after advances =>
      cases after.symm.trans handle
      cases advances with
      | terminate recorded =>
          refine ⟨⟨h, by simp [recorded]⟩, fun query listed => ?_⟩
          exact (inv.waiting info.goalId query listed).append observed
      | notify _ =>
          obtain ⟨passed, asked⟩ := inv.notifying h goal info result status _ before
          exact ⟨passed.append observed, fun query listed =>
            (asked query (List.mem_cons_of_mem _ listed)).append observed⟩
  | closed _ after _ => cases after.symm.trans handle

theorem ResultInvariant.step_sent (inv : ResultInvariant s trace)
    (step : Step s label observed s') (query : QueryId) (result : Result) (status : GoalStatus)
    (sent : s'.mailbox query = some (result, status)) :
    ∃ g, AskedFor (trace ++ observed) query g ∧ Passed (trace ++ observed) g result status := by
  rcases step.mailbox_cases sent with before | ⟨h, goal, info, futures, listed, handle⟩
  · obtain ⟨g, asked, passed⟩ := inv.sent query result status before
    exact ⟨g, asked.append observed, passed.append observed⟩
  · obtain ⟨passed, asked⟩ := inv.notifying h goal info result status futures handle
    exact ⟨info.goalId, (asked query listed).append observed, passed.append observed⟩

theorem ResultInvariant.step_replying (inv : ResultInvariant s trace)
    (step : Step s label observed s') (w : WorkerId) (mode : Mode) (query : QueryId) (g : GoalId)
    (result : Result) (status : GoalStatus)
    (worker : s'.workers w = some ⟨mode, .resultReply query g result status⟩) :
    Passed (trace ++ observed) g result status := by
  cases step.workerChange w with
  | kept same => exact (inv.replying w mode query g result status (same ▸ worker)).append observed
  | created _ _ after => cases after.symm.trans worker
  | moved before after advances =>
      cases after.symm.trans worker
      cases advances with
      | found terminated _ =>
          -- The table answers: its entry is what the last `terminate` on record left behind.
          obtain ⟨event, last, wrote⟩ := inv.recorded g _ terminated
          cases event with
          | terminated h g' result' status' =>
              obtain ⟨rfl, rfl, rfl⟩ := wrote
              exact Passed.append ⟨h, mem_of_lastWrite last⟩ observed
          | _ => exact wrote.elim
      | wake sent _ =>
          -- The channel answers: it belongs to the query, and the query to one goal.
          obtain ⟨g', ⟨w', mode', known', asked⟩, passed⟩ := inv.sent query result status sent
          obtain ⟨known, taken⟩ := inv.queries.holds w mode _ query g before rfl
          obtain ⟨-, -, rfl⟩ := inv.queries.takenOnce w mode query g known w' mode' g' known'
            taken asked
          exact passed.append observed
  | stopped _ after => cases after.symm.trans worker

theorem ResultInvariant.step_replied (inv : ResultInvariant s trace)
    (step : Step s label observed s') (query : QueryId) (g : GoalId)
    (response : GetResultResponse Result)
    (seen : .resultReply query g response ∈ trace ++ observed) :
    ∃ h result status,
      [.terminated h g result status, .resultReply query g response] <+ trace ++ observed ∧
        response = ⟨status.toI8, result⟩ := by
  rcases List.mem_append.mp seen with before | now
  · obtain ⟨h, result, status, ordered, content⟩ := inv.replied query g response before
    exact ⟨h, result, status, ordered.trans (List.sublist_append_left ..), content⟩
  · obtain ⟨-, w, mode, result, status, replying, content, -⟩ := step.of_resultReply now
    obtain ⟨h, passed⟩ := inv.replying w mode query g result status replying
    exact ⟨h, result, status, (List.singleton_sublist.mpr passed).append
      (List.singleton_sublist.mpr now), content⟩

theorem Step.resultInvariant (step : Step s label observed s') (inv : ResultInvariant s trace) :
    ResultInvariant s' (trace ++ observed) where
  queries := step.queryInvariant inv.queries
  recorded _ := step.entry_recorded (inv.recorded _)
  waiting := inv.step_waiting step
  notifying := inv.step_notifying step
  sent := inv.step_sent step
  replying := inv.step_replying step
  replied := inv.step_replied step

theorem resultInvariant_build {cfg : ServerConfig} :
    ResultInvariant (.build cfg : ServerState Goal Result) [] where
  queries := queryInvariant_build
  recorded := nofun
  waiting := nofun
  notifying := nofun
  sent := nofun
  replying w mode query g result status worker := by cases (workers_build worker).2
  replied := nofun

end Integrity

section Runs

variable {cfg : ServerConfig} {c : Config (ServerState Goal Result) (Event Result)}
  {allowed : Config (ServerState Goal Result) (Event Result) → Label Goal Result → Prop}

theorem reachable_resultInvariant (reached : (server Goal Result cfg).Reachable allowed c) :
    ResultInvariant c.state c.trace :=
  server_invariant reached resultInvariant_build fun _ _ _ _ _ inv step => step.resultInvariant inv

/-- A query is answered at most once. -/
theorem answered_once (reached : (server Goal Result cfg).Reachable allowed c) (query : QueryId) :
    (c.trace.filter (Event.answers query)).length ≤ 1 := by
  refine (server_invariant (P := fun s trace => QueryInvariant s trace ∧
    (trace.filter (Event.answers query)).length ≤ 1) reached
    ⟨queryInvariant_build, Nat.zero_le _⟩ ?_).2
  rintro s trace label observed s' ⟨inv, once⟩ step
  refine ⟨step.queryInvariant inv, ?_⟩
  rw [List.filter_append, List.length_append]
  by_cases answer : ∃ event ∈ observed, event.answers query = true
  · obtain ⟨event, now, answer⟩ := answer
    obtain ⟨g, response, rfl⟩ := answers_eq_true answer
    obtain ⟨single, w, mode, result, status, replying, -, -⟩ := step.of_resultReply now
    have unanswered : trace.filter (Event.answers query) = [] := by
      rw [List.filter_eq_nil_iff]
      intro event before
      rw [inv.unanswered w mode _ query g replying rfl event before]
      exact Bool.false_ne_true
    rw [unanswered, single, List.length_nil, Nat.zero_add]
    exact List.length_filter_le _ _
  · have silent : observed.filter (Event.answers query) = [] := by
      rw [List.filter_eq_nil_iff]
      exact fun event now answered => answer ⟨event, now, answered⟩
    rw [silent]
    exact once

/-- **Result integrity.**  A result query is answered at most once, and an answer in the
name of `g` is to a query that asked for `g` and carries the result and the status of
one call of `terminate` on a handle of `g`, made before the answer. -/
theorem result_integrity (reached : (server Goal Result cfg).Reachable Machine.anyStep c)
    (query : QueryId) :
    (c.trace.filter (Event.answers query)).length ≤ 1 ∧
      ∀ g response, .resultReply query g response ∈ c.trace →
        AskedFor c.trace query g ∧ ∃ h result status,
          [.terminated h g result status, .resultReply query g response] <+ c.trace ∧
            response = ⟨status.toI8, result⟩ := by
  have inv := reachable_resultInvariant reached
  refine ⟨answered_once reached query, fun g response replied => ?_⟩
  exact ⟨inv.queries.replied query g response replied, inv.replied query g response replied⟩

/-- A driver waits for a goal, and the call that ends the goal sends it the result. -/
theorem result_integrity_waiter :
    ∃ c, (server Unit ℕ demoConfig).Reachable Machine.anyStep c ∧
      .resultReply 1 demoGoal ⟨4, 42⟩ ∈ c.trace ∧
      ∃ h status,
        [.terminated h demoGoal 42 status, .resultReply 1 demoGoal ⟨4, 42⟩] <+ c.trace := by
  obtain ⟨c, -, reached, -, shown⟩ := Machine.exists_of_execution (server Unit ℕ demoConfig)
    Machine.anyStep ([.withHandler] ++ startGoal 0 ++
      [.arrive (.result (some ⟨demoGoal⟩)), .takeResult 1, .lookupResult 1,
        .terminate 0 42 .succeed, .notify 0, .wakeResult 1, .replyResult 1]) []
    (fun c _ => c.trace) rfl
  have replied : .resultReply 1 demoGoal ⟨4, 42⟩ ∈ c.trace := by rw [shown]; decide
  obtain ⟨-, h, result, status, ordered, content⟩ :=
    (result_integrity reached 1).2 demoGoal ⟨4, 42⟩ replied
  obtain ⟨-, rfl⟩ := GetResultResponse.mk.inj content
  exact ⟨c, reached, replied, h, status, ordered⟩

end Runs

end RosZ.Action
