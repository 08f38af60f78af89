import RosZ.Action.Results

/-!
# What becomes of a result request

The two result handlers differ by design.  The driver registers a request for a goal
that has not ended and answers it when the goal ends.  The legacy handler answers a
request for a goal that has ended and leaves any other unanswered.

`Accounted` lists where a request can be that was taken while its goal was in the
table: answered, in the hands of the worker that took it, registered for a goal that
is in the table and has not ended, on its way back to the worker, or declined by the
legacy handler.  `result_accounted` shows that there is no other place, as long as the
goal has not expired since.
-/

namespace RosZ.Action

open Transition
open scoped List

variable {Goal Result : Type}

/-- Where a result request for `g` is that the worker `w` has taken. -/
inductive Accounted (s : ServerState Goal Result) (trace : List (Event Result)) (w : WorkerId)
    (mode : Mode) (query : QueryId) (g : GoalId) : Prop
  | answered {response : GetResultResponse Result}
      (replied : .resultReply query g response ∈ trace)
  /-- The worker has not looked up the goal yet. -/
  | taken (holds : s.workers w = some ⟨mode, .result query g⟩)
      (present : (s.manager.entry g).isSome = true)
  /-- The worker has the result and is about to send it. -/
  | replying {result : Result} {status : GoalStatus}
      (holds : s.workers w = some ⟨mode, .resultReply query g result status⟩)
  /-- The driver waits, and the goal has not ended. -/
  | registered {state : ServerGoalState Goal Result}
      (holds : s.workers w = some ⟨.driver, .resultWait query g⟩)
      (waits : query ∈ s.manager.waiters g) (entry : s.manager.entry g = some state)
      (running : state.isTerminated = false)
  /-- The driver waits, and the call that ended the goal is about to notify it. -/
  | notified {h : HandleId} {goal : Goal} {info : GoalInfo} {result : Result}
      {status : GoalStatus} {futures : List QueryId}
      (holds : s.workers w = some ⟨.driver, .resultWait query g⟩)
      (handle : s.handles h = some ⟨goal, info, .notifying result status futures⟩)
      (listed : query ∈ futures)
  /-- The driver waits, and its channel holds the result. -/
  | sent {pair : Result × GoalStatus}
      (holds : s.workers w = some ⟨.driver, .resultWait query g⟩)
      (mail : s.mailbox query = some pair)
  /-- The legacy handler found that the goal had not ended. -/
  | declined (legacy : mode = .legacy) (dropped : .resultDropped query g ∈ trace)

/-- The goal has expired since the request was taken. -/
def ExpiredSince (trace : List (Event Result)) (w : WorkerId) (mode : Mode) (query : QueryId)
    (g : GoalId) : Prop :=
  [.resultTaken w mode query g true, .expired g] <+ trace

section Steps

variable {s s' : ServerState Goal Result} {label : Label Goal Result}
  {trace observed : List (Event Result)} {w : WorkerId} {mode : Mode} {query : QueryId}
  {g : GoalId}

theorem expiredSince_of_mem (taken : .resultTaken w mode query g true ∈ trace)
    (expired : .expired g ∈ observed) : ExpiredSince (trace ++ observed) w mode query g :=
  (List.singleton_sublist.mpr taken).append (List.singleton_sublist.mpr expired)

/-- A waiter of a goal that has not ended stays one, or the goal expires, or the call that
ends the goal takes it over. -/
theorem Step.waiter_stays {state : ServerGoalState Goal Result} (step : Step s label observed s')
    (waits : query ∈ s.manager.waiters g) (entry : s.manager.entry g = some state)
    (running : state.isTerminated = false) :
    (query ∈ s'.manager.waiters g ∧
      ∃ state', s'.manager.entry g = some state' ∧ state'.isTerminated = false) ∨
    .expired g ∈ observed ∨
    ∃ h goal info result status futures, query ∈ futures ∧
      s'.handles h = some ⟨goal, info, .notifying result status futures⟩ := by
  cases step with
  | acceptInsert found =>
      refine .inl ⟨waits, ?_⟩
      simp only [GoalManagerInternal.entry_accept]
      split
      · exact ⟨_, rfl, rfl⟩
      · exact ⟨state, entry, running⟩
  | execute found =>
      refine .inl ⟨waits, ?_⟩
      simp only [GoalManagerInternal.entry_execute]
      split
      · exact ⟨_, rfl, rfl⟩
      · exact ⟨state, entry, running⟩
  | @terminate h goal info flag result outcome found =>
      by_cases own : g = info.goalId
      · subst own
        exact .inr (.inr ⟨h, goal, info, result, outcome.status, _, waits, Function.update_self ..⟩)
      · refine .inl ⟨?_, state, ?_, running⟩
        · simpa [own] using waits
        · simpa [own] using entry
  | @resultWaits w' query' g' state' taken known running' =>
      refine .inl ⟨?_, state, entry, running⟩
      simp only [GoalManagerInternal.waiters_addWaiter]
      split
      · next own =>
          subst own
          exact List.mem_append_left _ waits
      · exact waits
  | expireGoals =>
      by_cases expires : g ∈ (s.manager.expireGoals s.clock).2
      · exact .inr (.inl (List.mem_map_of_mem expires))
      · refine .inl ⟨waits, state, ?_, running⟩
        have stays : state.shouldExpire s.clock = false := by
          rw [← Bool.not_eq_true]
          exact fun expired =>
            expires ((s.manager.mem_expireGoals s.clock g).mpr ⟨state, entry, expired⟩)
        simp [entry, stays]
  | _ => exact .inl ⟨waits, state, entry, running⟩

/-- What a channel holds stays there until the worker that waits for it takes it. -/
theorem Step.mail_stays {pair : Result × GoalStatus} (step : Step s label observed s')
    (mail : s.mailbox query = some pair) :
    (∃ pair', s'.mailbox query = some pair') ∨
      ∃ w' mode' g' result status, s.workers w' = some ⟨mode', .resultWait query g'⟩ ∧
        s'.workers w' = some ⟨mode', .resultReply query g' result status⟩ := by
  cases step with
  | @notify h goal info result status tx rest found =>
      by_cases own : query = tx
      · subst own
        exact .inl ⟨_, Function.update_self ..⟩
      · exact .inl ⟨pair, (Function.update_of_ne own ..).trans mail⟩
  | @wakeResult w' mode' query' g' result status waits sent =>
      by_cases own : query = query'
      · subst own
        exact .inr ⟨w', mode', g', result, status, waits, Function.update_self ..⟩
      · exact .inl ⟨pair, (Function.update_of_ne own ..).trans mail⟩
  | _ => exact .inl ⟨pair, mail⟩

/-- A handle that is notifying a query goes on, or writes the query's channel. -/
theorem Step.notifier_stays {h : HandleId} {goal : Goal} {info : GoalInfo} {result : Result}
    {status : GoalStatus} {futures : List QueryId} (step : Step s label observed s')
    (fresh : s.HandlesFresh)
    (handle : s.handles h = some ⟨goal, info, .notifying result status futures⟩)
    (listed : query ∈ futures) :
    (∃ futures', query ∈ futures' ∧
      s'.handles h = some ⟨goal, info, .notifying result status futures'⟩) ∨
    ∃ pair, s'.mailbox query = some pair := by
  cases step.handleChange h with
  | kept same => exact .inl ⟨futures, listed, by rw [same, handle]⟩
  | created number _ => exact absurd number (Nat.ne_of_lt (fresh.lt handle))
  | moved before after advances =>
      cases before.symm.trans handle
      cases advances with
      | notify sent =>
          rcases List.mem_cons.mp listed with rfl | rest
          · exact .inr ⟨_, sent⟩
          · exact .inl ⟨_, rest, after⟩
  | closed before _ notified =>
      cases before.symm.trans handle
      rw [notified _ _ _ rfl] at listed
      cases listed

/-- A worker that is handling a query goes on with it. -/
theorem Step.busy_worker {activity : Activity Result} (step : Step s label observed s')
    (inv : QueryInvariant s trace) (holds : s.workers w = some ⟨mode, activity⟩)
    (busy : activity ≠ .idle) :
    s'.workers w = some ⟨mode, activity⟩ ∨ ∃ activity', s'.workers w = some ⟨mode, activity'⟩ ∧
      activity.Advances s s' w mode observed activity' := by
  cases step.workerChange w with
  | kept same => exact .inl (same.trans holds)
  | created number _ _ =>
      rw [inv.workersFresh w (Nat.le_of_eq number.symm)] at holds
      cases holds
  | moved before after advances =>
      cases before.symm.trans holds
      exact .inr ⟨_, after, advances⟩
  | stopped before _ =>
      cases before.symm.trans holds
      exact absurd rfl busy

/-- A driver that waits goes on waiting or is about to reply. -/
theorem Step.wait_stays (step : Step s label observed s') (inv : QueryInvariant s trace)
    (holds : s.workers w = some ⟨mode, .resultWait query g⟩) :
    s'.workers w = some ⟨mode, .resultWait query g⟩ ∨
      ∃ result status, s'.workers w = some ⟨mode, .resultReply query g result status⟩ := by
  rcases step.busy_worker inv holds nofun with same | ⟨_, after, advances⟩
  · exact .inl same
  · cases advances with
    | wake _ _ => exact .inr ⟨_, _, after⟩

/-- A worker that is about to reply goes on, or has replied. -/
theorem Step.reply_stays {result : Result} {status : GoalStatus} (step : Step s label observed s')
    (inv : QueryInvariant s trace)
    (holds : s.workers w = some ⟨mode, .resultReply query g result status⟩) :
    Accounted s' (trace ++ observed) w mode query g := by
  rcases step.busy_worker inv holds nofun with same | ⟨_, after, advances⟩
  · exact .replying same
  · cases advances with
    | reply recorded =>
        have replied : .resultReply query g ⟨status.toI8, result⟩ ∈ trace ++ observed := by
          simp [recorded]
        exact .answered replied

/-- A request that was just taken is looked up: it is found, registered or declined. -/
theorem Step.taken_stays (step : Step s label observed s') (inv : QueryInvariant s trace)
    (taken : .resultTaken w mode query g true ∈ trace)
    (holds : s.workers w = some ⟨mode, .result query g⟩)
    (present : (s.manager.entry g).isSome = true) :
    ExpiredSince (trace ++ observed) w mode query g ∨
      Accounted s' (trace ++ observed) w mode query g := by
  rcases step.busy_worker inv holds nofun with same | ⟨_, after, advances⟩
  · cases step.entryChange g with
    | kept entry _ => exact .inr (.taken same (by rw [entry, present]))
    | written _ entry _ _ => exact .inr (.taken same (by rw [entry]; rfl))
    | removed _ _ _ expired _ => exact .inl (expiredSince_of_mem taken expired)
  · right
    cases advances with
    | found _ _ => exact .replying after
    | wait driver known running registered _ =>
        subst driver
        refine .registered after ?_ (by rw [registered]; exact known) running
        rw [registered, GoalManagerInternal.waiters_addWaiter, if_pos rfl]
        exact List.mem_append_right _ (List.mem_singleton_self _)
    | drop unanswered recorded =>
        rcases unanswered with absent | ⟨legacy, -⟩
        · rw [absent] at present
          cases present
        · exact .declined legacy (by simp [recorded])

/-- **What one step does to a request.**  Unless its goal expires, a request that is
accounted for stays so. -/
theorem Accounted.step (accounted : Accounted s trace w mode query g)
    (step : Step s label observed s') (fresh : s.HandlesFresh) (inv : QueryInvariant s trace)
    (taken : .resultTaken w mode query g true ∈ trace) :
    ExpiredSince (trace ++ observed) w mode query g ∨
      Accounted s' (trace ++ observed) w mode query g := by
  -- The mode of a worker that waits is that of the request it has taken.
  have driver : s.workers w = some ⟨.driver, .resultWait query g⟩ → mode = .driver := by
    intro holds
    obtain ⟨known, taken'⟩ := inv.holds w .driver _ query g holds rfl
    exact (inv.takenOnce w mode query g true w .driver g known taken taken').2.1
  cases accounted with
  | answered replied => exact .inr (.answered (List.mem_append_left _ replied))
  | taken holds present => exact step.taken_stays inv taken holds present
  | replying holds => exact .inr (step.reply_stays inv holds)
  | registered holds waits entry running =>
      obtain rfl := driver holds
      rcases step.wait_stays inv holds with holds' | ⟨result, status, holds'⟩
      · rcases step.waiter_stays waits entry running with
          ⟨waits', state', entry', running'⟩ | expired | ⟨h, goal, info, r, st, fs, listed, handle⟩
        · exact .inr (.registered holds' waits' entry' running')
        · exact .inl (expiredSince_of_mem taken expired)
        · exact .inr (.notified holds' handle listed)
      · exact .inr (.replying holds')
  | notified holds handle listed =>
      obtain rfl := driver holds
      rcases step.wait_stays inv holds with holds' | ⟨result, status, holds'⟩
      · rcases step.notifier_stays fresh handle listed with ⟨fs, listed', handle'⟩ | ⟨pair, mail⟩
        · exact .inr (.notified holds' handle' listed')
        · exact .inr (.sent holds' mail)
      · exact .inr (.replying holds')
  | sent holds mail =>
      obtain rfl := driver holds
      rcases step.mail_stays mail with
        ⟨pair', mail'⟩ | ⟨w', mode', g', result, status, waits, woken⟩
      · rcases step.wait_stays inv holds with holds' | ⟨result, status, holds'⟩
        · exact .inr (.sent holds' mail')
        · exact .inr (.replying holds')
      · -- Only the worker that took the query waits on its channel.
        obtain ⟨known, taken'⟩ := inv.holds w' mode' _ query g' waits rfl
        obtain ⟨rfl, rfl, rfl⟩ :=
          inv.takenOnce w .driver query g true w' mode' g' known taken taken'
        exact .inr (.replying woken)
  | declined legacy dropped => exact .inr (.declined legacy (List.mem_append_left _ dropped))

end Steps

/-! ## Runs -/

section Runs

variable {cfg : ServerConfig} {c : Config (ServerState Goal Result) (Event Result)}
  {allowed : Config (ServerState Goal Result) (Event Result) → Label Goal Result → Prop}

/-- A request that was taken while its goal was in the table is accounted for, unless the
goal has expired since. -/
theorem reachable_accounted (reached : (server Goal Result cfg).Reachable allowed c)
    {w : WorkerId} {mode : Mode} {query : QueryId} {g : GoalId}
    (taken : .resultTaken w mode query g true ∈ c.trace) :
    ExpiredSince c.trace w mode query g ∨ Accounted c.state c.trace w mode query g := by
  refine (server_invariant (P := fun s trace => s.HandlesFresh ∧ QueryInvariant s trace ∧
    (.resultTaken w mode query g true ∈ trace →
      ExpiredSince trace w mode query g ∨ Accounted s trace w mode query g)) reached
    ⟨fun _ _ => rfl, queryInvariant_build, nofun⟩ ?_).2.2 taken
  rintro s trace label observed s' ⟨fresh, inv, accounted⟩ step
  refine ⟨step.handlesFresh fresh, step.queryInvariant inv, fun taken => ?_⟩
  rcases List.mem_append.mp taken with before | now
  · rcases accounted before with expired | accounted
    · exact .inl (expired.trans (List.sublist_append_left ..))
    · exact accounted.step step fresh inv before
  · obtain ⟨-, -, known, manager, holds⟩ := step.of_resultTaken now
    exact .inr (.taken holds (by rw [manager, ← known]))

/-- A request that is observed to be dropped was looked up for a goal that had no entry or
had not ended. -/
theorem Step.of_resultDropped {s s' : ServerState Goal Result} {label : Label Goal Result}
    {observed : List (Event Result)} {query : QueryId} {g : GoalId}
    (step : Step s label observed s') (seen : .resultDropped query g ∈ observed) :
    observed = [.resultDropped query g] ∧ (s.manager.entry g = none ∨
      ∃ state, s.manager.entry g = some state ∧ state.isTerminated = false) := by
  cases step with
  | resultDrops taken unanswered =>
      simp only [List.mem_singleton, Event.resultDropped.injEq] at seen
      obtain ⟨rfl, rfl⟩ := seen
      exact ⟨rfl, unanswered.imp_right And.right⟩
  | expireGoals => simp at seen
  | _ => simp at seen

/-- A request is dropped only while its goal has no result: the last write to the goal's
entry before was not that of `terminate`. -/
theorem dropped_without_result (reached : (server Goal Result cfg).Reachable allowed c)
    {before after : List (Event Result)} {query : QueryId} {g : GoalId}
    (split : c.trace = before ++ .resultDropped query g :: after) (h : HandleId)
    (result : Result) (status : GoalStatus) :
    lastWrite before g ≠ some (.terminated h g result status) := by
  refine (server_invariant (P := fun s trace =>
    (∀ state, s.manager.entry g = some state →
      ∃ event, lastWrite trace g = some event ∧ event.Wrote g state) ∧
    (s.manager.entry g = none →
      lastWrite trace g = none ∨ lastWrite trace g = some (.expired g)) ∧
    ∀ before after, trace = before ++ .resultDropped query g :: after →
      lastWrite before g ≠ some (.terminated h g result status)) reached
    ⟨nofun, fun _ => .inl rfl, by simp⟩ ?_).2.2 before after split
  rintro s trace label observed s' ⟨recorded, absence, dropped⟩ step
  refine ⟨step.entry_recorded recorded, step.absence_recorded absence, ?_⟩
  intro before after split
  rcases split_append split with ⟨after', earlier⟩ | ⟨before', rfl, now⟩
  · exact dropped before after' earlier
  · obtain ⟨single, unanswered⟩ := step.of_resultDropped
      (by rw [now]; exact List.mem_append_right _ List.mem_cons_self)
    obtain rfl : before' = [] := by
      rw [single] at now
      cases before' <;> simp_all
    rw [List.append_nil]
    intro last
    rcases unanswered with absent | ⟨state, entry, running⟩
    · rcases absence absent with none | expired
      · cases none.symm.trans last
      · cases expired.symm.trans last
    · obtain ⟨event, last', wrote⟩ := recorded state entry
      cases last'.symm.trans last
      cases state with
      | terminated => cases running
      | _ => exact wrote

/-- **Result requests are accounted for.**  A request that was taken while its goal was in
the table, and whose goal has not expired since, is answered, in the hands of its
worker, registered for a goal in the table that has not ended, on its way back to the
driver that waits for it, or was declined by the legacy handler; and a handler drops
a request only while the goal has no result. -/
theorem result_accounted (reached : (server Goal Result cfg).Reachable Machine.anyStep c) :
    (∀ w mode query g, .resultTaken w mode query g true ∈ c.trace →
      ¬ ExpiredSince c.trace w mode query g → Accounted c.state c.trace w mode query g) ∧
    ∀ before query g after, c.trace = before ++ .resultDropped query g :: after →
      ∀ h result status, lastWrite before g ≠ some (.terminated h g result status) :=
  ⟨fun _ _ _ _ taken current => (reachable_accounted reached taken).resolve_left current,
    fun _ _ _ _ split => dropped_without_result reached split⟩

end Runs

/-- The request is answered, or registered for a goal that is in the table and has not
ended. -/
def AnsweredOrRegistered (s : ServerState Goal Result) (trace : List (Event Result))
    (query : QueryId) (g : GoalId) : Prop :=
  (∃ response, .resultReply query g response ∈ trace) ∨
    query ∈ s.manager.waiters g ∧
      ∃ state, s.manager.entry g = some state ∧ state.isTerminated = false

/-- **A request can be neither answered nor registered.**  The legacy handler takes a
request for a goal that executes, and returns without a reply. -/
theorem legacy_not_answeredOrRegistered :
    ∃ c, (server Unit ℕ demoConfig).Reachable Machine.anyStep c ∧
      .resultTaken 0 .legacy 1 demoGoal true ∈ c.trace ∧
      c.state.workers 0 = some ⟨.legacy, .idle⟩ ∧
      ¬ AnsweredOrRegistered c.state c.trace 1 demoGoal := by
  obtain ⟨c, -, reached, -, shown⟩ := Machine.exists_of_execution (server Unit ℕ demoConfig)
    Machine.anyStep (startGoal 0 ++
      [.arrive (.result (some ⟨demoGoal⟩)), .takeResult 0, .lookupResult 0]) []
    (fun c _ => (c.trace, c.state.manager.waiters demoGoal, c.state.workers 0)) rfl
  simp only [Prod.mk.injEq] at shown
  obtain ⟨trace, waiters, idle⟩ := shown
  have silent : ∀ event ∈ c.trace, event.answers 1 = false := by rw [trace]; decide
  refine ⟨c, reached, by rw [trace]; decide, idle, ?_⟩
  rintro (⟨response, replied⟩ | ⟨waits, -⟩)
  · cases silent _ replied
  · rw [waiters] at waits
    cases waits

/-- A driver has registered a request for a goal that executes. -/
theorem result_accounted_driver :
    ∃ c, (server Unit ℕ demoConfig).Reachable Machine.anyStep c ∧
      .resultTaken 1 .driver 1 demoGoal true ∈ c.trace ∧
      Accounted c.state c.trace 1 .driver 1 demoGoal := by
  obtain ⟨c, -, reached, -, shown⟩ := Machine.exists_of_execution (server Unit ℕ demoConfig)
    Machine.anyStep ([.withHandler] ++ startGoal 0 ++
      [.arrive (.result (some ⟨demoGoal⟩)), .takeResult 1, .lookupResult 1]) []
    (fun c _ => c.trace) rfl
  have taken : .resultTaken 1 .driver 1 demoGoal true ∈ c.trace := by rw [shown]; decide
  refine ⟨c, reached, taken, (result_accounted reached).1 1 .driver 1 demoGoal taken ?_⟩
  rw [ExpiredSince, shown]
  decide

end RosZ.Action
