import RosZ.Action.Results

/-!
# The driver loop

`run_driver_loop` is one `select!` over the service queues, the shutdown token, the
finished goal tasks and a timer that expires goals.  An arm runs to its end before the
next one is selected.

`LoopState` adds the timers to the state of the server: each driver has a tick that may
be due, and takes it when it is idle.  Everything else is a step of the server
(`reachable_server`).

## Blocking

The arm for result requests awaits the result of a goal that has not ended.  `CanTake`
says that a loop gets to a step by finishing the arm it is in, which takes steps of its
own only.  `Free` is the invariant under which every loop can: no driver waits, and no
driver is about to look up a goal that has not ended.
-/

namespace RosZ.Action

open Transition Relation

variable {Goal Result : Type}

/-! ## The loop -/

/-- The server and the expiration timers of its drivers. -/
structure LoopState (Goal Result : Type) where
  server : ServerState Goal Result
  /-- A tick of the driver's timer has not been taken yet. -/
  due : WorkerId → Bool

inductive LoopLabel (Goal Result : Type) where
  | server (label : Label Goal Result)
  /-- The timer of a driver fires. -/
  | timerFires (driver : WorkerId)
  /-- The arm of the expiration timer. -/
  | expirationTick (driver : WorkerId)

namespace LoopState

/-- The result of a step: the state after it and what is observed of it. -/
abbrev After (Goal Result : Type) : Type := LoopState Goal Result × List (Event Result)

/-- A tick that fires while another is due is skipped. -/
def timerFires (s : LoopState Goal Result) (w : WorkerId) : Option (After Goal Result) :=
  match s.server.workers w with
  | some ⟨.driver, _⟩ => some ({ s with due := Function.update s.due w true }, [])
  | _ => none

def expirationTick (s : LoopState Goal Result) (w : WorkerId) : Option (After Goal Result) :=
  match s.server.workers w with
  | some ⟨.driver, .idle⟩ =>
      if s.due w then
        let (server, expired) := s.server.expireGoals
        some ({ server, due := Function.update s.due w false }, expired)
      else none
  | _ => none

def step (s : LoopState Goal Result) : LoopLabel Goal Result → Option (After Goal Result)
  | .server label => (s.server.step label).map fun after => ({ s with server := after.1 }, after.2)
  | .timerFires w => s.timerFires w
  | .expirationTick w => s.expirationTick w

end LoopState

/-- The server with its driver loops. -/
def driverLoop (Goal Result : Type) (cfg : ServerConfig) :
    Machine (LoopState Goal Result) (LoopLabel Goal Result) (Event Result) where
  init := { server := .build cfg, due := fun _ => false }
  step := LoopState.step

/-- What a step of the loop does to the server. -/
inductive LoopStep (s : LoopState Goal Result) :
    LoopLabel Goal Result → List (Event Result) → LoopState Goal Result → Prop
  | server {label : Label Goal Result} {observed : List (Event Result)}
      {after : ServerState Goal Result} (stepped : s.server.step label = some (after, observed)) :
      LoopStep s (.server label) observed { s with server := after }
  | timerFires (w : WorkerId) :
      LoopStep s (.timerFires w) [] { s with due := Function.update s.due w true }
  | expirationTick (w : WorkerId) :
      LoopStep s (.expirationTick w) s.server.expireGoals.2
        { server := s.server.expireGoals.1, due := Function.update s.due w false }

theorem loopStep_sound {s s' : LoopState Goal Result} {label : LoopLabel Goal Result}
    {observed : List (Event Result)} (stepped : s.step label = some (s', observed)) :
    LoopStep s label observed s' := by
  cases label with
  | server label =>
      obtain ⟨⟨after, seen⟩, taken, same⟩ := Option.map_eq_some_iff.mp stepped
      cases same
      exact .server taken
  | timerFires w =>
      simp only [LoopState.step, LoopState.timerFires] at stepped
      split at stepped
      · cases stepped
        exact .timerFires w
      · cases stepped
  | expirationTick w =>
      simp only [LoopState.step, LoopState.expirationTick] at stepped
      split at stepped
      · split at stepped
        · cases stepped
          exact .expirationTick w
        · cases stepped
      · cases stepped

section Runs

variable {cfg : ServerConfig} {c c' : Config (LoopState Goal Result) (Event Result)}
  {allowed : Config (LoopState Goal Result) (Event Result) → LoopLabel Goal Result → Prop}

/-- The server inside the loop takes a step of its own, or none. -/
theorem loop_next {label : LoopLabel Goal Result}
    (moved : (driverLoop Goal Result cfg).next c label = some c') :
    ∃ observed, LoopStep c.state label observed c'.state ∧ c'.trace = c.trace ++ observed := by
  obtain ⟨observed, stepped, grown⟩ := Machine.next_eq_some moved
  exact ⟨observed, loopStep_sound stepped, grown⟩

/-- **Every run of the loop is a run of the server.** -/
theorem reachable_server (reached : (driverLoop Goal Result cfg).Reachable allowed c) :
    (server Goal Result cfg).Reachable Machine.anyStep ⟨c.state.server, c.trace⟩ := by
  refine reached.invariant (P := fun c : Config (LoopState Goal Result) (Event Result) =>
    (server Goal Result cfg).Reachable Machine.anyStep ⟨c.state.server, c.trace⟩)
    ReflTransGen.refl ?_
  intro c label c' reached _ moved
  obtain ⟨observed, step, grown⟩ := loop_next moved
  rw [grown]
  generalize c'.state = after at step
  cases step with
  | @server label _ _ stepped =>
      refine ReflTransGen.tail reached ⟨label, trivial, ?_⟩
      show ((server Goal Result cfg).step c.state.server label).map _ = _
      rw [show (server Goal Result cfg).step c.state.server label = _ from stepped]
      rfl
  | timerFires w =>
      rw [List.append_nil]
      exact reached
  | expirationTick w => exact ReflTransGen.tail reached ⟨.expireGoals, trivial, rfl⟩

end Runs

/-! ## What a loop can do by itself -/

/-- The steps with which a driver finishes the arm it is in. -/
def ownLabels (w : WorkerId) : List (Label Goal Result) :=
  [.processCancel w, .replyCancel w, .lookupResult w, .wakeResult w, .replyResult w]

/-- A step of the driver itself. -/
def OwnStep (w : WorkerId) (s s' : LoopState Goal Result) : Prop :=
  ∃ label ∈ ownLabels w, ∃ observed, s.step (.server label) = some (s', observed)

/-- The loop gets to a step by steps of its own, so without any goal handler. -/
def CanTake (w : WorkerId) (s : LoopState Goal Result) (label : LoopLabel Goal Result) : Prop :=
  ∃ s', ReflTransGen (OwnStep w) s s' ∧ (s'.step label).isSome

/-- Every driver loop can take a cancel request or a result request that is queued, and a tick
that is due. -/
def Responsive (s : LoopState Goal Result) : Prop :=
  ∀ w activity, s.server.workers w = some ⟨.driver, activity⟩ →
    (s.server.cancelQueue.data ≠ [] → CanTake w s (.server (.takeCancel w))) ∧
    (s.server.resultQueue.data ≠ [] → CanTake w s (.server (.takeResult w))) ∧
    (s.due w = true → CanTake w s (.expirationTick w))

/-! ## The condition on the steps -/

/-- The goal is in the table and has not ended. -/
def ServerState.running (s : ServerState Goal Result) (g : GoalId) : Bool :=
  (s.manager.entry g).any fun state => !state.isTerminated

/-- The driver has taken a result request for the goal and not looked it up yet. -/
def ServerState.asksFor (s : ServerState Goal Result) (w : WorkerId) (g : GoalId) : Bool :=
  match s.workers w with
  | some ⟨.driver, .result _ g'⟩ => g' = g
  | _ => false

/-- A driver takes no result request of a goal that runs, and no goal is written to the table
as running while a driver holds a result request for it. -/
def AvoidsRunning (c : Config (LoopState Goal Result) (Event Result)) :
    LoopLabel Goal Result → Prop
  | .server (.takeResult w) =>
      match c.state.server.workers w, c.state.server.resultQueue.data with
      | some ⟨.driver, .idle⟩, ⟨_, some request⟩ :: _ =>
          c.state.server.running request.goalId = false
      | _, _ => True
  | .server (.acceptInsert h) =>
      match c.state.server.handles h with
      | some handle => ∀ w < c.state.server.nextWorker,
          c.state.server.asksFor w handle.info.goalId = false
      | none => True
  | .server (.execute h) =>
      match c.state.server.handles h with
      | some handle => ∀ w < c.state.server.nextWorker,
          c.state.server.asksFor w handle.info.goalId = false
      | none => True
  | _ => True

instance : DecidableRel (@AvoidsRunning Goal Result) := by
  intro c label
  unfold AvoidsRunning
  split
  all_goals try split
  all_goals infer_instance

/-! ## Free loops -/

/-- No driver waits for a goal, nor will it with its next step. -/
structure Free (s : ServerState Goal Result) : Prop where
  awake : ∀ w query g, s.workers w ≠ some ⟨.driver, .resultWait query g⟩
  ended : ∀ w query g, s.workers w = some ⟨.driver, .result query g⟩ → s.running g = false

theorem ServerState.running_of_entry {s : ServerState Goal Result} {g : GoalId}
    {state : ServerGoalState Goal Result} (entry : s.manager.entry g = some state) :
    s.running g = !state.isTerminated := by
  rw [ServerState.running, entry]
  rfl

section Steps

variable {s s' : ServerState Goal Result} {label : Label Goal Result}
  {observed : List (Event Result)}

/-- A step makes a goal run only by writing it to the table on behalf of its handle. -/
theorem Step.running_cases (step : Step s label observed s') (g : GoalId)
    (runs : s'.running g = true) :
    s.running g = true ∨ ∃ h handle, (label = .acceptInsert h ∨ label = .execute h) ∧
      s.handles h = some handle ∧ handle.info.goalId = g := by
  cases step.entryChange g with
  | kept same _ =>
      left
      rwa [ServerState.running, ← same]
  | @written state event writes entry recorded wrote =>
      obtain ⟨h, handle, writer, found, own⟩ := writes
      right
      refine ⟨h, handle, ?_, found, own⟩
      cases step with
      | acceptInsert _ => exact .inl (congrArg _ (Option.some.inj writer))
      | execute _ => exact .inr (congrArg _ (Option.some.inj writer))
      | terminate _ =>
          -- what `terminate` writes has ended
          rw [ServerState.running_of_entry entry] at runs
          cases recorded
          cases state with
          | terminated => cases runs
          | _ => cases wrote
      | _ => cases writer
  | removed _ _ absent _ _ =>
      rw [ServerState.running, absent] at runs
      cases runs

/-- A worker gets to a result request by taking it from the queue, which leaves the table as it
is. -/
theorem Step.result_cases (step : Step s label observed s') {w : WorkerId} {query : QueryId}
    {g : GoalId} (asks : s'.workers w = some ⟨.driver, .result query g⟩) :
    s.workers w = some ⟨.driver, .result query g⟩ ∨
      (label = .takeResult w ∧ s.workers w = some ⟨.driver, .idle⟩ ∧
        (∃ rest, s.resultQueue.data = ⟨query, some ⟨g⟩⟩ :: rest) ∧ s'.manager = s.manager) := by
  cases step.workerChange w with
  | kept same => exact .inl (same.symm.trans asks)
  | created _ _ after =>
      rw [after] at asks
      cases asks
  | moved before after advances =>
      rw [after] at asks
      cases asks
      cases advances with
      | takeResult queued recorded =>
          right
          have taken : .resultTaken w .driver query g (s.manager.entry g).isSome ∈ observed := by
            rw [recorded]
            exact List.mem_singleton_self _
          refine ⟨?_, before, ⟨_, queued⟩, (step.of_resultTaken taken).2.2.2.1⟩
          cases step with
          | takeResult _ _ =>
              cases recorded
              rfl
          | expireGoals => simp at taken
          | _ => cases recorded
  | stopped _ after =>
      rw [after] at asks
      cases asks

/-- What the condition on the steps keeps. -/
theorem Step.free (step : Step s label observed s') {trace : List (Event Result)}
    {due : WorkerId → Bool}
    (meets : AvoidsRunning ⟨⟨s, due⟩, trace⟩ (.server label))
    (fresh : ∀ w, s.nextWorker ≤ w → s.workers w = none) (free : Free s) : Free s' where
  awake w query g waits := by
    cases step.workerChange w with
    | kept same => exact free.awake w query g (same.symm.trans waits)
    | created _ _ after =>
        rw [after] at waits
        cases waits
    | moved before after advances =>
        rw [after] at waits
        cases waits
        cases advances with
        | wait _ known running _ _ =>
            have ended := free.ended w query g before
            rw [ServerState.running_of_entry known, running] at ended
            cases ended
    | stopped _ after =>
        rw [after] at waits
        cases waits
  ended w query g asks := by
    by_contra runs
    rw [Bool.not_eq_false] at runs
    rcases step.result_cases asks with before | ⟨rfl, idle, ⟨rest, queued⟩, same⟩
    · -- the request was held already, so the goal has started to run in this step
      rcases step.running_cases g runs with running | ⟨h, handle, starts, found, own⟩
      · rw [free.ended w query g before] at running
        cases running
      · have known : w < s.nextWorker := by
          by_contra unused
          rw [fresh w (Nat.not_lt.mp unused)] at before
          cases before
        have asked : s.asksFor w handle.info.goalId = true := by
          rw [ServerState.asksFor, before, own]
          exact decide_eq_true rfl
        rcases starts with rfl | rfl
        · simp only [AvoidsRunning, found] at meets
          rw [meets w known] at asked
          cases asked
        · simp only [AvoidsRunning, found] at meets
          rw [meets w known] at asked
          cases asked
    · simp only [AvoidsRunning, idle, queued] at meets
      rw [ServerState.running, same] at runs
      rw [ServerState.running, runs] at meets
      cases meets

/-- Expiry only removes goals. -/
theorem Free.expireGoals (free : Free s) : Free s.expireGoals.1 where
  awake := free.awake
  ended w query g asks := by
    have before := free.ended w query g asks
    by_contra runs
    rw [Bool.not_eq_false] at runs
    have step : Step s .expireGoals s.expireGoals.2 s.expireGoals.1 := .expireGoals
    rcases step.running_cases g runs with running | ⟨h, handle, starts, -, -⟩
    · rw [before] at running
      cases running
    · rcases starts with starts | starts
      · cases starts
      · cases starts

theorem free_build {cfg : ServerConfig} : Free (.build cfg : ServerState Goal Result) where
  awake w query g waits := by
    cases (workers_build waits).2
  ended w query g asks := by
    cases (workers_build asks).2

end Steps

/-! ## Free loops respond -/

section Responses

variable {s : LoopState Goal Result} {w : WorkerId}

/-- The driver gets to its `select!` by steps of its own that leave the queues and its timer as
they are. -/
def Finishes (w : WorkerId) (s : LoopState Goal Result) : Prop :=
  ∃ s', ReflTransGen (OwnStep w) s s' ∧ s'.server.workers w = some ⟨.driver, .idle⟩ ∧
    s'.server.cancelQueue = s.server.cancelQueue ∧
    s'.server.resultQueue = s.server.resultQueue ∧ s'.due = s.due

theorem finishes_of_idle (idle : s.server.workers w = some ⟨.driver, .idle⟩) : Finishes w s :=
  ⟨s, .refl, idle, rfl, rfl, rfl⟩

/-- One more step of the driver's own in front. -/
theorem Finishes.head {label : Label Goal Result} {after : ServerState Goal Result}
    {observed : List (Event Result)} (own : label ∈ ownLabels w)
    (stepped : s.server.step label = some (after, observed))
    (cancels : after.cancelQueue = s.server.cancelQueue)
    (results : after.resultQueue = s.server.resultQueue)
    (rest : Finishes w { s with server := after }) : Finishes w s := by
  obtain ⟨s', steps, idle, cancels', results', due⟩ := rest
  refine ⟨s', .head ⟨label, own, observed, ?_⟩ steps, idle, cancels'.trans cancels,
    results'.trans results, due⟩
  show (s.server.step label).map _ = _
  rw [stepped]
  rfl

theorem workers_setActivity (t : ServerState Goal Result) (w : WorkerId) (mode : Mode)
    (activity : Activity Result) :
    (t.setActivity w mode activity).workers w = some ⟨mode, activity⟩ :=
  Function.update_self ..

theorem finishes_of_cancelReply {query : QueryId} {info : GoalInfo} {cancelled : Bool}
    (works : s.server.workers w = some ⟨.driver, .cancelReply query info cancelled⟩) :
    Finishes w s := by
  obtain ⟨observed, stepped⟩ : ∃ observed, s.server.step (.replyCancel w) =
      some (s.server.setActivity w .driver .idle, observed) := by
    simp only [ServerState.step, ServerState.replyCancel, works]
    exact ⟨_, rfl⟩
  exact .head (by simp [ownLabels]) stepped rfl rfl (finishes_of_idle (workers_setActivity ..))

theorem finishes_of_resultReply {query : QueryId} {g : GoalId} {result : Result}
    {status : GoalStatus}
    (works : s.server.workers w = some ⟨.driver, .resultReply query g result status⟩) :
    Finishes w s := by
  obtain ⟨observed, stepped⟩ : ∃ observed, s.server.step (.replyResult w) =
      some (s.server.setActivity w .driver .idle, observed) := by
    simp only [ServerState.step, ServerState.replyResult, works]
    exact ⟨_, rfl⟩
  exact .head (by simp [ownLabels]) stepped rfl rfl (finishes_of_idle (workers_setActivity ..))

/-- A lookup that finds no running goal ends in a reply, or without one. -/
theorem finishes_of_result {query : QueryId} {g : GoalId}
    (works : s.server.workers w = some ⟨.driver, .result query g⟩)
    (ended : s.server.running g = false) : Finishes w s := by
  cases entry : s.server.manager.entry g with
  | none =>
      have stepped : s.server.step (.lookupResult w) =
          some (s.server.setActivity w .driver .idle, [.resultDropped query g]) := by
        simp only [ServerState.step, ServerState.lookupResult, works,
          GoalManagerInternal.handleResult, entry]
      exact .head (by simp [ownLabels]) stepped rfl rfl
        (finishes_of_idle (workers_setActivity ..))
  | some state =>
      rw [ServerState.running_of_entry entry] at ended
      cases state with
      | terminated result status timestamp expiresAt =>
          have stepped : s.server.step (.lookupResult w) =
              some (s.server.setActivity w .driver (.resultReply query g result status), []) := by
            simp only [ServerState.step, ServerState.lookupResult, works,
              GoalManagerInternal.handleResult, entry]
          exact .head (by simp [ownLabels]) stepped rfl rfl
            (finishes_of_resultReply (workers_setActivity ..))
      | _ => cases ended

/-- A driver that is free finishes the arm it is in. -/
theorem Free.finishes {activity : Activity Result} (free : Free s.server)
    (works : s.server.workers w = some ⟨.driver, activity⟩) : Finishes w s := by
  cases activity with
  | idle => exact finishes_of_idle works
  | cancel query info =>
      obtain ⟨observed, stepped⟩ : ∃ observed, s.server.step (.processCancel w) =
          some ((s.server.markCanceling info.goalId).1.setActivity w .driver
            (.cancelReply query info (s.server.markCanceling info.goalId).2), observed) := by
        simp only [ServerState.step, ServerState.processCancel, works]
        exact ⟨_, rfl⟩
      exact .head (by simp [ownLabels]) stepped rfl rfl
        (finishes_of_cancelReply (workers_setActivity ..))
  | cancelReply query info cancelled => exact finishes_of_cancelReply works
  | result query g => exact finishes_of_result works (free.ended w query g works)
  | resultWait query g => exact absurd works (free.awake w query g)
  | resultReply query g result status => exact finishes_of_resultReply works

/-- An idle driver can take what is in front of it. -/
theorem isSome_takeCancel {t : ServerState Goal Result}
    (idle : t.workers w = some ⟨.driver, .idle⟩) (queued : t.cancelQueue.data ≠ []) :
    (t.step (.takeCancel w)).isSome := by
  simp only [ServerState.step, ServerState.takeCancel, idle, BoundedQueue.tryRecv]
  cases data : t.cancelQueue.data with
  | nil => exact absurd data queued
  | cons query rest =>
      obtain ⟨id, request⟩ := query
      cases request <;> rfl

theorem isSome_takeResult {t : ServerState Goal Result}
    (idle : t.workers w = some ⟨.driver, .idle⟩) (queued : t.resultQueue.data ≠ []) :
    (t.step (.takeResult w)).isSome := by
  simp only [ServerState.step, ServerState.takeResult, idle, BoundedQueue.tryRecv]
  cases data : t.resultQueue.data with
  | nil => exact absurd data queued
  | cons query rest =>
      obtain ⟨id, request⟩ := query
      cases request <;> rfl

theorem Free.responsive (free : Free s.server) : Responsive s := by
  intro w activity works
  obtain ⟨s', steps, idle, cancels, results, due⟩ := free.finishes works
  refine ⟨fun queued => ⟨s', steps, ?_⟩, fun queued => ⟨s', steps, ?_⟩,
    fun fires => ⟨s', steps, ?_⟩⟩
  · rw [← cancels] at queued
    rw [LoopState.step, Option.isSome_map]
    exact isSome_takeCancel idle queued
  · rw [← results] at queued
    rw [LoopState.step, Option.isSome_map]
    exact isSome_takeResult idle queued
  · rw [← due] at fires
    simp [LoopState.step, LoopState.expirationTick, idle, fires]

end Responses

section Runs

variable {cfg : ServerConfig} {c : Config (LoopState Goal Result) (Event Result)}

/-- The loops stay free along runs whose steps meet the condition. -/
theorem reachable_free (reached : (driverLoop Goal Result cfg).Reachable AvoidsRunning c) :
    Free c.state.server := by
  refine (reached.invariant (P := fun c : Config (LoopState Goal Result) (Event Result) =>
    QueryInvariant c.state.server c.trace ∧ Free c.state.server)
    ⟨queryInvariant_build, free_build⟩ ?_).2
  rintro ⟨⟨state, due⟩, trace⟩ label c' ⟨queries, free⟩ meets moved
  obtain ⟨observed, step, grown⟩ := loop_next moved
  rw [grown]
  generalize c'.state = after at step
  cases step with
  | server stepped =>
      have step := step_sound stepped
      exact ⟨step.queryInvariant queries, step.free meets queries.workersFresh free⟩
  | timerFires w =>
      rw [List.append_nil]
      exact ⟨queries, free⟩
  | expirationTick w =>
      have step : Step state .expireGoals state.expireGoals.2 state.expireGoals.1 := .expireGoals
      exact ⟨step.queryInvariant queries, free.expireGoals⟩

/-- **The driver loops respond.**  In a run in which no driver takes a result request of a goal
that runs, and no goal starts to run while a driver holds a result request for it, every loop
can take each request that is queued and each tick that is due, in every state. -/
theorem runs_responsive (reached : (driverLoop Goal Result cfg).Reachable AvoidsRunning c) :
    Responsive c.state :=
  (reachable_free reached).responsive

/-- A driver that waits for an empty channel has no step of its own. -/
theorem not_canTake_of_waiting {s : LoopState Goal Result} {w : WorkerId} {query : QueryId}
    {g : GoalId} (waits : s.server.workers w = some ⟨.driver, .resultWait query g⟩)
    (silent : s.server.mailbox query = none) :
    ¬ CanTake w s (.server (.takeCancel w)) ∧ ¬ CanTake w s (.server (.takeResult w)) ∧
      ¬ CanTake w s (.expirationTick w) := by
  have stuck : ∀ s', ReflTransGen (OwnStep w) s s' → s' = s := by
    intro s' steps
    rcases steps.cases_head with same | ⟨middle, ⟨label, own, observed, stepped⟩, -⟩
    · exact same.symm
    · simp only [ownLabels, List.mem_cons, List.not_mem_nil, or_false] at own
      rcases own with rfl | rfl | rfl | rfl | rfl
      · simp [LoopState.step, ServerState.step, ServerState.processCancel, waits] at stepped
      · simp [LoopState.step, ServerState.step, ServerState.replyCancel, waits] at stepped
      · simp [LoopState.step, ServerState.step, ServerState.lookupResult, waits] at stepped
      · simp [LoopState.step, ServerState.step, ServerState.wakeResult, waits, silent] at stepped
      · simp [LoopState.step, ServerState.step, ServerState.replyResult, waits] at stepped
  refine ⟨?_, ?_, ?_⟩
  · rintro ⟨s', steps, enabled⟩
    rw [stuck s' steps] at enabled
    simp [LoopState.step, ServerState.step, ServerState.takeCancel, waits] at enabled
  · rintro ⟨s', steps, enabled⟩
    rw [stuck s' steps] at enabled
    simp [LoopState.step, ServerState.step, ServerState.takeResult, waits] at enabled
  · rintro ⟨s', steps, enabled⟩
    rw [stuck s' steps] at enabled
    simp [LoopState.step, LoopState.expirationTick, waits] at enabled

end Runs

/-! ### A result request before the cancel request -/

/-- A client starts a goal and asks for its result, then for its cancellation.  The driver is
worker `1`. -/
def resultBeforeCancel : List (Label Unit ℕ) :=
  [.withHandler] ++ startGoal 0 ++
    [.arrive (.result (some ⟨demoGoal⟩)), .takeResult 1, .lookupResult 1,
      .arrive (.cancel (some ⟨⟨demoGoal, ⟨0, 0⟩⟩⟩))]

/-- A client starts a goal and asks for its cancellation. -/
def cancelFirst : List (Label Unit ℕ) :=
  [.withHandler] ++ startGoal 0 ++ [.arrive (.cancel (some ⟨⟨demoGoal, ⟨0, 0⟩⟩⟩))]

/-- The driver waits for the goal to end and cannot take the request that would end it. -/
theorem driverLoop_not_responsive :
    ∃ c, (driverLoop Unit ℕ demoConfig).Reachable Machine.anyStep c ∧ ¬ Responsive c.state := by
  obtain ⟨c, -, reached, -, shown⟩ := @Machine.exists_of_execution _ _ _
    (driverLoop Unit ℕ demoConfig) Machine.anyStep _ _ (resultBeforeCancel.map .server) []
    (fun c _ => (c.state.server.workers 1, c.state.server.mailbox 1,
      c.state.server.cancelQueue.data.isEmpty))
    (some ⟨.driver, .resultWait 1 demoGoal⟩, none, false) rfl
  simp only [Prod.mk.injEq] at shown
  obtain ⟨waits, silent, queued⟩ := shown
  refine ⟨c, reached, fun responsive => ?_⟩
  refine (not_canTake_of_waiting waits silent).1 ((responsive 1 _ waits).1 ?_)
  exact fun empty => by simp [empty] at queued

/-- With the cancel request first, the driver serves it, and then the tick of its timer. -/
theorem runs_responsive_cancelFirst :
    ∃ c, (driverLoop Unit ℕ demoConfig).Reachable AvoidsRunning c ∧
      CanTake 1 c.state (.server (.takeCancel 1)) ∧ CanTake 1 c.state (.expirationTick 1) := by
  obtain ⟨c, -, reached, -, shown⟩ := @Machine.exists_of_execution _ _ _
    (driverLoop Unit ℕ demoConfig) AvoidsRunning _ _
    (cancelFirst.map .server ++ [.timerFires 1]) []
    (fun c _ => (c.state.server.workers 1, c.state.due 1,
      c.state.server.cancelQueue.data.isEmpty))
    (some ⟨.driver, .idle⟩, true, false) rfl
  simp only [Prod.mk.injEq] at shown
  obtain ⟨works, due, queued⟩ := shown
  obtain ⟨cancel, -, tick⟩ := runs_responsive reached 1 _ works
  exact ⟨c, reached, cancel (fun empty => by simp [empty] at queued), tick due⟩

end RosZ.Action
