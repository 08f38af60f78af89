import RosZ.Action.Server
import RosZ.Lib.PartialMap

/-!
# Invariants of the action server

What every later result about the server rests on: what a step can do to one entry of
the goal table, how the table relates to the trace, and that numbers are handed out
once.

`Step.entryChange` is the only place where the writes to the goal table are analysed.
It says that an entry is kept, written on behalf of a goal handle, or removed by
expiry, and that the trace records which.  `entry_recorded` lifts this to runs: an
entry is always the one that the last write on record has left behind.
-/

namespace RosZ.Action

open Transition

variable {Goal Result : Type}

/-! ## Entries of the goal table -/

section Entries

variable {s s' : ServerState Goal Result} {label : Label Goal Result}
  {observed : List (Event Result)} {g : GoalId}

/-- The event records a write to the entry of `g`, or its removal. -/
def Event.touches (g : GoalId) : Event Result → Bool
  | .accepted _ g' => g' = g
  | .executed _ g' _ => g' = g
  | .terminated _ g' _ _ => g' = g
  | .expired g' => g' = g
  | _ => false

/-- The event records the write that leaves `state` behind as the entry of `g`. -/
def Event.Wrote (g : GoalId) : Event Result → ServerGoalState Goal Result → Prop
  | .accepted _ g', .accepted .. => g' = g
  | .executed _ g' flag', .executing _ flag _ => g' = g ∧ flag' = flag
  | .terminated _ g' result' status', .terminated result status _ _ =>
      g' = g ∧ result' = result ∧ status' = status
  | _, _ => False

theorem Event.Wrote.touches {event : Event Result} {state : ServerGoalState Goal Result}
    (wrote : event.Wrote g state) : event.touches g = true := by
  cases event <;> cases state <;> simp_all [Event.Wrote, Event.touches]

/-- The handle on whose behalf a step writes the table. -/
def Label.writer : Label Goal Result → Option HandleId
  | .acceptInsert h => some h
  | .execute h => some h
  | .terminate h _ _ => some h
  | _ => none

/-- The step with this label writes the entry of `g`. -/
def ServerState.Writes (s : ServerState Goal Result) (label : Label Goal Result) (g : GoalId) :
    Prop :=
  ∃ h handle, label.writer = some h ∧ s.handles h = some handle ∧ handle.info.goalId = g

/-- What a step can do to the entry of a goal. -/
inductive EntryChange (s : ServerState Goal Result) (label : Label Goal Result)
    (observed : List (Event Result)) (s' : ServerState Goal Result) (g : GoalId) : Prop
  | kept (same : s'.manager.entry g = s.manager.entry g)
      (untouched : ∀ event ∈ observed, event.touches g = false)
  | written {state : ServerGoalState Goal Result} {event : Event Result}
      (writes : s.Writes label g) (entry : s'.manager.entry g = some state)
      (recorded : observed = [event]) (wrote : event.Wrote g state)
  | removed {state : ServerGoalState Goal Result} (expiry : label = .expireGoals)
      (before : s.manager.entry g = some state) (absent : s'.manager.entry g = none)
      (recorded : .expired g ∈ observed)
      (only : ∀ event ∈ observed, event.touches g = true → event = .expired g)

/-- A write on behalf of a handle changes the entry of the handle's goal only. -/
theorem entryChange_of_write {h : HandleId} {handle : GoalHandle Goal Result}
    {state : ServerGoalState Goal Result} {event : Event Result}
    (writer : label.writer = some h) (found : s.handles h = some handle)
    (entry : s'.manager.entry g = if g = handle.info.goalId then some state else s.manager.entry g)
    (recorded : observed = [event]) (wrote : event.Wrote handle.info.goalId state)
    (other : g ≠ handle.info.goalId → event.touches g = false) :
    EntryChange s label observed s' g := by
  by_cases own : g = handle.info.goalId
  · rw [if_pos own] at entry
    exact .written ⟨h, handle, writer, found, own.symm⟩ entry recorded (own ▸ wrote)
  · rw [if_neg own] at entry
    refine .kept entry fun event' observed' => ?_
    rw [recorded, List.mem_singleton] at observed'
    rw [observed', other own]

/-- **What a step does to an entry.**  Only the three writes of a goal handle and
expiry touch the goal table. -/
theorem Step.entryChange (step : Step s label observed s') (g : GoalId) :
    EntryChange s label observed s' g := by
  cases step with
  | acceptInsert found =>
      refine entryChange_of_write rfl found (GoalManagerInternal.entry_accept ..) rfl rfl ?_
      exact fun other => decide_eq_false other.symm
  | execute found =>
      refine entryChange_of_write rfl found (GoalManagerInternal.entry_execute ..) rfl
        ⟨rfl, rfl⟩ ?_
      exact fun other => decide_eq_false other.symm
  | terminate found =>
      refine entryChange_of_write rfl found (GoalManagerInternal.entry_terminate ..) rfl
        ⟨rfl, rfl, rfl⟩ ?_
      exact fun other => decide_eq_false other.symm
  | expireGoals =>
      have listed := s.manager.mem_expireGoals s.clock g
      have entry := s.manager.entry_expireGoals s.clock g
      by_cases expires : g ∈ (s.manager.expireGoals s.clock).2
      · obtain ⟨state, before, expired⟩ := listed.mp expires
        refine .removed rfl before ?_ (List.mem_map_of_mem expires) ?_
        · rw [entry, before, Option.filter_some, expired]
          rfl
        · intro event recorded touched
          obtain ⟨g', -, rfl⟩ := List.mem_map.mp recorded
          rw [of_decide_eq_true touched]
      · refine .kept ?_ fun event recorded => ?_
        · cases before : s.manager.entry g with
          | none => rw [entry, before, Option.filter_none]
          | some state =>
              have stays : state.shouldExpire s.clock = false := by
                rw [← Bool.not_eq_true]
                exact fun expired => expires (listed.mpr ⟨state, before, expired⟩)
              rw [entry, before, Option.filter_some, stays]
              rfl
        · obtain ⟨g', expires', rfl⟩ := List.mem_map.mp recorded
          refine decide_eq_false ?_
          rintro rfl
          exact expires expires'
  | _ => exact .kept rfl (by simp [Event.touches])

end Entries

/-! ## Runs -/

section Runs

variable {cfg : ServerConfig} {c c' : Config (ServerState Goal Result) (Event Result)}
  {label : Label Goal Result}
  {allowed : Config (ServerState Goal Result) (Event Result) → Label Goal Result → Prop}

/-- The steps of a run of the server, with what they can do. -/
theorem server_next (moved : (server Goal Result cfg).next c label = some c') :
    ∃ observed, Step c.state label observed c'.state ∧ c'.trace = c.trace ++ observed := by
  obtain ⟨observed, stepped, grown⟩ := Machine.next_eq_some moved
  exact ⟨observed, step_sound stepped, grown⟩

/-- What each step of the server keeps holds in every configuration that is reached. -/
theorem server_invariant {P : ServerState Goal Result → List (Event Result) → Prop}
    (reached : (server Goal Result cfg).Reachable allowed c) (starts : P (.build cfg) [])
    (keeps : ∀ s trace label observed s', P s trace → Step s label observed s' →
      P s' (trace ++ observed)) : P c.state c.trace := by
  refine reached.invariant (P := fun c => P c.state c.trace) starts ?_
  intro c label c' holds _ moved
  obtain ⟨observed, step, grown⟩ := server_next moved
  rw [grown]
  exact keeps _ _ _ _ _ holds step

/-- The last event on record that touches the entry of `g`. -/
def lastWrite (trace : List (Event Result)) (g : GoalId) : Option (Event Result) :=
  (trace.filter (Event.touches g)).getLast?

theorem lastWrite_append (trace observed : List (Event Result)) (g : GoalId) :
    lastWrite (trace ++ observed) g = (lastWrite observed g).or (lastWrite trace g) := by
  rw [lastWrite, List.filter_append, List.getLast?_append]
  rfl

theorem mem_of_lastWrite {trace : List (Event Result)} {g : GoalId} {event : Event Result}
    (last : lastWrite trace g = some event) : event ∈ trace :=
  (List.mem_filter.mp (List.mem_of_getLast? last)).1

theorem lastWrite_of_untouched {observed : List (Event Result)} {g : GoalId}
    (untouched : ∀ event ∈ observed, event.touches g = false) : lastWrite observed g = none := by
  rw [lastWrite, List.filter_eq_nil_iff.mpr (by simpa using untouched)]
  rfl

/-- An entry of the table is what the last write on record has left behind. -/
theorem Step.entry_recorded {s s' : ServerState Goal Result} {trace observed : List (Event Result)}
    {g : GoalId} (step : Step s label observed s')
    (recorded : ∀ state, s.manager.entry g = some state →
      ∃ event, lastWrite trace g = some event ∧ event.Wrote g state) :
    ∀ state, s'.manager.entry g = some state →
      ∃ event, lastWrite (trace ++ observed) g = some event ∧ event.Wrote g state := by
  intro state entry
  rw [lastWrite_append]
  cases step.entryChange g with
  | kept same untouched =>
      rw [lastWrite_of_untouched untouched, Option.none_or]
      exact recorded state (same ▸ entry)
  | @written state' event _ entry' recorded' wrote =>
      obtain rfl := Option.some.inj (entry'.symm.trans entry)
      refine ⟨event, ?_, wrote⟩
      rw [recorded', lastWrite, List.filter_cons_of_pos wrote.touches]
      rfl
  | removed _ _ absent _ _ =>
      rw [absent] at entry
      cases entry

/-- A goal without an entry was never written, or was last seen when it expired. -/
theorem Step.absence_recorded {s s' : ServerState Goal Result}
    {trace observed : List (Event Result)} {g : GoalId} (step : Step s label observed s')
    (recorded : s.manager.entry g = none →
      lastWrite trace g = none ∨ lastWrite trace g = some (.expired g)) :
    s'.manager.entry g = none →
      lastWrite (trace ++ observed) g = none ∨
        lastWrite (trace ++ observed) g = some (.expired g) := by
  intro absent
  rw [lastWrite_append]
  cases step.entryChange g with
  | kept same untouched =>
      rw [lastWrite_of_untouched untouched, Option.none_or]
      exact recorded (same ▸ absent)
  | written _ entry _ _ => cases entry.symm.trans absent
  | removed _ _ _ recorded' only =>
      right
      cases last : lastWrite observed g with
      | none =>
          rw [lastWrite, List.getLast?_eq_none_iff] at last
          cases last ▸ List.mem_filter.mpr ⟨recorded', decide_eq_true rfl⟩
      | some event =>
          have member := List.mem_filter.mp (List.mem_of_getLast? last)
          rw [only event member.1 member.2, Option.some_or]

/-- **The table and the trace agree.** -/
theorem entry_recorded (reached : (server Goal Result cfg).Reachable allowed c) {g : GoalId}
    {state : ServerGoalState Goal Result} (entry : c.state.manager.entry g = some state) :
    ∃ event, lastWrite c.trace g = some event ∧ event.Wrote g state :=
  server_invariant (P := fun s trace => ∀ state, s.manager.entry g = some state →
    ∃ event, lastWrite trace g = some event ∧ event.Wrote g state) reached nofun
    (fun _ _ _ _ _ recorded step => step.entry_recorded recorded) state entry

end Runs

/-! ## Numbers of goal handles -/

section Handles

variable {s s' : ServerState Goal Result} {label : Label Goal Result}
  {observed : List (Event Result)}

/-- Handles are numbered in the order in which they are created. -/
def ServerState.HandlesFresh (s : ServerState Goal Result) : Prop :=
  ∀ h, s.nextHandle ≤ h → s.handles h = none

theorem ServerState.HandlesFresh.lt (fresh : s.HandlesFresh) {h : HandleId}
    {handle : GoalHandle Goal Result} (found : s.handles h = some handle) : h < s.nextHandle :=
  PartialMap.lt_of_found fresh found

/-- An update at a handle that exists does not touch the unused numbers. -/
theorem ServerState.HandlesFresh.update (fresh : s.HandlesFresh) {h : HandleId}
    {handle : GoalHandle Goal Result} (found : s.handles h = some handle)
    (replacement : Option (GoalHandle Goal Result)) {k : HandleId} (unused : s.nextHandle ≤ k) :
    Function.update s.handles h replacement k = none :=
  PartialMap.unused_update fresh found replacement k unused

theorem Step.handlesFresh (step : Step s label observed s') (fresh : s.HandlesFresh) :
    s'.HandlesFresh := by
  intro k unused
  cases step with
  | recvGoal queued => exact PartialMap.unused_next fresh _ k unused
  | acceptReply found => exact fresh.update found _ unused
  | acceptInsert found => exact fresh.update found _ unused
  | reject found => exact fresh.update found _ unused
  | execute found => exact fresh.update found _ unused
  | terminate found => exact fresh.update found _ unused
  | notify found => exact fresh.update found _ unused
  | finish found => exact fresh.update found _ unused
  | dropHandle found => exact fresh.update found _ unused
  | _ => exact fresh k unused

/-- The ways in which a step moves a handle of the goal `g` on. -/
inductive Stage.Advances (s s' : ServerState Goal Result) (h : HandleId) (g : GoalId)
    (observed : List (Event Result)) : Stage Result → Stage Result → Prop
  | reply (query : QueryId) : Advances s s' h g observed (.requested query) .replied
  | insert : Advances s s' h g observed .replied .accepted
  | execute (recorded : observed = [.executed h g s.nextFlag]) :
      Advances s s' h g observed .accepted (.executing s.nextFlag)
  | terminate {flag : FlagId} {result : Result} {status : GoalStatus}
      (recorded : observed = [.terminated h g result status]) :
      Advances s s' h g observed (.executing flag)
        (.notifying result status (s.manager.waiters g))
  | notify {result : Result} {status : GoalStatus} {tx : QueryId} {rest : List QueryId}
      (sent : s'.mailbox tx = some (result, status)) :
      Advances s s' h g observed (.notifying result status (tx :: rest))
        (.notifying result status rest)

/-- What a step can do to a handle. -/
inductive HandleChange (s : ServerState Goal Result) (observed : List (Event Result))
    (s' : ServerState Goal Result) (h : HandleId) : Prop
  | kept (same : s'.handles h = s.handles h)
  | created {goal : Goal} {info : GoalInfo} {query : QueryId} (number : h = s.nextHandle)
      (after : s'.handles h = some ⟨goal, info, .requested query⟩)
  | moved {goal : Goal} {info : GoalInfo} {stage stage' : Stage Result}
      (before : s.handles h = some ⟨goal, info, stage⟩)
      (after : s'.handles h = some ⟨goal, info, stage'⟩)
      (advances : stage.Advances s s' h info.goalId observed stage')
  | closed {handle : GoalHandle Goal Result} (before : s.handles h = some handle)
      (after : s'.handles h = none)
      (notified : ∀ result status futures, handle.stage = .notifying result status futures →
        futures = [])

/-- An update at `k` changes the handle `k` and no other. -/
theorem handleChange_of_update {h k : HandleId} {replacement : Option (GoalHandle Goal Result)}
    (updated : s'.handles = Function.update s.handles k replacement)
    (own : s'.handles k = replacement → HandleChange s observed s' k) :
    HandleChange s observed s' h := by
  by_cases same : h = k
  · subst same
    exact own (by rw [updated, Function.update_self])
  · exact .kept (by rw [updated, Function.update_of_ne same])

theorem Step.handleChange (step : Step s label observed s') (h : HandleId) :
    HandleChange s observed s' h := by
  cases step with
  | recvGoal queued => exact handleChange_of_update rfl (.created rfl)
  | acceptReply found =>
      exact handleChange_of_update rfl fun after => .moved found after (.reply _)
  | acceptInsert found => exact handleChange_of_update rfl fun after => .moved found after .insert
  | reject found => exact handleChange_of_update rfl fun after => .closed found after nofun
  | execute found =>
      exact handleChange_of_update rfl fun after => .moved found after (.execute rfl)
  | terminate found =>
      exact handleChange_of_update rfl fun after => .moved found after (.terminate rfl)
  | notify found =>
      exact handleChange_of_update rfl fun after =>
        .moved found after (.notify (Function.update_self ..))
  | finish found =>
      refine handleChange_of_update rfl fun after => .closed found after ?_
      rintro _ _ _ ⟨⟩
      rfl
  | dropHandle found _ terminating =>
      exact handleChange_of_update rfl fun after =>
        .closed found after fun result status futures stage =>
          absurd stage (terminating result status futures)
  | _ => exact .kept rfl

end Handles

/-! ## Workers -/

section Workers

variable {s s' : ServerState Goal Result} {label : Label Goal Result}
  {observed : List (Event Result)}

/-- The ways in which a step moves a worker on. -/
inductive Activity.Advances (s : ServerState Goal Result) (s' : ServerState Goal Result)
    (w : WorkerId) (mode : Mode) (observed : List (Event Result)) :
    Activity Result → Activity Result → Prop
  | takeCancel (query : QueryId) (info : GoalInfo) :
      Advances s s' w mode observed .idle (.cancel query info)
  | processCancel {query : QueryId} {info : GoalInfo} {cancelled : Bool}
      (recorded : observed = [.cancelProcessed (some query) info.goalId cancelled]) :
      Advances s s' w mode observed (.cancel query info) (.cancelReply query info cancelled)
  | replyCancel {query : QueryId} {info : GoalInfo} {cancelled : Bool}
      (recorded : observed =
        [.cancelReply query ⟨if cancelled then 1 else 0, if cancelled then [info] else []⟩]) :
      Advances s s' w mode observed (.cancelReply query info cancelled) .idle
  | takeResult {query : QueryId} {g : GoalId}
      (queued : s.resultQueue.data = ⟨query, some ⟨g⟩⟩ :: s'.resultQueue.data)
      (recorded : observed = [.resultTaken w mode query g (s.manager.entry g).isSome]) :
      Advances s s' w mode observed .idle (.result query g)
  | found {query : QueryId} {g : GoalId} {result : Result} {status : GoalStatus}
      {timestamp : ℕ} {expiresAt : Option ℕ}
      (terminated : s.manager.entry g = some (.terminated result status timestamp expiresAt))
      (silent : observed = []) :
      Advances s s' w mode observed (.result query g) (.resultReply query g result status)
  | wait {query : QueryId} {g : GoalId} {state : ServerGoalState Goal Result}
      (driver : mode = .driver) (known : s.manager.entry g = some state)
      (running : state.isTerminated = false)
      (registered : s'.manager = s.manager.addWaiter g query) (silent : observed = []) :
      Advances s s' w mode observed (.result query g) (.resultWait query g)
  | drop {query : QueryId} {g : GoalId}
      (unanswered : s.manager.entry g = none ∨ mode = .legacy ∧
        ∃ state, s.manager.entry g = some state ∧ state.isTerminated = false)
      (recorded : observed = [.resultDropped query g]) :
      Advances s s' w mode observed (.result query g) .idle
  | wake {query : QueryId} {g : GoalId} {result : Result} {status : GoalStatus}
      (sent : s.mailbox query = some (result, status)) (silent : observed = []) :
      Advances s s' w mode observed (.resultWait query g) (.resultReply query g result status)
  | reply {query : QueryId} {g : GoalId} {result : Result} {status : GoalStatus}
      (recorded : observed = [.resultReply query g ⟨status.toI8, result⟩]) :
      Advances s s' w mode observed (.resultReply query g result status) .idle

/-- What a step can do to a worker. -/
inductive WorkerChange (s : ServerState Goal Result) (observed : List (Event Result))
    (s' : ServerState Goal Result) (w : WorkerId) : Prop
  | kept (same : s'.workers w = s.workers w)
  | created (number : w = s.nextWorker) (next : s'.nextWorker = s.nextWorker + 1)
      (after : s'.workers w = some ⟨.driver, .idle⟩)
  | moved {mode : Mode} {activity activity' : Activity Result}
      (before : s.workers w = some ⟨mode, activity⟩)
      (after : s'.workers w = some ⟨mode, activity'⟩)
      (advances : activity.Advances s s' w mode observed activity')
  | stopped {mode : Mode} (before : s.workers w = some ⟨mode, .idle⟩) (after : s'.workers w = none)

/-- An update at `k` changes the worker `k` and no other. -/
theorem workerChange_of_update {w k : WorkerId} {replacement : Option (Worker Result)}
    (updated : s'.workers = Function.update s.workers k replacement)
    (own : s'.workers k = replacement → WorkerChange s observed s' k) :
    WorkerChange s observed s' w := by
  by_cases same : w = k
  · subst same
    exact own (by rw [updated, Function.update_self])
  · exact .kept (by rw [updated, Function.update_of_ne same])

theorem Step.workerChange (step : Step s label observed s') (w : WorkerId) :
    WorkerChange s observed s' w := by
  cases step with
  | takeCancel idle _ =>
      exact workerChange_of_update rfl fun after => .moved idle after (.takeCancel _ _)
  | processCancel taken =>
      exact workerChange_of_update rfl fun after => .moved taken after (.processCancel rfl)
  | replyCancel processed =>
      exact workerChange_of_update rfl fun after => .moved processed after (.replyCancel rfl)
  | takeResult idle queued =>
      exact workerChange_of_update rfl fun after =>
        .moved idle after (.takeResult (BoundedQueue.tryRecv_eq_some queued) rfl)
  | resultFound taken terminated =>
      exact workerChange_of_update rfl fun after => .moved taken after (.found terminated rfl)
  | resultWaits taken known running =>
      exact workerChange_of_update rfl fun after =>
        .moved taken after (.wait rfl known running rfl rfl)
  | resultDrops taken unanswered =>
      exact workerChange_of_update rfl fun after => .moved taken after (.drop unanswered rfl)
  | wakeResult waits sent =>
      exact workerChange_of_update rfl fun after => .moved waits after (.wake sent rfl)
  | replyResult ready =>
      exact workerChange_of_update rfl fun after => .moved ready after (.reply rfl)
  | withHandler => exact workerChange_of_update rfl fun after => .created rfl rfl after
  | stop idle => exact workerChange_of_update rfl fun after => .stopped idle after
  | _ => exact .kept rfl

end Workers

/-! ## A small server to execute schedules on -/

/-- A goal id for schedules. -/
def demoGoal : GoalId := ⟨Vector.replicate 16 1⟩

/-- Keep-all queues, a goal timeout of `5` and a result timeout of `10`. -/
def demoConfig : ServerConfig where
  goalDepth := 10
  cancelDepth := 10
  resultDepth := 10
  resultTimeout := 10
  goalTimeout := some 5

/-- A goal request is taken and accepted, and the goal starts to execute. -/
def startGoal (h : HandleId) : List (Label Unit ℕ) :=
  [.arrive (.goal (some ⟨demoGoal, ()⟩)), .recvGoal none ⟨0, 0⟩, .acceptReply h, .acceptInsert h,
    .execute h]

end RosZ.Action
