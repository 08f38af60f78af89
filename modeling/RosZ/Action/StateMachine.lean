import RosZ.Action.Cancellation

/-!
# The goal table and the action state machine

`transition_goal_state` says how the status of a goal may change.  The server never calls it: goal
handles write the table on their own, and a cancel request raises a flag and leaves the table as it
is.

## What goes wrong

No write puts a goal into `Canceling`, so a goal whose cancel request was accepted stays
`Executing`, and `canceled` takes it from there to `Canceled`.  `accept` does not look at the table
either: a second goal with an id in use takes the entry over, and the handles of both write it.

Without these three the handles and the table move together.  `ServerState.Owned` is the invariant:
a goal id has at most one handle that may still write its entry, and the entry has the status of
that handle unless it has expired.
-/

namespace RosZ.Action

open Transition

/-! ## The state machine -/

/-- Events that can trigger goal state transitions. -/
inductive GoalEvent where
  | execute | cancelGoal | succeed | abort | canceled
deriving DecidableEq, Repr

/-- The status after an event, `unknown` for an invalid transition. -/
def transitionGoalState : GoalStatus → GoalEvent → GoalStatus
  | .accepted, .execute => .executing
  | .accepted, .cancelGoal => .canceling
  | .executing, .cancelGoal => .canceling
  | .executing, .succeed => .succeeded
  | .executing, .abort => .aborted
  | .canceling, .canceled => .canceled
  | .canceling, .succeed => .succeeded
  | .canceling, .abort => .aborted
  | _, _ => .unknown

variable {Goal Result : Type}

/-- The status that `publish_status` reports of an entry. -/
def ServerGoalState.status : ServerGoalState Goal Result → GoalStatus
  | .accepted .. => .accepted
  | .executing .. => .executing
  | .canceling _ => .canceling
  | .terminated _ status _ _ => status

/-- The status of a goal in the goal table. -/
def ServerState.status (s : ServerState Goal Result) (g : GoalId) : Option GoalStatus :=
  (s.manager.entry g).map ServerGoalState.status

theorem ServerState.status_of_entry {s : ServerState Goal Result} {g : GoalId}
    {state : ServerGoalState Goal Result} (entry : s.manager.entry g = some state) :
    s.status g = some state.status := by
  rw [ServerState.status, entry]
  rfl

/-- Expiry removes entries and changes none. -/
theorem ServerState.status_expireGoals (s : ServerState Goal Result) (g : GoalId) :
    { s with manager := (s.manager.expireGoals s.clock).1 : ServerState Goal Result }.status g =
        s.status g ∨
      { s with manager := (s.manager.expireGoals s.clock).1 : ServerState Goal Result }.status g =
        none := by
  simp only [ServerState.status, GoalManagerInternal.entry_expireGoals]
  cases s.manager.entry g with
  | none => exact .inl rfl
  | some state =>
      rw [Option.filter_some]
      split
      · exact .inl rfl
      · exact .inr rfl

/-! ## What a run should keep to -/

section Statement

variable {cfg : ServerConfig} (c c' : Config (ServerState Goal Result) (Event Result))

/-- The status of `g` changes by a transition if it changes, and becomes `Canceled` from
`Canceling` only. -/
structure FollowsTransition (g : GoalId) : Prop where
  transition : ∀ before after, c.state.status g = some before →
    c'.state.status g = some after → before ≠ after →
      ∃ event, transitionGoalState before event = after ∧ after ≠ .unknown
  canceled : c'.state.status g = some .canceled → c.state.status g ≠ some .canceled →
    c.state.status g = some .canceling

/-- A goal is in `Canceling` from an accepted cancel request on, as long as it has not
terminated. -/
def CancelingUntilEnd (g : GoalId) : Prop :=
  ∀ before source after, c.trace = before ++ .cancelProcessed source g true :: after →
    (∀ h result status, .terminated h g result status ∉ after) →
      c.state.status g = some .canceling

end Statement

/-! ## Handles that may write -/

/-- The status that a handle has given to its goal, as long as it may write the table again. -/
def Stage.status : Stage Result → Option GoalStatus
  | .accepted => some .accepted
  | .executing _ => some .executing
  | _ => none

/-- Some handle other than `h` may write the entry of `g` again. -/
def ServerState.OwnedBeside (s : ServerState Goal Result) (h : HandleId) (g : GoalId) : Prop :=
  ∃ k < s.nextHandle, k ≠ h ∧ ∃ other ∈ s.handles k, other.stage.status ≠ none ∧
    other.info.goalId = g

instance (s : ServerState Goal Result) (h : HandleId) (g : GoalId) :
    Decidable (s.OwnedBeside h g) :=
  inferInstanceAs (Decidable (∃ k < s.nextHandle, k ≠ h ∧ ∃ other ∈ s.handles k,
    other.stage.status ≠ none ∧ other.info.goalId = g))

/-- The goal of the cancel request that a worker is about to process. -/
def Activity.cancelling : Activity Result → Option GoalId
  | .cancel _ info => some info.goalId
  | _ => none

/-- `accept` writes a goal whose id is neither in the table nor in the hands of another handle, no
goal is ended by `canceled`, and no cancel request finds a goal that executes. -/
def KeepsToTransitions (c : Config (ServerState Goal Result) (Event Result)) :
    Label Goal Result → Prop
  | .acceptInsert h => ∀ handle ∈ c.state.handles h,
      c.state.status handle.info.goalId = none ∧ ¬ c.state.OwnedBeside h handle.info.goalId
  | .terminate _ _ outcome => outcome ≠ .canceled
  | .processCancel w => ∀ worker ∈ c.state.workers w, ∀ g ∈ worker.activity.cancelling,
      c.state.manager.cancelFlag g = none
  | .requestCancel g => c.state.manager.cancelFlag g = none
  | _ => True

instance : DecidableRel
    (KeepsToTransitions : Config (ServerState Goal Result) (Event Result) → _ → Prop)
  | c, .acceptInsert h => inferInstanceAs (Decidable (∀ handle ∈ c.state.handles h,
      c.state.status handle.info.goalId = none ∧ ¬ c.state.OwnedBeside h handle.info.goalId))
  | _, .terminate _ _ outcome => inferInstanceAs (Decidable (outcome ≠ .canceled))
  | c, .processCancel w => inferInstanceAs (Decidable (∀ worker ∈ c.state.workers w,
      ∀ g ∈ worker.activity.cancelling, c.state.manager.cancelFlag g = none))
  | c, .requestCancel g => inferInstanceAs (Decidable (c.state.manager.cancelFlag g = none))
  | _, .tick _ | _, .arrive _ | _, .recvGoal _ _ | _, .acceptReply _ | _, .reject _
  | _, .execute _ | _, .notify _ | _, .dropHandle _ | _, .takeCancel _ | _, .replyCancel _
  | _, .takeResult _ | _, .lookupResult _ | _, .wakeResult _ | _, .replyResult _ | _, .expireGoals
  | _, .setResultTimeout _ | _, .withHandler | _, .shutdown | _, .stop _ =>
      inferInstanceAs (Decidable True)

/-! ## Handles and the table -/

section Steps

variable {s s' : ServerState Goal Result} {label : Label Goal Result}
  {trace observed : List (Event Result)}

/-- A goal id has at most one handle that may still write its entry, and the entry, if it has not
expired, has the status of that handle. -/
structure ServerState.Owned (s : ServerState Goal Result) : Prop where
  fresh : s.HandlesFresh
  unique : ∀ {h k : HandleId} {handle other : GoalHandle Goal Result},
    s.handles h = some handle → s.handles k = some other → handle.stage.status ≠ none →
      other.stage.status ≠ none → handle.info.goalId = other.info.goalId → h = k
  agrees : ∀ {h : HandleId} {handle : GoalHandle Goal Result} {status status' : GoalStatus},
    s.handles h = some handle → handle.stage.status = some status →
      s.status handle.info.goalId = some status' → status' = status

/-- A step after which no more handles may write, and no more is in the table, than before. -/
theorem ServerState.Owned.shrink (owned : s.Owned) (fresh : s'.HandlesFresh)
    (handles : ∀ h handle, s'.handles h = some handle → handle.stage.status ≠ none →
      s.handles h = some handle)
    (table : ∀ g status, s'.status g = some status → s.status g = some status) : s'.Owned where
  fresh := fresh
  unique found found' may may' :=
    owned.unique (handles _ _ found may) (handles _ _ found' may') may may'
  agrees {h handle status status'} found stage entry := by
    have may : handle.stage.status ≠ none := by
      rw [stage]
      exact Option.some_ne_none _
    exact owned.agrees (handles h handle found may) stage (table _ _ entry)

/-- A handle that may not write the table any more, or is gone, can be disregarded. -/
theorem ServerState.Owned.update (owned : s.Owned) (fresh : s'.HandlesFresh) {h : HandleId}
    {replacement : Option (GoalHandle Goal Result)}
    (handles : s'.handles = Function.update s.handles h replacement)
    (spent : ∀ handle ∈ replacement, handle.stage.status = none)
    (table : s'.manager.entry = s.manager.entry) : s'.Owned := by
  refine owned.shrink fresh ?_ ?_
  · intro k handle found may
    rw [handles] at found
    rcases PartialMap.update_eq_some_iff.mp found with ⟨-, new⟩ | ⟨-, before⟩
    · exact absurd (spent handle new) may
    · exact before
  · intro g status entry
    rwa [ServerState.status, table] at entry

/-- A handle that nobody shares its goal with writes its own status. -/
theorem ServerState.Owned.write (owned : s.Owned) (fresh : s'.HandlesFresh) {h : HandleId}
    {handle : GoalHandle Goal Result}
    (handles : s'.handles = Function.update s.handles h (some handle))
    (alone : ∀ {k other}, s.handles k = some other → k ≠ h → other.stage.status ≠ none →
      other.info.goalId ≠ handle.info.goalId)
    (table : ∀ g, g ≠ handle.info.goalId → s'.manager.entry g = s.manager.entry g)
    (written : ∀ status, handle.stage.status = some status →
      s'.status handle.info.goalId = some status) : s'.Owned := by
  have away : ∀ {k other}, s'.handles k = some other → k ≠ h → s.handles k = some other := by
    intro k other found different
    rwa [handles, Function.update_of_ne different] at found
  have own : ∀ {other}, s'.handles h = some other → other = handle := by
    intro other found
    rw [handles, Function.update_self] at found
    exact (Option.some.inj found).symm
  constructor
  · exact fresh
  · intro k l a b found found' may may' same
    by_cases isK : k = h <;> by_cases isL : l = h
    · rw [isK, isL]
    · subst isK
      obtain rfl := own found
      exact absurd same.symm (alone (away found' isL) isL may')
    · subst isL
      obtain rfl := own found'
      exact absurd same (alone (away found isK) isK may)
    · exact owned.unique (away found isK) (away found' isL) may may' same
  · intro k a status status' found stage entry
    by_cases isK : k = h
    · subst isK
      obtain rfl := own found
      rw [written status stage] at entry
      exact (Option.some.inj entry).symm
    · have may : a.stage.status ≠ none := by
        rw [stage]
        exact Option.some_ne_none _
      have before := away found isK
      rw [ServerState.status, table _ (alone before isK may)] at entry
      exact owned.agrees before stage entry

theorem Step.owned (step : Step s label observed s') (owned : s.Owned)
    (keeps : KeepsToTransitions ⟨s, trace⟩ label) : s'.Owned := by
  have fresh := step.handlesFresh owned.fresh
  cases step with
  | @recvGoal driver stamp query request rest queued =>
      exact owned.update (h := s.nextHandle) fresh rfl (by rintro _ ⟨⟩; rfl) rfl
  | acceptReply found => exact owned.update fresh rfl (by rintro _ ⟨⟩; rfl) rfl
  | @acceptInsert h goal info found =>
      obtain ⟨-, unshared⟩ := keeps _ found
      refine owned.write fresh rfl ?_ ?_ ?_
      · intro k other found' different may same
        exact unshared ⟨k, owned.fresh.lt found', different, other, found', may, same⟩
      · intro g other
        exact (GoalManagerInternal.entry_accept ..).trans (if_neg other)
      · rintro _ ⟨⟩
        simp [ServerState.status, ServerGoalState.status]
  | reject found => exact owned.update fresh rfl nofun rfl
  | @execute h goal info found =>
      refine owned.write fresh rfl ?_ ?_ ?_
      · intro k other found' different may same
        exact different (owned.unique found' found may nofun same)
      · intro g other
        exact (GoalManagerInternal.entry_execute ..).trans (if_neg other)
      · rintro _ ⟨⟩
        simp [ServerState.status, ServerGoalState.status]
  | @terminate h goal info flag result outcome found =>
      refine owned.write fresh rfl ?_ ?_ nofun
      · intro k other found' different may same
        exact different (owned.unique found' found may nofun same)
      · intro g other
        exact (GoalManagerInternal.entry_terminate ..).trans (if_neg other)
  | notify found => exact owned.update fresh rfl (by rintro _ ⟨⟩; rfl) rfl
  | finish found => exact owned.update fresh rfl nofun rfl
  | dropHandle found => exact owned.update fresh rfl nofun rfl
  | expireGoals =>
      refine owned.shrink fresh (fun _ _ found _ => found) ?_
      intro g status entry
      rcases s.status_expireGoals g with same | gone
      · exact same.symm.trans entry
      · cases gone.symm.trans entry
  | _ => exact owned.shrink fresh (fun _ _ found _ => found) (fun _ _ entry => entry)

theorem FollowsTransition.of_unchanged {g : GoalId}
    (unchanged : s'.status g = s.status g ∨ s'.status g = none) :
    FollowsTransition ⟨s, trace⟩ ⟨s', trace ++ observed⟩ g := by
  constructor
  · intro before after was is different
    rcases unchanged with same | gone
    · exact absurd (Option.some.inj (was.symm.trans (same.symm.trans is))) different
    · cases gone.symm.trans is
  · intro is was
    rcases unchanged with same | gone
    · exact absurd (same.symm.trans is) was
    · cases gone.symm.trans is

/-- An entry may be written if its goal is new or the status before has a transition to `status`. -/
theorem FollowsTransition.of_write {g : GoalId} {status : GoalStatus}
    (written : s'.status g = some status)
    (leads : ∀ before, s.status g = some before →
      ∃ event, transitionGoalState before event = status)
    (valid : status ≠ .unknown) (running : status ≠ .canceled) :
    FollowsTransition ⟨s, trace⟩ ⟨s', trace ++ observed⟩ g := by
  constructor
  · intro before after was is _
    obtain rfl := Option.some.inj (written.symm.trans is)
    obtain ⟨event, reaches⟩ := leads before was
    exact ⟨event, reaches, valid⟩
  · intro is
    exact absurd (Option.some.inj (written.symm.trans is)) running

/-- **One step.**  While the handles and the table agree, a step that keeps to the transitions
changes no status but by one. -/
theorem Step.followsTransition (step : Step s label observed s') (owned : s.Owned)
    (keeps : KeepsToTransitions ⟨s, trace⟩ label) (g : GoalId) :
    FollowsTransition ⟨s, trace⟩ ⟨s', trace ++ observed⟩ g := by
  cases step with
  | @acceptInsert h goal info found =>
      by_cases own : g = info.goalId
      · subst own
        have entry := (s.manager.entry_accept s.clock info.goalId info.goalId goal).trans
          (if_pos rfl)
        refine .of_write (ServerState.status_of_entry entry) ?_ nofun nofun
        intro before was
        rw [(keeps _ found).1] at was
        cases was
      · refine .of_unchanged (.inl ?_)
        simp [ServerState.status, own]
  | @execute h goal info found =>
      by_cases own : g = info.goalId
      · subst own
        have entry := (s.manager.entry_execute s.clock info.goalId info.goalId goal
          s.nextFlag).trans (if_pos rfl)
        refine .of_write (ServerState.status_of_entry entry) ?_ nofun nofun
        intro before was
        obtain rfl := owned.agrees found rfl was
        exact ⟨.execute, rfl⟩
      · refine .of_unchanged (.inl ?_)
        simp [ServerState.status, own]
  | @terminate h goal info flag result outcome found =>
      by_cases own : g = info.goalId
      · subst own
        have entry := (s.manager.entry_terminate s.clock info.goalId info.goalId result
          outcome.status).trans (if_pos rfl)
        refine .of_write (ServerState.status_of_entry entry) ?_ ?_ ?_
        · intro before was
          obtain rfl := owned.agrees found rfl was
          cases outcome with
          | succeed => exact ⟨.succeed, rfl⟩
          | abort => exact ⟨.abort, rfl⟩
          | canceled => exact absurd rfl keeps
        · cases outcome <;> nofun
        · cases outcome with
          | succeed | abort => nofun
          | canceled => exact absurd rfl keeps
      · refine .of_unchanged (.inl ?_)
        simp [ServerState.status, own]
  | expireGoals =>
      exact .of_unchanged (s.status_expireGoals g)
  | _ => exact .of_unchanged (.inl rfl)

/-- No cancel request is accepted. -/
theorem Step.not_cancelProcessed (step : Step s label observed s')
    (keeps : KeepsToTransitions ⟨s, trace⟩ label) (source : Option QueryId) (g : GoalId) :
    .cancelProcessed source g true ∉ observed := by
  intro seen
  obtain ⟨only, f, target, -⟩ := step.of_cancelProcessed seen
  cases step with
  | processCancel taken =>
      have unset := keeps _ taken _ rfl
      obtain ⟨-, rfl, -⟩ := Event.cancelProcessed.inj (List.cons.inj only).1
      rw [target] at unset
      cases unset
  | requestCancel g' =>
      have unset : s.manager.cancelFlag g' = none := keeps
      obtain ⟨-, rfl, -⟩ := Event.cancelProcessed.inj (List.cons.inj only).1
      rw [target] at unset
      cases unset
  | expireGoals => simp at seen
  | _ => simp at seen

end Steps

/-! ## Runs -/

section Runs

variable {cfg : ServerConfig} {c c' : Config (ServerState Goal Result) (Event Result)}
  {label : Label Goal Result}

theorem owned_of_reachable (reached : (server Goal Result cfg).Reachable KeepsToTransitions c) :
    c.state.Owned := by
  refine reached.invariant (P := fun c => c.state.Owned) ?_ ?_
  · exact ⟨fun _ _ => rfl, nofun, nofun⟩
  · intro c label c' owned keeps moved
    obtain ⟨observed, step, -⟩ := server_next moved
    exact step.owned owned keeps

/-- **The goal table follows the state machine.**  In every run in which no id in use is accepted
again, no goal is ended by `canceled` and no cancel request finds a goal that executes, each step
keeps to the transitions, and a goal is in `Canceling` from an accepted cancel request on. -/
theorem runs_followTransitions
    (reached : (server Goal Result cfg).Reachable KeepsToTransitions c) (g : GoalId) :
    CancelingUntilEnd c g ∧ ∀ label c', KeepsToTransitions c label →
      (server Goal Result cfg).next c label = some c' → FollowsTransition c c' g := by
  constructor
  · have silent : ∀ source, .cancelProcessed source g true ∉ c.trace := by
      refine reached.invariant
        (P := fun c => ∀ source, .cancelProcessed source g true ∉ c.trace) nofun ?_
      intro c label c' silent keeps moved source seen
      obtain ⟨observed, step, grown⟩ := server_next moved
      rw [grown] at seen
      rcases List.mem_append.mp seen with before | now
      · exact silent source before
      · exact step.not_cancelProcessed keeps source g now
    intro before source after split
    refine absurd ?_ (silent source)
    rw [split]
    exact List.mem_append_right _ List.mem_cons_self
  · intro label c' keeps moved
    obtain ⟨observed, step, grown⟩ := server_next moved
    have follows := step.followsTransition (owned_of_reachable reached) keeps g
    rwa [← grown] at follows

end Runs

/-- A goal runs to its end and a second goal is accepted when the result of the first expired. -/
theorem runs_followTransitions_sameId :
    ∃ c c', (server Unit ℕ demoConfig).Reachable KeepsToTransitions c ∧
      (server Unit ℕ demoConfig).next c (.terminate 1 43 .abort) = some c' ∧
      c.state.status demoGoal = some .executing ∧ c'.state.status demoGoal = some .aborted ∧
      FollowsTransition c c' demoGoal := by
  obtain ⟨c, reached, shown⟩ := (server Unit ℕ demoConfig).exists_of_schedule KeepsToTransitions
    (startGoal 0 ++ [.terminate 0 42 .succeed, .notify 0, .tick 10, .expireGoals] ++ startGoal 1)
    (fun c => (c.state.status demoGoal,
      ((server Unit ℕ demoConfig).next c (.terminate 1 43 .abort)).map
        fun c' => c'.state.status demoGoal)) (some .executing, some (some .aborted)) rfl
  obtain ⟨before, after⟩ := Prod.mk.inj shown
  obtain ⟨c', moved, aborted⟩ := Option.map_eq_some_iff.mp after
  have notCanceled : Outcome.abort ≠ .canceled := nofun
  exact ⟨c, c', reached, moved, before, aborted,
    (runs_followTransitions reached demoGoal).2 (.terminate 1 43 .abort) c' notCanceled moved⟩

/-- A goal whose cancel request was accepted executes on, and goes to `Canceled` from there. -/
theorem server_not_followTransitions :
    ¬ ∀ c g, (server Unit ℕ demoConfig).Reachable Machine.anyStep c →
      CancelingUntilEnd c g ∧ ∀ label c', (server Unit ℕ demoConfig).next c label = some c' →
        FollowsTransition c c' g := by
  obtain ⟨c, reached, shown⟩ := (server Unit ℕ demoConfig).exists_of_schedule Machine.anyStep
    (startGoal 0 ++ [.requestCancel demoGoal])
    (fun c => (c.state.status demoGoal,
      ((server Unit ℕ demoConfig).next c (.terminate 0 42 .canceled)).map
        fun c' => c'.state.status demoGoal)) (some .executing, some (some .canceled)) rfl
  obtain ⟨before, after⟩ := Prod.mk.inj shown
  obtain ⟨c', moved, canceled⟩ := Option.map_eq_some_iff.mp after
  intro claim
  have reaches := ((claim c demoGoal reached).2 _ c' moved).canceled canceled
    (by rw [before]; nofun)
  rw [before] at reaches
  cases reaches

end RosZ.Action
