import RosZ.Action.Finality

/-!
# Accepted goals are known

A client that has been told that its goal was accepted may cancel the goal or ask for
its result at once.  `accept` answers the client before it writes the goal table, and
it runs on a task of its own, so a request that is handled between the two finds no
such goal: a cancel request is turned down and a result request is dropped.
`server_not_acceptedKnown` executes such a schedule.

This window is the only one.  `known_of_accepted` is the invariant behind it: in every
reachable configuration an acceptance that was sent is followed by the goal's expiry,
or the goal is in the table, or some `accept` is between its reply and its write.
-/

namespace RosZ.Action

open Transition
open scoped List

section Window

variable {Goal Result : Type} {s s' : ServerState Goal Result} {label : Label Goal Result}
  {observed : List (Event Result)} {g : GoalId}

/-- The goal that a step looks up in the goal table on behalf of a cancel request or of
a result request. -/
def ServerState.lookedUp (s : ServerState Goal Result) : Label Goal Result → Option GoalId
  | .processCancel w =>
      match s.workers w with
      | some ⟨_, .cancel _ info⟩ => some info.goalId
      | _ => none
  | .requestCancel g => some g
  | .lookupResult w =>
      match s.workers w with
      | some ⟨_, .result _ g⟩ => some g
      | _ => none
  | _ => none

/-- Some `accept` of `g` has sent its reply and not yet written the table. -/
def ServerState.AcceptInFlight (s : ServerState Goal Result) (g : GoalId) : Prop :=
  ∃ h < s.nextHandle, ∃ handle ∈ s.handles h, handle.stage = .replied ∧ handle.info.goalId = g

instance [DecidableEq Result] (s : ServerState Goal Result) (g : GoalId) :
    Decidable (s.AcceptInFlight g) :=
  inferInstanceAs (Decidable (∃ h < s.nextHandle, ∃ handle ∈ s.handles h,
    handle.stage = .replied ∧ handle.info.goalId = g))

/-- An `accept` in flight stays so, or its goal is now in the table. -/
theorem Step.acceptInFlight (step : Step s label observed s')
    (inFlight : s.AcceptInFlight g) :
    s'.AcceptInFlight g ∨ (s'.manager.entry g).isSome = true := by
  obtain ⟨h, bound, handle, found, stage, rfl⟩ := inFlight
  -- Only `acceptInsert` takes a handle out of this stage.
  have other : ∀ {k : HandleId} {handle' : GoalHandle Goal Result}
      (replacement : Option (GoalHandle Goal Result)), s.handles k = some handle' →
      handle'.stage ≠ .replied → Function.update s.handles k replacement h = some handle := by
    intro k handle' replacement found' stage'
    have different : h ≠ k := by
      rintro rfl
      obtain rfl := Option.some.inj (found.symm.trans found')
      exact stage' stage
    rw [Function.update_of_ne different, found]
  cases step with
  | recvGoal queued =>
      refine .inl ⟨h, Nat.lt_succ_of_lt bound, handle, ?_, stage, rfl⟩
      exact (Function.update_of_ne (Nat.ne_of_lt bound) ..).trans found
  | acceptReply found' => exact .inl ⟨h, bound, handle, other _ found' nofun, stage, rfl⟩
  | @acceptInsert k goal info found' =>
      by_cases same : h = k
      · subst same
        obtain rfl := Option.some.inj (found.symm.trans found')
        right
        simp
      · refine .inl ⟨h, bound, handle, ?_, stage, rfl⟩
        exact (Function.update_of_ne same ..).trans found
  | reject found' => exact .inl ⟨h, bound, handle, other _ found' nofun, stage, rfl⟩
  | execute found' => exact .inl ⟨h, bound, handle, other _ found' nofun, stage, rfl⟩
  | terminate found' => exact .inl ⟨h, bound, handle, other _ found' nofun, stage, rfl⟩
  | notify found' => exact .inl ⟨h, bound, handle, other _ found' nofun, stage, rfl⟩
  | finish found' => exact .inl ⟨h, bound, handle, other _ found' nofun, stage, rfl⟩
  | dropHandle found' accepting =>
      exact .inl ⟨h, bound, handle, other _ found' accepting, stage, rfl⟩
  | _ => exact .inl ⟨h, bound, handle, found, stage, rfl⟩

/-- An acceptance is sent by `accept`, whose write is then in flight. -/
theorem Step.acceptInFlight_of_reply {query : QueryId} {response : SendGoalResponse}
    (step : Step s label observed s') (fresh : s.HandlesFresh)
    (sent : .goalReply query g response ∈ observed) (accepted : response.accepted = true) :
    s'.AcceptInFlight g := by
  cases step with
  | @acceptReply h goal info query' found =>
      simp only [List.mem_singleton, Event.goalReply.injEq] at sent
      obtain ⟨-, rfl, -⟩ := sent
      exact ⟨h, fresh.lt found, _, Function.update_self .., rfl, rfl⟩
  | reject found =>
      simp only [List.mem_singleton, Event.goalReply.injEq] at sent
      obtain ⟨-, -, rfl⟩ := sent
      cases accepted
  | expireGoals => simp at sent
  | _ => simp at sent

end Window

/-! ## Runs -/

section Runs

variable {Goal Result : Type} {cfg : ServerConfig}
  {c c' : Config (ServerState Goal Result) (Event Result)} {label : Label Goal Result}
  {allowed : Config (ServerState Goal Result) (Event Result) → Label Goal Result → Prop}

/-- **What becomes of an acceptance.**  After it was sent the goal expired, or the goal
is in the table, or an `accept` of it is between its reply and its write. -/
theorem known_of_accepted (reached : (server Goal Result cfg).Reachable allowed c)
    {query : QueryId} {g : GoalId} {response : SendGoalResponse}
    (sent : .goalReply query g response ∈ c.trace) (accepted : response.accepted = true) :
    [.goalReply query g response, .expired g] <+ c.trace ∨
      (c.state.manager.entry g).isSome = true ∨ c.state.AcceptInFlight g := by
  refine (server_invariant (P := fun s trace => s.HandlesFresh ∧
    (.goalReply query g response ∈ trace →
      [.goalReply query g response, .expired g] <+ trace ∨
        (s.manager.entry g).isSome = true ∨ s.AcceptInFlight g))
    reached ⟨fun _ _ => rfl, nofun⟩ ?_).2 sent
  rintro s trace label observed s' ⟨fresh, known⟩ step
  refine ⟨step.handlesFresh fresh, fun sent => ?_⟩
  rcases List.mem_append.mp sent with before | now
  · rcases known before with expired | present | inFlight
    · exact .inl (expired.trans (List.sublist_append_left ..))
    · cases step.entryChange g with
      | kept same _ => exact .inr (.inl (by rw [same, present]))
      | written _ entry _ _ => exact .inr (.inl (by rw [entry]; rfl))
      | removed _ _ _ recorded _ =>
          exact .inl ((List.singleton_sublist.mpr before).append
            (List.singleton_sublist.mpr recorded))
    · rcases step.acceptInFlight inFlight with inFlight' | present
      · exact .inr (.inr inFlight')
      · exact .inr (.inl present)
  · exact .inr (.inr (step.acceptInFlight_of_reply fresh now accepted))

/-- A step that looks up `g` after an acceptance of `g` was sent finds it, unless it has
expired in between. -/
def AcceptedKnown (c : Config (ServerState Goal Result) (Event Result))
    (label : Label Goal Result) : Prop :=
  ∀ g ∈ c.state.lookedUp label, ∀ query response,
    .goalReply query g response ∈ c.trace → response.accepted = true →
      ¬ [.goalReply query g response, .expired g] <+ c.trace →
        (c.state.manager.entry g).isSome = true

/-- The step does not look up a goal while an `accept` of it is between its reply and its
write to the table. -/
def AvoidsAcceptWindow (c : Config (ServerState Goal Result) (Event Result))
    (label : Label Goal Result) : Prop :=
  ∀ g ∈ c.state.lookedUp label, ¬ c.state.AcceptInFlight g

instance [DecidableEq Result] : DecidableRel
    (AvoidsAcceptWindow : Config (ServerState Goal Result) (Event Result) → _ → Prop) :=
  fun c label => inferInstanceAs
    (Decidable (∀ g ∈ c.state.lookedUp label, ¬ c.state.AcceptInFlight g))

/-- **Accepted means known outside the window of `accept`.**  In every run in which no
request is looked up while an `accept` of its goal is between its reply and its write,
each request that is handled after the acceptance was sent finds its goal, unless the
goal has expired in between. -/
theorem runs_acceptedKnown (reached : (server Goal Result cfg).Reachable AvoidsAcceptWindow c)
    (avoids : AvoidsAcceptWindow c label) : AcceptedKnown c label := by
  intro g lookedUp query response sent accepted current
  rcases known_of_accepted reached sent accepted with expired | present | inFlight
  · exact absurd expired current
  · exact present
  · exact absurd inFlight (avoids g lookedUp)

end Runs

/-! ## The window -/

/-- A driver runs, and a goal request reaches it and is answered. -/
def answeredGoal : List (Label Unit ℕ) :=
  [.withHandler, .arrive (.goal (some ⟨demoGoal, ()⟩)), .recvGoal (some 1) ⟨0, 0⟩, .acceptReply 0]

/-- **An accepted goal may be unknown.**  The driver handles a result request of the
client that was just told that its goal is accepted, and drops it. -/
theorem server_not_acceptedKnown :
    ∃ c c', (server Unit ℕ demoConfig).Reachable Machine.anyStep c ∧
      (server Unit ℕ demoConfig).next c (.lookupResult 1) = some c' ∧
      c'.trace = c.trace ++ [.resultDropped 1 demoGoal] ∧ ¬ AcceptedKnown c (.lookupResult 1) := by
  obtain ⟨c, -, reached, -, shown⟩ := Machine.exists_of_execution (server Unit ℕ demoConfig)
    Machine.anyStep (answeredGoal ++ [.arrive (.result (some ⟨demoGoal⟩)), .takeResult 1]) []
    (fun c _ => (c.trace, c.state.lookedUp (.lookupResult 1), c.state.manager.entry demoGoal,
      ((server Unit ℕ demoConfig).next c (.lookupResult 1)).map Config.trace)) rfl
  simp only [Prod.mk.injEq] at shown
  obtain ⟨trace, lookedUp, entry, after⟩ := shown
  obtain ⟨c', moved, trace'⟩ := Option.map_eq_some_iff.mp after
  refine ⟨c, c', reached, moved, by rw [trace', trace]; rfl, fun known => ?_⟩
  have found := known demoGoal lookedUp 0 ⟨true, 0, 0⟩ (by rw [trace]; decide) rfl
    (by rw [trace]; decide)
  rw [entry] at found
  cases found

/-- A goal is cancelled after its `accept` has returned. -/
theorem runs_acceptedKnown_cancel :
    ∃ c, (server Unit ℕ demoConfig).Reachable AvoidsAcceptWindow c ∧
      c.state.lookedUp (.processCancel 1) = some demoGoal ∧
      .goalReply 0 demoGoal ⟨true, 0, 0⟩ ∈ c.trace ∧ AcceptedKnown c (.processCancel 1) := by
  obtain ⟨c, -, reached, -, shown⟩ := Machine.exists_of_execution (server Unit ℕ demoConfig)
    AvoidsAcceptWindow
    (answeredGoal ++
      [.acceptInsert 0, .arrive (.cancel (some ⟨⟨demoGoal, ⟨0, 0⟩⟩⟩)), .takeCancel 1])
    [] (fun c _ => (c.trace, c.state.lookedUp (.processCancel 1),
      decide (AvoidsAcceptWindow c (.processCancel 1)))) rfl
  simp only [Prod.mk.injEq] at shown
  obtain ⟨trace, lookedUp, avoids⟩ := shown
  exact ⟨c, reached, lookedUp, by rw [trace]; decide,
    runs_acceptedKnown reached (of_decide_eq_true avoids)⟩

end RosZ.Action
