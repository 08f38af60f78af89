import RosZ.Lib.Machine
import RosZ.Action.Client

/-!
# The goal board of an action client

`send_goal` puts the channels of a goal on the board before it sends the request, and `active_goals`
is shared by all clones of the client and all handles.  The entry is to be removed when the call
fails or the goal has its result.

Some ends of a goal leave the entry behind: a response that does not decode, a future that is
dropped, and a handle that is dropped without `result`.  Nothing removes it later, so the board is
free of leaks exactly in the runs in which no goal has ended so (`noLeak_of_reachable`).

## Design notes

What there is of a goal is kept together under its id: its entry, the call that waits for its
response and the Active handle.  The id of a goal is drawn by `GoalId::new`, and no two calls draw
the same one.  A handle is alive also while `result` runs, which owns it.
-/

namespace RosZ.Action.GoalBoard

open Transition

/-! ## The board -/

/-- The senders of the channels of a goal. -/
structure GoalChannels where
  feedbackTx : ℕ
  statusTx : ℕ
  deriving DecidableEq

/-- Where `send_goal` waits: for the request to be sent, or for the response. -/
inductive SendPhase where
  | sending
  | awaiting
  deriving DecidableEq

/-- What is done with an Active handle: nothing, or `result` waits for the status of the goal to be
terminal, or for the result. -/
inductive HandlePhase where
  | idle
  | waiting
  | fetching
  deriving DecidableEq

/-- What there is of a goal id. -/
structure GoalRecord where
  drawn : Bool := false
  /-- The entry of `active_goals`. -/
  channels : Option GoalChannels := none
  call : Option SendPhase := none
  handle : Option HandlePhase := none
  deriving DecidableEq

/-- What happens to a goal. -/
inductive BoardAction where
  | sendGoal (channels : GoalChannels)
  | requestSent
  | sendFailed
  /-- The response channel is closed. -/
  | disconnected
  /-- A response arrives; `none` is a payload that does not decode. -/
  | respond (response : Option SendGoalResponse)
  /-- The future of `send_goal` is dropped. -/
  | dropCall
  | feedbackStream (feedbackTx : ℕ)
  | result
  /-- The status is terminal, or its channel is closed or has been taken from the handle. -/
  | terminal
  /-- `get_result` returns, with the result or with an error. -/
  | resultReturns (ok : Bool)
  /-- The Active handle is dropped, or the future of `result` with it. -/
  | dropHandle
  deriving DecidableEq

/-- The errors of `send_goal`. -/
inductive SendGoalError where
  | sendFailed
  | disconnected
  | malformed
  | rejected
  deriving DecidableEq

inductive BoardEvent where
  | started
  | failed (e : SendGoalError)
  | accepted
  | finished (ok : Bool)
  | dropped
  deriving DecidableEq

/-- `send_goal`, up to its response. -/
def GoalRecord.respond (r : GoalRecord) : Option SendGoalResponse → GoalRecord × List BoardEvent
  | none => ({ r with call := none }, [.failed .malformed])
  | some response =>
      if response.accepted then ({ r with call := none, handle := some .idle }, [.accepted])
      -- Cleanup on rejection
      else ({ r with call := none, channels := none }, [.failed .rejected])

def GoalRecord.step (r : GoalRecord) : BoardAction → Option (GoalRecord × List BoardEvent)
  | .sendGoal channels =>
      if r.drawn then none
      else
        some ({ r with drawn := true, channels := some channels, call := some .sending },
          [.started])
  | .requestSent =>
      if r.call = some .sending then some ({ r with call := some .awaiting }, []) else none
  | .sendFailed =>
      -- Cleanup on send failure
      if r.call = some .sending then
        some ({ r with call := none, channels := none }, [.failed .sendFailed])
      else none
  | .disconnected =>
      if r.call = some .awaiting then some ({ r with call := none }, [.failed .disconnected])
      else none
  | .respond response => if r.call = some .awaiting then some (r.respond response) else none
  | .dropCall => r.call.map fun _ => ({ r with call := none }, [.dropped])
  | .feedbackStream feedbackTx =>
      some ({ r with channels := r.channels.map fun ch => { ch with feedbackTx } }, [])
  | .result =>
      if r.handle = some .idle then some ({ r with handle := some .waiting }, []) else none
  | .terminal =>
      if r.handle = some .waiting then some ({ r with handle := some .fetching }, []) else none
  | .resultReturns ok =>
      -- Cleanup Board
      if r.handle = some .fetching then
        some ({ r with handle := none, channels := none }, [.finished ok])
      else none
  | .dropHandle => r.handle.map fun _ => ({ r with handle := none }, [.dropped])

/-- All goals of a client and its clones. -/
abbrev BoardState := GoalId → GoalRecord

/-- `active_goals`. -/
def activeGoals (s : BoardState) : GoalId → Option GoalChannels := fun g => (s g).channels

/-- Calls and handles in any order. -/
def goalBoard : Machine BoardState (GoalId × BoardAction) (GoalId × BoardEvent) where
  init := fun _ => {}
  step s label := ((s label.1).step label.2).map fun (record, events) =>
    (Function.update s label.1 record, events.map (label.1, ·))

/-! ## Leaks -/

/-- **The board does not leak**: every entry belongs to a call or to an Active handle, and a call
that has failed has left none. -/
structure NoLeak (c : Config BoardState (GoalId × BoardEvent)) : Prop where
  owned : ∀ g, (activeGoals c.state g).isSome = true →
    (c.state g).call.isSome = true ∨ (c.state g).handle.isSome = true
  restored : ∀ g e, (g, .failed e) ∈ c.trace → activeGoals c.state g = none

/-- The ends of a goal that leave its entry behind. -/
def BoardEvent.forgets : BoardEvent → Bool
  | .failed .disconnected | .failed .malformed | .dropped => true
  | _ => false

/-- What brings a goal to such an end: a response that cannot be taken or does not decode, and a
future or a handle that is dropped. -/
def BoardAction.forgets : BoardAction → Bool
  | .disconnected | .respond none | .dropCall | .dropHandle => true
  | _ => false

/-- Every response decodes, and neither futures nor handles are dropped. -/
def SeenThrough (_ : Config BoardState (GoalId × BoardEvent)) (label : GoalId × BoardAction) :
    Prop :=
  label.2.forgets = false

instance : DecidableRel SeenThrough := fun _ label =>
  inferInstanceAs (Decidable (label.2.forgets = false))

/-- **Failed calls leave no mark**: after a run in which only the calls of some goals took part, and
all of them failed, the board is what it was. -/
def Restores (c : Config BoardState (GoalId × BoardEvent)) : Prop :=
  ∀ (calls : Set GoalId) c',
    goalBoard.Runs (fun d label => SeenThrough d label ∧ label.1 ∈ calls) c c' →
    (∀ g ∈ calls, (c.state g).drawn = false ∧ ∃ e, (g, .failed e) ∈ c'.trace) →
      activeGoals c'.state = activeGoals c.state

/-- What has happened to a goal. -/
def about (g : GoalId) (trace : List (GoalId × BoardEvent)) : List BoardEvent :=
  (trace.filter fun event => event.1 = g).map (·.2)

/-! ## The life of a goal -/

/-- The events of a goal that is on its way. -/
def BoardEvent.OnTheWay (event : BoardEvent) : Prop :=
  event.forgets = false ∧ ∀ e, event ≠ .failed e

/-- Where a goal is in its life, by what has happened to it. -/
inductive Life (events : List BoardEvent) : GoalRecord → Prop
  | unborn (nothing : events = []) : Life events {}
  | calling {channels : GoalChannels} {phase : SendPhase}
      (quiet : ∀ event ∈ events, event.OnTheWay) :
      Life events ⟨true, some channels, some phase, none⟩
  | held {channels : GoalChannels} {phase : HandlePhase}
      (quiet : ∀ event ∈ events, event.OnTheWay) :
      Life events ⟨true, some channels, none, some phase⟩
  | removed (kept : ∀ event ∈ events, event.forgets = false) : Life events ⟨true, none, none, none⟩
  | forgotten {channels : GoalChannels} (lost : ∃ event ∈ events, event.forgets = true) :
      Life events ⟨true, some channels, none, none⟩

section Steps

variable {events observed : List BoardEvent} {r r' : GoalRecord} {action : BoardAction}
  {event : BoardEvent}

theorem onTheWay_append (quiet : ∀ event ∈ events, event.OnTheWay) (onTheWay : event.OnTheWay) :
    ∀ e ∈ events ++ [event], e.OnTheWay := by
  simpa [or_imp, forall_and, onTheWay] using quiet

/-- A last event that is not forgetful. -/
theorem kept_append (quiet : ∀ event ∈ events, event.OnTheWay) (keeps : event.forgets = false) :
    ∀ e ∈ events ++ [event], e.forgets = false := by
  intro e listed
  rcases List.mem_append.mp listed with earlier | last
  · exact (quiet e earlier).1
  · rw [List.mem_singleton.mp last, keeps]

theorem lost_append (forgets : event.forgets = true) :
    ∃ e ∈ events ++ [event], e.forgets = true :=
  ⟨event, by simp, forgets⟩

/-- A goal whose call is under way is calling. -/
theorem Life.calling_of {phase : SendPhase} (life : Life events r) (calls : r.call = some phase) :
    ∃ channels, r = ⟨true, some channels, some phase, none⟩ ∧
      ∀ event ∈ events, event.OnTheWay := by
  cases life with
  | @calling channels phase quiet =>
      obtain rfl := Option.some.inj calls
      exact ⟨channels, rfl, quiet⟩
  | _ => cases calls

/-- A goal with an Active handle is held. -/
theorem Life.held_of {phase : HandlePhase} (life : Life events r) (holds : r.handle = some phase) :
    ∃ channels, r = ⟨true, some channels, none, some phase⟩ ∧
      ∀ event ∈ events, event.OnTheWay := by
  cases life with
  | @held channels phase quiet =>
      obtain rfl := Option.some.inj holds
      exact ⟨channels, rfl, quiet⟩
  | _ => cases holds

/-- A goal for which no call was made is unborn. -/
theorem Life.unborn_of (life : Life events r) (undrawn : r.drawn = false) :
    events = [] ∧ r = {} := by
  cases life with
  | unborn nothing => exact ⟨nothing, rfl⟩
  | _ => cases undrawn

/-- Other channels in the entry make no difference. -/
theorem Life.restream (life : Life events r) (f : GoalChannels → GoalChannels) :
    Life events { r with channels := r.channels.map f } := by
  cases life with
  | unborn nothing => exact .unborn nothing
  | calling quiet => exact .calling quiet
  | held quiet => exact .held quiet
  | removed kept => exact .removed kept
  | forgotten lost => exact .forgotten lost

/-- A call that waits for its response ends with it. -/
theorem Life.respond (channels : GoalChannels) (phase : SendPhase)
    (quiet : ∀ event ∈ events, event.OnTheWay) (response : Option SendGoalResponse) :
    Life (events ++ (GoalRecord.respond ⟨true, some channels, some phase, none⟩ response).2)
      (GoalRecord.respond ⟨true, some channels, some phase, none⟩ response).1 := by
  cases response with
  | none => exact .forgotten (lost_append rfl)
  | some response =>
      rw [GoalRecord.respond]
      split
      · exact .held (onTheWay_append quiet ⟨rfl, nofun⟩)
      · exact .removed (kept_append quiet rfl)

/-- **A step leads a goal on in its life.**  One case for each action, which tells the stage. -/
theorem Life.step (life : Life events r) (stepped : r.step action = some (r', observed)) :
    Life (events ++ observed) r' := by
  cases action with simp only [GoalRecord.step, Option.ite_none_right_eq_some,
      Option.ite_none_left_eq_some, Bool.not_eq_true, Option.map_eq_some_iff, Option.some.injEq,
      Prod.mk.injEq] at stepped
  | sendGoal channels =>
      obtain ⟨undrawn, rfl, rfl⟩ := stepped
      obtain ⟨rfl, rfl⟩ := life.unborn_of undrawn
      exact .calling (by simp [BoardEvent.OnTheWay, BoardEvent.forgets])
  | requestSent =>
      obtain ⟨calls, rfl, rfl⟩ := stepped
      obtain ⟨channels, rfl, quiet⟩ := life.calling_of calls
      simpa using Life.calling quiet
  | sendFailed =>
      obtain ⟨calls, rfl, rfl⟩ := stepped
      obtain ⟨channels, rfl, quiet⟩ := life.calling_of calls
      exact .removed (kept_append quiet rfl)
  | disconnected =>
      obtain ⟨calls, rfl, rfl⟩ := stepped
      obtain ⟨channels, rfl, -⟩ := life.calling_of calls
      exact .forgotten (lost_append rfl)
  | respond response =>
      obtain ⟨calls, responded⟩ := stepped
      obtain ⟨channels, rfl, quiet⟩ := life.calling_of calls
      have ended := Life.respond channels .awaiting quiet response
      rwa [responded] at ended
  | dropCall =>
      obtain ⟨phase, calls, rfl, rfl⟩ := stepped
      obtain ⟨channels, rfl, -⟩ := life.calling_of calls
      exact .forgotten (lost_append rfl)
  | feedbackStream feedbackTx =>
      obtain ⟨rfl, rfl⟩ := stepped
      rw [List.append_nil]
      exact life.restream _
  | result | terminal =>
      obtain ⟨holds, rfl, rfl⟩ := stepped
      obtain ⟨channels, rfl, quiet⟩ := life.held_of holds
      simpa using Life.held quiet
  | resultReturns ok =>
      obtain ⟨holds, rfl, rfl⟩ := stepped
      obtain ⟨channels, rfl, quiet⟩ := life.held_of holds
      exact .removed (kept_append quiet rfl)
  | dropHandle =>
      obtain ⟨phase, holds, rfl, rfl⟩ := stepped
      obtain ⟨channels, rfl, -⟩ := life.held_of holds
      exact .forgotten (lost_append rfl)

/-! ## Runs -/

variable {c c' : Config BoardState (GoalId × BoardEvent)} {label : GoalId × BoardAction}
  {allowed : Config BoardState (GoalId × BoardEvent) → GoalId × BoardAction → Prop}

theorem about_append (g : GoalId) (first second : List (GoalId × BoardEvent)) :
    about g (first ++ second) = about g first ++ about g second := by
  simp [about]

theorem about_own (g : GoalId) (observed : List BoardEvent) :
    about g (observed.map (g, ·)) = observed := by
  simp [about, List.filter_map, Function.comp_def]

theorem about_other {g other : GoalId} (different : other ≠ g) (observed : List BoardEvent) :
    about g (observed.map (other, ·)) = [] := by
  simp [about, List.filter_map, Function.comp_def, different]

@[simp] theorem mem_about {g : GoalId} {trace : List (GoalId × BoardEvent)} {event : BoardEvent} :
    event ∈ about g trace ↔ (g, event) ∈ trace := by
  simp [about]

/-- A step is a step of one goal, and all others stay as they are. -/
theorem next_goal (moved : goalBoard.next c label = some c') :
    ∃ record observed, (c.state label.1).step label.2 = some (record, observed) ∧
      c'.state = Function.update c.state label.1 record ∧
      c'.trace = c.trace ++ observed.map (label.1, ·) := by
  obtain ⟨events, stepped, trace⟩ := Machine.next_eq_some moved
  obtain ⟨⟨record, observed⟩, goal, after⟩ := Option.map_eq_some_iff.mp stepped
  simp only [Prod.mk.injEq] at after
  obtain ⟨state, rfl⟩ := after
  exact ⟨record, observed, goal, state.symm, trace⟩

/-- In every run each goal is somewhere in its life. -/
theorem life_of_reachable (reached : goalBoard.Reachable allowed c) (g : GoalId) :
    Life (about g c.trace) (c.state g) := by
  refine reached.invariant
    (P := fun d : Config BoardState _ => Life (about g d.trace) (d.state g)) (.unborn rfl) ?_
  rintro d label d' life - moved
  obtain ⟨record, observed, stepped, state, trace⟩ := next_goal moved
  rw [trace, state, about_append]
  by_cases own : label.1 = g
  · subst own
    rw [about_own, Function.update_self]
    exact life.step stepped
  · rw [about_other own, List.append_nil, Function.update_of_ne (Ne.symm own)]
    exact life

/-- For one goal: it leaks nothing exactly if no end of it was forgetful. -/
theorem Life.leaks_iff (life : Life events r) :
    ((r.channels.isSome = true → r.call.isSome = true ∨ r.handle.isSome = true) ∧
      ∀ e, .failed e ∈ events → r.channels = none) ↔
        ∀ event ∈ events, event.forgets = false := by
  cases life with
  | unborn nothing => simp [nothing]
  | calling quiet | held quiet =>
      simp only [Option.isSome_some, or_true, true_or, implies_true, true_and]
      refine ⟨fun _ event listed => (quiet event listed).1, fun _ e failed => ?_⟩
      exact absurd rfl ((quiet _ failed).2 e)
  | removed kept => simpa using kept
  | forgotten lost =>
      obtain ⟨event, listed, forgets⟩ := lost
      simp only [Option.isSome_some, Option.isSome_none, forall_const, false_and, or_self,
        Bool.false_eq_true, false_iff, not_forall]
      exact ⟨event, listed, by simp [forgets]⟩

/-- The board leaks nothing exactly if no goal has ended forgetfully. -/
theorem noLeak_iff (reached : goalBoard.Reachable allowed c) :
    NoLeak c ↔ ∀ event ∈ c.trace, event.2.forgets = false := by
  have leaks := fun g => (life_of_reachable reached g).leaks_iff
  simp only [mem_about] at leaks
  constructor
  · rintro ⟨owned, restored⟩ ⟨g, event⟩ listed
    exact (leaks g).mp ⟨owned g, restored g⟩ event listed
  · intro kept
    have holds := fun g => (leaks g).mpr fun event listed => kept (g, event) listed
    exact ⟨fun g => (holds g).1, fun g => (holds g).2⟩

/-- A step that is seen through ends no goal forgetfully. -/
theorem GoalRecord.step_keeps (stepped : r.step action = some (r', observed))
    (seen : action.forgets = false) : ∀ event ∈ observed, event.forgets = false := by
  cases action <;> simp [GoalRecord.step, BoardAction.forgets] at stepped seen
  case respond response =>
    cases response with
    | none => cases seen
    | some response =>
        obtain ⟨-, stepped⟩ := stepped
        rw [GoalRecord.respond] at stepped
        split at stepped <;> simp at stepped <;> simp [← stepped.2, BoardEvent.forgets]
  case feedbackStream =>
    obtain ⟨-, rfl⟩ := stepped
    exact nofun
  all_goals
    obtain ⟨-, -, rfl⟩ := stepped
    simp [BoardEvent.forgets]

/-- An entry to which neither a call nor a handle belongs is a leak. -/
theorem not_noLeak_of_left {g : GoalId} {channels : GoalChannels}
    (left : c.state g = ⟨true, some channels, none, none⟩) : ¬ NoLeak c := by
  intro noLeak
  have owner := noLeak.owned g
  simp [activeGoals, left] at owner

/-- What is seen through forgets nothing. -/
theorem kept_of_reachable (reached : goalBoard.Reachable SeenThrough c) :
    ∀ event ∈ c.trace, event.2.forgets = false := by
  refine reached.invariant (P := fun d : Config BoardState (GoalId × BoardEvent) =>
    ∀ event ∈ d.trace, event.2.forgets = false) (by simp [Machine.start]) ?_
  intro d label d' kept seen moved
  obtain ⟨record, observed, stepped, -, trace⟩ := next_goal moved
  rw [trace]
  intro event listed
  rcases List.mem_append.mp listed with earlier | now
  · exact kept event earlier
  · obtain ⟨own, mem, rfl⟩ := List.mem_map.mp now
    exact GoalRecord.step_keeps stepped seen own mem

/-- Goals that take no part in a run keep their entries. -/
theorem activeGoals_frame {calls : Set GoalId} {g : GoalId}
    (run : goalBoard.Runs (fun d label => allowed d label ∧ label.1 ∈ calls) c c')
    (untouched : g ∉ calls) :
    activeGoals c'.state g = activeGoals c.state g := by
  refine run.induct (P := fun d => activeGoals d.state g = activeGoals c.state g) rfl ?_
  rintro d label d' same ⟨-, mem⟩ moved
  obtain ⟨record, observed, -, state, -⟩ := next_goal moved
  have other : g ≠ label.1 := fun same => untouched (same ▸ mem)
  rw [← same, state, activeGoals, activeGoals, Function.update_of_ne other]

end Steps

/-! ## Main results -/

/-- **The board does not leak when goals are seen through.**  In every run, the board is free of
leaks as long as no goal has ended with a response that was not understood, a dropped future or a
dropped handle, and no longer.  Where all goals are seen through, failed calls moreover leave the
board as it was before them. -/
theorem noLeak_of_reachable (c : Config BoardState (GoalId × BoardEvent)) :
    (goalBoard.Reachable Machine.anyStep c →
      (NoLeak c ↔ ∀ event ∈ c.trace, event.2.forgets = false)) ∧
      (goalBoard.Reachable SeenThrough c → NoLeak c ∧ Restores c) := by
  refine ⟨noLeak_iff, fun reached => ⟨(noLeak_iff reached).mpr (kept_of_reachable reached), ?_⟩⟩
  intro calls c' run failed
  have reached' := reached.runs (run.mono fun _ _ both => both.1)
  have noLeak := (noLeak_iff reached').mpr (kept_of_reachable reached')
  funext g
  by_cases mem : g ∈ calls
  · obtain ⟨undrawn, e, ended⟩ := failed g mem
    rw [noLeak.restored g e ended, activeGoals, ((life_of_reachable reached g).unborn_of undrawn).2]
  · exact activeGoals_frame run mem

/-- While one goal runs, the server rejects another: the board keeps the entry of the first. -/
theorem noLeak_of_reachable_rejected :
    ∃ c c' : Config BoardState (GoalId × BoardEvent),
      goalBoard.Reachable SeenThrough c ∧
      goalBoard.Runs (fun d label => SeenThrough d label ∧ label.1 ∈ ({otherGoal} : Set GoalId))
        c c' ∧
      (otherGoal, .failed .rejected) ∈ c'.trace ∧
      activeGoals c.state demoGoal = some ⟨3, 4⟩ ∧ activeGoals c'.state = activeGoals c.state ∧
      NoLeak c' := by
  obtain ⟨c, c', reached, run, shown⟩ := goalBoard.exists_of_continuation SeenThrough
    (fun d label => SeenThrough d label ∧ label.1 = otherGoal)
    [(demoGoal, .sendGoal ⟨3, 4⟩), (demoGoal, .requestSent),
      (demoGoal, .respond (some ⟨true, 0, 0⟩))]
    [(otherGoal, .sendGoal ⟨5, 6⟩), (otherGoal, .requestSent),
      (otherGoal, .respond (some ⟨false, 0, 0⟩))]
    (fun c c' => (activeGoals c.state demoGoal, (c.state otherGoal).drawn, c'.trace))
    (some ⟨3, 4⟩, false, [(demoGoal, .started), (demoGoal, .accepted), (otherGoal, .started),
      (otherGoal, .failed .rejected)]) rfl
  simp only [Prod.mk.injEq] at shown
  obtain ⟨entry, undrawn, trace⟩ := shown
  have rejected : (otherGoal, .failed .rejected) ∈ c'.trace := by rw [trace]; simp
  have restored := ((noLeak_of_reachable c).2 reached).2 {otherGoal} c' run fun g mem => by
    obtain rfl : g = otherGoal := mem
    exact ⟨undrawn, .rejected, rejected⟩
  have reached' := reached.runs (run.mono fun _ _ both => both.1)
  exact ⟨c, c', reached, run, rejected, entry, restored, ((noLeak_of_reachable c').2 reached').1⟩

/-- A schedule that leaves an entry to which no call and no handle belongs. -/
theorem exists_left (schedule : List (GoalId × BoardAction)) (trace : List (GoalId × BoardEvent))
    (channels : GoalChannels)
    (executed : (goalBoard.runLabels Machine.anyStep goalBoard.start schedule).map
      (fun c => (c.trace, c.state demoGoal)) = some (trace, ⟨true, some channels, none, none⟩)) :
    ∃ c, goalBoard.Reachable Machine.anyStep c ∧ c.trace = trace ∧
      activeGoals c.state demoGoal = some channels ∧ ¬ NoLeak c := by
  obtain ⟨c, reached, shown⟩ := goalBoard.exists_of_schedule Machine.anyStep schedule
    (fun c => (c.trace, c.state demoGoal)) _ executed
  obtain ⟨traced, left⟩ := Prod.mk.inj shown
  exact ⟨c, reached, traced, by rw [activeGoals, left], not_noLeak_of_left left⟩

/-- **A response that does not decode leaves the entry on the board**, as do a dropped future of
`send_goal` and a dropped handle. -/
theorem malformed_leaks :
    ∃ malformed cancelled dropped : Config BoardState (GoalId × BoardEvent),
      (goalBoard.Reachable Machine.anyStep malformed ∧
        malformed.trace = [(demoGoal, .started), (demoGoal, .failed .malformed)] ∧
        activeGoals malformed.state demoGoal = some ⟨3, 4⟩ ∧ ¬ NoLeak malformed) ∧
      (goalBoard.Reachable Machine.anyStep cancelled ∧
        cancelled.trace = [(demoGoal, .started), (demoGoal, .dropped)] ∧ ¬ NoLeak cancelled) ∧
      goalBoard.Reachable Machine.anyStep dropped ∧
        dropped.trace = [(demoGoal, .started), (demoGoal, .accepted), (demoGoal, .dropped)] ∧
        ¬ NoLeak dropped := by
  obtain ⟨malformed, reachedMalformed, traceMalformed, entry, leakMalformed⟩ := exists_left
    [(demoGoal, .sendGoal ⟨3, 4⟩), (demoGoal, .requestSent), (demoGoal, .respond none)]
    [(demoGoal, .started), (demoGoal, .failed .malformed)] ⟨3, 4⟩ rfl
  obtain ⟨cancelled, reachedCancelled, traceCancelled, -, leakCancelled⟩ := exists_left
    [(demoGoal, .sendGoal ⟨3, 4⟩), (demoGoal, .dropCall)]
    [(demoGoal, .started), (demoGoal, .dropped)] ⟨3, 4⟩ rfl
  obtain ⟨dropped, reachedDropped, traceDropped, -, leakDropped⟩ := exists_left
    [(demoGoal, .sendGoal ⟨3, 4⟩), (demoGoal, .requestSent),
      (demoGoal, .respond (some ⟨true, 0, 0⟩)), (demoGoal, .dropHandle)]
    [(demoGoal, .started), (demoGoal, .accepted), (demoGoal, .dropped)] ⟨3, 4⟩ rfl
  exact ⟨malformed, cancelled, dropped,
    ⟨reachedMalformed, traceMalformed, entry, leakMalformed⟩,
    ⟨reachedCancelled, traceCancelled, leakCancelled⟩,
    reachedDropped, traceDropped, leakDropped⟩

end RosZ.Action.GoalBoard
