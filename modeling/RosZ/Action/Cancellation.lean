import RosZ.Action.Invariants

/-!
# Cancel requests reach the handle they are meant for

A cancel request sets the flag that it finds in the goal table, and the task that
executes the goal polls the flag that its handle holds.  The entry of a goal may be
replaced at any time, also by a second goal with the same id, so it has to be shown
that the two are the same flag.

The invariant follows each flag through the trace: it is created by one `execute`, the
entry that carries it was last written by that call, and it is raised only by a cancel
request that was processed after the call and named the goal of its handle.
-/

namespace RosZ.Action

open Transition
open scoped List

variable {Goal Result : Type}

/-- `is_cancel_requested` on a handle. -/
def ServerState.isCancelRequested (s : ServerState Goal Result)
    (handle : GoalHandle Goal Result) : Bool :=
  match handle.stage with
  | .executing flag => s.flags flag
  | _ => false

section Steps

variable {s s' : ServerState Goal Result} {label : Label Goal Result}
  {observed : List (Event Result)}

/-- What a step can do to a flag. -/
inductive FlagChange (s : ServerState Goal Result) (observed : List (Event Result))
    (s' : ServerState Goal Result) (f : FlagId) : Prop
  | kept (same : s'.flags f = s.flags f)
  | created (number : f = s.nextFlag) (lowered : s'.flags f = false)
  | raised {source : Option QueryId} {g : GoalId} (target : s.manager.cancelFlag g = some f)
      (recorded : observed = [.cancelProcessed source g true]) (high : s'.flags f = true)

theorem cancelFlag_eq_some {m : GoalManagerInternal Goal Result} {g : GoalId} {f : FlagId} :
    m.cancelFlag g = some f ↔ ∃ goal expiresAt, m.entry g = some (.executing goal f expiresAt) := by
  unfold GoalManagerInternal.cancelFlag
  constructor
  · intro found
    split at found
    · next entry => exact ⟨_, _, Option.some.inj found ▸ entry⟩
    · cases found
  · rintro ⟨goal, expiresAt, entry⟩
    rw [entry]

theorem flagChange_of_markCanceling {source : Option QueryId} {g : GoalId} (f : FlagId)
    (flags : s'.flags = (s.markCanceling g).1.flags)
    (recorded : observed = [.cancelProcessed source g (s.markCanceling g).2]) :
    FlagChange s observed s' f := by
  cases target : s.manager.cancelFlag g with
  | none => exact .kept (by simp [flags, ServerState.markCanceling, target])
  | some f' =>
      by_cases same : f = f'
      · subst same
        have event : observed = [.cancelProcessed source g true] := by
          simp [recorded, ServerState.markCanceling, target]
        exact .raised target event (by simp [flags, ServerState.markCanceling, target])
      · exact .kept (by simp [flags, ServerState.markCanceling, target, same])

theorem Step.flagChange (step : Step s label observed s') (f : FlagId) :
    FlagChange s observed s' f := by
  cases step with
  | execute found =>
      by_cases same : f = s.nextFlag
      · exact .created same (by rw [same]; exact Function.update_self ..)
      · exact .kept (Function.update_of_ne same ..)
  | processCancel taken => exact flagChange_of_markCanceling f rfl rfl
  | requestCancel g => exact flagChange_of_markCanceling f rfl rfl
  | _ => exact .kept rfl

theorem Step.nextFlag_le (step : Step s label observed s') : s.nextFlag ≤ s'.nextFlag := by
  cases step with
  | execute => exact Nat.le_succ _
  | _ => exact le_rfl

theorem Step.nextHandle_le (step : Step s label observed s') : s.nextHandle ≤ s'.nextHandle := by
  cases step with
  | recvGoal => exact Nat.le_succ _
  | _ => exact le_rfl

/-- An `execute` that is observed is that of an accepted handle, with a new flag. -/
theorem Step.of_executed {h : HandleId} {g : GoalId} {f : FlagId}
    (step : Step s label observed s') (seen : .executed h g f ∈ observed) :
    f = s.nextFlag ∧ s'.nextFlag = s.nextFlag + 1 ∧ ∃ goal info, info.goalId = g ∧
      s.handles h = some ⟨goal, info, .accepted⟩ ∧
      s'.handles h = some ⟨goal, info, .executing f⟩ := by
  cases step with
  | execute found =>
      simp only [List.mem_singleton, Event.executed.injEq] at seen
      obtain ⟨rfl, rfl, rfl⟩ := seen
      exact ⟨rfl, rfl, _, _, rfl, found, Function.update_self ..⟩
  | expireGoals => simp at seen
  | _ => simp at seen

/-- A cancel request that is observed to have found a running goal has raised the flag
in its entry. -/
theorem Step.of_cancelProcessed {source : Option QueryId} {g : GoalId}
    (step : Step s label observed s') (seen : .cancelProcessed source g true ∈ observed) :
    observed = [.cancelProcessed source g true] ∧
      ∃ f, s.manager.cancelFlag g = some f ∧ s'.flags f = true := by
  have raised : ∀ {source' : Option QueryId} {g' : GoalId},
      .cancelProcessed source g true ∈
        [(.cancelProcessed source' g' (s.markCanceling g').2 : Event Result)] →
      s'.flags = (s.markCanceling g').1.flags →
      source' = source ∧ g' = g ∧ (s.markCanceling g').2 = true ∧
        ∃ f, s.manager.cancelFlag g = some f ∧ s'.flags f = true := by
    intro source' g' seen flags
    simp only [List.mem_singleton, Event.cancelProcessed.injEq] at seen
    obtain ⟨rfl, rfl, cancelled⟩ := seen
    obtain ⟨f, target⟩ := Option.isSome_iff_exists.mp cancelled.symm
    refine ⟨rfl, rfl, cancelled.symm, f, target, ?_⟩
    simp [flags, ServerState.markCanceling, target]
  cases step with
  | processCancel taken =>
      obtain ⟨rfl, rfl, cancelled, target⟩ := raised seen rfl
      exact ⟨by rw [cancelled], target⟩
  | requestCancel g' =>
      obtain ⟨rfl, rfl, cancelled, target⟩ := raised seen rfl
      exact ⟨by rw [cancelled], target⟩
  | expireGoals => simp at seen
  | _ => simp at seen

end Steps

/-! ## Flags and the trace -/

/-- How cancel flags, handles and the trace belong together. -/
structure FlagInvariant (s : ServerState Goal Result) (trace : List (Event Result)) : Prop where
  handlesFresh : s.HandlesFresh
  /-- The table is what the trace says. -/
  recorded : ∀ g state, s.manager.entry g = some state →
    ∃ event, lastWrite trace g = some event ∧ event.Wrote g state
  /-- An `execute` on record used up a handle and a flag. -/
  used : ∀ h g f, .executed h g f ∈ trace → h < s.nextHandle ∧ f < s.nextFlag
  /-- After its `execute` a handle keeps its goal and its flag. -/
  keeps : ∀ h g f goal info stage, .executed h g f ∈ trace →
    s.handles h = some ⟨goal, info, stage⟩ → info.goalId = g ∧
      (stage = .executing f ∨ ∃ result status futures, stage = .notifying result status futures)
  /-- An executing handle has an `execute` on record. -/
  running : ∀ h goal info f, s.handles h = some ⟨goal, info, .executing f⟩ →
    .executed h info.goalId f ∈ trace
  /-- A flag belongs to one `execute`. -/
  unique : ∀ h g h' g' f, .executed h g f ∈ trace → .executed h' g' f ∈ trace → h = h' ∧ g = g'
  /-- A flag is raised by a later cancel request for its goal. -/
  raised : ∀ h g f, .executed h g f ∈ trace → s.flags f = true →
    ∃ source, [.executed h g f, .cancelProcessed source g true] <+ trace
  /-- A cancel request raised the flag of the call that wrote the entry it found. -/
  delivered : ∀ before source g after, trace = before ++ .cancelProcessed source g true :: after →
    ∃ h f, lastWrite before g = some (.executed h g f) ∧ s.flags f = true

section Preservation

variable {s s' : ServerState Goal Result} {label : Label Goal Result}
  {trace observed : List (Event Result)}

/-- The flag that a cancel request finds is that of the call that wrote the entry. -/
theorem FlagInvariant.target (inv : FlagInvariant s trace) {g : GoalId} {f : FlagId}
    (target : s.manager.cancelFlag g = some f) :
    ∃ h, lastWrite trace g = some (.executed h g f) := by
  obtain ⟨goal, expiresAt, entry⟩ := cancelFlag_eq_some.mp target
  obtain ⟨event, last, wrote⟩ := inv.recorded g _ entry
  cases event with
  | executed h g' f' =>
      obtain ⟨rfl, rfl⟩ := wrote
      exact ⟨h, last⟩
  | _ => exact wrote.elim

theorem FlagInvariant.step_used (inv : FlagInvariant s trace) (step : Step s label observed s')
    (h : HandleId) (g : GoalId) (f : FlagId) (seen : .executed h g f ∈ trace ++ observed) :
    h < s'.nextHandle ∧ f < s'.nextFlag := by
  rcases List.mem_append.mp seen with before | now
  · obtain ⟨handle, flag⟩ := inv.used h g f before
    exact ⟨lt_of_lt_of_le handle step.nextHandle_le, lt_of_lt_of_le flag step.nextFlag_le⟩
  · obtain ⟨rfl, next, goal, info, -, found, -⟩ := step.of_executed now
    exact ⟨lt_of_lt_of_le (inv.handlesFresh.lt found) step.nextHandle_le,
      next ▸ Nat.lt_succ_self _⟩

theorem FlagInvariant.step_keeps (inv : FlagInvariant s trace) (step : Step s label observed s')
    (h : HandleId) (g : GoalId) (f : FlagId) (goal : Goal) (info : GoalInfo)
    (stage : Stage Result) (seen : .executed h g f ∈ trace ++ observed)
    (handle : s'.handles h = some ⟨goal, info, stage⟩) : info.goalId = g ∧
      (stage = .executing f ∨
        ∃ result status futures, stage = .notifying result status futures) := by
  rcases List.mem_append.mp seen with before | now
  · cases step.handleChange h with
    | kept same => exact inv.keeps h g f goal info stage before (same ▸ handle)
    | created number _ => exact absurd number (Nat.ne_of_lt (inv.used h g f before).1)
    | moved found after advances =>
        rw [after] at handle
        cases handle
        obtain ⟨own, phase⟩ := inv.keeps h g f goal info _ before found
        refine ⟨own, ?_⟩
        -- An executed handle can only terminate or go on notifying.
        cases advances with
        | terminate => exact .inr ⟨_, _, _, rfl⟩
        | notify => exact .inr ⟨_, _, _, rfl⟩
        | _ => rcases phase with phase | ⟨_, _, _, phase⟩ <;> cases phase
    | closed _ after _ =>
        rw [after] at handle
        cases handle
  · obtain ⟨rfl, -, goal', info', rfl, -, after⟩ := step.of_executed now
    rw [after] at handle
    cases handle
    exact ⟨rfl, .inl rfl⟩

theorem FlagInvariant.step_running (inv : FlagInvariant s trace) (step : Step s label observed s')
    (h : HandleId) (goal : Goal) (info : GoalInfo) (f : FlagId)
    (handle : s'.handles h = some ⟨goal, info, .executing f⟩) :
    .executed h info.goalId f ∈ trace ++ observed := by
  cases step.handleChange h with
  | kept same => exact List.mem_append_left _ (inv.running h goal info f (same ▸ handle))
  | created _ after =>
      rw [after] at handle
      cases handle
  | moved _ after advances =>
      rw [after] at handle
      cases handle
      cases advances with
      | execute recorded => simp [recorded]
  | closed _ after _ =>
      rw [after] at handle
      cases handle

theorem FlagInvariant.step_unique (inv : FlagInvariant s trace) (step : Step s label observed s')
    (h : HandleId) (g : GoalId) (h' : HandleId) (g' : GoalId) (f : FlagId)
    (seen : .executed h g f ∈ trace ++ observed) (seen' : .executed h' g' f ∈ trace ++ observed) :
    h = h' ∧ g = g' := by
  rcases List.mem_append.mp seen with before | now <;>
    rcases List.mem_append.mp seen' with before' | now'
  · exact inv.unique h g h' g' f before before'
  · exact absurd (inv.used h g f before).2 (by rw [(step.of_executed now').1]; exact lt_irrefl _)
  · exact absurd (inv.used h' g' f before').2 (by rw [(step.of_executed now).1]; exact lt_irrefl _)
  · cases step with
    | execute found => simp_all
    | expireGoals => simp at now
    | _ => simp at now

theorem FlagInvariant.step_raised (inv : FlagInvariant s trace) (step : Step s label observed s')
    (h : HandleId) (g : GoalId) (f : FlagId) (seen : .executed h g f ∈ trace ++ observed)
    (raised : s'.flags f = true) :
    ∃ source, [.executed h g f, .cancelProcessed source g true] <+ trace ++ observed := by
  rcases List.mem_append.mp seen with before | now
  · cases step.flagChange f with
    | kept same =>
        obtain ⟨source, processed⟩ := inv.raised h g f before (same ▸ raised)
        exact ⟨source, processed.trans (List.sublist_append_left ..)⟩
    | created number _ => exact absurd number (Nat.ne_of_lt (inv.used h g f before).2)
    | @raised source g' target recorded _ =>
        obtain ⟨h', last⟩ := inv.target target
        obtain ⟨-, rfl⟩ := inv.unique h g h' g' f before (mem_of_lastWrite last)
        rw [recorded]
        exact ⟨source, (List.singleton_sublist.mpr before).append (List.Sublist.refl _)⟩
  · have number := (step.of_executed now).1
    cases step with
    | execute found =>
        rw [number] at raised
        exact absurd raised (by simp)
    | expireGoals => simp at now
    | _ => simp at now

theorem FlagInvariant.step_delivered (inv : FlagInvariant s trace)
    (step : Step s label observed s') (before : List (Event Result)) (source : Option QueryId)
    (g : GoalId) (after : List (Event Result))
    (split : trace ++ observed = before ++ .cancelProcessed source g true :: after) :
    ∃ h f, lastWrite before g = some (.executed h g f) ∧ s'.flags f = true := by
  rcases split_append split with ⟨after', earlier⟩ | ⟨before', rfl, now⟩
  · obtain ⟨h, f, last, raised⟩ := inv.delivered before source g after' earlier
    refine ⟨h, f, last, ?_⟩
    have recorded : .executed h g f ∈ trace := by
      rw [earlier]
      exact List.mem_append_left _ (mem_of_lastWrite last)
    cases step.flagChange f with
    | kept same => rw [same, raised]
    | created number _ => exact absurd number (Nat.ne_of_lt (inv.used h g f recorded).2)
    | raised _ _ high => exact high
  · have seen : .cancelProcessed source g true ∈ observed := by rw [now]; simp
    obtain ⟨single, f, target, raised⟩ := step.of_cancelProcessed seen
    obtain ⟨h, last⟩ := inv.target target
    refine ⟨h, f, ?_, raised⟩
    -- The cancel request is all that the step shows, so `before` is the trace so far.
    rw [single] at now
    obtain ⟨rfl, -⟩ : before' = [] ∧ after = [] := by
      cases before' <;> simp_all
    rw [List.append_nil, last]

theorem Step.flagInvariant (step : Step s label observed s') (inv : FlagInvariant s trace) :
    FlagInvariant s' (trace ++ observed) where
  handlesFresh := step.handlesFresh inv.handlesFresh
  recorded _ := step.entry_recorded (inv.recorded _)
  used := inv.step_used step
  keeps := inv.step_keeps step
  running := inv.step_running step
  unique := inv.step_unique step
  raised := inv.step_raised step
  delivered := inv.step_delivered step

end Preservation

/-! ## Runs -/

section Runs

variable {cfg : ServerConfig} {c c' : Config (ServerState Goal Result) (Event Result)}
  {allowed : Config (ServerState Goal Result) (Event Result) → Label Goal Result → Prop}

theorem flagInvariant_build : FlagInvariant (.build cfg : ServerState Goal Result) [] where
  handlesFresh _ _ := rfl
  recorded := nofun
  used := nofun
  keeps := nofun
  running := nofun
  unique := nofun
  raised := nofun
  delivered := by simp

theorem reachable_flagInvariant (reached : (server Goal Result cfg).Reachable allowed c) :
    FlagInvariant c.state c.trace :=
  server_invariant reached flagInvariant_build fun _ _ _ _ _ inv step => step.flagInvariant inv

/-- A worker that is about to list a goal has processed the request for it. -/
def RepliesProcessed (s : ServerState Goal Result) (trace : List (Event Result)) : Prop :=
  (∀ w mode query info, s.workers w = some ⟨mode, .cancelReply query info true⟩ →
    .cancelProcessed (some query) info.goalId true ∈ trace) ∧
  ∀ query response info, .cancelReply query response ∈ trace → info ∈ response.goalsCanceling →
    .cancelProcessed (some query) info.goalId true ∈ trace

/-- A cancel response is the reply of a worker that has processed the request. -/
theorem Step.of_cancelReply {s s' : ServerState Goal Result} {label : Label Goal Result}
    {observed : List (Event Result)} {query : QueryId} {response : CancelGoalServiceResponse}
    (step : Step s label observed s') (seen : .cancelReply query response ∈ observed) :
    ∃ w mode info cancelled, s.workers w = some ⟨mode, .cancelReply query info cancelled⟩ ∧
      response.goalsCanceling = if cancelled then [info] else [] := by
  cases step with
  | @replyCancel w mode query' info cancelled processed =>
      simp only [List.mem_singleton, Event.cancelReply.injEq] at seen
      obtain ⟨rfl, rfl⟩ := seen
      exact ⟨w, mode, info, cancelled, processed, rfl⟩
  | expireGoals => simp at seen
  | _ => simp at seen

theorem Step.repliesProcessed {s s' : ServerState Goal Result} {label : Label Goal Result}
    {trace observed : List (Event Result)} (step : Step s label observed s')
    (inv : RepliesProcessed s trace) : RepliesProcessed s' (trace ++ observed) := by
  constructor
  · intro w mode query info replying
    cases step.workerChange w with
    | kept same => exact List.mem_append_left _ (inv.1 w mode query info (same ▸ replying))
    | created _ _ after => cases after.symm.trans replying
    | moved _ after advances =>
        cases after.symm.trans replying
        cases advances with
        | processCancel recorded => simp [recorded]
    | stopped _ after => cases after.symm.trans replying
  · intro query response info replied listed
    rcases List.mem_append.mp replied with before | now
    · exact List.mem_append_left _ (inv.2 query response info before listed)
    · obtain ⟨w, mode, info', cancelled, replying, lists⟩ := step.of_cancelReply now
      rw [lists] at listed
      cases cancelled with
      | false => cases listed
      | true =>
          obtain rfl := List.mem_singleton.mp listed
          exact List.mem_append_left _ (inv.1 w mode query info replying)

theorem reachable_repliesProcessed (reached : (server Goal Result cfg).Reachable allowed c) :
    RepliesProcessed c.state c.trace := by
  refine server_invariant reached ⟨?_, nofun⟩ fun _ _ _ _ _ inv step => step.repliesProcessed inv
  intro w mode query info replying
  by_cases first : w = 0 <;> simp [ServerState.build, first] at replying

/-- From now on the handle, for as long as it executes, sees that cancellation is
requested. -/
def ObservesCancel (M : Machine (ServerState Goal Result) (Label Goal Result) (Event Result))
    (c : Config (ServerState Goal Result) (Event Result)) (h : HandleId) : Prop :=
  ∀ c', M.Runs Machine.anyStep c c' → ∀ goal info f,
    c'.state.handles h = some ⟨goal, info, .executing f⟩ →
      c'.state.isCancelRequested ⟨goal, info, .executing f⟩ = true

/-- A handle whose flag was raised observes it for good. -/
theorem observesCancel_of_raised (reached : (server Goal Result cfg).Reachable Machine.anyStep c)
    {h : HandleId} {g : GoalId} {f : FlagId} (executed : .executed h g f ∈ c.trace)
    (raised : c.state.flags f = true) : ObservesCancel (server Goal Result cfg) c h := by
  intro c' run goal info f' handle
  have stays : .executed h g f ∈ c'.trace ∧ c'.state.flags f = true := by
    refine (run.induct (P := fun d => (server Goal Result cfg).Reachable Machine.anyStep d ∧
      .executed h g f ∈ d.trace ∧ d.state.flags f = true) ⟨reached, executed, raised⟩ ?_).2
    rintro d label d' ⟨reached, executed, raised⟩ meets moved
    obtain ⟨observed, step, grown⟩ := server_next moved
    refine ⟨reached.step meets moved, by rw [grown]; exact List.mem_append_left _ executed, ?_⟩
    cases step.flagChange f with
    | kept same => rw [same, raised]
    | created number _ =>
        have used := ((reachable_flagInvariant reached).used h g f executed).2
        exact absurd number (Nat.ne_of_lt used)
    | raised _ _ high => exact high
  have inv := reachable_flagInvariant (reached.runs run)
  rcases (inv.keeps h g f goal info _ stays.1 handle).2 with own | ⟨_, _, _, other⟩
  · cases own
    exact stays.2
  · cases other

/-- **Cancel delivery.**  A cancel response lists a goal only if the request of its query
was processed and found the goal running; each such request raised the flag of the
handle whose `execute` was the last write to the goal's entry at that point, and that
handle observes the request from then on.  A handle observes a cancel request only
if one that names its goal was processed after its `execute`. -/
theorem cancel_delivered (reached : (server Goal Result cfg).Reachable Machine.anyStep c) :
    (∀ query response info, .cancelReply query response ∈ c.trace →
      info ∈ response.goalsCanceling →
        .cancelProcessed (some query) info.goalId true ∈ c.trace) ∧
    (∀ before source g after, c.trace = before ++ .cancelProcessed source g true :: after →
      ∃ h f, lastWrite before g = some (.executed h g f) ∧
        ObservesCancel (server Goal Result cfg) c h) ∧
    ∀ h handle, c.state.handles h = some handle → c.state.isCancelRequested handle = true →
      ∃ f source, [.executed h handle.info.goalId f,
        .cancelProcessed source handle.info.goalId true] <+ c.trace := by
  have inv := reachable_flagInvariant reached
  refine ⟨(reachable_repliesProcessed reached).2, ?_, ?_⟩
  · intro before source g after split
    obtain ⟨h, f, last, raised⟩ := inv.delivered before source g after split
    have executed : .executed h g f ∈ c.trace := by
      rw [split]
      exact List.mem_append_left _ (mem_of_lastWrite last)
    exact ⟨h, f, last, observesCancel_of_raised reached executed raised⟩
  · rintro h ⟨goal, info, stage⟩ handle requested
    cases stage with
    | executing f =>
        have executed := inv.running h goal info f handle
        exact ⟨f, inv.raised h info.goalId f executed requested⟩
    | _ => cases requested

end Runs

/-- A driver cancels a goal that executes. -/
theorem cancel_delivered_executing :
    ∃ c, (server Unit ℕ demoConfig).Reachable Machine.anyStep c ∧
      .cancelReply 1 ⟨1, [⟨demoGoal, ⟨0, 0⟩⟩]⟩ ∈ c.trace ∧
      ObservesCancel (server Unit ℕ demoConfig) c 0 := by
  obtain ⟨c, -, reached, -, shown⟩ := Machine.exists_of_execution (server Unit ℕ demoConfig)
    Machine.anyStep ([.withHandler] ++ startGoal 0 ++
      [.arrive (.cancel (some ⟨⟨demoGoal, ⟨0, 0⟩⟩⟩)), .takeCancel 1, .processCancel 1,
        .replyCancel 1]) [] (fun c _ => c.trace) rfl
  obtain ⟨h, f, last, observes⟩ := (cancel_delivered reached).2.1
    [.goalReply 0 demoGoal ⟨true, 0, 0⟩, .accepted 0 demoGoal, .executed 0 demoGoal 0] (some 1)
    demoGoal [.cancelReply 1 ⟨1, [⟨demoGoal, ⟨0, 0⟩⟩]⟩] shown
  cases last
  exact ⟨c, reached, by rw [shown]; decide, observes⟩

end RosZ.Action
