import Mathlib.Algebra.Order.Ring.Int
import Mathlib.Algebra.BigOperators.Group.List.Basic
import RosZ.Lib.Machine

/-!
# Event statuses and their callbacks

`EventsManager` counts, for each type of event, what has happened in total and what is the case
now, each with its change since the status was last taken.

The changes of the statuses that were taken, and the pending ones, add up to the counts until a
callback is registered while a change of the total is pending (`balanced_iff`).  The registration
reports that change to the callback and drops it from the status.

## Design notes

An operation holds the lock of the manager from its start to its end, so it is one step.  Counts
are integers, and an addition that leaves the range of `i32` panics: such a step is not taken.
-/

namespace RosZ.Events

open Transition

inductive ZenohEventType where
  | requestedQosIncompatible | offeredQosIncompatible | messageLost | subscriptionMatched
  | publicationMatched | subscriptionIncompatibleType | publisherIncompatibleType
  | offeredDeadlineMissed | requestedDeadlineMissed | livelinessLost | livelinessChanged
deriving DecidableEq, Repr

structure ZenohEventStatus where
  totalCount : ℤ := 0
  totalCountChange : ℤ := 0
  currentCount : ℤ := 0
  currentCountChange : ℤ := 0
  data : String := ""
  changed : Bool := false
  /-- RMW QoS policy kind that caused incompatibility. -/
  lastPolicyKind : UInt32 := 0
deriving DecidableEq, Repr

/-- `+` on `i32`. -/
def addI32 (a b : ℤ) : Option ℤ :=
  if -2 ^ 31 ≤ a + b ∧ a + b < 2 ^ 31 then some (a + b) else none

/-- The closure of `rmw_event_set_callback`: the callback of the user, who may have given none,
and the user data. -/
structure EventCallback where
  callback : Option ℕ
  userData : ℕ
deriving DecidableEq, Repr

structure EventsManager where
  eventStatuses : ZenohEventType → ZenohEventStatus
  eventCallbacks : ZenohEventType → Option EventCallback

inductive Label where
  /-- `update_event_status_with_policy`; `update_event_status` has the policy kind zero. -/
  | update (eventType : ZenohEventType) (change : Int32) (policyKind : UInt32)
  | take (eventType : ZenohEventType)
  | setCallback (eventType : ZenohEventType) (callback : EventCallback)
deriving DecidableEq, Repr

inductive Event where
  | updated (eventType : ZenohEventType) (change : Int32)
  | taken (eventType : ZenohEventType) (status : ZenohEventStatus)
  /-- A registration calls the callback with what is unread. -/
  | replayed (eventType : ZenohEventType) (callback : EventCallback) (count : ℤ)
  /-- An update calls the callback with its change. -/
  | notified (eventType : ZenohEventType) (callback : EventCallback) (change : ℤ)
deriving DecidableEq

namespace ZenohEventStatus

/-- The status after an update; the policy kind is kept if none is given. -/
def update (status : ZenohEventStatus) (change : ℤ) (policyKind : UInt32) :
    Option ZenohEventStatus := do
  let totalCount ← addI32 status.totalCount (max change 0)
  let totalCountChange ← addI32 status.totalCountChange (max change 0)
  let currentCount ← addI32 status.currentCount change
  let currentCountChange ← addI32 status.currentCountChange change
  return { status with
    totalCount, totalCountChange, currentCount, currentCountChange
    changed := true
    lastPolicyKind := if policyKind ≠ 0 then policyKind else status.lastPolicyKind }

/-- The status after it was taken. -/
def reset (status : ZenohEventStatus) : ZenohEventStatus :=
  { status with currentCountChange := 0, totalCountChange := 0, changed := false }

end ZenohEventStatus

namespace EventsManager

/-- The result of a step: the state after it and what is observed of it. -/
abbrev After : Type := EventsManager × List Event

def new : EventsManager := { eventStatuses := fun _ => {}, eventCallbacks := fun _ => none }

def setStatus (s : EventsManager) (e : ZenohEventType) (status : ZenohEventStatus) :
    EventsManager :=
  { s with eventStatuses := Function.update s.eventStatuses e status }

/-- The callback is triggered if one is registered. -/
def updateEventStatusWithPolicy (s : EventsManager) (e : ZenohEventType) (change : Int32)
    (policyKind : UInt32) : Option After :=
  ((s.eventStatuses e).update change.toInt policyKind).map fun status =>
    (s.setStatus e status, .updated e change ::
      ((s.eventCallbacks e).map fun callback => Event.notified e callback change.toInt).toList)

def takeEventStatus (s : EventsManager) (e : ZenohEventType) : After :=
  (s.setStatus e (s.eventStatuses e).reset, [.taken e (s.eventStatuses e)])

def register (s : EventsManager) (e : ZenohEventType) (callback : EventCallback) : EventsManager :=
  { s with eventCallbacks := Function.update s.eventCallbacks e (some callback) }

/-- If there are unread events, the callback is triggered at once. -/
def setCallback (s : EventsManager) (e : ZenohEventType) (callback : EventCallback) : After :=
  if (s.eventStatuses e).totalCountChange ≠ 0 then
    ((s.setStatus e { s.eventStatuses e with totalCountChange := 0 }).register e callback,
      [.replayed e callback (s.eventStatuses e).totalCountChange])
  else (s.register e callback, [])

def step (s : EventsManager) : Label → Option After
  | .update e change policyKind => s.updateEventStatusWithPolicy e change policyKind
  | .take e => some (s.takeEventStatus e)
  | .setCallback e callback => some (s.setCallback e callback)

end EventsManager

/-- The runs of an `EventsManager`. -/
def eventsManager : Machine EventsManager Label Event where
  init := .new
  step := EventsManager.step

/-! ## One type of event -/

def Label.eventType : Label → ZenohEventType
  | .update e _ _ | .take e | .setCallback e _ => e

def Event.eventType : Event → ZenohEventType
  | .updated e _ | .taken e _ | .replayed e _ _ | .notified e _ _ => e

/-- What was observed of one type of event. -/
def about (e : ZenohEventType) (trace : List Event) : List Event :=
  trace.filter fun event => event.eventType = e

/-- What a step does to the status and the callback of one type of event, and what is observed of
that type. -/
inductive TypeStep (e : ZenohEventType) (status : ZenohEventStatus)
    (callback : Option EventCallback) :
    Label → ZenohEventStatus → Option EventCallback → List Event → Prop
  | other {label : Label} (elsewhere : label.eventType ≠ e) :
      TypeStep e status callback label status callback []
  | update {change : Int32} {policyKind : UInt32} {status' : ZenohEventStatus}
      (counted : status.update change.toInt policyKind = some status') :
      TypeStep e status callback (.update e change policyKind) status' callback
        (.updated e change ::
          (callback.map fun callback => Event.notified e callback change.toInt).toList)
  | take : TypeStep e status callback (.take e) status.reset callback [.taken e status]
  | replay (registered : EventCallback) (unread : status.totalCountChange ≠ 0) :
      TypeStep e status callback (.setCallback e registered) { status with totalCountChange := 0 }
        (some registered) [.replayed e registered status.totalCountChange]
  | register (registered : EventCallback) (read : status.totalCountChange = 0) :
      TypeStep e status callback (.setCallback e registered) status (some registered) []

section Steps

variable {s s' : EventsManager} {label : Label} {observed : List Event} {e : ZenohEventType}

theorem about_append (trace observed : List Event) :
    about e (trace ++ observed) = about e trace ++ about e observed :=
  List.filter_append ..

theorem about_eq_self (all : ∀ event ∈ observed, event.eventType = e) :
    about e observed = observed :=
  List.filter_eq_self.mpr fun event member => decide_eq_true (all event member)

theorem about_eq_nil {e' : ZenohEventType} (other : e' ≠ e)
    (all : ∀ event ∈ observed, event.eventType = e') : about e observed = [] := by
  refine List.filter_eq_nil_iff.mpr fun event member => ?_
  rw [all event member, decide_eq_true_eq]
  exact other

/-- Every event of a step is of the type that the step is about. -/
theorem eventType_of_step (stepped : s.step label = some (s', observed)) :
    ∀ event ∈ observed, event.eventType = label.eventType := by
  cases label with
  | update e change policyKind =>
      obtain ⟨status, -, same⟩ := Option.map_eq_some_iff.mp stepped
      cases same
      cases s.eventCallbacks e <;> simp [Event.eventType, Label.eventType]
  | take e =>
      cases stepped
      simp [Event.eventType, Label.eventType]
  | setCallback e callback =>
      have same := Option.some.inj stepped
      unfold EventsManager.setCallback at same
      split at same <;> cases same <;> simp [Event.eventType, Label.eventType]

/-- A step leaves the other types as they are. -/
theorem step_elsewhere (stepped : s.step label = some (s', observed))
    (elsewhere : label.eventType ≠ e) :
    s'.eventStatuses e = s.eventStatuses e ∧ s'.eventCallbacks e = s.eventCallbacks e := by
  cases label with
  | update e' change policyKind =>
      obtain ⟨status, -, same⟩ := Option.map_eq_some_iff.mp stepped
      cases same
      exact ⟨Function.update_of_ne (Ne.symm elsewhere) _ _, rfl⟩
  | take e' =>
      cases stepped
      exact ⟨Function.update_of_ne (Ne.symm elsewhere) _ _, rfl⟩
  | setCallback e' callback =>
      have same := Option.some.inj stepped
      unfold EventsManager.setCallback at same
      have installed : (s.register e' callback).eventCallbacks e = s.eventCallbacks e :=
        Function.update_of_ne (Ne.symm elsewhere) _ _
      split at same
      · cases same
        exact ⟨Function.update_of_ne (Ne.symm elsewhere) _ _, installed⟩
      · cases same
        exact ⟨rfl, installed⟩

theorem typeStep (stepped : s.step label = some (s', observed)) (e : ZenohEventType) :
    TypeStep e (s.eventStatuses e) (s.eventCallbacks e) label (s'.eventStatuses e)
      (s'.eventCallbacks e) (about e observed) := by
  have all := eventType_of_step stepped
  by_cases here : label.eventType = e
  · rw [about_eq_self fun event member => (all event member).trans here]
    cases label with
    | update e' change policyKind =>
        obtain rfl : e' = e := here
        obtain ⟨status, counted, same⟩ := Option.map_eq_some_iff.mp stepped
        cases same
        simp only [EventsManager.setStatus, Function.update_self]
        exact .update counted
    | take e' =>
        obtain rfl : e' = e := here
        cases stepped
        simp only [EventsManager.setStatus, Function.update_self]
        exact .take
    | setCallback e' callback =>
        obtain rfl : e' = e := here
        have same := Option.some.inj stepped
        unfold EventsManager.setCallback at same
        split at same
        · next unread =>
            cases same
            simp only [EventsManager.setStatus, EventsManager.register, Function.update_self]
            exact .replay callback unread
        · next read =>
            cases same
            simp only [EventsManager.register, Function.update_self]
            exact .register callback (not_not.mp read)
  · rw [about_eq_nil here all]
    obtain ⟨status, callback⟩ := step_elsewhere stepped here
    rw [status, callback]
    exact .other here

end Steps

/-! ## Accounts -/

/-- The sum of a count over the statuses that were taken. -/
def takenSum (count : ZenohEventStatus → ℤ) : List Event → ℤ
  | [] => 0
  | .taken _ status :: later => count status + takenSum count later
  | _ :: later => takenSum count later

/-- The sum of what registrations have reported to callbacks. -/
def replayedSum : List Event → ℤ
  | [] => 0
  | .replayed _ _ count :: later => count + replayedSum later
  | _ :: later => replayedSum later

/-- Whether the status was updated after it was last taken. -/
def updatedSinceTake (history : List Event) : Bool :=
  history.foldl (fun updated event =>
    match event with
    | .updated _ _ => true
    | .taken _ _ => false
    | _ => updated) false

/-- **The accounts of a type of event**: the changes that were taken and the pending ones add up to
the counts, and the status is marked when it was updated since it was taken. -/
structure Balanced (e : ZenohEventType) (c : Config EventsManager Event) : Prop where
  total : takenSum (·.totalCountChange) (about e c.trace) +
    (c.state.eventStatuses e).totalCountChange = (c.state.eventStatuses e).totalCount
  current : takenSum (·.currentCountChange) (about e c.trace) +
    (c.state.eventStatuses e).currentCountChange = (c.state.eventStatuses e).currentCount
  changed : (c.state.eventStatuses e).changed = true ↔ updatedSinceTake (about e c.trace) = true

/-- What holds of the accounts in every run: a total that is not accounted for was reported by a
registration. -/
structure Accounts (status : ZenohEventStatus) (history : List Event) : Prop where
  total : takenSum (·.totalCountChange) history + status.totalCountChange + replayedSum history =
    status.totalCount
  pending : 0 ≤ status.totalCountChange
  replayed : ∀ e callback count, .replayed e callback count ∈ history → 0 < count
  current : takenSum (·.currentCountChange) history + status.currentCountChange =
    status.currentCount
  changed : status.changed = updatedSinceTake history

section Accounts

variable {e : ZenohEventType} {status status' : ZenohEventStatus}
  {callback callback' : Option EventCallback} {label : Label} {history observed : List Event}

theorem takenSum_append (count : ZenohEventStatus → ℤ) (first second : List Event) :
    takenSum count (first ++ second) = takenSum count first + takenSum count second := by
  induction first with
  | nil => exact (zero_add _).symm
  | cons event later ih =>
      cases event with
      | taken e status => simp only [List.cons_append, takenSum, ih, add_assoc]
      | _ => exact ih

theorem replayedSum_append (first second : List Event) :
    replayedSum (first ++ second) = replayedSum first + replayedSum second := by
  induction first with
  | nil => exact (zero_add _).symm
  | cons event later ih =>
      cases event with
      | replayed e callback count => simp only [List.cons_append, replayedSum, ih, add_assoc]
      | _ => exact ih

theorem addI32_eq_some {a b n : ℤ} (added : addI32 a b = some n) : n = a + b :=
  (Option.some.inj (Option.ite_none_right_eq_some.mp added).2).symm

theorem addI32_lt {a b n : ℤ} (added : addI32 a b = some n) : n < 2 ^ 31 := by
  rw [addI32_eq_some added]
  exact (Option.ite_none_right_eq_some.mp added).1.2

/-- What an update does to the counts. -/
theorem update_eq_some {change : ℤ} {policyKind : UInt32}
    (counted : status.update change policyKind = some status') :
    status'.totalCount = status.totalCount + max change 0 ∧
      status'.totalCountChange = status.totalCountChange + max change 0 ∧
      status'.currentCount = status.currentCount + change ∧
      status'.currentCountChange = status.currentCountChange + change ∧
      status'.changed = true ∧ status'.totalCount < 2 ^ 31 ∧
      status'.totalCountChange < 2 ^ 31 := by
  obtain ⟨totalCount, total, counted⟩ := Option.bind_eq_some_iff.mp counted
  obtain ⟨totalCountChange, totalChange, counted⟩ := Option.bind_eq_some_iff.mp counted
  obtain ⟨currentCount, current, counted⟩ := Option.bind_eq_some_iff.mp counted
  obtain ⟨currentCountChange, currentChange, counted⟩ := Option.bind_eq_some_iff.mp counted
  obtain rfl := Option.some.inj counted
  exact ⟨addI32_eq_some total, addI32_eq_some totalChange, addI32_eq_some current,
    addI32_eq_some currentChange, rfl, addI32_lt total, addI32_lt totalChange⟩

/-- The events of an update, on which no account but the mark depends. -/
theorem updated_events (e : ZenohEventType) (change : Int32) (callback : Option EventCallback) :
    let events := Event.updated e change ::
      (callback.map fun callback => Event.notified e callback change.toInt).toList
    (∀ count, takenSum count events = 0) ∧ replayedSum events = 0 ∧
      (∀ e callback count, .replayed e callback count ∉ events) ∧
      ∀ history, updatedSinceTake (history ++ events) = true := by
  cases callback with
  | none =>
      refine ⟨fun _ => rfl, rfl, by simp, fun history => ?_⟩
      rw [updatedSinceTake, List.foldl_append]
      rfl
  | some callback =>
      refine ⟨fun _ => rfl, rfl, by simp, fun history => ?_⟩
      rw [updatedSinceTake, List.foldl_append]
      rfl

theorem TypeStep.accounts (step : TypeStep e status callback label status' callback' observed)
    (accounts : Accounts status history) : Accounts status' (history ++ observed) := by
  obtain ⟨total, pending, replayed, current, changed⟩ := accounts
  cases step with
  | other elsewhere =>
      rw [List.append_nil]
      exact ⟨total, pending, replayed, current, changed⟩
  | @update change policyKind _ counted =>
      obtain ⟨total', totalChange', current', currentChange', marked, -⟩ := update_eq_some counted
      obtain ⟨untaken, unreplayed, noReplay, updated⟩ := updated_events e change callback
      refine ⟨?_, ?_, ?_, ?_, ?_⟩
      · rw [takenSum_append, replayedSum_append, untaken, unreplayed]
        omega
      · omega
      · intro e' registered count member
        refine (List.mem_append.mp member).elim (replayed e' registered count) fun now => ?_
        exact absurd now (noReplay e' registered count)
      · rw [takenSum_append, untaken]
        omega
      · rw [marked, updated]
  | take =>
      refine ⟨?_, le_rfl, ?_, ?_, ?_⟩
      · rw [takenSum_append, replayedSum_append]
        simp only [takenSum, replayedSum, ZenohEventStatus.reset]
        omega
      · intro e' registered count member
        simpa using replayed e' registered count (by simpa using member)
      · rw [takenSum_append]
        simp only [takenSum, ZenohEventStatus.reset]
        omega
      · rw [updatedSinceTake, List.foldl_append]
        rfl
  | replay registered unread =>
      refine ⟨?_, le_rfl, ?_, ?_, ?_⟩
      · rw [takenSum_append, replayedSum_append]
        simp only [takenSum, replayedSum]
        omega
      · intro e' registered' count member
        rcases List.mem_append.mp member with earlier | now
        · exact replayed e' registered' count earlier
        · cases List.mem_singleton.mp now
          omega
      · rw [takenSum_append]
        simp only [takenSum]
        omega
      · rw [changed, updatedSinceTake, updatedSinceTake, List.foldl_append]
        rfl
  | register registered read =>
      rw [List.append_nil]
      exact ⟨total, pending, replayed, current, changed⟩

end Accounts

/-! ## Runs -/

variable {c : Config EventsManager Event}

/-- The accounts of every type of event, in every run. -/
theorem accounts_of_run (reached : eventsManager.Reachable Machine.anyStep c)
    (e : ZenohEventType) : Accounts (c.state.eventStatuses e) (about e c.trace) := by
  refine reached.invariant
    (P := fun c => Accounts (c.state.eventStatuses e) (about e c.trace)) ?_ ?_
  · exact ⟨rfl, le_rfl, by simp [about, Machine.start], rfl, rfl⟩
  · intro c label c' accounts _ moved
    obtain ⟨observed, stepped, grown⟩ := Machine.next_eq_some moved
    rw [grown, about_append]
    exact (typeStep stepped e).accounts accounts

/-- Nothing replayed is nothing lost. -/
theorem replayedSum_eq_zero_iff {history : List Event}
    (positive : ∀ e callback count, .replayed e callback count ∈ history → 0 < count) :
    0 ≤ replayedSum history ∧
      (replayedSum history = 0 ↔ ∀ e callback count, .replayed e callback count ∉ history) := by
  induction history with
  | nil => exact ⟨le_rfl, iff_of_true rfl (by simp)⟩
  | cons event later ih =>
      obtain ⟨nonneg, ih⟩ := ih fun e callback count member =>
        positive e callback count (List.mem_cons_of_mem _ member)
      cases event with
      | replayed e callback count =>
          have some := positive e callback count List.mem_cons_self
          have more :
              replayedSum (.replayed e callback count :: later) = count + replayedSum later :=
            rfl
          refine ⟨by omega, iff_of_false (by omega) fun none => ?_⟩
          exact none e callback count List.mem_cons_self
      | updated | taken | notified => simpa [replayedSum] using ⟨nonneg, ih⟩

/-- The registrations on a type of event that have reported a change. -/
theorem mem_about_iff (e : ZenohEventType) (trace : List Event) :
    (∃ e' callback count, .replayed e' callback count ∈ about e trace) ↔
      ∃ callback count, .replayed e callback count ∈ trace := by
  constructor
  · rintro ⟨e', callback, count, member⟩
    obtain ⟨present, same⟩ := List.mem_filter.mp member
    obtain rfl : e' = e := of_decide_eq_true same
    exact ⟨callback, count, present⟩
  · rintro ⟨callback, count, present⟩
    exact ⟨e, callback, count, List.mem_filter.mpr ⟨present, decide_eq_true rfl⟩⟩

theorem balanced_iff {e : ZenohEventType} (reached : eventsManager.Reachable Machine.anyStep c) :
    Balanced e c ↔ ∀ callback count, .replayed e callback count ∉ c.trace := by
  have accounts := accounts_of_run reached e
  have lost := (replayedSum_eq_zero_iff accounts.replayed).2
  have total := accounts.total
  have none : replayedSum (about e c.trace) = 0 ↔
      ∀ callback count, .replayed e callback count ∉ c.trace := by
    rw [lost]
    simpa only [not_exists] using not_congr (mem_about_iff e c.trace)
  rw [← none]
  constructor
  · intro balanced
    have same := balanced.total
    omega
  · intro nothing
    exact ⟨by omega, accounts.current, by rw [accounts.changed]⟩

/-- A callback is registered when no change of the total is pending. -/
def RegistersRead (c : Config EventsManager Event) : Label → Prop
  | .setCallback e _ => (c.state.eventStatuses e).totalCountChange = 0
  | _ => True

instance : DecidableRel RegistersRead
  | _, .setCallback _ _ => inferInstanceAs (Decidable (_ = _))
  | _, .update _ _ _ | _, .take _ => inferInstanceAs (Decidable True)

/-- Only a registration with a change pending replays it. -/
theorem TypeStep.of_replayed {e e' : ZenohEventType} {status status' : ZenohEventStatus}
    {callback callback' : Option EventCallback} {label : Label} {observed : List Event}
    {registered : EventCallback} {count : ℤ}
    (step : TypeStep e status callback label status' callback' observed)
    (replayed : .replayed e' registered count ∈ observed) :
    label = .setCallback e registered ∧ status.totalCountChange ≠ 0 := by
  cases step with
  | other | register => cases replayed
  | @update change =>
      exact absurd replayed ((updated_events e change callback).2.2.1 e' registered count)
  | take => simp at replayed
  | replay registered' unread =>
      cases List.mem_singleton.mp replayed
      exact ⟨rfl, unread⟩

theorem not_replayed_of_reachable (reached : eventsManager.Reachable RegistersRead c)
    (e : ZenohEventType) (callback : EventCallback) (count : ℤ) :
    .replayed e callback count ∉ c.trace := by
  refine reached.invariant (P := fun c => .replayed e callback count ∉ c.trace) ?_ ?_
  · exact List.not_mem_nil
  · intro c label c' quiet meets moved member
    obtain ⟨observed, stepped, grown⟩ := Machine.next_eq_some moved
    rw [grown] at member
    refine (List.mem_append.mp member).elim quiet fun now => ?_
    have here : .replayed e callback count ∈ about e observed :=
      List.mem_filter.mpr ⟨now, by simp [Event.eventType]⟩
    obtain ⟨rfl, unread⟩ := (typeStep stepped e).of_replayed here
    exact unread meets

/-- **The accounts are balanced exactly as long as no registration has reported a change**: in
every run in which callbacks are registered when nothing is pending, and for each type of event in
every run. -/
theorem balanced_of_reachable (c : Config EventsManager Event) :
    (eventsManager.Reachable RegistersRead c → ∀ e, Balanced e c) ∧
      (eventsManager.Reachable Machine.anyStep c → ∀ e,
        (Balanced e c ↔ ∀ callback count, .replayed e callback count ∉ c.trace)) := by
  refine ⟨fun reached e => ?_, fun reached e => balanced_iff reached⟩
  exact (balanced_iff (reached.mono fun _ _ _ => trivial)).mpr
    (not_replayed_of_reachable reached e)

/-- A callback is registered between two takes. -/
theorem balanced_of_reachable_betweenTakes : ∃ c, eventsManager.Reachable RegistersRead c ∧
    (c.state.eventStatuses .messageLost).totalCount = 5 ∧ ∀ e, Balanced e c := by
  obtain ⟨c, reached, seen⟩ := eventsManager.exists_of_schedule RegistersRead
    [.update .messageLost 2 0, .take .messageLost, .setCallback .messageLost ⟨some 0, 0⟩,
      .update .messageLost 3 0, .take .messageLost]
    (fun c => (c.state.eventStatuses .messageLost).totalCount) 5 (by decide +kernel)
  exact ⟨c, reached, seen, (balanced_of_reachable c).1 reached⟩

/-- Marked, with a change of the current count and none of the total. -/
def droppedChange : ZenohEventStatus where
  totalCount := 1
  currentCount := 1
  currentCountChange := 1
  changed := true

/-- A message is lost before a callback is registered: the status that is taken afterwards is
marked and has a change of the current count, but none of the total. -/
theorem registration_drops_change :
    (∃ c, eventsManager.Reachable Machine.anyStep c ∧
      .taken .messageLost droppedChange ∈ c.trace) ∧
    ¬ ∀ c, eventsManager.Reachable Machine.anyStep c → ∀ e, Balanced e c := by
  obtain ⟨c, reached, seen⟩ := eventsManager.exists_of_schedule Machine.anyStep
    [.update .messageLost 1 0, .setCallback .messageLost ⟨some 0, 0⟩, .take .messageLost]
    (fun c => (c.trace, (c.state.eventStatuses .messageLost).totalCount,
      (c.state.eventStatuses .messageLost).totalCountChange))
    ([.updated .messageLost 1, .replayed .messageLost ⟨some 0, 0⟩ 1,
      .taken .messageLost droppedChange], 1, 0) (by decide +kernel)
  simp only [Prod.mk.injEq] at seen
  obtain ⟨trace, total, pending⟩ := seen
  refine ⟨⟨c, reached, by rw [trace]; decide⟩, fun claim => ?_⟩
  have balanced := (claim c reached .messageLost).total
  rw [trace, total, pending] at balanced
  exact absurd balanced (by decide)

end RosZ.Events
