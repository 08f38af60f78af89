import RosZ.Events

/-!
# What event callbacks are told

`rmw_event_set_callback` registers a closure that calls the callback of the user, if there is one,
with the change as a `usize`.  So a negative change becomes a number near `2 ^ 64`.

`countsNew_of_reachable` says when the callback counts new events.  An update tells it the change,
and leaves the change of the total pending as well; so a registration that finds a callback of the
user and a pending change tells of events that were told already.
-/

namespace RosZ.Rmw.EventCallbacks

open Transition Events

/-- `change as usize`, on 64 bits. -/
def asUsize (change : ℤ) : ℕ := (change % 2 ^ 64).toNat

/-- The counts that the callback of the user receives when the closure is called. -/
def invoke (registered : EventCallback) (change : ℤ) : List ℕ :=
  match registered.callback with
  | some _ => [asUsize change]
  | none => []

/-- The counts that callbacks of the user have received, oldest first. -/
def received (history : List Event) : List ℕ :=
  history.flatMap fun
    | .replayed _ registered count => invoke registered count
    | .notified _ registered change => invoke registered change
    | _ => []

/-- **Event callbacks count new events**: each count is positive, and they do not add up to more
than the total. -/
structure CountsNew (e : ZenohEventType) (c : Config EventsManager Event) : Prop where
  positive : ∀ count ∈ received (about e c.trace), 1 ≤ count
  sum_le : ((received (about e c.trace)).sum : ℤ) ≤ (c.state.eventStatuses e).totalCount

/-- The user has a callback registered. -/
def listens (callback : Option EventCallback) : Bool := (callback.bind (·.callback)).isSome

/-- An update of which the user is told has a positive change, and the user registers a callback
when none is registered yet, or when nothing is pending. -/
def TellsOnce (c : Config EventsManager Event) : Label → Prop
  | .update e change _ => listens (c.state.eventCallbacks e) = true → 1 ≤ change.toInt
  | .setCallback e registered => registered.callback.isSome = true →
      listens (c.state.eventCallbacks e) = true → (c.state.eventStatuses e).totalCountChange = 0
  | .take _ => True

instance : DecidableRel TellsOnce
  | _, .update _ _ _ => inferInstanceAs (Decidable (_ → _))
  | _, .setCallback _ _ => inferInstanceAs (Decidable (_ → _ → _))
  | _, .take _ => inferInstanceAs (Decidable True)

/-! ## What a step tells -/

section Steps

variable {e : ZenohEventType} {status status' : ZenohEventStatus}
  {callback callback' : Option EventCallback} {label : Label} {history observed : List Event}

theorem asUsize_of_nonneg {n : ℤ} (nonneg : 0 ≤ n) (small : n < 2 ^ 31) :
    (asUsize n : ℤ) = n := by
  unfold asUsize
  omega

theorem received_append (first second : List Event) :
    received (first ++ second) = received first ++ received second :=
  List.flatMap_append ..

/-- An update tells the user its change, if there is a callback. -/
theorem received_updated (e : ZenohEventType) (change : Int32) (callback : Option EventCallback) :
    received (.updated e change ::
      (callback.map fun callback => Event.notified e callback change.toInt).toList) =
      if listens callback = true then [asUsize change.toInt] else [] := by
  obtain _ | ⟨_ | fn, userData⟩ := callback
  · rfl
  · rfl
  · rfl

/-- What is told never exceeds the total; what is pending has not been told while the user does
not listen. -/
structure Told (status : ZenohEventStatus) (callback : Option EventCallback)
    (history : List Event) : Prop where
  positive : ∀ count ∈ received history, 1 ≤ count
  sum_le : ((received history).sum : ℤ) ≤ status.totalCount
  pending_le : listens callback = false →
    ((received history).sum : ℤ) + status.totalCountChange ≤ status.totalCount
  pending_nonneg : 0 ≤ status.totalCountChange
  pending_small : status.totalCountChange < 2 ^ 31

/-- The user is told of a positive change that was not told before. -/
theorem Told.tell {n : ℤ} (told : Told status callback history) (positive : 1 ≤ n)
    (small : n < 2 ^ 31) (tells : received observed = [asUsize n]) :
    (∀ count ∈ received (history ++ observed), 1 ≤ count) ∧
      ((received (history ++ observed)).sum : ℤ) = (received history).sum + n := by
  have value := asUsize_of_nonneg (le_trans zero_le_one positive) small
  rw [received_append, tells]
  constructor
  · intro count member
    rcases List.mem_append.mp member with earlier | now
    · exact told.positive count earlier
    · rw [List.mem_singleton.mp now]
      omega
  · rw [List.sum_append, List.sum_singleton, Nat.cast_add, value]

theorem Told.quiet (told : Told status callback history) (silent : received observed = []) :
    (∀ count ∈ received (history ++ observed), 1 ≤ count) ∧
      ((received (history ++ observed)).sum : ℤ) = (received history).sum := by
  rw [received_append, silent, List.append_nil]
  exact ⟨told.positive, rfl⟩

theorem Told.step (told : Told status callback history)
    (step : TypeStep e status callback label status' callback' observed)
    (updates : ∀ change policyKind, label = .update e change policyKind →
      listens callback = true → 1 ≤ change.toInt)
    (registers : ∀ registered, label = .setCallback e registered →
      registered.callback.isSome = true → listens callback = true →
        status.totalCountChange = 0) :
    Told status' callback' (history ++ observed) := by
  have sum_le := told.sum_le
  have pending_le := told.pending_le
  have nonneg := told.pending_nonneg
  have zero_lt : (0 : ℤ) < 2 ^ 31 := by decide
  cases step with
  | other elsewhere =>
      rw [List.append_nil]
      exact told
  | @update change policyKind _ counted =>
      obtain ⟨total, pending, -, -, -, -, small⟩ := update_eq_some counted
      have tells := received_updated e change callback
      by_cases listening : listens callback = true
      · rw [if_pos listening] at tells
        have new := updates change policyKind rfl listening
        obtain ⟨positive, sum⟩ := told.tell new change.toInt_lt tells
        exact ⟨positive, by omega, fun deaf => absurd listening (by simp [deaf]), by omega, small⟩
      · rw [if_neg listening] at tells
        obtain ⟨positive, sum⟩ := told.quiet tells
        have before := pending_le (by simpa using listening)
        exact ⟨positive, by omega, fun _ => by omega, by omega, small⟩
  | take =>
      have silent : received [.taken e status] = [] := rfl
      obtain ⟨positive, sum⟩ := told.quiet silent
      refine ⟨positive, sum.trans_le sum_le, fun _ => ?_, le_rfl, zero_lt⟩
      rw [sum]
      exact (add_zero _).trans_le sum_le
  | replay registered unread =>
      cases given : registered.callback with
      | none =>
          have silent : received [.replayed e registered status.totalCountChange] = [] := by
            simp [received, invoke, given]
          obtain ⟨positive, sum⟩ := told.quiet silent
          refine ⟨positive, sum.trans_le sum_le, fun _ => ?_, le_rfl, zero_lt⟩
          rw [sum]
          exact (add_zero _).trans_le sum_le
      | some fn =>
          have deaf : listens callback = false := by
            rw [← Bool.not_eq_true]
            exact fun listening => unread (registers registered rfl (by simp [given]) listening)
          have tells : received [.replayed e registered status.totalCountChange] =
              [asUsize status.totalCountChange] := by
            simp [received, invoke, given]
          obtain ⟨positive, sum⟩ := told.tell (by omega) told.pending_small tells
          have before := pending_le deaf
          refine ⟨positive, ?_, fun still => ?_, le_rfl, zero_lt⟩
          · show _ ≤ status.totalCount
            omega
          · simp [listens, given] at still
  | register registered read =>
      rw [List.append_nil]
      exact ⟨told.positive, sum_le, fun _ => by omega, nonneg, told.pending_small⟩

end Steps

/-! ## Runs -/

theorem told_of_reachable {c : Config EventsManager Event}
    (reached : eventsManager.Reachable TellsOnce c) (e : ZenohEventType) :
    Told (c.state.eventStatuses e) (c.state.eventCallbacks e) (about e c.trace) := by
  refine reached.invariant (P := fun c =>
    Told (c.state.eventStatuses e) (c.state.eventCallbacks e) (about e c.trace)) ?_ ?_
  · have zero_lt : (0 : ℤ) < 2 ^ 31 := by decide
    exact ⟨by simp [received, about, Machine.start], le_rfl, fun _ => le_rfl, le_rfl, zero_lt⟩
  · intro c label c' told meets moved
    obtain ⟨observed, stepped, grown⟩ := Machine.next_eq_some moved
    rw [grown, about_append]
    refine told.step (typeStep stepped e) ?_ ?_
    · rintro change policyKind rfl
      exact meets
    · rintro registered rfl
      exact meets

/-- A change that is not positive is no number of new events. -/
theorem not_countsNew_of_update {c c' : Config EventsManager Event} {e : ZenohEventType}
    {change : Int32} {policyKind : UInt32} (listening : listens (c.state.eventCallbacks e) = true)
    (old : change.toInt < 1)
    (moved : eventsManager.next c (.update e change policyKind) = some c') : ¬ CountsNew e c' := by
  obtain ⟨observed, stepped, grown⟩ := Machine.next_eq_some moved
  change c.state.step (.update e change policyKind) = some (c'.state, observed) at stepped
  have lower := change.le_toInt
  rintro ⟨positive, sum_le⟩
  have step := typeStep stepped e
  rw [grown, about_append] at positive sum_le
  generalize about e observed = seen at step positive sum_le
  generalize c'.state.eventStatuses e = status' at step sum_le
  generalize c'.state.eventCallbacks e = callback' at step
  cases step with
  | other elsewhere => exact elsewhere rfl
  | update counted =>
      obtain ⟨-, -, -, -, -, small, -⟩ := update_eq_some counted
      rw [received_append, received_updated, if_pos listening] at positive sum_le
      have counts := positive (asUsize change.toInt) (by simp)
      rw [List.sum_append, List.sum_singleton, Nat.cast_add] at sum_le
      unfold asUsize at counts sum_le
      omega

/-- **Event callbacks count new events exactly as long as they are told positive changes, once**:
in every run in which updates of which the user is told are positive and callbacks are registered
while none of the user is, or with nothing pending.  A change that is not positive is never
counted. -/
theorem countsNew_of_reachable (c : Config EventsManager Event) :
    (eventsManager.Reachable TellsOnce c → ∀ e, CountsNew e c) ∧
      ∀ e change policyKind c', listens (c.state.eventCallbacks e) = true → change.toInt < 1 →
        eventsManager.next c (.update e change policyKind) = some c' → ¬ CountsNew e c' := by
  refine ⟨fun reached e => ?_, fun e change policyKind c' => not_countsNew_of_update⟩
  have told := told_of_reachable reached e
  exact ⟨told.positive, told.sum_le⟩

/-- The user registers a callback after the first event, and again after a take. -/
theorem countsNew_of_reachable_registeredTwice : ∃ c, eventsManager.Reachable TellsOnce c ∧
    received (about .messageLost c.trace) = [2, 3] ∧ ∀ e, CountsNew e c := by
  obtain ⟨c, reached, seen⟩ := eventsManager.exists_of_schedule TellsOnce
    [.update .messageLost 2 0, .setCallback .messageLost ⟨some 0, 0⟩, .update .messageLost 3 0,
      .take .messageLost, .setCallback .messageLost ⟨some 1, 0⟩]
    (fun c => received (about .messageLost c.trace)) [2, 3] (by decide +kernel)
  exact ⟨c, reached, seen, (countsNew_of_reachable c).1 reached⟩

/-- A publisher disappears, and the callback of the subscription counts `2 ^ 64 - 1` events.  In
another run, a callback that has been told of one event is registered again, and told again. -/
theorem callback_counts_too_much :
    (∃ c, eventsManager.Reachable Machine.anyStep c ∧
      received (about .subscriptionMatched c.trace) = [1, 18446744073709551615]) ∧
    (∃ c, eventsManager.Reachable Machine.anyStep c ∧
      received (about .messageLost c.trace) = [1, 1] ∧
      (c.state.eventStatuses .messageLost).totalCount = 1) ∧
    ¬ ∀ c, eventsManager.Reachable Machine.anyStep c → ∀ e, CountsNew e c := by
  have disappears := eventsManager.exists_of_schedule Machine.anyStep
    [.setCallback .subscriptionMatched ⟨some 0, 0⟩, .update .subscriptionMatched 1 0,
      .update .subscriptionMatched (-1) 0]
    (fun c => received (about .subscriptionMatched c.trace)) [1, 18446744073709551615]
    (by decide +kernel)
  have again := eventsManager.exists_of_schedule Machine.anyStep
    [.setCallback .messageLost ⟨some 0, 0⟩, .update .messageLost 1 0,
      .setCallback .messageLost ⟨some 0, 0⟩]
    (fun c => (received (about .messageLost c.trace),
      (c.state.eventStatuses .messageLost).totalCount)) ([1, 1], 1) (by decide +kernel)
  simp only [Prod.mk.injEq] at again
  refine ⟨disappears, again, fun claim => ?_⟩
  obtain ⟨c, reached, told, total⟩ := again
  have sum_le := (claim c reached .messageLost).sum_le
  rw [told, total] at sum_le
  exact absurd sum_le (by decide)

end RosZ.Rmw.EventCallbacks
