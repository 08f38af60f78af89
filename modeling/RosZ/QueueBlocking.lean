import RosZ.Lib.KeepLast
import RosZ.Lib.Machine
import RosZ.QueueWakeups

/-!
# Blocking receivers

Threads that block in `recv` and `recv_timeout` of a `BoundedQueue`, and those that push and
`try_recv`.

* `keepsLast_of_reachable`: in every run the queue has the last items pushed behind the one that
  was received last, and items are received in order and once at most.
* `givesUpInTime_of_reachable`: `recv_timeout` looks at the time-out and at the queue once, after a
  single wait.  It gives up on time as long as each wait that times out finds the queue empty and
  each other wait finds an item.

## Design notes

What a thread does under the lock is one step.  Between the sections a call waits on the condition
variable, and it may take a while until it has the lock again, during which its wait is over
(`waking`) and no notification reaches it any more.  A push notifies one of the waiting calls, if
there are any; which one is a choice of the label.  A wait of `recv_timeout` may time out at any
moment, and every wait may end for no reason.
-/

namespace RosZ

namespace BoundedQueue

open Transition

variable {α : Type*}

abbrev CallId := ℕ

/-- The calls that wait on the condition variable. -/
inductive BlockingCall where
  | recv | recvTimeout
deriving DecidableEq, Repr

inductive WaitPhase where
  /-- About to take the lock for the first time. -/
  | entering
  | waiting
  /-- The wait is over, and the call is about to take the lock again. -/
  | waking (timedOut : Bool)
deriving DecidableEq, Repr

/-- A queue and the calls that are under way. -/
structure Blocking (α : Type*) where
  queue : BoundedQueue α
  calls : CallId → Option (BlockingCall × WaitPhase)
  nextCall : CallId

inductive BlockingLabel (α : Type*) where
  | call (call : BlockingCall)
  /-- The first section of a call. -/
  | enter (id : CallId)
  | timeOut (id : CallId)
  /-- A wait ends although nobody has notified it. -/
  | wakeUp (id : CallId)
  /-- A call goes on behind its wait, with the lock. -/
  | resume (id : CallId)
  | push (item : α) (target : Option CallId)
  | tryRecv
deriving DecidableEq, Repr

inductive QueueEvent (α : Type*) where
  /-- An item was pushed, and `push` has returned whether one was dropped. -/
  | pushed (item : α) (dropped : Bool)
  | received (item : α)
  /-- `recv_timeout` has returned `None`; `left` is what the queue has. -/
  | gaveUp (timedOut : Bool) (left : List α)
deriving DecidableEq, Repr

namespace Blocking

/-- The result of a step: the state after it and what is observed of it. -/
abbrev After (α : Type*) : Type _ := Blocking α × List (QueueEvent α)

/-- Set or remove the phase of a call. -/
def setCall (s : Blocking α) (id : CallId) (call : Option (BlockingCall × WaitPhase)) :
    Blocking α :=
  { s with calls := Function.update s.calls id call }

/-- Return the oldest item; a call that finds none goes on as given. -/
def popOr (s : Blocking α) (id : CallId) (empty : After α) : After α :=
  match s.queue.tryRecv with
  | some (item, queue) => ({ s with queue }.setCall id none, [.received item])
  | none => empty

/-- A call waits on the condition variable. -/
def isWaiting (s : Blocking α) (id : CallId) : Bool :=
  match s.calls id with
  | some (_, .waiting) => true
  | _ => false

/-- End the wait of a call. -/
def endWait (s : Blocking α) (id : CallId) (timedOut : Bool) : Option (Blocking α) :=
  match s.calls id with
  | some (call, .waiting) => some (s.setCall id (some (call, .waking timedOut)))
  | _ => none

/-- Notify one of the calls that wait, if there are any. -/
def notifyOne (s : Blocking α) (target : Option CallId) : Option (Blocking α) :=
  match target with
  | some id => s.endWait id false
  | none => if (List.range s.nextCall).any s.isWaiting then none else some s

/-- The section of a call behind its wait.  `recv` looks for an item in a loop; `recv_timeout`
returns `None` when the wait has timed out or there is no item. -/
def resume (s : Blocking α) (id : CallId) : Option (After α) :=
  match s.calls id with
  | some (.recv, .waking _) => some (s.popOr id (s.setCall id (some (.recv, .waiting)), []))
  | some (.recvTimeout, .waking timedOut) =>
      let gaveUp := (s.setCall id none, [.gaveUp timedOut s.queue.data])
      some (if timedOut || s.queue.data.isEmpty then gaveUp else s.popOr id gaveUp)
  | _ => none

/-- One step of a thread, or the end of a wait. -/
def step (s : Blocking α) : BlockingLabel α → Option (After α)
  | .call call =>
      some ({ s.setCall s.nextCall (some (call, .entering)) with nextCall := s.nextCall + 1 }, [])
  | .enter id =>
      match s.calls id with
      | some (call, .entering) => some (s.popOr id (s.setCall id (some (call, .waiting)), []))
      | _ => none
  | .timeOut id =>
      match s.calls id with
      | some (.recvTimeout, _) => (s.endWait id true).map fun s => (s, [])
      | _ => none
  | .wakeUp id => (s.endWait id false).map fun s => (s, [])
  | .resume id => s.resume id
  | .push item target =>
      let (queue, dropped) := s.queue.push item
      (notifyOne { s with queue } target).map fun s => (s, [.pushed item dropped])
  | .tryRecv =>
      match s.queue.tryRecv with
      | some (item, queue) => some ({ s with queue }, [.received item])
      | none => some (s, [])

end Blocking

/-- The runs of a queue whose receivers block. -/
def blocking (α : Type*) (capacity : ℕ) :
    Machine (Blocking α) (BlockingLabel α) (QueueEvent α) where
  init := { queue := .new capacity, calls := fun _ => none, nextCall := 0 }
  step := Blocking.step

/-! ## What a step does to the queue -/

namespace Blocking

/-- The queue after a step and what is observed of it.  A call gives up behind its wait, when that
has timed out or there is no item. -/
inductive QueueStep (s : Blocking α) :
    BlockingLabel α → BoundedQueue α → List (QueueEvent α) → Prop
  | push (item : α) (target : Option CallId) :
      QueueStep s (.push item target) (s.queue.push item).1 [.pushed item (s.queue.push item).2]
  | receive {label : BlockingLabel α} {item : α} {rest : BoundedQueue α}
      (received : s.queue.tryRecv = some (item, rest)) : QueueStep s label rest [.received item]
  | giveUp {id : CallId} {timedOut : Bool}
      (waking : s.calls id = some (.recvTimeout, .waking timedOut))
      (done : timedOut = true ∨ s.queue.data = []) :
      QueueStep s (.resume id) s.queue [.gaveUp timedOut s.queue.data]
  | idle (label : BlockingLabel α) : QueueStep s label s.queue []

variable {s s' : Blocking α} {label : BlockingLabel α} {observed : List (QueueEvent α)}
  {id : CallId}

theorem popOr_queueStep {empty : After α} (popped : s.popOr id empty = (s', observed))
    (stays : s.queue.data = [] → QueueStep s label empty.1.queue empty.2) :
    QueueStep s label s'.queue observed := by
  unfold popOr at popped
  split at popped
  · next item queue received =>
      cases popped
      exact .receive received
  · next none =>
      subst popped
      exact stays (tryRecv_eq_none none)

theorem endWait_queue {timedOut : Bool} (ended : s.endWait id timedOut = some s') :
    s'.queue = s.queue := by
  unfold endWait at ended
  split at ended
  · obtain rfl := Option.some.inj ended
    rfl
  · cases ended

theorem notifyOne_queue {target : Option CallId} (notified : s.notifyOne target = some s') :
    s'.queue = s.queue := by
  unfold notifyOne at notified
  split at notified
  · exact endWait_queue notified
  · split at notified
    · cases notified
    · obtain rfl := Option.some.inj notified
      rfl

theorem resume_queueStep (resumed : s.resume id = some (s', observed)) :
    QueueStep s (.resume id) s'.queue observed := by
  unfold resume at resumed
  split at resumed
  · exact popOr_queueStep (Option.some.inj resumed) fun _ => .idle _
  · next timedOut waking =>
      have result := Option.some.inj resumed
      split at result
      · next done =>
          cases result
          refine .giveUp waking ?_
          rwa [Bool.or_eq_true, List.isEmpty_iff] at done
      · exact popOr_queueStep result fun none => .giveUp waking (.inr none)
  · cases resumed

theorem step_queueStep (stepped : s.step label = some (s', observed)) :
    QueueStep s label s'.queue observed := by
  cases label with
  | call call =>
      cases stepped
      exact .idle _
  | enter id =>
      simp only [step] at stepped
      split at stepped
      · exact popOr_queueStep (Option.some.inj stepped) fun _ => .idle _
      · cases stepped
  | timeOut id =>
      simp only [step] at stepped
      split at stepped
      · obtain ⟨after, ended, same⟩ := Option.map_eq_some_iff.mp stepped
        cases same
        rw [endWait_queue ended]
        exact .idle _
      · cases stepped
  | wakeUp id =>
      obtain ⟨after, ended, same⟩ := Option.map_eq_some_iff.mp stepped
      cases same
      rw [endWait_queue ended]
      exact .idle _
  | resume id => exact resume_queueStep stepped
  | push item target =>
      obtain ⟨after, notified, same⟩ := Option.map_eq_some_iff.mp stepped
      cases same
      rw [notifyOne_queue notified]
      exact .push item target
  | tryRecv =>
      simp only [step] at stepped
      split at stepped
      · next item queue received =>
          cases stepped
          exact .receive received
      · cases stepped
        exact .idle _

/-! ## The last items -/

/-- The items that were pushed, oldest first. -/
def pushed (trace : List (QueueEvent α)) : List α :=
  trace.filterMap fun
    | .pushed item _ => some item
    | _ => none

/-- The items that were received, in the order in which they were. -/
def received (trace : List (QueueEvent α)) : List α :=
  trace.filterMap fun
    | .received item => some item
    | _ => none

/-- **What the queue has of its history**: the last items behind the one that was received last.
Items are received in the order in which they were pushed, each once at most. -/
def KeepsLast (capacity : ℕ) (c : Config (Blocking α) (QueueEvent α)) : Prop :=
  ∃ h : KeepLast.History α, h.items = pushed c.trace ∧ h.delivered = received c.trace ∧
    c.state.queue.data = h.window capacity

theorem push_data_eq (q : BoundedQueue α) (item : α) : (q.push item).1.data =
    (if q.capacity ≤ q.data.length then q.data.tail else q.data) ++ [item] := by
  unfold push
  split <;> rfl

/-- A push says whether it has discarded the oldest item. -/
theorem push_discards {q : BoundedQueue α} (room : 0 < q.capacity) (item : α) :
    ((q.push item).2 = true ↔ ∃ oldest rest, q.data = oldest :: rest ∧
      (q.push item).1.data = rest ++ [item]) ∧
    ((q.push item).2 = false ↔ (q.push item).1.data = q.data ++ [item]) := by
  unfold push
  split
  · next full =>
      obtain ⟨oldest, rest, shape⟩ : ∃ oldest rest, q.data = oldest :: rest :=
        List.exists_cons_of_length_pos (Nat.lt_of_lt_of_le room full)
      rw [shape]
      refine ⟨iff_of_true rfl ⟨oldest, rest, rfl, rfl⟩, iff_of_false nofun fun same => ?_⟩
      exact absurd (congrArg List.length same) (by simp)
  · refine ⟨iff_of_false nofun ?_, iff_of_true rfl rfl⟩
    rintro ⟨oldest, rest, shape, same⟩
    dsimp only at same
    rw [shape] at same
    exact absurd (congrArg List.length same) (by simp)

theorem QueueStep.capacity_eq {q : BoundedQueue α} (step : QueueStep s label q observed) :
    q.capacity = s.queue.capacity := by
  cases step with
  | push item =>
      unfold BoundedQueue.push
      split <;> rfl
  | receive received =>
      unfold tryRecv at received
      split at received
      · cases received
      · cases received
        rfl
  | giveUp | idle => rfl

/-- A queue that is the window of a history stays one. -/
theorem QueueStep.exists_history {q : BoundedQueue α} {h : KeepLast.History α}
    (step : QueueStep s label q observed) (room : 0 < s.queue.capacity)
    (holds : s.queue.data = h.window s.queue.capacity) :
    ∃ h' : KeepLast.History α, h'.items = h.items ++ pushed observed ∧
      h'.delivered = h.delivered ++ Blocking.received observed ∧
      q.data = h'.window s.queue.capacity := by
  cases step with
  | push item =>
      refine ⟨h.record item, rfl, ?_, ?_⟩
      · rw [KeepLast.History.delivered_record]
        exact (List.append_nil _).symm
      · rw [push_data_eq, KeepLast.History.window_record room, holds]
  | @receive _ item rest received =>
      rw [tryRecv_eq_some received] at holds
      obtain ⟨h', same, delivered, left⟩ := KeepLast.History.exists_take holds.symm
      exact ⟨h', same.trans (List.append_nil _).symm, delivered, left.symm⟩
  | giveUp | idle =>
      exact ⟨h, (List.append_nil _).symm, (List.append_nil _).symm, holds⟩

variable {capacity : ℕ} {c : Config (Blocking α) (QueueEvent α)}

theorem keepsLast_and_capacity (room : 1 ≤ capacity)
    (reached : (blocking α capacity).Reachable Machine.anyStep c) :
    KeepsLast capacity c ∧ c.state.queue.capacity = capacity := by
  refine reached.invariant
    (P := fun c => KeepsLast capacity c ∧ c.state.queue.capacity = capacity) ?_ ?_
  · exact ⟨⟨.empty, rfl, rfl, (List.rtake_nil _).symm⟩, rfl⟩
  · rintro c label c' ⟨⟨h, items, delivered, holds⟩, size⟩ - moved
    obtain ⟨observed, stepped, grown⟩ := Machine.next_eq_some moved
    have step := step_queueStep stepped
    obtain ⟨h', items', delivered', holds'⟩ :=
      step.exists_history (by rw [size]; exact room) (by rw [size]; exact holds)
    refine ⟨⟨h', ?_, ?_, by rw [← size]; exact holds'⟩, step.capacity_eq.trans size⟩
    · rw [items', items, grown, pushed, pushed, pushed, List.filterMap_append]
    · rw [delivered', delivered, grown, received, received, received, List.filterMap_append]

/-- **A queue keeps the last items**, in every run: it has the most recent items pushed behind the
one that was received last, never more than its capacity, and a push says whether it has discarded
the oldest item. -/
theorem keepsLast_of_reachable {capacity : ℕ} {c : Config (Blocking α) (QueueEvent α)}
    (room : 1 ≤ capacity) (reached : (blocking α capacity).Reachable Machine.anyStep c) :
    KeepsLast capacity c ∧ c.state.queue.data.length ≤ capacity ∧
      ∀ item, ((c.state.queue.push item).2 = true ↔
        ∃ oldest rest, c.state.queue.data = oldest :: rest ∧
          (c.state.queue.push item).1.data = rest ++ [item]) ∧
        ((c.state.queue.push item).2 = false ↔
          (c.state.queue.push item).1.data = c.state.queue.data ++ [item]) := by
  obtain ⟨keeps, size⟩ := keepsLast_and_capacity room reached
  refine ⟨keeps, ?_, fun item => ?_⟩
  · obtain ⟨h, -, -, holds⟩ := keeps
    rw [holds]
    exact KeepLast.History.length_window_le
  · exact push_discards (by rw [size]; exact room) item

/-- Two threads wait; one of them is notified and takes the item, then three items are pushed. -/
theorem keepsLast_of_reachable_threePushes : ∃ c, 1 ≤ 2 ∧
    (blocking ℕ 2).Reachable Machine.anyStep c ∧ received c.trace = [1] ∧
    c.state.queue.data = [3, 4] ∧ KeepsLast 2 c := by
  obtain ⟨c, reached, seen⟩ := (blocking ℕ 2).exists_of_schedule Machine.anyStep
    [.call .recv, .call .recvTimeout, .enter 0, .enter 1, .push 1 (some 0), .resume 0,
      .push 2 (some 1), .push 3 none, .push 4 none]
    (fun c => (received c.trace, c.state.queue.data)) ([1], [3, 4]) (by decide +kernel)
  obtain ⟨taken, left⟩ := Prod.mk.inj seen
  exact ⟨c, by decide, reached, taken, left, (keepsLast_of_reachable (by decide) reached).1⟩

/-! ## Giving up -/

/-- `recv_timeout` has returned `None` only when its wait has timed out and there was no item. -/
def GivesUpInTime (trace : List (QueueEvent α)) : Prop :=
  ∀ timedOut left, .gaveUp timedOut left ∈ trace → timedOut = true ∧ left = []

/-- A wait of `recv_timeout` that has timed out finds no item when the call has the lock again, and
a wait that was notified, or ended for no reason, finds one. -/
def WakesInTime (c : Config (Blocking α) (QueueEvent α)) : BlockingLabel α → Prop
  | .resume id =>
      ∀ timedOut, c.state.calls id = some (.recvTimeout, .waking timedOut) →
        (timedOut = true ↔ c.state.queue.data = [])
  | _ => True

instance : DecidableRel (WakesInTime : Config (Blocking α) (QueueEvent α) → _ → Prop)
  | _, .resume _ => inferInstanceAs (Decidable (∀ _, _ = some _ → (_ ↔ _)))
  | _, .call _ | _, .enter _ | _, .timeOut _ | _, .wakeUp _ | _, .push _ _ | _, .tryRecv =>
    inferInstanceAs (Decidable True)

/-- A call whose wait has ended in time gives up in time. -/
theorem QueueStep.givesUpInTime {q : BoundedQueue α} {trace : List (QueueEvent α)}
    (step : QueueStep s label q observed) (meets : WakesInTime ⟨s, trace⟩ label) :
    GivesUpInTime observed := by
  intro timedOut left gaveUp
  cases step with
  | push | receive => simp at gaveUp
  | idle => cases gaveUp
  | @giveUp id out waking done =>
      cases List.mem_singleton.mp gaveUp
      have inTime := meets timedOut waking
      rcases done with timely | none
      · exact ⟨timely, inTime.mp timely⟩
      · exact ⟨inTime.mpr none, none⟩

/-- A call whose wait has not ended in time gives up, and not in time. -/
theorem not_givesUpInTime (trace : List (QueueEvent α))
    (stepped : s.step label = some (s', observed)) (late : ¬ WakesInTime ⟨s, trace⟩ label) :
    ¬ GivesUpInTime observed := by
  cases label with
  | resume id =>
      simp only [WakesInTime, not_forall] at late
      obtain ⟨timedOut, waking, apart⟩ := late
      have done : (timedOut || s.queue.data.isEmpty) = true := by
        rw [Bool.or_eq_true, List.isEmpty_iff]
        tauto
      simp only [step, resume, waking, if_pos done] at stepped
      cases stepped
      intro inTime
      obtain ⟨out, none⟩ := inTime _ _ (List.mem_singleton_self _)
      exact apart (iff_of_true out none)
  | _ => exact absurd trivial late

theorem givesUpInTime_append {before after : List (QueueEvent α)} :
    GivesUpInTime (before ++ after) ↔ GivesUpInTime before ∧ GivesUpInTime after := by
  constructor
  · intro inTime
    exact ⟨fun out left gaveUp => inTime out left (List.mem_append_left _ gaveUp),
      fun out left gaveUp => inTime out left (List.mem_append_right _ gaveUp)⟩
  · rintro ⟨first, second⟩ out left gaveUp
    exact (List.mem_append.mp gaveUp).elim (first out left) (second out left)

/-- **`recv_timeout` gives up in time exactly when its waits end in time**: in every run in which
each wait that has timed out finds the queue empty and each other wait finds an item, it returns
`None` only then; and a step in which a wait ends otherwise returns `None` out of time. -/
theorem givesUpInTime_of_reachable (capacity : ℕ) (c : Config (Blocking α) (QueueEvent α)) :
    ((blocking α capacity).Reachable WakesInTime c → GivesUpInTime c.trace) ∧
      ∀ label c', (blocking α capacity).next c label = some c' → ¬ WakesInTime c label →
        ¬ GivesUpInTime c'.trace := by
  constructor
  · intro reached
    refine reached.invariant (P := fun c => GivesUpInTime c.trace) ?_ ?_
    · exact fun _ _ gaveUp => absurd gaveUp List.not_mem_nil
    · intro c label c' inTime meets moved
      obtain ⟨observed, stepped, grown⟩ := Machine.next_eq_some moved
      rw [grown]
      exact givesUpInTime_append.mpr ⟨inTime, (step_queueStep stepped).givesUpInTime meets⟩
  · intro label c' moved late inTime
    obtain ⟨observed, stepped, grown⟩ := Machine.next_eq_some moved
    rw [grown] at inTime
    exact not_givesUpInTime c.trace stepped late (givesUpInTime_append.mp inTime).2

/-- One call times out on an empty queue, another one is notified and finds its item. -/
theorem givesUpInTime_of_reachable_twoCalls : ∃ c, (blocking ℕ 10).Reachable WakesInTime c ∧
    c.trace = [.gaveUp true [], .pushed 7 false, .received 7] ∧ GivesUpInTime c.trace := by
  obtain ⟨c, reached, seen⟩ := (blocking ℕ 10).exists_of_schedule WakesInTime
    [.call .recvTimeout, .call .recvTimeout, .enter 0, .enter 1, .timeOut 0, .resume 0,
      .push 7 (some 1), .resume 1]
    (fun c => c.trace) [.gaveUp true [], .pushed 7 false, .received 7] (by decide +kernel)
  exact ⟨c, reached, seen, (givesUpInTime_of_reachable 10 c).1 reached⟩

/-- An item is pushed just as a wait times out, and the call leaves it behind.  In another run
somebody else takes the item that a call was notified of, and the call does not wait on. -/
theorem recvTimeout_gives_up_early :
    (∃ c, (blocking ℕ 10).Reachable Machine.anyStep c ∧
      c.trace = [.pushed 7 false, .gaveUp true [7]]) ∧
    (∃ c, (blocking ℕ 10).Reachable Machine.anyStep c ∧
      c.trace = [.pushed 7 false, .received 7, .gaveUp false []]) ∧
    ¬ ∀ c, (blocking ℕ 10).Reachable Machine.anyStep c → GivesUpInTime c.trace := by
  have left := (blocking ℕ 10).exists_of_schedule Machine.anyStep
    [.call .recvTimeout, .enter 0, .timeOut 0, .push 7 none, .resume 0]
    (fun c => c.trace) [.pushed 7 false, .gaveUp true [7]] (by decide +kernel)
  have stolen := (blocking ℕ 10).exists_of_schedule Machine.anyStep
    [.call .recvTimeout, .enter 0, .push 7 (some 0), .tryRecv, .resume 0]
    (fun c => c.trace) [.pushed 7 false, .received 7, .gaveUp false []] (by decide +kernel)
  refine ⟨left, stolen, fun claim => ?_⟩
  obtain ⟨c, reached, seen⟩ := left
  have inTime := claim c reached true [7] (by rw [seen]; decide)
  cases inTime.2

end Blocking

end BoundedQueue

end RosZ
