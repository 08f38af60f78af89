import Mathlib.Algebra.Group.Nat.Defs
import RosZ.Lib.Machine
import RosZ.Lib.PartialMap
import RosZ.Queue
import RosZ.Rmw.Bindings
import RosZ.Service.Client

/-!
# Wait sets

`rmw_wait` sleeps until an entity of its wait set is ready.  All waiters of a context
share one `Notifier`, a mutex with a condition variable; whoever makes an entity ready
calls `notify_all` on it afterwards, without taking the mutex.

## Design notes

A waiter is a thread inside `rmw_wait`, and its `Phase` is the point it has reached.
`check_ready` looks at one entity per step and `rmw_wait` updates its arrays one entry
per step, so arrivals fall between any two of them.  An arrival and the `notify_all` that
follows it are two steps: `pending` counts the arrivals that have not notified yet.

A sleeping thread that is notified has to take the mutex again before it goes on; it is
`woken` until then.  Time-outs of the condition variable may happen at any moment.

## Sleeping on ready data

The loop of `wait` blocks first and checks afterwards, and between a check that failed
and the next block nothing keeps arrivals out.  `awake_of_reachable` says when that is
harmless: a waiter blocks only when nothing in its wait set is ready, or when a
notification is still to come.
-/

namespace RosZ.Rmw

open Transition

abbrev WaiterId := ℕ

/-! ## Entities -/

/-- A guard condition; `notifier` says whether it has the notifier of a context. -/
structure GuardConditionImpl where
  notifier : Bool
  triggered : Bool

namespace GuardConditionImpl

/-- The effect of `trigger` up to its `notify_all`. -/
def trigger (gc : GuardConditionImpl) : Option GuardConditionImpl :=
  if gc.notifier then some { gc with triggered := true } else none

def reset (gc : GuardConditionImpl) : GuardConditionImpl := { gc with triggered := false }

end GuardConditionImpl

/-- What a wait set points to.  An event handle may lack its data. -/
inductive Handle where
  | subscription (id : ℕ)
  | guardCondition (id : ℕ)
  | service (id : ℕ)
  | client (id : ℕ)
  | event (data : Option ℕ)
  deriving DecidableEq

/-- The state of the entities that wait sets look at.  Subscriptions and services built with
a callback have no queue; of the status of an event, waiting reads `changed` only. -/
structure Entities (α : Type) where
  subscriptions : ℕ → Option (BoundedQueue α)
  guardConditions : ℕ → GuardConditionImpl
  services : ℕ → Option (BoundedQueue α)
  clients : ℕ → Service.ZClient α
  events : ℕ → Bool

/-- Something that makes an entity ready. -/
inductive Arrival (α : Type) where
  | message (subscription : ℕ) (sample : α)
  | trigger (guardCondition : ℕ)
  | request (service : ℕ) (query : α)
  | response (client : ℕ) (sample : Service.Sample α)
  | status (event : ℕ)

namespace Entities

variable {α : Type}

def isReady (e : Entities α) : Handle → Bool
  | .subscription i => (e.subscriptions i).any fun queue => !queue.data.isEmpty
  | .guardCondition i => (e.guardConditions i).triggered
  | .service i => (e.services i).any fun queue => !queue.data.isEmpty
  | .client i => !(e.clients i).rx.isEmpty
  | .event data => data.any e.events

/-- What an arrival does before it notifies. -/
def arrive (e : Entities α) : Arrival α → Option (Entities α)
  | .message i sample => (e.subscriptions i).map fun queue =>
      { e with subscriptions := Function.update e.subscriptions i (some (queue.push sample).1) }
  | .trigger i => (e.guardConditions i).trigger.map fun gc =>
      { e with guardConditions := Function.update e.guardConditions i gc }
  | .request i query => (e.services i).map fun queue =>
      { e with services := Function.update e.services i (some (queue.push query).1) }
  | .response i sample =>
      some { e with clients := Function.update e.clients i ((e.clients i).trySend false sample) }
  | .status i => some { e with events := Function.update e.events i true }

/-- Take the oldest item of a queue, if there is one. -/
def takeFirst (queue : Option (BoundedQueue α)) : Option (BoundedQueue α) :=
  queue.map fun q => { q with data := q.data.tail }

/-- The `take` function of an entity, which takes at most one item. -/
def take (e : Entities α) : Handle → Entities α
  | .subscription i =>
      let left := takeFirst (e.subscriptions i)
      { e with subscriptions := Function.update e.subscriptions i left }
  | .guardCondition _ => e
  | .service i =>
      let left := takeFirst (e.services i)
      { e with services := Function.update e.services i left }
  | .client i =>
      let left := { e.clients i with rx := (e.clients i).rx.tail }
      { e with clients := Function.update e.clients i left }
  | .event none => e
  | .event (some i) => { e with events := Function.update e.events i false }

/-- `reset` of a guard condition that was found ready; other entities stay ready. -/
def reset (e : Entities α) : Handle → Entities α
  | .guardCondition i =>
      { e with guardConditions := Function.update e.guardConditions i (e.guardConditions i).reset }
  | _ => e

theorem any_of_takeFirst {queue : Option (BoundedQueue α)}
    (ready : (takeFirst queue).any (fun q => !q.data.isEmpty) = true) :
    queue.any (fun q => !q.data.isEmpty) = true := by
  cases queue with
  | none => exact ready
  | some q =>
      cases items : q.data with
      | nil => simp [takeFirst, items] at ready
      | cons item rest => simp [items]

/-- Taking an item makes nothing ready. -/
theorem isReady_of_take {e : Entities α} {taken h : Handle}
    (ready : (e.take taken).isReady h = true) : e.isReady h = true := by
  cases taken with
  | subscription i =>
      cases h with
      | subscription j =>
          by_cases same : j = i
          · subst same
            simp only [take, isReady, Function.update_self] at ready
            exact any_of_takeFirst ready
          · simpa [take, isReady, same] using ready
      | _ => exact ready
  | guardCondition i => exact ready
  | service i =>
      cases h with
      | service j =>
          by_cases same : j = i
          · subst same
            simp only [take, isReady, Function.update_self] at ready
            exact any_of_takeFirst ready
          · simpa [take, isReady, same] using ready
      | _ => exact ready
  | client i =>
      cases h with
      | client j =>
          by_cases same : j = i
          · subst same
            cases items : (e.clients j).rx with
            | nil => simp [take, isReady, items] at ready
            | cons item rest => simp [isReady, items]
          · simpa [take, isReady, same] using ready
      | _ => exact ready
  | event data =>
      cases data with
      | none => exact ready
      | some i =>
          cases h with
          | event data =>
              cases data with
              | none => exact ready
              | some j =>
                  by_cases same : j = i
                  · simp [take, isReady, same] at ready
                  · simpa [take, isReady, same] using ready
          | _ => exact ready

/-- Nor does a reset. -/
theorem isReady_of_reset {e : Entities α} {found h : Handle}
    (ready : (e.reset found).isReady h = true) : e.isReady h = true := by
  cases found with
  | guardCondition i =>
      cases h with
      | guardCondition j =>
          by_cases same : j = i
          · simp [reset, isReady, same, GuardConditionImpl.reset] at ready
          · simpa [reset, isReady, same] using ready
      | _ => exact ready
  | _ => exact ready

end Entities

/-! ## Wait sets and the arrays of a call -/

/-- The wait set of a call. -/
structure WaitSetImpl where
  subscriptions : List ℕ
  guardConditions : List ℕ
  services : List ℕ
  clients : List ℕ
  events : List (Option ℕ)

/-- The entities in the order in which `check_ready` looks at them. -/
def WaitSetImpl.handles (ws : WaitSetImpl) : List Handle :=
  ws.subscriptions.map .subscription ++ ws.guardConditions.map .guardCondition ++
    ws.services.map .service ++ ws.clients.map .client ++ ws.events.map .event

/-- The arrays that a call is given and updates in place; `none` is a null entry.  A null
array is an empty one. -/
structure WaitArrays where
  subscriptions : List (Option ℕ)
  guardConditions : List (Option ℕ)
  services : List (Option ℕ)
  clients : List (Option ℕ)
  events : List (Option (Option ℕ))

/-- A place in the arrays. -/
inductive Slot where
  | subscription (index : ℕ)
  | service (index : ℕ)
  | client (index : ℕ)
  | guardCondition (index : ℕ)
  | event (index : ℕ)

namespace WaitArrays

/-- The wait set that `rmw_wait` fills from the entries that are not null. -/
def waitSet (a : WaitArrays) : WaitSetImpl where
  subscriptions := a.subscriptions.reduceOption
  guardConditions := a.guardConditions.reduceOption
  services := a.services.reduceOption
  clients := a.clients.reduceOption
  events := a.events.reduceOption

/-- The order in which `rmw_wait` goes through the arrays after the wait. -/
def slots (a : WaitArrays) : List Slot :=
  (List.range a.subscriptions.length).map .subscription ++
    (List.range a.services.length).map .service ++
    (List.range a.clients.length).map .client ++
    (List.range a.guardConditions.length).map .guardCondition ++
    (List.range a.events.length).map .event

/-- The entry in a place, unless it is null. -/
def entry (a : WaitArrays) : Slot → Option Handle
  | .subscription i => (a.subscriptions[i]?).join.map .subscription
  | .service i => (a.services[i]?).join.map .service
  | .client i => (a.clients[i]?).join.map .client
  | .guardCondition i => (a.guardConditions[i]?).join.map .guardCondition
  | .event i => (a.events[i]?).join.map .event

/-- Put a null in place of an entry. -/
def setNull (a : WaitArrays) : Slot → WaitArrays
  | .subscription i => { a with subscriptions := a.subscriptions.set i none }
  | .service i => { a with services := a.services.set i none }
  | .client i => { a with clients := a.clients.set i none }
  | .guardCondition i => { a with guardConditions := a.guardConditions.set i none }
  | .event i => { a with events := a.events.set i none }

end WaitArrays

/-! ## Time-outs -/

/-- The three ways in which `wait` treats its time-out. -/
inductive Timeout where
  | zero
  | finite
  | infinite
  deriving DecidableEq

/-- A null time-out is the largest number of seconds, which stands for an infinite wait.  The
sum of the two parts of a finite one panics when its seconds do not fit. -/
def RmwTime.timeout (wait : Option RmwTime) : Option Timeout :=
  let time := wait.getD ⟨18446744073709551615, 0⟩
  if time.sec = 0 ∧ time.nsec = 0 then some .zero
  else if time.sec = 18446744073709551615 then some .infinite
  else if time.sec.toNat + time.nsec.toNat / 10 ^ 9 < 2 ^ 64 then some .finite
  else none

/-! ## Waiters -/

/-- How far a call of `rmw_wait` has got. -/
inductive Phase where
  /-- `check_ready` of a call with time-out zero, with the entities it has not looked at. -/
  | polling (rest : List Handle)
  /-- About to lock the mutex. -/
  | entering (timeout : Timeout)
  /-- It holds the mutex and is about to wait on the condition variable. -/
  | holding (timeout : Timeout)
  | blocked (timeout : Timeout)
  /-- Notified or timed out, and waiting for the mutex. -/
  | woken (timeout : Timeout) (timedOut : Bool)
  /-- `check_ready` under the mutex, with the entities it has not looked at. -/
  | checking (timeout : Timeout) (timedOut : Bool) (rest : List Handle)
  /-- It has found something ready and updates the arrays. -/
  | updating (rest : List Slot)
  deriving Inhabited

/-- A thread inside `rmw_wait`. -/
structure Waiter where
  arrays : WaitArrays
  phase : Phase

/-- What `rmw_wait` returns. -/
inductive Outcome where
  | ok (arrays : WaitArrays)
  | timeout

inductive Event where
  | returned (w : WaiterId) (outcome : Outcome)

/-- The entities and waiters of a context. -/
structure WaitState (α : Type) where
  entities : Entities α
  waiters : WaiterId → Option Waiter
  /-- The holder of the notifier's mutex. -/
  mutex : Option WaiterId
  /-- The arrivals that have not called `notify_all` yet. -/
  pending : ℕ

inductive Label (α : Type) where
  /-- Call `rmw_wait`. -/
  | call (w : WaiterId) (arrays : WaitArrays) (timeout : Option RmwTime)
  /-- Take the mutex, at first or after waking up. -/
  | lock (w : WaiterId)
  /-- Wait on the condition variable, which releases the mutex. -/
  | block (w : WaiterId)
  /-- The time-out of the condition variable expires. -/
  | timeOut (w : WaiterId)
  /-- Look at the next entity, or conclude that nothing is ready. -/
  | check (w : WaiterId)
  /-- Update the next entry of the arrays, or return. -/
  | update (w : WaiterId)
  | arrive (arrival : Arrival α)
  /-- An arrival calls `notify_all`. -/
  | notifyAll
  | take (h : Handle)

namespace WaitState

variable {α : Type}

/-- The result of a step: the state after it and what is observed of it. -/
abbrev After (α : Type) : Type := WaitState α × List Event

def setPhase (s : WaitState α) (w : WaiterId) (arrays : WaitArrays) (phase : Phase) :
    WaitState α :=
  { s with waiters := Function.update s.waiters w (some ⟨arrays, phase⟩) }

/-- The call returns. -/
def leave (s : WaitState α) (w : WaiterId) (outcome : Outcome) : After α :=
  ({ s with waiters := Function.update s.waiters w none }, [.returned w outcome])

def call (s : WaitState α) (w : WaiterId) (arrays : WaitArrays) (timeout : Option RmwTime) :
    Option (After α) :=
  match s.waiters w, RmwTime.timeout timeout with
  | none, some .zero => some (s.setPhase w arrays (.polling arrays.waitSet.handles), [])
  | none, some timeout => some (s.setPhase w arrays (.entering timeout), [])
  | _, _ => none

def lock (s : WaitState α) (w : WaiterId) : Option (After α) :=
  match s.mutex, s.waiters w with
  | none, some ⟨arrays, .entering timeout⟩ =>
      some ({ s.setPhase w arrays (.holding timeout) with mutex := some w }, [])
  | none, some ⟨arrays, .woken timeout timedOut⟩ =>
      let checking := .checking timeout timedOut arrays.waitSet.handles
      some ({ s.setPhase w arrays checking with mutex := some w }, [])
  | _, _ => none

def block (s : WaitState α) (w : WaiterId) : Option (After α) :=
  match s.waiters w with
  | some ⟨arrays, .holding timeout⟩ =>
      some ({ s.setPhase w arrays (.blocked timeout) with mutex := none }, [])
  | _ => none

def timeOut (s : WaitState α) (w : WaiterId) : Option (After α) :=
  match s.waiters w with
  | some ⟨arrays, .blocked .finite⟩ => some (s.setPhase w arrays (.woken .finite true), [])
  | _ => none

def check (s : WaitState α) (w : WaiterId) : Option (After α) :=
  match s.waiters w with
  | some ⟨arrays, .polling (h :: rest)⟩ =>
      if s.entities.isReady h then some (s.setPhase w arrays (.updating arrays.slots), [])
      else some (s.setPhase w arrays (.polling rest), [])
  | some ⟨_, .polling []⟩ => some (s.leave w .timeout)
  | some ⟨arrays, .checking timeout timedOut (h :: rest)⟩ =>
      if s.entities.isReady h then
        some ({ s.setPhase w arrays (.updating arrays.slots) with mutex := none }, [])
      else some (s.setPhase w arrays (.checking timeout timedOut rest), [])
  | some ⟨arrays, .checking timeout timedOut []⟩ =>
      if timeout = .finite ∧ timedOut then some ({ s with mutex := none }.leave w .timeout)
      else some (s.setPhase w arrays (.holding timeout), [])
  | _ => none

def update (s : WaitState α) (w : WaiterId) : Option (After α) :=
  match s.waiters w with
  | some ⟨arrays, .updating (slot :: rest)⟩ =>
      match arrays.entry slot with
      | none => some (s.setPhase w arrays (.updating rest), [])
      | some h =>
          if s.entities.isReady h then
            let entities := s.entities.reset h
            some ({ s.setPhase w arrays (.updating rest) with entities }, [])
          else some (s.setPhase w (arrays.setNull slot) (.updating rest), [])
  | some ⟨arrays, .updating []⟩ => some (s.leave w (.ok arrays))
  | _ => none

def arrive (s : WaitState α) (arrival : Arrival α) : Option (After α) :=
  (s.entities.arrive arrival).map fun entities =>
    ({ s with entities, pending := s.pending + 1 }, [])

/-- A blocked waiter wakes up. -/
def wake (waiter : Waiter) : Waiter :=
  match waiter.phase with
  | .blocked timeout => { waiter with phase := .woken timeout false }
  | _ => waiter

def notifyAll (s : WaitState α) : Option (After α) :=
  match s.pending with
  | 0 => none
  | pending + 1 => some ({ s with waiters := fun w => (s.waiters w).map wake, pending }, [])

def step (s : WaitState α) : Label α → Option (After α)
  | .call w arrays timeout => s.call w arrays timeout
  | .lock w => s.lock w
  | .block w => s.block w
  | .timeOut w => s.timeOut w
  | .check w => s.check w
  | .update w => s.update w
  | .arrive arrival => s.arrive arrival
  | .notifyAll => s.notifyAll
  | .take h => some ({ s with entities := s.entities.take h }, [])

end WaitState

/-- The context: its entities, at first as given, and the calls of `rmw_wait`. -/
def rmwWait {α : Type} (entities : Entities α) : Machine (WaitState α) (Label α) Event where
  init := { entities, waiters := fun _ => none, mutex := none, pending := 0 }
  step := WaitState.step

/-! ## Sleeping -/

section Sleeping

variable {α : Type}

/-- Some entity of the wait set is ready. -/
def Entities.anyReady (e : Entities α) (arrays : WaitArrays) : Bool :=
  arrays.waitSet.handles.any e.isReady

/-- The waiter sleeps without a time-out. -/
def WaitState.Sleeps (s : WaitState α) (w : WaiterId) (arrays : WaitArrays) : Prop :=
  s.waiters w = some ⟨arrays, .blocked .infinite⟩

/-- Somebody sleeps without a time-out while an entity of the wait set is ready, and no
notification is still to come. -/
def SleepsOnReady (s : WaitState α) : Prop :=
  ∃ w arrays, s.Sleeps w arrays ∧ s.entities.anyReady arrays = true ∧ s.pending = 0

/-- A waiter without a time-out blocks only when nothing in its wait set is ready, or when a
notification is still to come. -/
def BlocksUnready (c : Config (WaitState α) Event) : Label α → Prop
  | .block w =>
      match c.state.waiters w with
      | some ⟨arrays, .holding .infinite⟩ =>
          c.state.entities.anyReady arrays = false ∨ c.state.pending ≠ 0
      | _ => True
  | _ => True

instance : DecidableRel (@BlocksUnready α) := by
  intro c label
  unfold BlocksUnready
  split
  · split <;> infer_instance
  · infer_instance

theorem Entities.anyReady_mono {e e' : Entities α} {arrays : WaitArrays}
    (fewer : ∀ h, e'.isReady h = true → e.isReady h = true)
    (ready : e'.anyReady arrays = true) : e.anyReady arrays = true := by
  obtain ⟨h, member, found⟩ := List.any_eq_true.mp ready
  exact List.any_eq_true.mpr ⟨h, member, fewer h found⟩

/-- What a step can do to sleepers: make a notification due, wake them all, or let at most the
waiter that blocks join them while nothing gets ready. -/
inductive SleepChange (s : WaitState α) (label : Label α) (s' : WaitState α) : Prop
  | due (pending : s'.pending ≠ 0)
  | woken (awake : ∀ w arrays, ¬ s'.Sleeps w arrays)
  | quiet (pending : s'.pending = s.pending)
      (fewer : ∀ h, s'.entities.isReady h = true → s.entities.isReady h = true)
      (sleepers : ∀ w arrays, s'.Sleeps w arrays → s.Sleeps w arrays ∨
        (label = .block w ∧ s.waiters w = some ⟨arrays, .holding .infinite⟩))

/-- A waiter that changes its phase to something else than `blocked` joins no sleepers. -/
theorem sleeps_of_update {waiters : WaiterId → Option Waiter} {w v : WaiterId}
    {changed : Option Waiter} {arrays : WaitArrays}
    (sleeps : Function.update waiters w changed v = some ⟨arrays, .blocked .infinite⟩)
    (other : ∀ arrays, changed ≠ some ⟨arrays, .blocked .infinite⟩) :
    waiters v = some ⟨arrays, .blocked .infinite⟩ := by
  rcases PartialMap.update_eq_some_iff.mp sleeps with ⟨-, now⟩ | ⟨-, before⟩
  · exact absurd now (other arrays)
  · exact before

theorem WaitState.wake_ne_blocked (waiter : Waiter) (arrays : WaitArrays) :
    wake waiter ≠ ⟨arrays, .blocked .infinite⟩ := by
  intro same
  unfold wake at same
  split at same
  · cases same
  · next awake => exact awake .infinite (congrArg Waiter.phase same)

variable {s s' : WaitState α} {label : Label α} {observed : List Event}

/-- A waiter moves on, nothing else happens. -/
theorem SleepChange.phase {w : WaiterId} {changed : Option Waiter} {mutex : Option WaiterId}
    (other : ∀ arrays, changed ≠ some ⟨arrays, .blocked .infinite⟩) :
    SleepChange s label
      { s with waiters := Function.update s.waiters w changed, mutex := mutex } :=
  .quiet rfl (fun _ ready => ready) fun _ _ sleeps => .inl (sleeps_of_update sleeps other)

theorem sleepChange_block {w : WaiterId} (stepped : s.block w = some (s', observed)) :
    SleepChange s (.block w) s' := by
  unfold WaitState.block at stepped
  split at stepped
  · next arrays timeout before =>
      cases stepped
      refine .quiet rfl (fun _ ready => ready) fun v found sleeps => ?_
      rcases PartialMap.update_eq_some_iff.mp sleeps with ⟨rfl, now⟩ | ⟨-, already⟩
      · cases now
        exact .inr ⟨rfl, before⟩
      · exact .inl already
  · cases stepped

theorem sleepChange_check {w : WaiterId} (stepped : s.check w = some (s', observed)) :
    SleepChange s label s' := by
  unfold WaitState.check at stepped
  split at stepped
  · split at stepped
    · cases stepped
      exact .phase (by simp)
    · cases stepped
      exact .phase (by simp)
  · cases stepped
    exact .phase (by simp)
  · split at stepped
    · cases stepped
      exact .phase (by simp)
    · cases stepped
      exact .phase (by simp)
  · split at stepped
    · cases stepped
      exact .phase (by simp)
    · cases stepped
      exact .phase (by simp)
  · cases stepped

theorem sleepChange_update {w : WaiterId} (stepped : s.update w = some (s', observed)) :
    SleepChange s label s' := by
  unfold WaitState.update at stepped
  split at stepped
  · split at stepped
    · cases stepped
      exact .phase (by simp)
    · split at stepped
      · -- the guard condition that was found ready is reset
        cases stepped
        refine .quiet rfl (fun _ ready => Entities.isReady_of_reset ready) fun v found sleeps => ?_
        exact .inl (sleeps_of_update sleeps (by simp))
      · cases stepped
        exact .phase (by simp)
  · cases stepped
    exact .phase (by simp)
  · cases stepped

theorem sleepChange_notifyAll (stepped : s.notifyAll = some (s', observed)) :
    SleepChange s label s' := by
  unfold WaitState.notifyAll at stepped
  split at stepped
  · cases stepped
  · cases stepped
    refine .woken fun w arrays sleeps => ?_
    obtain ⟨waiter, -, now⟩ := Option.map_eq_some_iff.mp sleeps
    exact WaitState.wake_ne_blocked waiter arrays now

theorem sleepChange (stepped : s.step label = some (s', observed)) : SleepChange s label s' := by
  cases label with
  | call w arrays timeout =>
      simp only [WaitState.step, WaitState.call] at stepped
      split at stepped
      · cases stepped
        exact .phase (by simp)
      · cases stepped
        exact .phase (by simp)
      · cases stepped
  | lock w =>
      simp only [WaitState.step, WaitState.lock] at stepped
      split at stepped
      · cases stepped
        exact .phase (by simp)
      · cases stepped
        exact .phase (by simp)
      · cases stepped
  | block w => exact sleepChange_block stepped
  | timeOut w =>
      simp only [WaitState.step, WaitState.timeOut] at stepped
      split at stepped
      · cases stepped
        exact .phase (by simp)
      · cases stepped
  | check w => exact sleepChange_check stepped
  | update w => exact sleepChange_update stepped
  | arrive arrival =>
      obtain ⟨entities, -, same⟩ := Option.map_eq_some_iff.mp stepped
      cases same
      exact .due (Nat.succ_ne_zero _)
  | notifyAll => exact sleepChange_notifyAll stepped
  | take h =>
      cases stepped
      exact .quiet rfl (fun _ ready => Entities.isReady_of_take ready) fun _ _ sleeps => .inl sleeps

/-- Who sleeps on ready data will be notified. -/
def NotificationDue (s : WaitState α) : Prop :=
  ∀ w arrays, s.Sleeps w arrays → s.entities.anyReady arrays = true → s.pending ≠ 0

theorem NotificationDue.step {trace : List Event} (due : NotificationDue s)
    (meets : BlocksUnready ⟨s, trace⟩ label) (stepped : s.step label = some (s', observed)) :
    NotificationDue s' := by
  intro w arrays sleeps ready
  rcases sleepChange stepped with pending | awake | ⟨pending, fewer, sleepers⟩
  · exact pending
  · exact absurd sleeps (awake w arrays)
  · rw [pending]
    have before := Entities.anyReady_mono fewer ready
    rcases sleepers w arrays sleeps with slept | ⟨rfl, holding⟩
    · exact due w arrays slept before
    · simp only [BlocksUnready, holding] at meets
      rcases meets with unready | outstanding
      · rw [before] at unready
        cases unready
      · exact outstanding

/-- **Nobody sleeps on ready data**, in any run in which waiters block only when nothing is ready
or a notification is still to come. -/
theorem awake_of_reachable (entities : Entities α) (c : Config (WaitState α) Event)
    (reached : (rmwWait entities).Reachable BlocksUnready c) : ¬ SleepsOnReady c.state := by
  have due : NotificationDue c.state := by
    refine reached.invariant (P := fun c => NotificationDue c.state) ?_ ?_
    · intro w arrays sleeps
      cases sleeps
    · intro c label c' due meets moved
      obtain ⟨observed, stepped, -⟩ := Machine.next_eq_some moved
      exact due.step meets stepped
  rintro ⟨w, arrays, sleeps, ready, none⟩
  exact due w arrays sleeps ready none

/-- The condition is needed at every step: a waiter that blocks against it sleeps on ready
data at once. -/
theorem sleepsOnReady_of_block {w : WaiterId} {trace : List Event}
    (against : ¬ BlocksUnready ⟨s, trace⟩ (.block w))
    (stepped : s.step (.block w) = some (s', observed)) : SleepsOnReady s' := by
  simp only [BlocksUnready] at against
  split at against
  · next arrays holding =>
      simp only [not_or, not_not, Bool.not_eq_false] at against
      simp only [WaitState.step, WaitState.block, holding] at stepped
      cases stepped
      exact ⟨w, arrays, Function.update_self .., against.1, against.2⟩
  · exact absurd trivial against

end Sleeping

/-! ## Runs -/

/-- A context with one subscription of depth 1. -/
def demoEntities : Entities ℕ where
  subscriptions i := if i = 0 then some (.new 1) else none
  guardConditions _ := ⟨true, false⟩
  services _ := none
  clients _ := ⟨1, []⟩
  events _ := false

/-- The wait set with the subscription. -/
def demoArrays : WaitArrays where
  subscriptions := [some 0]
  guardConditions := []
  services := []
  clients := []
  events := []

/-- The waiter blocks first; then a message arrives. -/
def arrivesAsleep : List (Label ℕ) :=
  [.call 0 demoArrays none, .lock 0, .block 0, .arrive (.message 0 7)]

/-- In this run the waiter is asleep, the subscription is ready and the notification is
still to come. -/
theorem awake_of_reachable_arrivesAsleep :
    ∃ c, (rmwWait demoEntities).Reachable BlocksUnready c ∧ c.state.Sleeps 0 demoArrays ∧
      c.state.entities.anyReady demoArrays = true ∧ ¬ SleepsOnReady c.state := by
  obtain ⟨c, c', reached, run, seen⟩ := @Machine.exists_of_execution _ _ _ (rmwWait demoEntities)
    BlocksUnready _ _ arrivesAsleep []
    (fun c _ => (c.state.waiters 0, c.state.entities.anyReady demoArrays))
    (some ⟨demoArrays, .blocked .infinite⟩, true) rfl
  obtain ⟨sleeps, ready⟩ := Prod.mk.inj seen
  exact ⟨c, reached, sleeps, ready, awake_of_reachable demoEntities c reached⟩

/-- A message arrives and its notification is over before the call. -/
def arrivedBefore : List (Label ℕ) :=
  [.arrive (.message 0 7), .notifyAll, .call 0 demoArrays none, .lock 0, .block 0]

/-- **A waiter sleeps on a message that is there already.** -/
theorem rmwWait_sleeps_on_ready :
    ¬ ∀ c, (rmwWait demoEntities).Reachable Machine.anyStep c → ¬ SleepsOnReady c.state := by
  intro never
  obtain ⟨c, c', reached, run, seen⟩ := @Machine.exists_of_execution _ _ _ (rmwWait demoEntities)
    Machine.anyStep _ _ arrivedBefore []
    (fun c _ => (c.state.waiters 0, c.state.entities.anyReady demoArrays, c.state.pending))
    (some ⟨demoArrays, .blocked .infinite⟩, true, 0) rfl
  obtain ⟨sleeps, ready, pending⟩ := by simpa only [Prod.mk.injEq] using seen
  exact never c reached ⟨0, demoArrays, sleeps, ready, pending⟩

/-- The same happens to a waiter that was woken for nothing: a message that arrives and notifies
between the check that failed and the next wait is lost. -/
def arrivesAfterCheck : List (Label ℕ) :=
  [.call 0 demoArrays none, .lock 0, .block 0, .arrive (.trigger 3), .notifyAll, .lock 0,
    .check 0, .arrive (.message 0 7), .notifyAll, .check 0, .block 0]

example : ((rmwWait demoEntities).runLabels Machine.anyStep (rmwWait demoEntities).start
    arrivesAfterCheck).map (fun c => (c.state.waiters 0,
      c.state.entities.anyReady demoArrays, c.state.pending)) =
    some (some ⟨demoArrays, .blocked .infinite⟩, true, 0) := rfl

end RosZ.Rmw
