import Mathlib.Data.List.AList
import RosZ.Lib.PartialMap

/-!
# Goals and the goal manager

The vocabulary of ROS 2 actions, and the goal manager of an action server: the
table of goals and the table of result requests that wait for a goal to end.

## Design notes

`SafeGoalManager` gives access to both tables through `modify` and `read` only,
each of which runs a synchronous closure under one lock.  Every such closure of the
server is a function of this module, named after the operation it belongs to; the
steps of the server are sequences of them.

The tables are association lists with distinct keys (`AList`), which stand for hash
maps: nothing depends on the order of the keys.  A cancel flag is shared between a
table entry and a goal handle, so the table holds its address.  A waiter is the
sender of a one-shot channel, named by the query whose handler created it.
-/

namespace RosZ.Action

/-! ## Goals -/

/-- Uniquely identifies a goal. -/
structure GoalId where
  bytes : Vector UInt8 16
deriving DecidableEq, Repr

structure Time where
  sec : Int32
  nanosec : UInt32
deriving DecidableEq, Repr

/-- A goal id and the time at which the server received the goal. -/
structure GoalInfo where
  goalId : GoalId
  stamp : Time
deriving DecidableEq, Repr

inductive GoalStatus where
  | unknown | accepted | executing | canceling | succeeded | canceled | aborted
deriving DecidableEq, Repr

/-- The value of the status on the wire, `status as i8`. -/
def GoalStatus.toI8 : GoalStatus → Int8
  | .unknown => 0
  | .accepted => 1
  | .executing => 2
  | .canceling => 3
  | .succeeded => 4
  | .canceled => 5
  | .aborted => 6

/-- The calls that end a goal. -/
inductive Outcome where
  | succeed | abort | canceled
deriving DecidableEq, Repr

/-- The status that `succeed`, `abort` and `canceled` pass to `terminate`. -/
def Outcome.status : Outcome → GoalStatus
  | .succeed => .succeeded
  | .abort => .aborted
  | .canceled => .canceled

/-! ## The tables -/

/-- Where a cancel flag is stored. -/
abbrev FlagId := ℕ

/-- A query, as the transport tells queries apart. -/
abbrev QueryId := ℕ

/-- Server-side state of a goal. -/
inductive ServerGoalState (Goal Result : Type) where
  | accepted (goal : Goal) (timestamp : ℕ) (expiresAt : Option ℕ)
  | executing (goal : Goal) (cancelFlag : FlagId) (expiresAt : Option ℕ)
  | canceling (goal : Goal)
  | terminated (result : Result) (status : GoalStatus) (timestamp : ℕ) (expiresAt : Option ℕ)
deriving DecidableEq, Repr

/-- The goal has ended. -/
def ServerGoalState.isTerminated {Goal Result : Type} : ServerGoalState Goal Result → Bool
  | .terminated .. => true
  | _ => false

/-- The test that `expire_goals` makes of an entry. -/
def ServerGoalState.shouldExpire {Goal Result : Type} (now : ℕ) :
    ServerGoalState Goal Result → Bool
  | .accepted _ _ expiresAt => expiresAt.any (· ≤ now)
  | .executing _ _ expiresAt => expiresAt.any (· ≤ now)
  | .terminated _ _ _ expiresAt => expiresAt.any (· ≤ now)
  | .canceling _ => false

/-- Internal goal state storage. -/
structure GoalManagerInternal (Goal Result : Type) where
  goals : AList (fun _ : GoalId => ServerGoalState Goal Result)
  resultTimeout : ℕ
  goalTimeout : Option ℕ
  resultFutures : AList (fun _ : GoalId => List QueryId)

/-- What the driver finds when it looks up the goal of a result request. -/
inductive ResultState (Result : Type) where
  | terminated (result : Result) (status : GoalStatus)
  | waiting
  | notFound
deriving DecidableEq, Repr

namespace GoalManagerInternal

variable {Goal Result : Type}

def new (resultTimeout : ℕ) (goalTimeout : Option ℕ) : GoalManagerInternal Goal Result :=
  { goals := ∅, resultTimeout, goalTimeout, resultFutures := ∅ }

/-- The entry of a goal. -/
def entry (m : GoalManagerInternal Goal Result) (g : GoalId) :
    Option (ServerGoalState Goal Result) :=
  m.goals.lookup g

/-- The queries that wait for the goal to end. -/
def waiters (m : GoalManagerInternal Goal Result) (g : GoalId) : List QueryId :=
  (m.resultFutures.lookup g).getD []

/-- `accept`: the goal enters the table. -/
def accept (now : ℕ) (g : GoalId) (goal : Goal) (m : GoalManagerInternal Goal Result) :
    GoalManagerInternal Goal Result :=
  let expiresAt := m.goalTimeout.map (now + ·)
  { m with goals := m.goals.insert g (.accepted goal now expiresAt) }

/-- `execute`: the goal is marked as running, with a new cancel flag. -/
def execute (now : ℕ) (g : GoalId) (goal : Goal) (cancelFlag : FlagId)
    (m : GoalManagerInternal Goal Result) : GoalManagerInternal Goal Result :=
  let expiresAt := m.goalTimeout.map (now + ·)
  { m with goals := m.goals.insert g (.executing goal cancelFlag expiresAt) }

/-- `terminate`: the result is stored and the waiters are taken out. -/
def terminate (now : ℕ) (g : GoalId) (result : Result) (status : GoalStatus)
    (m : GoalManagerInternal Goal Result) : GoalManagerInternal Goal Result × List QueryId :=
  let expiresAt := some (now + m.resultTimeout)
  ({ m with
      goals := m.goals.insert g (.terminated result status now expiresAt)
      resultFutures := m.resultFutures.erase g },
    m.waiters g)

/-- `request_cancel` and `handle_cancel_request`: the flag of a running goal. -/
def cancelFlag (m : GoalManagerInternal Goal Result) (g : GoalId) : Option FlagId :=
  match m.entry g with
  | some (.executing _ flag _) => some flag
  | _ => none

/-- Register a waiter: `result_futures.entry(goal_id).or_default().push(tx)`. -/
def addWaiter (g : GoalId) (tx : QueryId) (m : GoalManagerInternal Goal Result) :
    GoalManagerInternal Goal Result :=
  { m with resultFutures := m.resultFutures.insert g (m.waiters g ++ [tx]) }

/-- `handle_result_request`: the result of a goal that has ended; for any other goal
in the table the sender is registered. -/
def handleResult (g : GoalId) (tx : QueryId) (m : GoalManagerInternal Goal Result) :
    GoalManagerInternal Goal Result × ResultState Result :=
  match m.entry g with
  | some (.terminated result status _ _) => (m, .terminated result status)
  | some _ => (m.addWaiter g tx, .waiting)
  | none => (m, .notFound)

/-- `handle_result_requests_legacy_inner`: the result of a goal that has ended. -/
def terminatedResult (m : GoalManagerInternal Goal Result) (g : GoalId) :
    Option (Result × GoalStatus) :=
  match m.entry g with
  | some (.terminated result status _ _) => some (result, status)
  | _ => none

/-- `expire_goals`: goals past their expiration time are removed and listed. -/
def expireGoals (now : ℕ) (m : GoalManagerInternal Goal Result) :
    GoalManagerInternal Goal Result × List GoalId :=
  ({ m with
      goals := ⟨m.goals.entries.filter fun goal => !goal.2.shouldExpire now,
        List.NodupKeys.sublist List.filter_sublist m.goals.nodupKeys⟩ },
    (m.goals.entries.filter fun goal => goal.2.shouldExpire now).map Sigma.fst)

def setResultTimeout (timeout : ℕ) (m : GoalManagerInternal Goal Result) :
    GoalManagerInternal Goal Result :=
  { m with resultTimeout := timeout }

/-! ## What the operations do to an entry -/

variable (m : GoalManagerInternal Goal Result) (now : ℕ) (g g' : GoalId)

@[simp] theorem entry_new (resultTimeout : ℕ) (goalTimeout : Option ℕ) :
    (new resultTimeout goalTimeout : GoalManagerInternal Goal Result).entry g = none := rfl

@[simp] theorem waiters_new (resultTimeout : ℕ) (goalTimeout : Option ℕ) :
    (new resultTimeout goalTimeout : GoalManagerInternal Goal Result).waiters g = [] := rfl

@[simp] theorem entry_accept (goal : Goal) :
    (m.accept now g goal).entry g' =
      if g' = g then some (.accepted goal now (m.goalTimeout.map (now + ·))) else m.entry g' :=
  PartialMap.lookup_insert_eq m.goals g g' _

@[simp] theorem entry_execute (goal : Goal) (flag : FlagId) :
    (m.execute now g goal flag).entry g' =
      if g' = g then some (.executing goal flag (m.goalTimeout.map (now + ·)))
      else m.entry g' :=
  PartialMap.lookup_insert_eq m.goals g g' _

@[simp] theorem entry_terminate (result : Result) (status : GoalStatus) :
    (m.terminate now g result status).1.entry g' =
      if g' = g then some (.terminated result status now (some (now + m.resultTimeout)))
      else m.entry g' :=
  PartialMap.lookup_insert_eq m.goals g g' _

@[simp] theorem entry_addWaiter (tx : QueryId) : (m.addWaiter g tx).entry g' = m.entry g' := rfl

@[simp] theorem entry_setResultTimeout (timeout : ℕ) :
    (m.setResultTimeout timeout).entry g = m.entry g := rfl

/-- Expiry removes an entry or leaves it as it is. -/
@[simp] theorem entry_expireGoals :
    (m.expireGoals now).1.entry g = (m.entry g).filter fun state => !state.shouldExpire now := by
  ext state
  have kept : (m.goals.entries.filter fun goal => !goal.2.shouldExpire now).NodupKeys :=
    List.NodupKeys.sublist List.filter_sublist m.goals.nodupKeys
  have before : m.entry g = some state ↔ ⟨g, state⟩ ∈ m.goals.entries :=
    List.mem_dlookup_iff m.goals.nodupKeys
  rw [Option.filter_eq_some_iff, before]
  exact (List.mem_dlookup_iff kept).trans List.mem_filter

/-- The goals listed as expired are those whose entry is removed. -/
theorem mem_expireGoals :
    g ∈ (m.expireGoals now).2 ↔
      ∃ state, m.entry g = some state ∧ state.shouldExpire now = true := by
  simp only [expireGoals, List.mem_map, List.mem_filter, entry, AList.lookup, ← Option.mem_def,
    List.mem_dlookup_iff m.goals.nodupKeys]
  constructor
  · rintro ⟨⟨key, state⟩, ⟨stored, expires⟩, rfl⟩
    exact ⟨state, stored, expires⟩
  · rintro ⟨state, stored, expires⟩
    exact ⟨⟨g, state⟩, ⟨stored, expires⟩, rfl⟩

/-! ## What the operations do to the waiters -/

@[simp] theorem waiters_accept (goal : Goal) : (m.accept now g goal).waiters g' = m.waiters g' :=
  rfl

@[simp] theorem waiters_execute (goal : Goal) (flag : FlagId) :
    (m.execute now g goal flag).waiters g' = m.waiters g' := rfl

@[simp] theorem waiters_terminate (result : Result) (status : GoalStatus) :
    (m.terminate now g result status).1.waiters g' = if g' = g then [] else m.waiters g' := by
  unfold terminate waiters
  by_cases same : g' = g
  · subst same
    simp
  · simp [same]

@[simp] theorem waiters_expireGoals : (m.expireGoals now).1.waiters g = m.waiters g := rfl

@[simp] theorem waiters_setResultTimeout (timeout : ℕ) :
    (m.setResultTimeout timeout).waiters g = m.waiters g := rfl

@[simp] theorem waiters_addWaiter (tx : QueryId) :
    (m.addWaiter g tx).waiters g' = if g' = g then m.waiters g ++ [tx] else m.waiters g' := by
  unfold addWaiter waiters
  simp only [PartialMap.lookup_insert_eq]
  split <;> rfl

end GoalManagerInternal

end RosZ.Action
