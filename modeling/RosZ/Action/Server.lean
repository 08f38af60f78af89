import RosZ.Action.GoalManager
import RosZ.Lib.Machine
import RosZ.Queue

/-!
# The action server

The server as a machine whose steps are the atomic actions of its tasks: taking a
query from a queue, one critical section of the goal manager, one store to a cancel
flag, one reply, one send on a one-shot channel.  Any interleaving of the tasks is a
sequence of such steps.

## The tasks

* Goal handles, in the hands of goal tasks or of user code that called `recv_goal`.
  `accept` replies first and writes the table afterwards, so it is two steps;
  `terminate` writes the table first and then notifies the waiters one by one.
* Workers: the result handler that `build` spawns (`legacy`) and the driver loops that
  `with_handler` spawns.  A worker handles one query at a time, and a driver that has
  registered a waiter does nothing else until the channel is written.
* Callers of `request_cancel`, `expire_goals` and `set_result_timeout`, and the clock.

A worker stops only between two queries: neither result handler has an await point
at which the legacy loop could be dropped, and the driver's `select!` does not
interrupt the arm it runs.

## What is left out

The status and feedback topics, and the user's own `recv_cancel`,
`recv_result_request` and `send_*_response_low`, which bypass the goal manager.
Queries carry a payload and a well-formed attachment; a payload need not decode.  The handlers
without that assumption are the subject of `RosZ.Action.Handlers`.
-/

namespace RosZ.Action

open Transition

/-! ## Messages -/

structure SendGoalRequest (Goal : Type) where
  goalId : GoalId
  goal : Goal
deriving DecidableEq, Repr

structure SendGoalResponse where
  accepted : Bool
  stampSec : Int32
  stampNanosec : UInt32
deriving DecidableEq, Repr

structure GetResultRequest where
  goalId : GoalId
deriving DecidableEq, Repr

structure GetResultResponse (Result : Type) where
  status : Int8
  result : Result
deriving DecidableEq, Repr

structure CancelGoalServiceRequest where
  goalInfo : GoalInfo
deriving DecidableEq, Repr

structure CancelGoalServiceResponse where
  returnCode : Int8
  goalsCanceling : List GoalInfo
deriving DecidableEq, Repr

/-- A query in a queue: what its payload decodes to, if it does. -/
structure Query (Request : Type) where
  id : QueryId
  request : Option Request

/-! ## The state -/

/-- How far a goal handle has got. -/
inductive Stage (Result : Type) where
  /-- `GoalHandle<Requested>`, with the query to be answered. -/
  | requested (query : QueryId)
  /-- Inside `accept`: the client has its answer, the table does not have the goal. -/
  | replied
  /-- `GoalHandle<Accepted>`. -/
  | accepted
  /-- `GoalHandle<Executing>`, with its end of the cancel flag. -/
  | executing (cancelFlag : FlagId)
  /-- Inside `terminate`: the waiters that are still to be notified. -/
  | notifying (result : Result) (status : GoalStatus) (futures : List QueryId)
deriving DecidableEq, Repr

structure GoalHandle (Goal Result : Type) where
  goal : Goal
  info : GoalInfo
  stage : Stage Result
deriving DecidableEq, Repr

/-- Which loop a worker runs. -/
inductive Mode where
  | legacy | driver
deriving DecidableEq, Repr

/-- What a worker is doing. -/
inductive Activity (Result : Type) where
  | idle
  | cancel (query : QueryId) (info : GoalInfo)
  | cancelReply (query : QueryId) (info : GoalInfo) (cancelled : Bool)
  | result (query : QueryId) (goalId : GoalId)
  /-- Blocked on the receiving end of the query's channel. -/
  | resultWait (query : QueryId) (goalId : GoalId)
  | resultReply (query : QueryId) (goalId : GoalId) (result : Result) (status : GoalStatus)
deriving DecidableEq, Repr

structure Worker (Result : Type) where
  mode : Mode
  activity : Activity Result
deriving DecidableEq, Repr

abbrev HandleId := ℕ
abbrev WorkerId := ℕ

/-- The depths of the three service queues and the timeouts. -/
structure ServerConfig where
  goalDepth : ℕ
  cancelDepth : ℕ
  resultDepth : ℕ
  resultTimeout : ℕ
  goalTimeout : Option ℕ

structure ServerState (Goal Result : Type) where
  /-- The reading of `Instant::now()`. -/
  clock : ℕ
  manager : GoalManagerInternal Goal Result
  /-- The cancel flags, by address. -/
  flags : FlagId → Bool
  nextFlag : FlagId
  goalQueue : BoundedQueue (Query (SendGoalRequest Goal))
  cancelQueue : BoundedQueue (Query CancelGoalServiceRequest)
  resultQueue : BoundedQueue (Query GetResultRequest)
  nextQuery : QueryId
  handles : HandleId → Option (GoalHandle Goal Result)
  nextHandle : HandleId
  workers : WorkerId → Option (Worker Result)
  nextWorker : WorkerId
  /-- The values sent on one-shot channels and not yet received. -/
  mailbox : QueryId → Option (Result × GoalStatus)
  resultHandlerToken : Bool
  shutdown : Bool

/-- The server that `build` returns: empty tables, and the default result handler. -/
def ServerState.build {Goal Result : Type} (cfg : ServerConfig) : ServerState Goal Result where
  clock := 0
  manager := .new cfg.resultTimeout cfg.goalTimeout
  flags _ := false
  nextFlag := 0
  goalQueue := .new cfg.goalDepth
  cancelQueue := .new cfg.cancelDepth
  resultQueue := .new cfg.resultDepth
  nextQuery := 0
  handles _ := none
  nextHandle := 0
  workers := Function.update (fun _ => none) 0 (some ⟨.legacy, .idle⟩)
  nextWorker := 1
  mailbox _ := none
  resultHandlerToken := false
  shutdown := false

/-! ## Labels and observations -/

/-- A query that reaches one of the server's queues. -/
inductive Arrival (Goal : Type) where
  | goal (request : Option (SendGoalRequest Goal))
  | cancel (request : Option CancelGoalServiceRequest)
  | result (request : Option GetResultRequest)

/-- Who moves, and what the environment chooses. -/
inductive Label (Goal Result : Type) where
  | tick (elapsed : ℕ)
  | arrive (query : Arrival Goal)
  /-- `recv_goal`, or a driver that spawns a goal task. -/
  | recvGoal (driver : Option WorkerId) (stamp : Time)
  | acceptReply (handle : HandleId)
  | acceptInsert (handle : HandleId)
  | reject (handle : HandleId)
  | execute (handle : HandleId)
  | terminate (handle : HandleId) (result : Result) (outcome : Outcome)
  | notify (handle : HandleId)
  /-- The handle is dropped without a further call, or its task is aborted. -/
  | dropHandle (handle : HandleId)
  | takeCancel (worker : WorkerId)
  | processCancel (worker : WorkerId)
  | replyCancel (worker : WorkerId)
  | requestCancel (goalId : GoalId)
  | takeResult (worker : WorkerId)
  | lookupResult (worker : WorkerId)
  | wakeResult (worker : WorkerId)
  | replyResult (worker : WorkerId)
  | expireGoals
  | setResultTimeout (timeout : ℕ)
  | withHandler
  | shutdown
  | stop (worker : WorkerId)

/-- What is recorded of a step. -/
inductive Event (Result : Type) where
  | goalReply (query : QueryId) (goalId : GoalId) (response : SendGoalResponse)
  /-- `accept` has written the table. -/
  | accepted (handle : HandleId) (goalId : GoalId)
  | executed (handle : HandleId) (goalId : GoalId) (cancelFlag : FlagId)
  | terminated (handle : HandleId) (goalId : GoalId) (result : Result) (status : GoalStatus)
  /-- A cancel request was processed, that of a query or a call of `request_cancel`, and
  did or did not find a running goal. -/
  | cancelProcessed (query : Option QueryId) (goalId : GoalId) (cancelled : Bool)
  | cancelReply (query : QueryId) (response : CancelGoalServiceResponse)
  /-- A result request was taken, and its goal was or was not in the table. -/
  | resultTaken (worker : WorkerId) (mode : Mode) (query : QueryId) (goalId : GoalId)
      (known : Bool)
  /-- The handler returned without a reply. -/
  | resultDropped (query : QueryId) (goalId : GoalId)
  | resultReply (query : QueryId) (goalId : GoalId) (response : GetResultResponse Result)
  | expired (goalId : GoalId)
deriving DecidableEq, Repr

/-! ## The steps -/

namespace ServerState

variable {Goal Result : Type}

/-- The result of a step: the state after it and what is observed of it. -/
abbrev After (Goal Result : Type) : Type := ServerState Goal Result × List (Event Result)

def setHandle (s : ServerState Goal Result) (h : HandleId)
    (handle : Option (GoalHandle Goal Result)) : ServerState Goal Result :=
  { s with handles := Function.update s.handles h handle }

def setStage (s : ServerState Goal Result) (h : HandleId) (handle : GoalHandle Goal Result)
    (stage : Stage Result) : ServerState Goal Result :=
  s.setHandle h (some { handle with stage })

def setActivity (s : ServerState Goal Result) (w : WorkerId) (mode : Mode)
    (activity : Activity Result) : ServerState Goal Result :=
  { s with workers := Function.update s.workers w (some ⟨mode, activity⟩) }

/-- The data handler of the services: the query is queued. -/
def arrive (s : ServerState Goal Result) (query : Arrival Goal) : ServerState Goal Result :=
  { s with
    nextQuery := s.nextQuery + 1
    goalQueue :=
      match query with
      | .goal request => (s.goalQueue.push ⟨s.nextQuery, request⟩).1
      | _ => s.goalQueue
    cancelQueue :=
      match query with
      | .cancel request => (s.cancelQueue.push ⟨s.nextQuery, request⟩).1
      | _ => s.cancelQueue
    resultQueue :=
      match query with
      | .result request => (s.resultQueue.push ⟨s.nextQuery, request⟩).1
      | _ => s.resultQueue }

/-- User code can take a goal at any time, a driver only when it is idle. -/
def canRecvGoal (s : ServerState Goal Result) : Option WorkerId → Bool
  | none => true
  | some w =>
      match s.workers w with
      | some ⟨.driver, .idle⟩ => true
      | _ => false

/-- `recv_goal` and `handle_goal_request`: a goal request becomes a handle. -/
def recvGoal (s : ServerState Goal Result) (driver : Option WorkerId) (stamp : Time) :
    Option (After Goal Result) :=
  if s.canRecvGoal driver then
    match s.goalQueue.tryRecv with
    | none => none
    | some (⟨_, none⟩, rest) => some ({ s with goalQueue := rest }, [])
    | some (⟨query, some request⟩, rest) =>
        let handle : GoalHandle Goal Result :=
          { goal := request.goal, info := ⟨request.goalId, stamp⟩, stage := .requested query }
        some ({ s.setHandle s.nextHandle (some handle) with
          goalQueue := rest
          nextHandle := s.nextHandle + 1 }, [])
  else none

/-- The first half of `accept`: the acceptance is sent. -/
def acceptReply (s : ServerState Goal Result) (h : HandleId) : Option (After Goal Result) :=
  match s.handles h with
  | some handle@⟨_, info, .requested query⟩ =>
      let response : SendGoalResponse :=
        { accepted := true, stampSec := info.stamp.sec, stampNanosec := info.stamp.nanosec }
      some (s.setStage h handle .replied, [.goalReply query info.goalId response])
  | _ => none

/-- The second half of `accept`: the goal is written to the table. -/
def acceptInsert (s : ServerState Goal Result) (h : HandleId) : Option (After Goal Result) :=
  match s.handles h with
  | some handle@⟨goal, info, .replied⟩ =>
      some ({ s.setStage h handle .accepted with
        manager := s.manager.accept s.clock info.goalId goal }, [.accepted h info.goalId])
  | _ => none

def reject (s : ServerState Goal Result) (h : HandleId) : Option (After Goal Result) :=
  match s.handles h with
  | some ⟨_, info, .requested query⟩ =>
      let response : SendGoalResponse := { accepted := false, stampSec := 0, stampNanosec := 0 }
      some (s.setHandle h none, [.goalReply query info.goalId response])
  | _ => none

def execute (s : ServerState Goal Result) (h : HandleId) : Option (After Goal Result) :=
  match s.handles h with
  | some handle@⟨goal, info, .accepted⟩ =>
      let cancelFlag := s.nextFlag
      some ({ s.setStage h handle (.executing cancelFlag) with
        manager := s.manager.execute s.clock info.goalId goal cancelFlag
        flags := Function.update s.flags cancelFlag false
        nextFlag := s.nextFlag + 1 }, [.executed h info.goalId cancelFlag])
  | _ => none

/-- The critical section of `terminate`. -/
def terminate (s : ServerState Goal Result) (h : HandleId) (result : Result)
    (outcome : Outcome) : Option (After Goal Result) :=
  match s.handles h with
  | some handle@⟨_, info, .executing _⟩ =>
      let (manager, futures) :=
        s.manager.terminate s.clock info.goalId result outcome.status
      some ({ s.setStage h handle (.notifying result outcome.status futures) with manager },
        [.terminated h info.goalId result outcome.status])
  | _ => none

/-- The loop of `terminate` over the waiters, and its end. -/
def notify (s : ServerState Goal Result) (h : HandleId) : Option (After Goal Result) :=
  match s.handles h with
  | some handle@⟨_, _, .notifying result status (tx :: rest)⟩ =>
      some ({ s.setStage h handle (.notifying result status rest) with
        mailbox := Function.update s.mailbox tx (some (result, status)) }, [])
  | some ⟨_, _, .notifying _ _ []⟩ => some (s.setHandle h none, [])
  | _ => none

/-- Handles are dropped between calls only. -/
def dropHandle (s : ServerState Goal Result) (h : HandleId) : Option (After Goal Result) :=
  match s.handles h with
  | some ⟨_, _, .requested _⟩ => some (s.setHandle h none, [])
  | some ⟨_, _, .accepted⟩ => some (s.setHandle h none, [])
  | some ⟨_, _, .executing _⟩ => some (s.setHandle h none, [])
  | _ => none

def takeCancel (s : ServerState Goal Result) (w : WorkerId) : Option (After Goal Result) :=
  match s.workers w with
  | some ⟨.driver, .idle⟩ =>
      match s.cancelQueue.tryRecv with
      | none => none
      | some (⟨_, none⟩, rest) => some ({ s with cancelQueue := rest }, [])
      | some (⟨query, some request⟩, rest) =>
          some ({ s.setActivity w .driver (.cancel query request.goalInfo) with
            cancelQueue := rest }, [])
  | _ => none

/-- The critical section of `request_cancel` and of `handle_cancel_request`: the flag
of a running goal is set. -/
def markCanceling (s : ServerState Goal Result) (g : GoalId) : ServerState Goal Result × Bool :=
  ({ s with
      flags :=
        match s.manager.cancelFlag g with
        | some flag => Function.update s.flags flag true
        | none => s.flags },
    (s.manager.cancelFlag g).isSome)

def processCancel (s : ServerState Goal Result) (w : WorkerId) : Option (After Goal Result) :=
  match s.workers w with
  | some ⟨mode, .cancel query info⟩ =>
      let (marked, cancelled) := s.markCanceling info.goalId
      some (marked.setActivity w mode (.cancelReply query info cancelled),
        [.cancelProcessed (some query) info.goalId cancelled])
  | _ => none

def replyCancel (s : ServerState Goal Result) (w : WorkerId) : Option (After Goal Result) :=
  match s.workers w with
  | some ⟨mode, .cancelReply query info cancelled⟩ =>
      let response : CancelGoalServiceResponse :=
        { returnCode := if cancelled then 1 else 0
          goalsCanceling := if cancelled then [info] else [] }
      some (s.setActivity w mode .idle, [.cancelReply query response])
  | _ => none

def requestCancel (s : ServerState Goal Result) (g : GoalId) : After Goal Result :=
  let (marked, cancelled) := s.markCanceling g
  (marked, [.cancelProcessed none g cancelled])

def takeResult (s : ServerState Goal Result) (w : WorkerId) : Option (After Goal Result) :=
  match s.workers w with
  | some ⟨mode, .idle⟩ =>
      match s.resultQueue.tryRecv with
      | none => none
      | some (⟨_, none⟩, rest) => some ({ s with resultQueue := rest }, [])
      | some (⟨query, some request⟩, rest) =>
          some ({ s.setActivity w mode (.result query request.goalId) with resultQueue := rest },
            [.resultTaken w mode query request.goalId (s.manager.entry request.goalId).isSome])
  | _ => none

/-- The critical section of the result handlers. -/
def lookupResult (s : ServerState Goal Result) (w : WorkerId) : Option (After Goal Result) :=
  match s.workers w with
  | some ⟨.legacy, .result query g⟩ =>
      match s.manager.terminatedResult g with
      | some (result, status) =>
          some (s.setActivity w .legacy (.resultReply query g result status), [])
      | none => some (s.setActivity w .legacy .idle, [.resultDropped query g])
  | some ⟨.driver, .result query g⟩ =>
      match s.manager.handleResult g query with
      | (_, .terminated result status) =>
          some (s.setActivity w .driver (.resultReply query g result status), [])
      | (manager, .waiting) =>
          some ({ s.setActivity w .driver (.resultWait query g) with manager }, [])
      | (_, .notFound) => some (s.setActivity w .driver .idle, [.resultDropped query g])
  | _ => none

/-- `rx.await` returns. -/
def wakeResult (s : ServerState Goal Result) (w : WorkerId) : Option (After Goal Result) :=
  match s.workers w with
  | some ⟨mode, .resultWait query g⟩ =>
      match s.mailbox query with
      | some (result, status) =>
          some ({ s.setActivity w mode (.resultReply query g result status) with
            mailbox := Function.update s.mailbox query none }, [])
      | none => none
  | _ => none

def replyResult (s : ServerState Goal Result) (w : WorkerId) : Option (After Goal Result) :=
  match s.workers w with
  | some ⟨mode, .resultReply query g result status⟩ =>
      let response : GetResultResponse Result := { status := status.toI8, result }
      some (s.setActivity w mode .idle, [.resultReply query g response])
  | _ => none

def expireGoals (s : ServerState Goal Result) : After Goal Result :=
  let (manager, expired) := s.manager.expireGoals s.clock
  ({ s with manager }, expired.map .expired)

/-- The default handler is told to stop, and a driver loop is spawned. -/
def withHandler (s : ServerState Goal Result) : ServerState Goal Result :=
  { s.setActivity s.nextWorker .driver .idle with
    nextWorker := s.nextWorker + 1
    resultHandlerToken := true }

/-- A loop whose token is cancelled ends before it takes another query. -/
def stop (s : ServerState Goal Result) (w : WorkerId) : Option (After Goal Result) :=
  match s.workers w with
  | some ⟨mode, .idle⟩ =>
      if s.shutdown || (mode = .legacy && s.resultHandlerToken) then
        some ({ s with workers := Function.update s.workers w none }, [])
      else none
  | _ => none

def step (s : ServerState Goal Result) : Label Goal Result → Option (After Goal Result)
  | .tick elapsed => some ({ s with clock := s.clock + elapsed }, [])
  | .arrive query => some (s.arrive query, [])
  | .recvGoal driver stamp => s.recvGoal driver stamp
  | .acceptReply h => s.acceptReply h
  | .acceptInsert h => s.acceptInsert h
  | .reject h => s.reject h
  | .execute h => s.execute h
  | .terminate h result outcome => s.terminate h result outcome
  | .notify h => s.notify h
  | .dropHandle h => s.dropHandle h
  | .takeCancel w => s.takeCancel w
  | .processCancel w => s.processCancel w
  | .replyCancel w => s.replyCancel w
  | .requestCancel g => some (s.requestCancel g)
  | .takeResult w => s.takeResult w
  | .lookupResult w => s.lookupResult w
  | .wakeResult w => s.wakeResult w
  | .replyResult w => s.replyResult w
  | .expireGoals => some s.expireGoals
  | .setResultTimeout timeout =>
      some ({ s with manager := s.manager.setResultTimeout timeout }, [])
  | .withHandler => some (s.withHandler, [])
  | .shutdown => some ({ s with shutdown := true }, [])
  | .stop w => s.stop w

end ServerState

/-- The server with a given configuration. -/
def server (Goal Result : Type) (cfg : ServerConfig) :
    Machine (ServerState Goal Result) (Label Goal Result) (Event Result) where
  init := .build cfg
  step := ServerState.step

/-! ## What a step can do -/

section Inversion

variable {Goal Result : Type} {s s' : ServerState Goal Result} {label : Label Goal Result}
  {observed : List (Event Result)}

open ServerState

/-- Everything a step can do, one constructor for each branch that returns. -/
inductive Step (s : ServerState Goal Result) :
    Label Goal Result → List (Event Result) → ServerState Goal Result → Prop
  | tick (elapsed : ℕ) : Step s (.tick elapsed) [] { s with clock := s.clock + elapsed }
  | arrive (query : Arrival Goal) : Step s (.arrive query) [] (s.arrive query)
  | dropGoal {driver : Option WorkerId} {stamp : Time} {query : QueryId}
      {rest : BoundedQueue (Query (SendGoalRequest Goal))}
      (queued : s.goalQueue.tryRecv = some (⟨query, none⟩, rest)) :
      Step s (.recvGoal driver stamp) [] { s with goalQueue := rest }
  | recvGoal {driver : Option WorkerId} {stamp : Time} {query : QueryId}
      {request : SendGoalRequest Goal} {rest : BoundedQueue (Query (SendGoalRequest Goal))}
      (queued : s.goalQueue.tryRecv = some (⟨query, some request⟩, rest)) :
      Step s (.recvGoal driver stamp) []
        { s.setHandle s.nextHandle
            (some ⟨request.goal, ⟨request.goalId, stamp⟩, .requested query⟩) with
          goalQueue := rest
          nextHandle := s.nextHandle + 1 }
  | acceptReply {h : HandleId} {goal : Goal} {info : GoalInfo} {query : QueryId}
      (found : s.handles h = some ⟨goal, info, .requested query⟩) :
      Step s (.acceptReply h)
        [.goalReply query info.goalId ⟨true, info.stamp.sec, info.stamp.nanosec⟩]
        (s.setHandle h (some ⟨goal, info, .replied⟩))
  | acceptInsert {h : HandleId} {goal : Goal} {info : GoalInfo}
      (found : s.handles h = some ⟨goal, info, .replied⟩) :
      Step s (.acceptInsert h) [.accepted h info.goalId]
        { s.setHandle h (some ⟨goal, info, .accepted⟩) with
          manager := s.manager.accept s.clock info.goalId goal }
  | reject {h : HandleId} {goal : Goal} {info : GoalInfo} {query : QueryId}
      (found : s.handles h = some ⟨goal, info, .requested query⟩) :
      Step s (.reject h) [.goalReply query info.goalId ⟨false, 0, 0⟩] (s.setHandle h none)
  | execute {h : HandleId} {goal : Goal} {info : GoalInfo}
      (found : s.handles h = some ⟨goal, info, .accepted⟩) :
      Step s (.execute h) [.executed h info.goalId s.nextFlag]
        { s.setHandle h (some ⟨goal, info, .executing s.nextFlag⟩) with
          manager := s.manager.execute s.clock info.goalId goal s.nextFlag
          flags := Function.update s.flags s.nextFlag false
          nextFlag := s.nextFlag + 1 }
  | terminate {h : HandleId} {goal : Goal} {info : GoalInfo} {flag : FlagId} {result : Result}
      {outcome : Outcome} (found : s.handles h = some ⟨goal, info, .executing flag⟩) :
      Step s (.terminate h result outcome)
        [.terminated h info.goalId result outcome.status]
        { s.setHandle h
            (some ⟨goal, info, .notifying result outcome.status (s.manager.waiters info.goalId)⟩)
          with
          manager := (s.manager.terminate s.clock info.goalId result outcome.status).1 }
  | notify {h : HandleId} {goal : Goal} {info : GoalInfo} {result : Result}
      {status : GoalStatus} {tx : QueryId} {rest : List QueryId}
      (found : s.handles h = some ⟨goal, info, .notifying result status (tx :: rest)⟩) :
      Step s (.notify h) []
        { s.setHandle h (some ⟨goal, info, .notifying result status rest⟩) with
          mailbox := Function.update s.mailbox tx (some (result, status)) }
  | finish {h : HandleId} {goal : Goal} {info : GoalInfo} {result : Result}
      {status : GoalStatus} (found : s.handles h = some ⟨goal, info, .notifying result status []⟩) :
      Step s (.notify h) [] (s.setHandle h none)
  | dropHandle {h : HandleId} {handle : GoalHandle Goal Result}
      (found : s.handles h = some handle) (accepting : handle.stage ≠ .replied)
      (terminating : ∀ result status futures, handle.stage ≠ .notifying result status futures) :
      Step s (.dropHandle h) [] (s.setHandle h none)
  | dropCancel {w : WorkerId} {query : QueryId}
      {rest : BoundedQueue (Query CancelGoalServiceRequest)}
      (queued : s.cancelQueue.tryRecv = some (⟨query, none⟩, rest)) :
      Step s (.takeCancel w) [] { s with cancelQueue := rest }
  | takeCancel {w : WorkerId} {query : QueryId} {request : CancelGoalServiceRequest}
      {rest : BoundedQueue (Query CancelGoalServiceRequest)}
      (idle : s.workers w = some ⟨.driver, .idle⟩)
      (queued : s.cancelQueue.tryRecv = some (⟨query, some request⟩, rest)) :
      Step s (.takeCancel w) []
        { s.setActivity w .driver (.cancel query request.goalInfo) with cancelQueue := rest }
  | processCancel {w : WorkerId} {mode : Mode} {query : QueryId} {info : GoalInfo}
      (taken : s.workers w = some ⟨mode, .cancel query info⟩) :
      Step s (.processCancel w)
        [.cancelProcessed (some query) info.goalId (s.markCanceling info.goalId).2]
        ((s.markCanceling info.goalId).1.setActivity w mode
          (.cancelReply query info (s.markCanceling info.goalId).2))
  | replyCancel {w : WorkerId} {mode : Mode} {query : QueryId} {info : GoalInfo}
      {cancelled : Bool}
      (processed : s.workers w = some ⟨mode, .cancelReply query info cancelled⟩) :
      Step s (.replyCancel w)
        [.cancelReply query ⟨if cancelled then 1 else 0, if cancelled then [info] else []⟩]
        (s.setActivity w mode .idle)
  | requestCancel (g : GoalId) :
      Step s (.requestCancel g) [.cancelProcessed none g (s.markCanceling g).2]
        (s.markCanceling g).1
  | dropResult {w : WorkerId} {query : QueryId} {rest : BoundedQueue (Query GetResultRequest)}
      (queued : s.resultQueue.tryRecv = some (⟨query, none⟩, rest)) :
      Step s (.takeResult w) [] { s with resultQueue := rest }
  | takeResult {w : WorkerId} {mode : Mode} {query : QueryId} {request : GetResultRequest}
      {rest : BoundedQueue (Query GetResultRequest)}
      (idle : s.workers w = some ⟨mode, .idle⟩)
      (queued : s.resultQueue.tryRecv = some (⟨query, some request⟩, rest)) :
      Step s (.takeResult w)
        [.resultTaken w mode query request.goalId (s.manager.entry request.goalId).isSome]
        { s.setActivity w mode (.result query request.goalId) with resultQueue := rest }
  /-- Either handler finds the goal terminated. -/
  | resultFound {w : WorkerId} {mode : Mode} {query : QueryId} {g : GoalId} {result : Result}
      {status : GoalStatus} {timestamp : ℕ} {expiresAt : Option ℕ}
      (taken : s.workers w = some ⟨mode, .result query g⟩)
      (terminated : s.manager.entry g = some (.terminated result status timestamp expiresAt)) :
      Step s (.lookupResult w) [] (s.setActivity w mode (.resultReply query g result status))
  /-- The driver finds a goal that has not ended. -/
  | resultWaits {w : WorkerId} {query : QueryId} {g : GoalId}
      {state : ServerGoalState Goal Result}
      (taken : s.workers w = some ⟨.driver, .result query g⟩)
      (known : s.manager.entry g = some state) (running : state.isTerminated = false) :
      Step s (.lookupResult w) []
        { s.setActivity w .driver (.resultWait query g) with
          manager := s.manager.addWaiter g query }
  /-- The goal is not in the table, or the legacy handler finds that it has not
  ended. -/
  | resultDrops {w : WorkerId} {mode : Mode} {query : QueryId} {g : GoalId}
      (taken : s.workers w = some ⟨mode, .result query g⟩)
      (unanswered : s.manager.entry g = none ∨ mode = .legacy ∧
        ∃ state, s.manager.entry g = some state ∧ state.isTerminated = false) :
      Step s (.lookupResult w) [.resultDropped query g] (s.setActivity w mode .idle)
  | wakeResult {w : WorkerId} {mode : Mode} {query : QueryId} {g : GoalId} {result : Result}
      {status : GoalStatus} (waits : s.workers w = some ⟨mode, .resultWait query g⟩)
      (sent : s.mailbox query = some (result, status)) :
      Step s (.wakeResult w) []
        { s.setActivity w mode (.resultReply query g result status) with
          mailbox := Function.update s.mailbox query none }
  | replyResult {w : WorkerId} {mode : Mode} {query : QueryId} {g : GoalId} {result : Result}
      {status : GoalStatus}
      (ready : s.workers w = some ⟨mode, .resultReply query g result status⟩) :
      Step s (.replyResult w) [.resultReply query g ⟨status.toI8, result⟩]
        (s.setActivity w mode .idle)
  | expireGoals : Step s .expireGoals ((s.manager.expireGoals s.clock).2.map .expired)
      { s with manager := (s.manager.expireGoals s.clock).1 }
  | setResultTimeout (timeout : ℕ) : Step s (.setResultTimeout timeout) []
      { s with manager := s.manager.setResultTimeout timeout }
  | withHandler : Step s .withHandler [] s.withHandler
  | shutdown : Step s .shutdown [] { s with shutdown := true }
  | stop {w : WorkerId} {mode : Mode} (idle : s.workers w = some ⟨mode, .idle⟩) :
      Step s (.stop w) [] { s with workers := Function.update s.workers w none }

/-- The critical section of the result handlers, by what it finds. -/
theorem step_of_lookupResult {w : WorkerId} (stepped : s.lookupResult w = some (s', observed)) :
    Step s (.lookupResult w) observed s' := by
  unfold ServerState.lookupResult at stepped
  split at stepped
  · next query g taken =>
      unfold GoalManagerInternal.terminatedResult at stepped
      cases entry : s.manager.entry g with
      | none =>
          simp only [entry, Option.some.injEq, Prod.mk.injEq] at stepped
          obtain ⟨rfl, rfl⟩ := stepped
          exact .resultDrops taken (.inl entry)
      | some state =>
          cases state with
          | terminated result status timestamp expiresAt =>
              simp only [entry, Option.some.injEq, Prod.mk.injEq] at stepped
              obtain ⟨rfl, rfl⟩ := stepped
              exact .resultFound taken entry
          | accepted | executing | canceling =>
              simp only [entry, Option.some.injEq, Prod.mk.injEq] at stepped
              obtain ⟨rfl, rfl⟩ := stepped
              exact .resultDrops taken (.inr ⟨rfl, _, entry, rfl⟩)
  · next query g taken =>
      unfold GoalManagerInternal.handleResult at stepped
      cases entry : s.manager.entry g with
      | none =>
          simp only [entry, Option.some.injEq, Prod.mk.injEq] at stepped
          obtain ⟨rfl, rfl⟩ := stepped
          exact .resultDrops taken (.inl entry)
      | some state =>
          cases state with
          | terminated result status timestamp expiresAt =>
              simp only [entry, Option.some.injEq, Prod.mk.injEq] at stepped
              obtain ⟨rfl, rfl⟩ := stepped
              exact .resultFound taken entry
          | accepted | executing | canceling =>
              simp only [entry, Option.some.injEq, Prod.mk.injEq] at stepped
              obtain ⟨rfl, rfl⟩ := stepped
              exact .resultWaits taken entry rfl
  · cases stepped

theorem step_of_recvGoal {driver : Option WorkerId} {stamp : Time}
    (stepped : s.recvGoal driver stamp = some (s', observed)) :
    Step s (.recvGoal driver stamp) observed s' := by
  unfold ServerState.recvGoal at stepped
  split at stepped
  · split at stepped
    · cases stepped
    · next queued =>
        cases stepped
        exact .dropGoal queued
    · next queued =>
        cases stepped
        exact .recvGoal queued
  · cases stepped

theorem step_of_takeCancel {w : WorkerId} (stepped : s.takeCancel w = some (s', observed)) :
    Step s (.takeCancel w) observed s' := by
  unfold ServerState.takeCancel at stepped
  split at stepped
  · next idle =>
      split at stepped
      · cases stepped
      · next queued =>
          cases stepped
          exact .dropCancel queued
      · next queued =>
          cases stepped
          exact .takeCancel idle queued
  · cases stepped

theorem step_of_takeResult {w : WorkerId} (stepped : s.takeResult w = some (s', observed)) :
    Step s (.takeResult w) observed s' := by
  unfold ServerState.takeResult at stepped
  split at stepped
  · next idle =>
      split at stepped
      · cases stepped
      · next queued =>
          cases stepped
          exact .dropResult queued
      · next queued =>
          cases stepped
          exact .takeResult idle queued
  · cases stepped

theorem step_of_wakeResult {w : WorkerId} (stepped : s.wakeResult w = some (s', observed)) :
    Step s (.wakeResult w) observed s' := by
  unfold ServerState.wakeResult at stepped
  split at stepped
  · next waits =>
      split at stepped
      · next sent =>
          cases stepped
          exact .wakeResult waits sent
      · cases stepped
  · cases stepped

theorem step_of_notify {h : HandleId} (stepped : s.notify h = some (s', observed)) :
    Step s (.notify h) observed s' := by
  unfold ServerState.notify at stepped
  split at stepped
  · next found =>
      cases stepped
      exact .notify found
  · next found =>
      cases stepped
      exact .finish found
  · cases stepped

theorem step_of_dropHandle {h : HandleId} (stepped : s.dropHandle h = some (s', observed)) :
    Step s (.dropHandle h) observed s' := by
  unfold ServerState.dropHandle at stepped
  split at stepped
  all_goals first
    | cases stepped; done
    | next found =>
        cases stepped
        exact .dropHandle found (by simp) (by simp)

theorem step_of_stop {w : WorkerId} (stepped : s.stop w = some (s', observed)) :
    Step s (.stop w) observed s' := by
  unfold ServerState.stop at stepped
  split at stepped
  · next idle =>
      split at stepped
      · cases stepped
        exact .stop idle
      · cases stepped
  · cases stepped

/-- `Step` covers the step function. -/
theorem step_sound (stepped : s.step label = some (s', observed)) : Step s label observed s' := by
  cases label with
  | tick elapsed => cases stepped; exact .tick elapsed
  | arrive query => cases stepped; exact .arrive query
  | recvGoal driver stamp => exact step_of_recvGoal stepped
  | acceptReply h =>
      simp only [ServerState.step, ServerState.acceptReply] at stepped
      split at stepped
      · next found => cases stepped; exact .acceptReply found
      · cases stepped
  | acceptInsert h =>
      simp only [ServerState.step, ServerState.acceptInsert] at stepped
      split at stepped
      · next found => cases stepped; exact .acceptInsert found
      · cases stepped
  | reject h =>
      simp only [ServerState.step, ServerState.reject] at stepped
      split at stepped
      · next found => cases stepped; exact .reject found
      · cases stepped
  | execute h =>
      simp only [ServerState.step, ServerState.execute] at stepped
      split at stepped
      · next found => cases stepped; exact .execute found
      · cases stepped
  | terminate h result outcome =>
      simp only [ServerState.step, ServerState.terminate] at stepped
      split at stepped
      · next found => cases stepped; exact .terminate found
      · cases stepped
  | notify h => exact step_of_notify stepped
  | dropHandle h => exact step_of_dropHandle stepped
  | takeCancel w => exact step_of_takeCancel stepped
  | processCancel w =>
      simp only [ServerState.step, ServerState.processCancel] at stepped
      split at stepped
      · next taken => cases stepped; exact .processCancel taken
      · cases stepped
  | replyCancel w =>
      simp only [ServerState.step, ServerState.replyCancel] at stepped
      split at stepped
      · next processed => cases stepped; exact .replyCancel processed
      · cases stepped
  | requestCancel g => cases stepped; exact .requestCancel g
  | takeResult w => exact step_of_takeResult stepped
  | lookupResult w => exact step_of_lookupResult stepped
  | wakeResult w => exact step_of_wakeResult stepped
  | replyResult w =>
      simp only [ServerState.step, ServerState.replyResult] at stepped
      split at stepped
      · next ready => cases stepped; exact .replyResult ready
      · cases stepped
  | expireGoals => cases stepped; exact .expireGoals
  | setResultTimeout timeout => cases stepped; exact .setResultTimeout timeout
  | withHandler => cases stepped; exact .withHandler
  | shutdown => cases stepped; exact .shutdown
  | stop w => exact step_of_stop stepped

end Inversion

end RosZ.Action
