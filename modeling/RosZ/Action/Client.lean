import RosZ.Action.Invariants
import RosZ.Service.Client

/-!
# Action clients

An action client has a service client for each of its three services, shared by its
clones.  `send_goal`, `get_result` and `cancel_goal` each send one request and take the
next response from the client of their service.

All calls on a service take from one channel, so a call may be given the response to
another call's request, or a late response to a request that was given up.
`actionClient_not_ownResponse` lets `send_goal` succeed for a goal that the server
rejects.  `responses_own` shows that calls which do not overlap on a service are safe.
-/

namespace RosZ.Action

open Transition Service

/-- The services of an action. -/
inductive ActionService where
  | goal | result | cancel
deriving DecidableEq

inductive ActionRequest (Goal : Type) where
  | sendGoal (request : SendGoalRequest Goal)
  | getResult (request : GetResultRequest)
  | cancelGoal (request : CancelGoalServiceRequest)
deriving DecidableEq

/-- The payload of a response, as far as it decodes. -/
inductive ActionResponse (Result : Type) where
  | sendGoal (response : SendGoalResponse)
  | getResult (response : GetResultResponse Result)
  | cancelGoal (response : CancelGoalServiceResponse)
  | malformed
deriving DecidableEq

/-- The clients of an action, with the depths of their response channels. -/
abbrev actionClient (Goal Result : Type) (depth : ActionService → ℕ) :=
  clients ActionService (ActionRequest Goal) (ActionResponse Result) depth

/-- `send_goal` returns `Ok`: the response decodes and says that the goal is accepted. -/
def sendGoalOk {Result : Type} : ActionResponse Result → Bool
  | .sendGoal response => response.accepted
  | _ => false

/-- What `get_result` returns. -/
def getResultOk {Result : Type} : ActionResponse Result → Option Result
  | .getResult response => some response.result
  | _ => none

/-- **Responses go to their own request when requests are sent alone**, on a shared
`ZClient` and on an action client: if each request is sent while its client has no
waiting call, no query that may still be replied to and no unread response, then a
call returns the reply to its own request.  `send_goal` then succeeds only if the
server has accepted that goal, and `get_result` returns the result that the server
has given for the goal it asked for. -/
theorem responses_own {Request Response Goal Result : Type} {sharedDepth : Unit → ℕ}
    {depth : ActionService → ℕ}
    {shared : Config (ClientState Unit Response) (Service.Event Unit Request Response)}
    {c : Config (ClientState ActionService (ActionResponse Result))
      (Service.Event ActionService (ActionRequest Goal) (ActionResponse Result))}
    (reachedShared : (clients Unit Request Response sharedDepth).Reachable SendsAlone shared)
    (reached : (actionClient Goal Result depth).Reachable SendsAlone c) :
    OwnResponse shared.trace ∧ OwnResponse c.trace ∧
      (∀ call service query request query' response,
        .sent call service query (.sendGoal request) ∈ c.trace →
        .returned call query' response ∈ c.trace → sendGoalOk response = true →
          ∃ reply, reply.accepted = true ∧ .answered query (.sendGoal reply) ∈ c.trace) ∧
      ∀ call service query request query' response result,
        .sent call service query (.getResult request) ∈ c.trace →
        .returned call query' response ∈ c.trace → getResultOk response = some result →
          ∃ status, .answered query (.getResult ⟨status, result⟩) ∈ c.trace := by
  have own := reachable_ownResponse reached
  refine ⟨reachable_ownResponse reachedShared, own, ?_, ?_⟩
  · intro call service query request query' response sent returned accepted
    obtain ⟨answered, -, once⟩ := own call query' response returned
    rw [← once service query _ sent] at answered
    cases response with
    | sendGoal reply => exact ⟨reply, accepted, answered⟩
    | _ => cases accepted
  · intro call service query request query' response result sent returned given
    obtain ⟨answered, -, once⟩ := own call query' response returned
    rw [← once service query _ sent] at answered
    cases response with
    | getResult reply =>
        obtain rfl := Option.some.inj given
        exact ⟨reply.status, answered⟩
    | _ => cases given

/-! ## Overlapping calls -/

/-- A second goal id. -/
def otherGoal : GoalId := ⟨Vector.replicate 16 2⟩

/-- The answers of a server that accepts and of one that rejects a goal. -/
def acceptance (accepted : Bool) : ActionResponse ℕ := .sendGoal ⟨accepted, 0, 0⟩

/-- **Overlapping calls may swap their responses.**  Two tasks call `send_goal`; the
server rejects the goal of the first and accepts that of the second, and the first
call succeeds. -/
theorem actionClient_not_ownResponse :
    ∃ c, (actionClient Unit ℕ fun _ => 10).Reachable Machine.anyStep c ∧
      .sent 0 .goal 0 (.sendGoal ⟨demoGoal, ()⟩) ∈ c.trace ∧
      .answered 0 (acceptance false) ∈ c.trace ∧
      .returned 0 1 (acceptance true) ∈ c.trace ∧ sendGoalOk (acceptance true) = true ∧
      ¬ OwnResponse c.trace := by
  obtain ⟨c, -, reached, -, shown⟩ := Machine.exists_of_execution
    (actionClient Unit ℕ fun _ => 10) Machine.anyStep
    [.send .goal (.sendGoal ⟨demoGoal, ()⟩), .send .goal (.sendGoal ⟨otherGoal, ()⟩),
      .reply 1 (acceptance true) false, .reply 0 (acceptance false) false, .recv 0] []
    (fun c _ => c.trace) rfl
  have returned : .returned 0 1 (acceptance true) ∈ c.trace := by rw [shown]; decide
  have sent : .sent 0 .goal 0 (.sendGoal ⟨demoGoal, ()⟩) ∈ c.trace := by rw [shown]; decide
  refine ⟨c, reached, sent, by rw [shown]; decide, returned, rfl, fun own => ?_⟩
  cases (own 0 1 _ returned).2.2 _ _ _ sent

/-- A goal is sent, and its result is asked for after the acceptance has arrived; two calls
on a shared client follow each other. -/
theorem responses_own_sequential :
    ∃ shared c, (clients Unit ℕ ℕ fun _ => 10).Reachable SendsAlone shared ∧
      (actionClient Unit ℕ fun _ => 10).Reachable SendsAlone c ∧
      .returned 1 1 7 ∈ shared.trace ∧ OwnResponse shared.trace ∧
      .returned 0 0 (acceptance true) ∈ c.trace ∧
      .returned 1 1 (.getResult ⟨4, 42⟩) ∈ c.trace ∧ OwnResponse c.trace := by
  obtain ⟨shared, -, reachedShared, -, shownShared⟩ := Machine.exists_of_execution
    (clients Unit ℕ ℕ fun _ => 10) SendsAlone
    [.send () 3, .reply 0 5 true, .recv 0, .close 0, .send () 4, .reply 1 7 true, .recv 1] []
    (fun c _ => c.trace) rfl
  obtain ⟨c, -, reached, -, shown⟩ := Machine.exists_of_execution
    (actionClient Unit ℕ fun _ => 10) SendsAlone
    [.send .goal (.sendGoal ⟨demoGoal, ()⟩), .reply 0 (acceptance true) false, .recv 0,
      .send .result (.getResult ⟨demoGoal⟩), .reply 1 (.getResult ⟨4, 42⟩) true, .recv 1] []
    (fun c _ => c.trace) rfl
  obtain ⟨ownShared, own, -, -⟩ := responses_own reachedShared reached
  exact ⟨shared, c, reachedShared, reached, by rw [shownShared]; decide, ownShared,
    by rw [shown]; decide, by rw [shown]; decide, own⟩

end RosZ.Action
