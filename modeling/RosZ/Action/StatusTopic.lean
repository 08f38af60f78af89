import RosZ.Action.StateMachine

/-!
# The status topic

`accept`, `execute`, `terminate` and `expire_goals` end with `publish_status`, which copies the
statuses out of the goal table under its lock and publishes them when the lock is released.  An
action client routes each status to the channel of its goal.

## Design notes

The server is the machine of the other results.  A step of it that comes to `publish_status` leaves
a publication behind; copying the table and publishing are two further steps, and the handle whose
call publishes does not go on before.  Messages are delivered in the order in which they were
published.

A channel of the client keeps its latest status.  The model keeps all that it has taken, and
numbers the copies of the table in the order in which they were made.  The statuses have the time
of the copy as their stamp, which is a choice of the label.

## What goes wrong

Tasks publish in any order, so a copy may be published after one that was made later.  A goal that
has ended meanwhile is then alive again for its client.  Copies in their order are safe as long as
no goal is accepted or executed under the id of one that has ended.
-/

namespace RosZ.Action

open Transition

/-- The goal has ended. -/
def GoalStatus.isTerminal : GoalStatus → Bool
  | .succeeded | .canceled | .aborted => true
  | _ => false

structure GoalStatusInfo where
  goalInfo : GoalInfo
  status : GoalStatus
deriving DecidableEq, Repr

structure StatusMessage where
  statusList : List GoalStatusInfo
deriving DecidableEq, Repr

variable {Goal Result : Type}

/-- The copy that `publish_status` makes of the table. -/
def ServerState.statusMessage (s : ServerState Goal Result) (stamp : GoalId → Time) :
    StatusMessage where
  statusList := s.manager.goals.entries.map fun ⟨g, state⟩ => ⟨⟨g, stamp g⟩, state.status⟩

/-! ## The client -/

/-- The watch channel of a goal. -/
structure StatusChannel where
  /-- Some receiver exists. -/
  watched : Bool
  /-- What it has held, oldest first. -/
  taken : List GoalStatus
deriving DecidableEq, Repr

/-- A status is refused when nobody would receive it. -/
def StatusChannel.send (channel : StatusChannel) (status : GoalStatus) : StatusChannel :=
  if channel.watched then { channel with taken := channel.taken ++ [status] } else channel

/-- The channels of the goals on the board. -/
abbrev StatusBoard := GoalId → Option StatusChannel

/-- A status goes to the channel of its goal, if the goal is on the board. -/
def StatusBoard.route (board : StatusBoard) (info : GoalStatusInfo) : StatusBoard :=
  match board info.goalInfo.goalId with
  | some channel =>
      Function.update board info.goalInfo.goalId (some (channel.send info.status))
  | none => board

/-- The callback of the status subscriber. -/
def StatusBoard.receive (board : StatusBoard) (msg : StatusMessage) : StatusBoard :=
  msg.statusList.foldl StatusBoard.route board

/-! ## The server with its publications -/

/-- A call of `publish_status`: the handle whose call it ends, if that handle lives on, and the
copy with its number, once it is made. -/
structure Publication where
  owner : Option HandleId
  snapshot : Option (ℕ × StatusMessage)
deriving DecidableEq, Repr

structure StatusState (Goal Result : Type) where
  server : ServerState Goal Result
  publications : ℕ → Option Publication
  nextPublication : ℕ
  nextSnapshot : ℕ
  /-- The messages that are published and not delivered, oldest first. -/
  inFlight : List StatusMessage
  board : StatusBoard

inductive StatusLabel (Goal Result : Type) where
  | server (label : Label Goal Result)
  | snapshot (publication : ℕ) (stamp : GoalId → Time)
  | publish (publication : ℕ)
  | deliver
  /-- `send_goal` puts its goal on the board. -/
  | addGoal (g : GoalId)
  /-- A receiver is made, or the last one is dropped. -/
  | watch (g : GoalId) (watched : Bool)
  | removeGoal (g : GoalId)

inductive StatusEvent (Result : Type) where
  | server (event : Event Result)
  | snapshot (number : ℕ) (msg : StatusMessage)
  | published (number : ℕ) (msg : StatusMessage)
deriving DecidableEq, Repr

/-- The handle whose call a step belongs to. -/
def Label.handle : Label Goal Result → Option HandleId
  | .acceptReply h | .acceptInsert h | .reject h | .execute h | .terminate h _ _ | .notify h
  | .dropHandle h => some h
  | _ => none

/-- The publication that a step of the server comes to. -/
def ServerState.publication (s : ServerState Goal Result) (observed : List (Event Result)) :
    Label Goal Result → Option Publication
  | .acceptInsert h | .execute h => some ⟨some h, none⟩
  | .notify h =>
      match s.handles h with
      | some ⟨_, _, .notifying _ _ []⟩ => some ⟨none, none⟩
      | _ => none
  | .expireGoals => if observed.isEmpty then none else some ⟨none, none⟩
  | _ => none

namespace StatusState

/-- The handle is in a call that has still to publish. -/
def Publishing (s : StatusState Goal Result) (h : HandleId) : Prop :=
  ∃ p < s.nextPublication, ∃ publication ∈ s.publications p, publication.owner = some h

instance (s : StatusState Goal Result) (h : HandleId) : Decidable (s.Publishing h) :=
  inferInstanceAs (Decidable (∃ p < s.nextPublication, ∃ publication ∈ s.publications p,
    publication.owner = some h))

def serverStep (s : StatusState Goal Result) (label : Label Goal Result) :
    Option (StatusState Goal Result × List (StatusEvent Result)) :=
  if ∃ h ∈ label.handle, s.Publishing h then none
  else (s.server.step label).map fun (server, observed) =>
    ({ s with
        server
        publications := Function.update s.publications s.nextPublication
          (s.server.publication observed label)
        nextPublication := s.nextPublication + 1 },
      observed.map .server)

def step (s : StatusState Goal Result) : StatusLabel Goal Result →
    Option (StatusState Goal Result × List (StatusEvent Result))
  | .server label => s.serverStep label
  | .snapshot p stamp =>
      match s.publications p with
      | some ⟨owner, none⟩ =>
          let msg := s.server.statusMessage stamp
          some ({ s with
            publications := Function.update s.publications p
              (some ⟨owner, some (s.nextSnapshot, msg)⟩)
            nextSnapshot := s.nextSnapshot + 1 }, [.snapshot s.nextSnapshot msg])
      | _ => none
  | .publish p =>
      match s.publications p with
      | some ⟨_, some (number, msg)⟩ =>
          some ({ s with
            publications := Function.update s.publications p none
            inFlight := s.inFlight ++ [msg] }, [.published number msg])
      | _ => none
  | .deliver =>
      match s.inFlight with
      | msg :: rest => some ({ s with inFlight := rest, board := s.board.receive msg }, [])
      | [] => none
  | .addGoal g =>
      some ({ s with board := Function.update s.board g (some ⟨true, [.unknown]⟩) }, [])
  | .watch g watched =>
      match s.board g with
      | some channel =>
          some ({ s with board := Function.update s.board g (some { channel with watched }) }, [])
      | none => none
  | .removeGoal g => some ({ s with board := Function.update s.board g none }, [])

end StatusState

/-- An action server and an action client that is subscribed to its statuses. -/
def statusTopic (Goal Result : Type) (cfg : ServerConfig) :
    Machine (StatusState Goal Result) (StatusLabel Goal Result) (StatusEvent Result) where
  init :=
    { server := .build cfg, publications _ := none, nextPublication := 0, nextSnapshot := 0
      inFlight := [], board _ := none }
  step := StatusState.step

/-- No channel goes from a terminal status to one that is not. -/
def StatusState.Monotone (s : StatusState Goal Result) : Prop :=
  ∀ g channel, s.board g = some channel → channel.taken.Pairwise fun earlier later =>
    earlier.isTerminal = true → later.isTerminal = true

/-! ## Publishing in order -/

/-- What the first message shows as ended, the second does not show as running. -/
def StatusMessage.LeadsTo (first second : StatusMessage) : Prop :=
  ∀ info ∈ first.statusList, info.status.isTerminal = true → ∀ info' ∈ second.statusList,
    info'.goalInfo.goalId = info.goalInfo.goalId → info'.status.isTerminal = true

instance (first second : StatusMessage) : Decidable (first.LeadsTo second) :=
  inferInstanceAs (Decidable (∀ info ∈ first.statusList, info.status.isTerminal = true →
    ∀ info' ∈ second.statusList, info'.goalInfo.goalId = info.goalInfo.goalId →
      info'.status.isTerminal = true))

namespace StatusEvent

/-- The event records that the goal was terminated. -/
def ends (g : GoalId) : StatusEvent Result → Bool
  | .server (.terminated _ g' _ _) => g' = g
  | _ => false

/-- A copy with this number does not contradict a later copy that is published already. -/
def Allows (number : ℕ) (msg : StatusMessage) : StatusEvent Result → Prop
  | .published number' msg' => number < number' → msg'.LeadsTo msg
  | _ => True

instance (number : ℕ) (msg : StatusMessage) :
    DecidablePred (Allows number msg : StatusEvent Result → Prop)
  | .published number' msg' => inferInstanceAs (Decidable (number < number' → msg'.LeadsTo msg))
  | .server _ | .snapshot _ _ => inferInstanceAs (Decidable True)

end StatusEvent

/-- A goal with this id has ended. -/
def Ended (trace : List (StatusEvent Result)) (g : GoalId) : Prop :=
  ∃ event ∈ trace, event.ends g = true

instance (trace : List (StatusEvent Result)) (g : GoalId) : Decidable (Ended trace g) :=
  inferInstanceAs (Decidable (∃ event ∈ trace, event.ends g = true))

/-- No goal is accepted or executed under the id of one that has ended, and a copy of the table is
not published when a later copy is published that shows as ended what it shows as running. -/
def PublishesInOrder (c : Config (StatusState Goal Result) (StatusEvent Result)) :
    StatusLabel Goal Result → Prop
  | .server (.acceptInsert h) => ∀ handle ∈ c.state.server.handles h,
      ¬ Ended c.trace handle.info.goalId
  | .server (.execute h) => ∀ handle ∈ c.state.server.handles h,
      ¬ Ended c.trace handle.info.goalId
  | .publish p => ∀ publication ∈ c.state.publications p, ∀ copy ∈ publication.snapshot,
      ∀ event ∈ c.trace, event.Allows copy.1 copy.2
  | _ => True

instance : DecidableRel
    (PublishesInOrder : Config (StatusState Goal Result) (StatusEvent Result) → _ → Prop)
  | c, .server (.acceptInsert h) => inferInstanceAs (Decidable (∀ handle ∈
      c.state.server.handles h, ¬ Ended c.trace handle.info.goalId))
  | c, .server (.execute h) => inferInstanceAs (Decidable (∀ handle ∈
      c.state.server.handles h, ¬ Ended c.trace handle.info.goalId))
  | c, .publish p => inferInstanceAs (Decidable (∀ publication ∈ c.state.publications p,
      ∀ copy ∈ publication.snapshot, ∀ event ∈ c.trace, event.Allows copy.1 copy.2))
  | _, .server (.tick _) | _, .server (.arrive _) | _, .server (.recvGoal _ _)
  | _, .server (.acceptReply _) | _, .server (.reject _) | _, .server (.terminate _ _ _)
  | _, .server (.notify _) | _, .server (.dropHandle _) | _, .server (.takeCancel _)
  | _, .server (.processCancel _) | _, .server (.replyCancel _) | _, .server (.requestCancel _)
  | _, .server (.takeResult _) | _, .server (.lookupResult _) | _, .server (.wakeResult _)
  | _, .server (.replyResult _) | _, .server .expireGoals | _, .server (.setResultTimeout _)
  | _, .server .withHandler | _, .server .shutdown | _, .server (.stop _)
  | _, .snapshot _ _ | _, .deliver | _, .addGoal _ | _, .watch _ _ | _, .removeGoal _ =>
      inferInstanceAs (Decidable True)

/-! ## The table and its copies -/

section Table

variable {s s' : ServerState Goal Result} {label : Label Goal Result}
  {observed : List (Event Result)} {g : GoalId}

/-- A copy of the table has the statuses of the table. -/
theorem mem_statusMessage {stamp : GoalId → Time} {info : GoalStatusInfo}
    (listed : info ∈ (s.statusMessage stamp).statusList) :
    s.status info.goalInfo.goalId = some info.status := by
  obtain ⟨⟨g, state⟩, present, rfl⟩ := List.mem_map.mp listed
  have entry : s.manager.entry g = some state :=
    (List.mem_dlookup_iff s.manager.goals.nodupKeys).mpr present
  rw [ServerState.status, entry]
  rfl

/-- The ways in which a step can change the status of a goal. -/
inductive StatusChange (s : ServerState Goal Result) (label : Label Goal Result)
    (observed : List (Event Result)) (s' : ServerState Goal Result) (g : GoalId) : Prop
  | kept (same : s'.status g = s.status g ∨ s'.status g = none)
      (silent : ∀ event ∈ observed, (StatusEvent.server event).ends g = false)
  | started {h : HandleId} {handle : GoalHandle Goal Result} {status : GoalStatus}
      (starts : label = .acceptInsert h ∨ label = .execute h) (found : s.handles h = some handle)
      (own : handle.info.goalId = g) (after : s'.status g = some status)
      (running : status.isTerminal = false)
      (silent : ∀ event ∈ observed, (StatusEvent.server event).ends g = false)
  | ended {status : GoalStatus} {event : Event Result} (after : s'.status g = some status)
      (terminal : status.isTerminal = true) (recorded : event ∈ observed)
      (ends : (StatusEvent.server event).ends g = true)

theorem Step.statusChange (step : Step s label observed s') (g : GoalId) :
    StatusChange s label observed s' g := by
  cases step with
  | @acceptInsert h goal info found =>
      by_cases own : info.goalId = g
      · subst own
        have entry := (s.manager.entry_accept s.clock info.goalId info.goalId goal).trans
          (if_pos rfl)
        refine .started (.inl rfl) found rfl (ServerState.status_of_entry entry) rfl ?_
        simp [StatusEvent.ends]
      · refine .kept (.inl ?_) (by simp [StatusEvent.ends])
        simp [ServerState.status, Ne.symm own]
  | @execute h goal info found =>
      by_cases own : info.goalId = g
      · subst own
        have entry := (s.manager.entry_execute s.clock info.goalId info.goalId goal
          s.nextFlag).trans (if_pos rfl)
        refine .started (.inr rfl) found rfl (ServerState.status_of_entry entry) rfl ?_
        simp [StatusEvent.ends]
      · refine .kept (.inl ?_) (by simp [StatusEvent.ends])
        simp [ServerState.status, Ne.symm own]
  | @terminate h goal info flag result outcome found =>
      by_cases own : info.goalId = g
      · subst own
        have entry := (s.manager.entry_terminate s.clock info.goalId info.goalId result
          outcome.status).trans (if_pos rfl)
        refine .ended (ServerState.status_of_entry entry) ?_ List.mem_cons_self
          (decide_eq_true rfl)
        cases outcome <;> rfl
      · refine .kept (.inl ?_) (by simp [StatusEvent.ends, own])
        simp [ServerState.status, Ne.symm own]
  | expireGoals =>
      exact .kept (s.status_expireGoals g) (by simp [StatusEvent.ends])
  | _ => exact .kept (.inl rfl) (by simp [StatusEvent.ends])

end Table

/-! ## The channels -/

section Channels

/-- A channel keeps to the order, and `known` holds if it has taken a terminal status. -/
structure StatusChannel.Sound (known : Prop) (channel : StatusChannel) : Prop where
  monotone : channel.taken.Pairwise fun earlier later =>
    earlier.isTerminal = true → later.isTerminal = true
  known : ∀ status ∈ channel.taken, status.isTerminal = true → known

theorem StatusChannel.Sound.mono {known weaker : Prop} {channel : StatusChannel}
    (sound : channel.Sound known) (implies : known → weaker) : channel.Sound weaker :=
  ⟨sound.monotone, fun status taken terminal => implies (sound.known status taken terminal)⟩

theorem StatusChannel.Sound.send {known : Prop} {channel : StatusChannel} {status : GoalStatus}
    (sound : channel.Sound known) (iff : status.isTerminal = true ↔ known) :
    (channel.send status).Sound known := by
  unfold StatusChannel.send
  split
  · constructor
    · refine List.pairwise_append.mpr ⟨sound.monotone, List.pairwise_singleton _ _, ?_⟩
      intro earlier taken later last terminal
      rw [List.mem_singleton.mp last]
      exact iff.mpr (sound.known earlier taken terminal)
    · intro status' taken terminal
      rcases List.mem_append.mp taken with before | now
      · exact sound.known status' before terminal
      · rw [List.mem_singleton.mp now] at terminal
        exact iff.mp terminal
  · exact sound

/-- A board all of whose channels keep to the order. -/
def StatusBoard.Sound (known : GoalId → Prop) (board : StatusBoard) : Prop :=
  ∀ g channel, board g = some channel → channel.Sound (known g)

theorem StatusBoard.Sound.update {known : GoalId → Prop} {board : StatusBoard} {g : GoalId}
    {channel : Option StatusChannel} (sound : board.Sound known)
    (added : ∀ c ∈ channel, c.Sound (known g)) :
    StatusBoard.Sound known (Function.update board g channel) := by
  intro g' channel' found
  rcases PartialMap.update_eq_some_iff.mp found with ⟨rfl, new⟩ | ⟨-, before⟩
  · exact added channel' new
  · exact sound g' channel' before

theorem StatusBoard.Sound.route {known : GoalId → Prop} {board : StatusBoard}
    {info : GoalStatusInfo} (sound : board.Sound known)
    (iff : info.status.isTerminal = true ↔ known info.goalInfo.goalId) :
    (board.route info).Sound known := by
  unfold StatusBoard.route
  split
  · next channel found =>
      refine sound.update ?_
      rintro _ ⟨⟩
      exact (sound _ channel found).send iff
  · exact sound

/-- A message that shows as ended exactly what is known to have ended keeps all channels in
order. -/
theorem StatusBoard.Sound.receive {known : GoalId → Prop} {board : StatusBoard}
    {msg : StatusMessage} (sound : board.Sound known)
    (iff : ∀ info ∈ msg.statusList,
      (info.status.isTerminal = true ↔ known info.goalInfo.goalId)) :
    (board.receive msg).Sound known := by
  unfold StatusBoard.receive
  obtain ⟨statusList⟩ := msg
  induction statusList generalizing board with
  | nil => exact sound
  | cons info rest ih =>
      refine ih (sound.route (iff info List.mem_cons_self)) ?_
      exact fun info' listed => iff info' (List.mem_cons_of_mem info listed)

end Channels

/-! ## Runs -/

section Runs

variable {cfg : ServerConfig} {s : StatusState Goal Result} {trace : List (StatusEvent Result)}
  {c c' : Config (StatusState Goal Result) (StatusEvent Result)} {label : StatusLabel Goal Result}

/-- How the copies of the table, the table and the trace belong together. -/
structure Copies (s : StatusState Goal Result) (trace : List (StatusEvent Result)) : Prop where
  fresh : ∀ {n msg}, .snapshot n msg ∈ trace → n < s.nextSnapshot
  held : ∀ {p owner n msg}, s.publications p = some ⟨owner, some (n, msg)⟩ →
    .snapshot n msg ∈ trace
  published : ∀ {n msg}, .published n msg ∈ trace → .snapshot n msg ∈ trace
  /-- The copies lead to each other in the order in which they were made. -/
  later : ∀ {n n' msg msg'}, .snapshot n msg ∈ trace → .snapshot n' msg' ∈ trace → n ≤ n' →
    msg.LeadsTo msg'
  ended : ∀ {n msg info}, .snapshot n msg ∈ trace → info ∈ msg.statusList →
    info.status.isTerminal = true → Ended trace info.goalInfo.goalId
  /-- The table shows a goal as ended if it has ended. -/
  table : ∀ {g status}, s.server.status g = some status →
    (status.isTerminal = true ↔ Ended trace g)

/-- A message was published that shows the goal as ended, and so do those in flight that list
it. -/
def Announced (trace : List (StatusEvent Result)) (inFlight : List StatusMessage) (g : GoalId) :
    Prop :=
  (∃ n msg, .published n msg ∈ trace ∧ ∃ info ∈ msg.statusList, info.goalInfo.goalId = g ∧
    info.status.isTerminal = true) ∧
  ∀ msg ∈ inFlight, ∀ info ∈ msg.statusList, info.goalInfo.goalId = g →
    info.status.isTerminal = true

/-- How the messages and the channels belong together. -/
structure Deliveries (s : StatusState Goal Result) (trace : List (StatusEvent Result)) :
    Prop where
  flight : ∀ msg ∈ s.inFlight, ∃ n, .published n msg ∈ trace
  ordered : s.inFlight.Pairwise StatusMessage.LeadsTo
  board : s.board.Sound (Announced trace s.inFlight)

theorem Ended.append {g : GoalId} (ended : Ended trace g) (observed : List (StatusEvent Result)) :
    Ended (trace ++ observed) g := by
  obtain ⟨event, recorded, ends⟩ := ended
  exact ⟨event, List.mem_append_left _ recorded, ends⟩

/-- A copy that may be published comes after all that are published. -/
theorem Copies.leadsTo (copies : Copies s trace) {p : ℕ} {owner : Option HandleId} {n n' : ℕ}
    {msg msg' : StatusMessage} (held : s.publications p = some ⟨owner, some (n, msg)⟩)
    (published : .published n' msg' ∈ trace)
    (allowed : PublishesInOrder ⟨s, trace⟩ (.publish p)) : msg'.LeadsTo msg := by
  rcases Nat.lt_or_ge n n' with earlier | later
  · exact allowed _ held _ rfl _ published earlier
  · exact copies.later (copies.published published) (copies.held held) later

/-- A publication starts without a copy. -/
theorem snapshot_publication {s : ServerState Goal Result} {observed : List (Event Result)}
    {label : Label Goal Result} {publication : Publication}
    (comes : s.publication observed label = some publication) : publication.snapshot = none := by
  unfold ServerState.publication at comes
  repeat' split at comes
  all_goals first | cases comes; done | (obtain rfl := Option.some.inj comes; rfl)

/-- What a step of the server does to the statuses is recorded. -/
theorem Copies.table_server {server' : ServerState Goal Result} {serverLabel : Label Goal Result}
    {observed : List (Event Result)} (copies : Copies s trace)
    (step : Step s.server serverLabel observed server')
    (allowed : PublishesInOrder ⟨s, trace⟩ (.server serverLabel)) {g : GoalId}
    {status : GoalStatus} (after : server'.status g = some status) :
    status.isTerminal = true ↔ Ended (trace ++ observed.map .server) g := by
  have ended_iff : (∀ event ∈ observed, (StatusEvent.server event).ends g = false) →
      (Ended (trace ++ observed.map .server) g ↔ Ended trace g) := by
    intro silent
    refine ⟨?_, fun ended => ended.append _⟩
    rintro ⟨event, recorded, ends⟩
    rcases List.mem_append.mp recorded with before | now
    · exact ⟨event, before, ends⟩
    · obtain ⟨event, seen, rfl⟩ := List.mem_map.mp now
      rw [silent event seen] at ends
      cases ends
  cases step.statusChange g with
  | kept same silent =>
      rcases same with same | gone
      · rw [ended_iff silent]
        exact copies.table (same.symm.trans after)
      · cases gone.symm.trans after
  | @started h handle status' starts found own after' running silent =>
      obtain rfl := Option.some.inj (after'.symm.trans after)
      have new : ¬ Ended trace g := by
        rcases starts with rfl | rfl
        · exact own ▸ allowed handle found
        · exact own ▸ allowed handle found
      rw [ended_iff silent]
      exact iff_of_false (by rw [running]; nofun) new
  | @ended status' event after' terminal recorded ends =>
      obtain rfl := Option.some.inj (after'.symm.trans after)
      refine iff_of_true terminal ⟨.server event, ?_, ends⟩
      exact List.mem_append_right _ (List.mem_map_of_mem recorded)

/-- A step of the server makes no copies and publishes none. -/
theorem mem_snapshot_server {n : ℕ} {msg : StatusMessage} {observed : List (Event Result)} :
    .snapshot n msg ∈ trace ++ observed.map .server ↔ .snapshot n msg ∈ trace := by
  simp

theorem mem_published_server {n : ℕ} {msg : StatusMessage} {observed : List (Event Result)} :
    .published n msg ∈ trace ++ observed.map .server ↔ .published n msg ∈ trace := by
  simp

theorem Copies.server {server' : ServerState Goal Result} {serverLabel : Label Goal Result}
    {observed : List (Event Result)} (copies : Copies s trace)
    (step : Step s.server serverLabel observed server')
    (allowed : PublishesInOrder ⟨s, trace⟩ (.server serverLabel)) :
    Copies { s with
      server := server'
      publications := Function.update s.publications s.nextPublication
        (s.server.publication observed serverLabel)
      nextPublication := s.nextPublication + 1 } (trace ++ observed.map .server) := by
  constructor
  · intro n msg recorded
    exact copies.fresh (mem_snapshot_server.mp recorded)
  · intro p owner n msg held
    refine mem_snapshot_server.mpr ?_
    rcases PartialMap.update_eq_some_iff.mp held with ⟨-, comes⟩ | ⟨-, before⟩
    · cases snapshot_publication comes
    · exact copies.held before
  · intro n msg recorded
    exact mem_snapshot_server.mpr (copies.published (mem_published_server.mp recorded))
  · intro n n' msg msg' first second le
    exact copies.later (mem_snapshot_server.mp first) (mem_snapshot_server.mp second) le
  · intro n msg info recorded listed terminal
    exact (copies.ended (mem_snapshot_server.mp recorded) listed terminal).append _
  · intro g status after
    exact copies.table_server step allowed after

/-- Copying and publishing end no goal. -/
theorem ended_concat {event : StatusEvent Result} {g : GoalId} (silent : event.ends g = false) :
    Ended (trace ++ [event]) g ↔ Ended trace g := by
  refine ⟨?_, fun ended => ended.append _⟩
  rintro ⟨event', recorded, ends⟩
  rcases List.mem_append.mp recorded with before | now
  · exact ⟨event', before, ends⟩
  · rw [List.mem_singleton.mp now, silent] at ends
    cases ends

theorem Copies.snapshot (copies : Copies s trace) {p : ℕ} {owner : Option HandleId}
    (stamp : GoalId → Time) :
    Copies { s with
      publications := Function.update s.publications p
        (some ⟨owner, some (s.nextSnapshot, s.server.statusMessage stamp)⟩)
      nextSnapshot := s.nextSnapshot + 1 }
      (trace ++ [.snapshot s.nextSnapshot (s.server.statusMessage stamp)]) := by
  have mem_iff : ∀ {n msg}, .snapshot n msg ∈
      trace ++ [.snapshot s.nextSnapshot (s.server.statusMessage stamp)] →
      .snapshot n msg ∈ trace ∨ n = s.nextSnapshot ∧ msg = s.server.statusMessage stamp := by
    intro n msg recorded
    simpa using recorded
  have new : ∀ {msg : StatusMessage}, (∀ info ∈ msg.statusList, info.status.isTerminal = true →
      Ended trace info.goalInfo.goalId) → msg.LeadsTo (s.server.statusMessage stamp) := by
    intro msg ended info listed terminal info' listed' same
    refine (copies.table (mem_statusMessage listed')).mpr ?_
    rw [same]
    exact ended info listed terminal
  have current : ∀ info ∈ (s.server.statusMessage stamp).statusList,
      info.status.isTerminal = true → Ended trace info.goalInfo.goalId :=
    fun info listed => (copies.table (mem_statusMessage listed)).mp
  constructor
  · intro n msg recorded
    rcases mem_iff recorded with before | ⟨rfl, -⟩
    · exact Nat.lt_succ_of_lt (copies.fresh before)
    · exact Nat.lt_succ_self _
  · intro p' owner' n msg held
    rcases PartialMap.update_eq_some_iff.mp held with ⟨-, same⟩ | ⟨-, before⟩
    · cases same
      exact List.mem_append_right _ List.mem_cons_self
    · exact List.mem_append_left _ (copies.held before)
  · intro n msg recorded
    have before : .published n msg ∈ trace := by simpa using recorded
    exact List.mem_append_left _ (copies.published before)
  · intro n n' msg msg' first second le
    rcases mem_iff first with before | ⟨rfl, rfl⟩ <;>
      rcases mem_iff second with before' | ⟨rfl, rfl⟩
    · exact copies.later before before' le
    · exact new fun info listed terminal => copies.ended before listed terminal
    · exact absurd (copies.fresh before') (Nat.not_lt.mpr le)
    · exact new current
  · intro n msg info recorded listed terminal
    rcases mem_iff recorded with before | ⟨rfl, rfl⟩
    · exact (copies.ended before listed terminal).append _
    · exact Ended.append (current info listed terminal) _
  · intro g status entry
    rw [ended_concat rfl]
    exact copies.table entry

theorem Copies.publish (copies : Copies s trace) {p : ℕ} {owner : Option HandleId} {n : ℕ}
    {msg : StatusMessage} (held : s.publications p = some ⟨owner, some (n, msg)⟩) :
    Copies { s with
      publications := Function.update s.publications p none
      inFlight := s.inFlight ++ [msg] } (trace ++ [.published n msg]) := by
  have mem_iff : ∀ {n' msg'}, .snapshot n' msg' ∈ trace ++ [StatusEvent.published n msg] ↔
      (.snapshot n' msg' : StatusEvent Result) ∈ trace := by simp
  constructor
  · exact fun recorded => copies.fresh (mem_iff.mp recorded)
  · intro p' owner' n' msg' held'
    exact mem_iff.mpr (copies.held (PartialMap.of_update_none held'))
  · intro n' msg' recorded
    refine mem_iff.mpr ?_
    rcases List.mem_append.mp recorded with before | now
    · exact copies.published before
    · cases List.mem_singleton.mp now
      exact copies.held held
  · exact fun first second le => copies.later (mem_iff.mp first) (mem_iff.mp second) le
  · intro n' msg' info recorded listed terminal
    exact (copies.ended (mem_iff.mp recorded) listed terminal).append _
  · intro g status entry
    rw [ended_concat rfl]
    exact copies.table entry

/-- Deliveries and the board of the client do not concern the copies. -/
theorem Copies.client (copies : Copies s trace) (inFlight : List StatusMessage)
    (board : StatusBoard) : Copies { s with inFlight, board } trace :=
  ⟨copies.fresh, copies.held, copies.published, copies.later, copies.ended, copies.table⟩

/-! ## One step of the deliveries -/

theorem Announced.append {inFlight : List StatusMessage} {g : GoalId}
    (announced : Announced trace inFlight g) (observed : List (StatusEvent Result)) :
    Announced (trace ++ observed) inFlight g := by
  obtain ⟨⟨n, msg, published, shown⟩, rest⟩ := announced
  exact ⟨⟨n, msg, List.mem_append_left _ published, shown⟩, rest⟩

theorem Deliveries.observe (deliveries : Deliveries s trace) {s' : StatusState Goal Result}
    (observed : List (StatusEvent Result)) (inFlight : s'.inFlight = s.inFlight)
    (board : s'.board = s.board) : Deliveries s' (trace ++ observed) := by
  constructor
  · intro msg flies
    rw [inFlight] at flies
    obtain ⟨n, published⟩ := deliveries.flight msg flies
    exact ⟨n, List.mem_append_left _ published⟩
  · rw [inFlight]
    exact deliveries.ordered
  · intro g channel found
    rw [board] at found
    rw [inFlight]
    exact (deliveries.board g channel found).mono fun announced => announced.append observed

/-- A goal that is announced stays announced when a message joins those in flight. -/
theorem Deliveries.publish (deliveries : Deliveries s trace) (copies : Copies s trace) {p : ℕ}
    {owner : Option HandleId} {n : ℕ} {msg : StatusMessage}
    (held : s.publications p = some ⟨owner, some (n, msg)⟩)
    (allowed : PublishesInOrder ⟨s, trace⟩ (.publish p)) :
    Deliveries { s with
      publications := Function.update s.publications p none
      inFlight := s.inFlight ++ [msg] } (trace ++ [.published n msg]) := by
  constructor
  · intro msg' flies
    rcases List.mem_append.mp flies with before | now
    · obtain ⟨n', published⟩ := deliveries.flight msg' before
      exact ⟨n', List.mem_append_left _ published⟩
    · cases List.mem_singleton.mp now
      exact ⟨n, List.mem_append_right _ List.mem_cons_self⟩
  · refine List.pairwise_append.mpr ⟨deliveries.ordered, List.pairwise_singleton _ _, ?_⟩
    intro earlier flies last isLast
    cases List.mem_singleton.mp isLast
    obtain ⟨n', published⟩ := deliveries.flight earlier flies
    exact copies.leadsTo held published allowed
  · intro g channel found
    refine (deliveries.board g channel found).mono ?_
    rintro ⟨⟨n', first, published, info, listed, rfl, terminal⟩, rest⟩
    refine ⟨⟨n', first, List.mem_append_left _ published, info, listed, rfl, terminal⟩, ?_⟩
    intro msg' flies info' listed' same
    rcases List.mem_append.mp flies with before | now
    · exact rest msg' before info' listed' same
    · cases List.mem_singleton.mp now
      exact copies.leadsTo held published allowed info listed terminal info' listed' same

theorem Deliveries.deliver (deliveries : Deliveries s trace) (copies : Copies s trace)
    {msg : StatusMessage} {rest : List StatusMessage} (flies : s.inFlight = msg :: rest) :
    Deliveries { s with inFlight := rest, board := s.board.receive msg } trace := by
  have flight := deliveries.flight
  have ordered := deliveries.ordered
  have board := deliveries.board
  rw [flies] at flight ordered board
  obtain ⟨leads, ordered⟩ := List.pairwise_cons.mp ordered
  obtain ⟨n, published⟩ := flight msg List.mem_cons_self
  have itself := copies.later (copies.published published) (copies.published published) le_rfl
  refine ⟨fun msg' later => flight msg' (List.mem_cons_of_mem _ later), ordered, ?_⟩
  have received : (s.board.receive msg).Sound (Announced trace (msg :: rest)) := by
    refine board.receive fun info listed => ⟨fun terminal => ?_, fun announced => ?_⟩
    · refine ⟨⟨n, msg, published, info, listed, rfl, terminal⟩, ?_⟩
      intro msg' flies' info' listed' same
      rcases List.mem_cons.mp flies' with rfl | later
      · exact itself info listed terminal info' listed' same
      · exact leads msg' later info listed terminal info' listed' same
    · exact announced.2 msg List.mem_cons_self info listed rfl
  intro g channel found
  refine (received g channel found).mono fun announced => ⟨announced.1, ?_⟩
  exact fun msg' later => announced.2 msg' (List.mem_cons_of_mem _ later)

/-- The client changes one entry of its board. -/
theorem Deliveries.update (deliveries : Deliveries s trace) {g : GoalId}
    {channel : Option StatusChannel}
    (added : ∀ c ∈ channel, c.Sound (Announced trace s.inFlight g)) :
    Deliveries { s with board := Function.update s.board g channel } trace :=
  ⟨deliveries.flight, deliveries.ordered, deliveries.board.update added⟩

/-! ## Every reachable state -/

theorem Deliveries.step (deliveries : Deliveries c.state c.trace) (copies : Copies c.state c.trace)
    (allowed : PublishesInOrder c label)
    (moved : (statusTopic Goal Result cfg).next c label = some c') :
    Copies c'.state c'.trace ∧ Deliveries c'.state c'.trace := by
  obtain ⟨s, trace⟩ := c
  obtain ⟨s', trace'⟩ := c'
  obtain ⟨observed, stepped, rfl⟩ := Machine.next_eq_some moved
  change s.step label = some (s', observed) at stepped
  dsimp only at deliveries copies ⊢
  cases label with
  | server serverLabel =>
      simp only [StatusState.step, StatusState.serverStep] at stepped
      split at stepped
      · cases stepped
      · obtain ⟨⟨server', events⟩, served, same⟩ := Option.map_eq_some_iff.mp stepped
        obtain ⟨rfl, rfl⟩ := Prod.mk.inj same
        exact ⟨copies.server (step_sound served) allowed, deliveries.observe _ rfl rfl⟩
  | snapshot p stamp =>
      simp only [StatusState.step] at stepped
      split at stepped
      · next owner found =>
          obtain ⟨rfl, rfl⟩ := Prod.mk.inj (Option.some.inj stepped)
          exact ⟨copies.snapshot stamp, deliveries.observe _ rfl rfl⟩
      · cases stepped
  | publish p =>
      simp only [StatusState.step] at stepped
      split at stepped
      · next owner number msg held =>
          obtain ⟨rfl, rfl⟩ := Prod.mk.inj (Option.some.inj stepped)
          exact ⟨copies.publish held, deliveries.publish copies held allowed⟩
      · cases stepped
  | deliver =>
      simp only [StatusState.step] at stepped
      split at stepped
      · next msg rest flies =>
          obtain ⟨rfl, rfl⟩ := Prod.mk.inj (Option.some.inj stepped)
          rw [List.append_nil]
          exact ⟨copies.client _ _, deliveries.deliver copies flies⟩
      · cases stepped
  | addGoal g =>
      obtain ⟨rfl, rfl⟩ := Prod.mk.inj (Option.some.inj stepped)
      rw [List.append_nil]
      refine ⟨copies.client s.inFlight _, deliveries.update ?_⟩
      rintro _ ⟨⟩
      exact ⟨List.pairwise_singleton _ _, by simp [GoalStatus.isTerminal]⟩
  | watch g watched =>
      simp only [StatusState.step] at stepped
      split at stepped
      · next channel found =>
          obtain ⟨rfl, rfl⟩ := Prod.mk.inj (Option.some.inj stepped)
          rw [List.append_nil]
          refine ⟨copies.client s.inFlight _, deliveries.update ?_⟩
          rintro _ ⟨⟩
          have sound := deliveries.board g channel found
          exact ⟨sound.monotone, sound.known⟩
      · cases stepped
  | removeGoal g =>
      obtain ⟨rfl, rfl⟩ := Prod.mk.inj (Option.some.inj stepped)
      rw [List.append_nil]
      exact ⟨copies.client s.inFlight _, deliveries.update nofun⟩

/-- **Clients see monotone statuses when copies are published in their order.**  In every run in
which no goal is accepted or executed under the id of one that has ended, and no copy of the table
is published after a later one that shows as ended what it shows as running, no channel of the
client goes from a terminal status to one that is not. -/
theorem monotone_of_reachable
    (reached : (statusTopic Goal Result cfg).Reachable PublishesInOrder c) :
    c.state.Monotone := by
  have sound : Copies c.state c.trace ∧ Deliveries c.state c.trace := by
    refine reached.invariant (P := fun c => Copies c.state c.trace ∧ Deliveries c.state c.trace)
      ⟨⟨nofun, nofun, nofun, nofun, nofun, nofun⟩, ⟨nofun, List.Pairwise.nil, nofun⟩⟩ ?_
    rintro c label c' ⟨copies, deliveries⟩ allowed moved
    exact deliveries.step copies allowed moved
  exact fun g channel found => (sound.2.board g channel found).monotone

end Runs

/-! ## Two goals -/

/-- The id of a second goal. -/
def laterGoal : GoalId := ⟨Vector.replicate 16 3⟩

/-- A goal executes, a second one is accepted and the table copied, and the first one ends and the
table is copied again. -/
def twoCopies : List (StatusLabel Unit ℕ) :=
  [.addGoal demoGoal, .server (.arrive (.goal (some ⟨demoGoal, ()⟩))),
    .server (.recvGoal none ⟨0, 0⟩), .server (.acceptReply 0), .server (.acceptInsert 0),
    .snapshot 3 (fun _ => ⟨0, 0⟩), .publish 3, .server (.execute 0),
    .snapshot 4 (fun _ => ⟨0, 0⟩), .publish 4,
    .server (.arrive (.goal (some ⟨laterGoal, ()⟩))), .server (.recvGoal none ⟨0, 0⟩),
    .server (.acceptReply 1), .server (.acceptInsert 1), .snapshot 8 (fun _ => ⟨0, 0⟩),
    .server (.terminate 0 42 .succeed), .server (.notify 0), .snapshot 10 (fun _ => ⟨0, 0⟩)]

/-- The copies are published in the order in which they were made. -/
theorem monotone_of_reachable_inOrder :
    ∃ c, (statusTopic Unit ℕ demoConfig).Reachable PublishesInOrder c ∧
      c.state.board demoGoal =
        some ⟨true, [.unknown, .accepted, .executing, .executing, .succeeded]⟩ ∧
      c.state.Monotone := by
  obtain ⟨c, reached, seen⟩ := (statusTopic Unit ℕ demoConfig).exists_of_schedule PublishesInOrder
    (twoCopies ++ [.publish 8, .publish 10, .deliver, .deliver, .deliver, .deliver])
    (fun c => c.state.board demoGoal)
    (some ⟨true, [.unknown, .accepted, .executing, .executing, .succeeded]⟩) (by decide +kernel)
  exact ⟨c, reached, seen, monotone_of_reachable reached⟩

/-- The older copy is published last, and the goal that has ended executes again. -/
theorem statusTopic_not_monotone :
    ¬ ∀ c, (statusTopic Unit ℕ demoConfig).Reachable Machine.anyStep c → c.state.Monotone := by
  obtain ⟨c, reached, seen⟩ := (statusTopic Unit ℕ demoConfig).exists_of_schedule Machine.anyStep
    (twoCopies ++ [.publish 10, .publish 8, .deliver, .deliver, .deliver, .deliver])
    (fun c => c.state.board demoGoal)
    (some ⟨true, [.unknown, .accepted, .executing, .succeeded, .executing]⟩) (by decide +kernel)
  intro claim
  have monotone := claim c reached demoGoal _ seen
  simp [GoalStatus.isTerminal] at monotone

end RosZ.Action
