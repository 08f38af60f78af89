import RosZ.Action.GoalBoard
import RosZ.Action.StatusTopic
import RosZ.Lib.Switchboard

/-!
# Feedback and status of a goal

The feedback callback of an action client sends what arrives for a goal into the feedback channel of
its entry, and the status callback puts the status into its watch channel.  `send_goal` makes both
channels; its call and then the handle keep the receivers until the caller takes them.
`feedback_stream` puts a new feedback channel into the entry.

* `feedback_exact`: the receiver of a feedback channel gets what has arrived for its goal while the
  entry had this channel, all of it, once and in order, and nothing else.
* `status_latest`: as long as the call or the handle keeps the status receiver, the channel has the
  last status that has arrived for the goal.
* `fetching_afterTerminal`: `result` asks for the result only after a terminal status has arrived,
  unless the caller has taken the status receiver.

## Design notes

* What becomes of the entries, calls and handles is in `RosZ.Action.GoalBoard`.
* One turn of the loop over the statuses of a message is a step.
* The value of a watch channel stays when it is sent a status while nobody watches it.
-/

namespace RosZ.Action.GoalStreams

open Transition GoalBoard

/-- Who has the receiver of a feedback channel. -/
inductive Owner where
  /-- The call of `send_goal`, and then the handle. -/
  | handle
  | caller
  | nobody
  deriving DecidableEq

structure FeedbackChannel (F : Type) where
  /-- The sender is in an entry of the board. -/
  tx : Bool
  rx : Owner
  queue : List F

/-- A watch channel. -/
structure StatusChannel where
  tx : Bool
  value : GoalStatus
  /-- The call or the handle, or `result`, has a receiver. -/
  kept : Bool
  /-- The receivers that callers have. -/
  callers : ℕ

structure State (F : Type) where
  board : BoardState
  /-- The channels that `send_goal` has made. -/
  made : GoalId → Option GoalChannels
  feedback : ℕ → FeedbackChannel F
  status : ℕ → StatusChannel
  /-- The next channels to be made. -/
  next : ℕ

inductive Label (F : Type) where
  | sendGoal (g : GoalId)
  | feedbackStream (g : GoalId)
  /-- Anything else that happens to the call or the handle of a goal. -/
  | act (g : GoalId) (action : BoardAction)
  /-- `GoalHandle::feedback` and `GoalHandle::status_watch`. -/
  | takeFeedback (g : GoalId)
  | takeStatus (g : GoalId)
  /-- `ZActionClient::status_watch`. -/
  | statusWatch (g : GoalId)
  | recv (channel : ℕ)
  | dropFeedback (channel : ℕ)
  | dropStatus (channel : ℕ)
  | feedbackArrives (g : GoalId) (feedback : F)
  | statusArrives (g : GoalId) (status : GoalStatus)

inductive Event (F : Type) where
  | sent (g : GoalId)
  /-- The entry of the goal has a new feedback channel. -/
  | opened (channel : ℕ) (g : GoalId)
  /-- The entry of the goal is removed. -/
  | removed (g : GoalId)
  | feedbackArrived (g : GoalId) (feedback : F)
  | statusArrived (g : GoalId) (status : GoalStatus)
  | received (channel : ℕ) (feedback : F)
  /-- `recv` returns `None`. -/
  | ended (channel : ℕ)
  | statusTaken (g : GoalId)
  /-- `result` asks for the result. -/
  | fetching (g : GoalId)
  deriving DecidableEq

namespace State

variable {F : Type}

/-- The result of a step: the state after it and what is observed of it. -/
abbrev After (F : Type) : Type := State F × List (Event F)

def setFeedback (s : State F) (channel : ℕ) (f : FeedbackChannel F → FeedbackChannel F) : State F :=
  { s with feedback := Function.update s.feedback channel (f (s.feedback channel)) }

def setStatus (s : State F) (channel : ℕ) (f : StatusChannel → StatusChannel) : State F :=
  { s with status := Function.update s.status channel (f (s.status channel)) }

section Parts

variable (s : State F) (channel : ℕ) (f : FeedbackChannel F → FeedbackChannel F)
  (f' : StatusChannel → StatusChannel)

@[simp] theorem board_setFeedback : (s.setFeedback channel f).board = s.board := rfl

@[simp] theorem made_setFeedback : (s.setFeedback channel f).made = s.made := rfl

@[simp] theorem status_setFeedback : (s.setFeedback channel f).status = s.status := rfl

@[simp] theorem next_setFeedback : (s.setFeedback channel f).next = s.next := rfl

@[simp] theorem board_setStatus : (s.setStatus channel f').board = s.board := rfl

@[simp] theorem made_setStatus : (s.setStatus channel f').made = s.made := rfl

@[simp] theorem feedback_setStatus : (s.setStatus channel f').feedback = s.feedback := rfl

@[simp] theorem next_setStatus : (s.setStatus channel f').next = s.next := rfl

theorem feedback_setFeedback (ch : ℕ) : (s.setFeedback channel f).feedback ch =
    if ch = channel then f (s.feedback channel) else s.feedback ch :=
  Function.update_apply ..

theorem status_setStatus (ch : ℕ) : (s.setStatus channel f').status ch =
    if ch = channel then f' (s.status channel) else s.status ch :=
  Function.update_apply ..

end Parts

/-- The senders of a removed entry are dropped. -/
def close (s : State F) (channels : GoalChannels) : State F :=
  (s.setFeedback channels.feedbackTx fun ch => { ch with tx := false }).setStatus
    channels.statusTx fun ch => { ch with tx := false }

/-- A feedback receiver is dropped, with what waits there. -/
def forget (ch : FeedbackChannel F) : FeedbackChannel F := { ch with rx := .nobody, queue := [] }

/-- The receivers that the call or the handle still has are dropped. -/
def release (s : State F) (made : GoalChannels) : State F :=
  (s.setFeedback made.feedbackTx fun ch => if ch.rx = .handle then forget ch else ch).setStatus
    made.statusTx fun ch => { ch with kept := false }

/-- There is a call or a handle. -/
def isOpen (r : GoalRecord) : Bool := r.call.isSome || r.handle.isSome

/-- A step of a call or a handle; the last one drops the receivers. -/
def setRecord (s : State F) (g : GoalId) (record : GoalRecord) : State F :=
  let s' := { s with board := Function.update s.board g record }
  if isOpen (s.board g) && !isOpen record then (s.made g).elim s' s'.release else s'

/-- A step of a call or a handle, with what it does to the entry. -/
def replace (s : State F) (g : GoalId) (record : GoalRecord) : After F :=
  match (s.board g).channels, record.channels with
  | some channels, none => ((s.setRecord g record).close channels, [.removed g])
  | _, _ => (s.setRecord g record, [])

/-- `result` goes on: the status is terminal, its channel is closed, or there is no receiver. -/
def goesOn (s : State F) (g : GoalId) : Bool :=
  match s.made g with
  | some made =>
      !(s.status made.statusTx).kept || (s.status made.statusTx).value.isTerminal ||
        !(s.status made.statusTx).tx
  | none => false

/-- The call or the handle drops the receiver of the status. -/
def dropStatusRx (s : State F) (g : GoalId) : State F :=
  match s.made g with
  | some made => s.setStatus made.statusTx fun ch => { ch with kept := false }
  | none => s

theorem feedback_dropStatusRx (s : State F) (g : GoalId) :
    (s.dropStatusRx g).feedback = s.feedback := by
  unfold dropStatusRx
  split <;> rfl

theorem next_dropStatusRx (s : State F) (g : GoalId) : (s.dropStatusRx g).next = s.next := by
  unfold dropStatusRx
  split <;> rfl

def sendGoal (s : State F) (g : GoalId) : Option (After F) :=
  let channels : GoalChannels := { feedbackTx := s.next, statusTx := s.next }
  ((s.board g).step (.sendGoal channels)).map fun (record, _) =>
    ({ board := Function.update s.board g record
       made := Function.update s.made g (some channels)
       feedback := Function.update s.feedback s.next { tx := true, rx := .handle, queue := [] }
       status := Function.update s.status s.next
        { tx := true, value := .unknown, kept := true, callers := 0 }
       next := s.next + 1 },
      [.sent g, .opened s.next g])

/-- The new channel takes the place of the one that the entry has, whose sender is dropped. -/
def feedbackStream (s : State F) (g : GoalId) : Option (After F) :=
  match (s.board g).channels with
  | some channels =>
      ((s.board g).step (.feedbackStream s.next)).map fun (record, _) =>
        let s' := s.setFeedback channels.feedbackTx fun ch => { ch with tx := false }
        ({ s' with
            board := Function.update s.board g record
            feedback :=
              Function.update s'.feedback s.next { tx := true, rx := .caller, queue := [] }
            next := s.next + 1 },
          [.opened s.next g])
  | none => some (s, [])

def act (s : State F) (g : GoalId) (action : BoardAction) : Option (After F) :=
  match action with
  | .sendGoal _ | .feedbackStream _ => none
  | .terminal =>
      if s.goesOn g then
        ((s.board g).step .terminal).map fun (record, _) =>
          -- the receiver of the status is dropped before the result is asked for
          ({ s.dropStatusRx g with board := Function.update s.board g record }, [.fetching g])
      else none
  | action => ((s.board g).step action).map fun (record, _) => s.replace g record

def takeFeedback (s : State F) (g : GoalId) : Option (After F) :=
  if (s.board g).handle = some .idle then
    match s.made g with
    | some made => some (s.setFeedback made.feedbackTx fun ch =>
        if ch.rx = .handle then { ch with rx := .caller } else ch, [])
    | none => none
  else none

def takeStatus (s : State F) (g : GoalId) : Option (After F) :=
  if (s.board g).handle = some .idle then
    match s.made g with
    | some made =>
        if (s.status made.statusTx).kept then
          some (s.setStatus made.statusTx fun ch =>
            { ch with kept := false, callers := ch.callers + 1 }, [.statusTaken g])
        else some (s, [])
    | none => none
  else none

def statusWatch (s : State F) (g : GoalId) : After F :=
  match (s.board g).channels with
  | some channels =>
      (s.setStatus channels.statusTx fun ch => { ch with callers := ch.callers + 1 }, [])
  | none => (s, [])

/-- The next message; `None` once the sender is dropped and nothing waits. -/
def recv (s : State F) (channel : ℕ) : Option (After F) :=
  if (s.feedback channel).rx = .caller then
    match (s.feedback channel).queue with
    | feedback :: rest =>
        some (s.setFeedback channel fun ch => { ch with queue := rest },
          [.received channel feedback])
    | [] => if (s.feedback channel).tx then none else some (s, [.ended channel])
  else none

/-- A message to a channel whose receiver is dropped is lost. -/
def feedbackArrives (s : State F) (g : GoalId) (feedback : F) : After F :=
  match (s.board g).channels with
  | some channels =>
      (s.setFeedback channels.feedbackTx fun ch =>
        if ch.rx = .nobody then ch else { ch with queue := ch.queue ++ [feedback] },
        [.feedbackArrived g feedback])
  | none => (s, [.feedbackArrived g feedback])

def statusArrives (s : State F) (g : GoalId) (status : GoalStatus) : After F :=
  match (s.board g).channels with
  | some channels =>
      (s.setStatus channels.statusTx fun ch =>
        if ch.kept || decide (0 < ch.callers) then { ch with value := status } else ch,
        [.statusArrived g status])
  | none => (s, [.statusArrived g status])

def step (s : State F) : Label F → Option (After F)
  | .sendGoal g => s.sendGoal g
  | .feedbackStream g => s.feedbackStream g
  | .act g action => s.act g action
  | .takeFeedback g => s.takeFeedback g
  | .takeStatus g => s.takeStatus g
  | .statusWatch g => some (s.statusWatch g)
  | .recv channel => s.recv channel
  | .dropFeedback channel =>
      if (s.feedback channel).rx = .caller then some (s.setFeedback channel forget, []) else none
  | .dropStatus channel =>
      if 0 < (s.status channel).callers then
        some (s.setStatus channel fun ch => { ch with callers := ch.callers - 1 }, [])
      else none
  | .feedbackArrives g feedback => some (s.feedbackArrives g feedback)
  | .statusArrives g status => some (s.statusArrives g status)

end State

/-- An action client with its callers and callbacks. -/
def goalStreams (F : Type) : Machine (State F) (Label F) (Event F) where
  init :=
    { board := fun _ => {}
      made := fun _ => none
      feedback := fun _ => { tx := false, rx := .nobody, queue := [] }
      status := fun _ => { tx := false, value := .unknown, kept := false, callers := 0 }
      next := 0 }
  step := State.step

/-! ## What a feedback channel is to carry -/

section Carrying

variable {F : Type}

/-- What an event means for the connections of goals with feedback channels. -/
def wiring : Event F → Option (Switchboard.Event GoalId F)
  | .opened channel g => some (.connect channel g)
  | .removed g => some (.disconnect g)
  | .feedbackArrived g feedback => some (.item g feedback)
  | _ => none

def history (trace : List (Event F)) : List (Switchboard.Event GoalId F) := trace.filterMap wiring

/-- The feedback that has arrived for the goal of a channel while its entry had this channel. -/
def due (trace : List (Event F)) (channel : ℕ) : List F :=
  (Switchboard.lineOf (history trace) channel).due

/-- What the receiver of a channel was given. -/
def received (channel : ℕ) (trace : List (Event F)) : List F :=
  trace.filterMap fun
    | .received ch feedback => if ch = channel then some feedback else none
    | _ => none

/-- The feedback channel of a goal. -/
def route (s : State F) (g : GoalId) : Option ℕ := (activeGoals s.board g).map (·.feedbackTx)

/-- A channel carries what it is to carry. -/
structure Carries (channel : FeedbackChannel F) (line : Switchboard.Line GoalId F) (got : List F)
    (ended : Prop) : Prop where
  tx : channel.tx = line.source.isSome
  waiting : channel.rx ≠ .nobody → got ++ channel.queue = line.due
  given : got <+: line.due
  finished : ended → channel.tx = false ∧ got = line.due

/-- The receiver of a channel is left alone, handed over or dropped. -/
def Spares (channel channel' : FeedbackChannel F) : Prop :=
  channel'.rx ≠ .nobody → channel.rx ≠ .nobody ∧ channel'.queue = channel.queue

variable {channel channel' : FeedbackChannel F} {line : Switchboard.Line GoalId F} {got : List F}
  {ended : Prop}

theorem Spares.nobody (spares : Spares channel channel') (dropped : channel.rx = .nobody) :
    channel'.rx = .nobody :=
  not_not.mp fun kept => (spares kept).1 dropped

theorem spares_self (channel : FeedbackChannel F) : Spares channel channel :=
  fun kept => ⟨kept, rfl⟩

theorem Carries.spare (carries : Carries channel line got ended) (spares : Spares channel channel')
    (tx : channel'.tx = channel.tx) : Carries channel' line got ended := by
  refine ⟨tx.trans carries.tx, fun kept => ?_, carries.given, tx ▸ carries.finished⟩
  obtain ⟨before, same⟩ := spares kept
  rw [same]
  exact carries.waiting before

/-- The sender of the channel is dropped. -/
theorem Carries.cut (carries : Carries channel line got ended) (spares : Spares channel channel')
    (tx : channel'.tx = false) : Carries channel' { line with source := none } got ended := by
  refine ⟨tx, fun kept => ?_, carries.given, fun finished => ⟨tx, (carries.finished finished).2⟩⟩
  obtain ⟨before, same⟩ := spares kept
  rw [same]
  exact carries.waiting before

/-- The connections of the goals are those of the history, and every channel carries what it is to
carry. -/
structure Inv (s : State F) (trace : List (Event F)) : Prop where
  wired : Switchboard.Wired (history trace) (route s) s.next
  carries : ∀ ch, Carries (s.feedback ch) (Switchboard.lineOf (history trace) ch)
    (received ch trace) (.ended ch ∈ trace)
  unused : ∀ ch, s.next ≤ ch → (s.feedback ch).rx = .nobody ∧ .ended ch ∉ trace

variable {s s' : State F} {trace observed : List (Event F)} {g : GoalId}

/-- Events that are not about feedback channels. -/
def Event.isQuiet : Event F → Bool
  | .sent _ | .statusArrived _ _ | .statusTaken _ | .fetching _ => true
  | _ => false

theorem history_quiet (quiet : ∀ event ∈ observed, event.isQuiet = true) :
    history (trace ++ observed) = history trace := by
  have none : observed.filterMap wiring = [] := by
    refine List.filterMap_eq_nil_iff.mpr fun event listed => ?_
    have := quiet event listed
    cases event <;> first | rfl | cases this
  rw [history, List.filterMap_append, none, List.append_nil, history]

theorem received_quiet (quiet : ∀ event ∈ observed, event.isQuiet = true) (ch : ℕ) :
    received ch (trace ++ observed) = received ch trace := by
  have none : received ch observed = [] := by
    refine List.filterMap_eq_nil_iff.mpr fun event listed => ?_
    have := quiet event listed
    cases event <;> first | rfl | cases this
  rw [received, List.filterMap_append, ← received, ← received, none, List.append_nil]

theorem ended_quiet (quiet : ∀ event ∈ observed, event.isQuiet = true) (ch : ℕ) :
    .ended ch ∈ trace ++ observed ↔ .ended ch ∈ trace := by
  refine List.mem_append.trans (or_iff_left fun listed => ?_)
  cases quiet _ listed

/-- Nothing happens to the feedback channels but that receivers are handed over or dropped. -/
theorem Inv.quiet (inv : Inv s trace) (quiet : ∀ event ∈ observed, event.isQuiet = true)
    (routes : route s' = route s) (next : s'.next = s.next)
    (spares : ∀ ch, Spares (s.feedback ch) (s'.feedback ch) ∧
      (s'.feedback ch).tx = (s.feedback ch).tx) : Inv s' (trace ++ observed) := by
  refine ⟨?_, fun ch => ?_, fun ch late => ?_⟩
  · rw [history_quiet quiet, routes, next]
    exact inv.wired
  · rw [history_quiet quiet, received_quiet quiet, ended_quiet quiet]
    exact (inv.carries ch).spare (spares ch).1 (spares ch).2
  · rw [ended_quiet quiet]
    obtain ⟨dropped, unended⟩ := inv.unused ch (next ▸ late)
    exact ⟨(spares ch).1.nobody dropped, unended⟩

/-- An event about connections gives nobody anything. -/
theorem carries_snoc {event : Event F} {w : Switchboard.Event GoalId F}
    (wires : wiring event = some w) (ch : ℕ) {channel : FeedbackChannel F}
    (carries : Carries channel (Switchboard.lineOf (history trace ++ [w]) ch) (received ch trace)
      (.ended ch ∈ trace)) :
    Carries channel (Switchboard.lineOf (history (trace ++ [event])) ch)
      (received ch (trace ++ [event])) (.ended ch ∈ trace ++ [event]) := by
  have extended : history (trace ++ [event]) = history trace ++ [w] := by
    simp [history, wires]
  have same : received ch (trace ++ [event]) = received ch trace ∧
      (.ended ch ∈ trace ++ [event] ↔ .ended ch ∈ trace) := by
    cases event with
    | opened | removed | feedbackArrived => simp [received]
    | _ => cases wires
  rw [extended, same.1, same.2]
  exact carries

/-- A goal gets a new feedback channel. -/
theorem Inv.connect (inv : Inv s trace)
    (routes : route s' = Function.update (route s) g (some s.next)) (next : s'.next = s.next + 1)
    (fresh : (s'.feedback s.next).tx = true ∧ (s'.feedback s.next).queue = [])
    (others : ∀ ch, ch ≠ s.next → Spares (s.feedback ch) (s'.feedback ch) ∧
      (s'.feedback ch).tx = if route s g = some ch then false else (s.feedback ch).tx) :
    Inv s' (trace ++ [.opened s.next g]) := by
  refine ⟨?_, fun ch => carries_snoc (w := .connect s.next g) rfl ch ?_, fun ch late => ?_⟩
  · rw [routes, next, history, List.filterMap_append]
    exact inv.wired.connect
  · have before := inv.carries ch
    by_cases new : ch = s.next
    · subst new
      have unused := inv.wired.unused s.next (Nat.le_refl _)
      rw [Switchboard.lineOf_connect_self, unused]
      rw [unused] at before
      have nothing : received s.next trace = [] := List.prefix_nil.mp before.given
      refine ⟨fresh.1, fun _ => ?_, nothing ▸ List.nil_prefix, fun finished => ?_⟩
      · rw [nothing, fresh.2]
        rfl
      · exact absurd finished (inv.unused s.next (Nat.le_refl _)).2
    · obtain ⟨spares, tx⟩ := others ch new
      by_cases old : route s g = some ch
      · rw [inv.wired.lineOf_connect_old (Ne.symm new) old]
        exact before.cut spares (by rw [tx, if_pos old])
      · rw [inv.wired.lineOf_connect_of_ne (Ne.symm new) old]
        exact before.spare spares (by rw [tx, if_neg old])
  · rw [next] at late
    obtain ⟨dropped, unended⟩ := inv.unused ch (Nat.le_of_succ_le late)
    exact ⟨(others ch (Nat.ne_of_gt late)).1.nobody dropped, by simpa using unended⟩

/-- The entry of a goal is removed. -/
theorem Inv.disconnect (inv : Inv s trace)
    (routes : route s' = Function.update (route s) g none) (next : s'.next = s.next)
    (others : ∀ ch, Spares (s.feedback ch) (s'.feedback ch) ∧
      (s'.feedback ch).tx = if route s g = some ch then false else (s.feedback ch).tx) :
    Inv s' (trace ++ [.removed g]) := by
  refine ⟨?_, fun ch => carries_snoc (w := .disconnect g) rfl ch ?_, fun ch late => ?_⟩
  · rw [routes, next, history, List.filterMap_append]
    exact inv.wired.disconnect
  · obtain ⟨spares, tx⟩ := others ch
    by_cases old : route s g = some ch
    · rw [inv.wired.lineOf_disconnect_self old]
      exact (inv.carries ch).cut spares (by rw [tx, if_pos old])
    · rw [inv.wired.lineOf_disconnect_of_ne old]
      exact (inv.carries ch).spare spares (by rw [tx, if_neg old])
  · obtain ⟨dropped, unended⟩ := inv.unused ch (next ▸ late)
    exact ⟨(others ch).1.nobody dropped, by simpa using unended⟩

/-- A message goes into the channel, unless its receiver is dropped. -/
theorem Carries.arrive (carries : Carries channel line got ended)
    (connected : line.source.isSome = true) (feedback : F) :
    Carries (if channel.rx = .nobody then channel
      else { channel with queue := channel.queue ++ [feedback] })
      { line with due := line.due ++ [feedback] } got ended := by
  have given : got <+: line.due ++ [feedback] := carries.given.trans (List.prefix_append ..)
  have going : ¬ ended := by
    intro finished
    have closed := carries.tx.symm.trans (carries.finished finished).1
    rw [connected] at closed
    cases closed
  split
  · next dropped => exact ⟨carries.tx, fun kept => absurd dropped kept, given, (absurd · going)⟩
  · next kept =>
      refine ⟨carries.tx, fun _ => ?_, given, (absurd · going)⟩
      rw [← carries.waiting kept, List.append_assoc]

/-- Feedback arrives for a goal. -/
theorem Inv.feedbackArrives (inv : Inv s trace) (g : GoalId) (feedback : F) :
    Inv (s.feedbackArrives g feedback).1 (trace ++ (s.feedbackArrives g feedback).2) := by
  have item : history (trace ++ [.feedbackArrived g feedback]) =
      history trace ++ [.item g feedback] := by simp [history, wiring]
  have unended : ∀ ch, .ended ch ∉ trace → .ended ch ∉ trace ++ [.feedbackArrived g feedback] :=
    fun ch absent => by simpa using absent
  cases entry : (s.board g).channels with
  | none =>
      simp only [State.feedbackArrives, entry]
      have unrouted : ∀ ch, route s g ≠ some ch := by simp [route, activeGoals, entry]
      refine ⟨item ▸ inv.wired.item, fun ch => carries_snoc (w := .item g feedback) rfl ch ?_,
        fun ch late => ?_⟩
      · rw [inv.wired.lineOf_item_of_ne (unrouted ch)]
        exact inv.carries ch
      · exact ⟨(inv.unused ch late).1, unended ch (inv.unused ch late).2⟩
  | some channels =>
      simp only [State.feedbackArrives, entry]
      have routed : route s g = some channels.feedbackTx := by simp [route, activeGoals, entry]
      refine ⟨item ▸ inv.wired.item, fun ch => carries_snoc (w := .item g feedback) rfl ch ?_,
        fun ch late => ?_⟩
      · rw [State.feedback_setFeedback]
        split
        · next own =>
            subst own
            have source := (inv.wired.route_iff g _).mp routed
            rw [inv.wired.lineOf_item_self routed]
            exact (inv.carries _).arrive (by rw [source]; rfl) feedback
        · next other =>
            rw [inv.wired.lineOf_item_of_ne]
            · exact inv.carries ch
            · exact fun same => other (Option.some.inj (same.symm.trans routed))
      · obtain ⟨dropped, absent⟩ := inv.unused ch late
        have other : ch ≠ channels.feedbackTx := Nat.ne_of_gt
          (Nat.lt_of_lt_of_le (inv.wired.lt_next routed) late)
        refine ⟨?_, unended ch absent⟩
        rw [State.feedback_setFeedback, if_neg other]
        exact dropped

/-- A receiver is given the next message, or is told that there will be none. -/
theorem Inv.recv (inv : Inv s trace) {ch : ℕ} (took : s.recv ch = some (s', observed)) :
    Inv s' (trace ++ observed) := by
  obtain ⟨taken, moved⟩ := Option.ite_none_right_eq_some.mp took
  have kept : (s.feedback ch).rx ≠ .nobody := by
    rw [taken]
    nofun
  have used : ch < s.next := by
    by_contra late
    exact kept (inv.unused ch (Nat.le_of_not_lt late)).1
  have carries := inv.carries ch
  have waiting := carries.waiting kept
  split at moved
  · next feedback rest queued =>
      obtain ⟨rfl, rfl⟩ := Prod.mk.inj (Option.some.inj moved)
      have same : history (trace ++ [.received ch feedback]) = history trace := by
        simp [history, wiring]
      refine ⟨same ▸ inv.wired, fun ch' => ?_, fun ch' late => ?_⟩
      · rw [same, State.feedback_setFeedback]
        split
        · next own =>
            subst own
            have got : received ch' (trace ++ [.received ch' feedback]) =
                received ch' trace ++ [feedback] := by simp [received]
            rw [queued] at waiting
            rw [got]
            refine ⟨carries.tx, fun _ => ?_, ⟨rest, ?_⟩, fun finished => ?_⟩
            · rw [← waiting, List.append_assoc, List.singleton_append]
            · rw [← waiting, List.append_assoc, List.singleton_append]
            · have all := (carries.finished (by simpa using finished)).2
              rw [← waiting] at all
              simp at all
        · next other =>
            have got : received ch' (trace ++ [.received ch feedback]) = received ch' trace := by
              simp [received, Ne.symm other]
            have finished : .ended ch' ∈ trace ++ [.received ch feedback] ↔ .ended ch' ∈ trace := by
              simp
            rw [got, finished]
            exact inv.carries ch'
      · obtain ⟨dropped, absent⟩ := inv.unused ch' late
        refine ⟨?_, by simpa using absent⟩
        rw [State.feedback_setFeedback, if_neg (Nat.ne_of_gt (Nat.lt_of_lt_of_le used late))]
        exact dropped
  · next queued =>
      obtain ⟨closed, same⟩ := Option.ite_none_left_eq_some.mp moved
      obtain ⟨rfl, rfl⟩ := Prod.mk.inj (Option.some.inj same)
      have same : history (trace ++ [.ended ch]) = history trace := by simp [history, wiring]
      refine ⟨same ▸ inv.wired, fun ch' => ?_, fun ch' late => ?_⟩
      · have got : received ch' (trace ++ [.ended ch]) = received ch' trace := by simp [received]
        rw [same, got]
        refine { inv.carries ch' with finished := fun finished => ?_ }
        by_cases own : ch' = ch
        · subst own
          rw [queued, List.append_nil] at waiting
          exact ⟨Bool.not_eq_true _ ▸ closed, waiting⟩
        · exact (inv.carries ch').finished (by simpa [own] using finished)
      · obtain ⟨dropped, absent⟩ := inv.unused ch' late
        have other : ch' ≠ ch := Nat.ne_of_gt (Nat.lt_of_lt_of_le used late)
        exact ⟨dropped, by simpa [other] using absent⟩

/-! ## Steps of calls and handles -/

/-- What is done to a goal, apart from the channels of its entry, removes the entry or leaves it. -/
theorem channels_of_step {r r' : GoalRecord} {action : BoardAction} {events : List BoardEvent}
    (stepped : r.step action = some (r', events))
    (plain : ∀ channels, action ≠ .sendGoal channels)
    (plain' : ∀ channel, action ≠ .feedbackStream channel) :
    r'.channels = r.channels ∨ r'.channels = none := by
  cases action with simp only [GoalRecord.step, Option.ite_none_right_eq_some,
      Option.map_eq_some_iff, Option.some.injEq, Prod.mk.injEq] at stepped
  | sendGoal channels => exact absurd rfl (plain channels)
  | feedbackStream channel => exact absurd rfl (plain' channel)
  | respond response =>
      obtain ⟨-, responded⟩ := stepped
      cases response with
      | none =>
          cases responded
          exact .inl rfl
      | some response =>
          rw [GoalRecord.respond] at responded
          split at responded <;> cases responded
          · exact .inl rfl
          · exact .inr rfl
  | sendFailed | resultReturns ok =>
      obtain ⟨-, rfl, -⟩ := stepped
      exact .inr rfl
  | requestSent | disconnected | result | terminal =>
      obtain ⟨-, rfl, -⟩ := stepped
      exact .inl rfl
  | dropCall | dropHandle =>
      obtain ⟨_, -, rfl, -⟩ := stepped
      exact .inl rfl

theorem route_update {board : BoardState} {record : GoalRecord}
    (same : s'.board = Function.update board g record) (before : s.board = board) :
    route s' = Function.update (route s) g (record.channels.map (·.feedbackTx)) := by
  funext g'
  by_cases own : g' = g
  · subst own
    simp [route, activeGoals, same]
  · simp [route, activeGoals, same, before, own]

theorem route_of_channels {record : GoalRecord}
    (board : s'.board = Function.update s.board g record)
    (same : record.channels = (s.board g).channels) : route s' = route s := by
  rw [route_update board rfl, same]
  exact Function.update_eq_self g (route s)

theorem spares_forget (channel : FeedbackChannel F) : Spares channel (State.forget channel) :=
  fun kept => absurd rfl kept

/-- A call or a handle drops what it has. -/
theorem spares_release (made : GoalChannels) (ch : ℕ) :
    Spares (s.feedback ch) ((s.release made).feedback ch) ∧
      ((s.release made).feedback ch).tx = (s.feedback ch).tx := by
  rw [State.release, State.feedback_setStatus, State.feedback_setFeedback]
  split
  · next own =>
      subst own
      split
      · exact ⟨spares_forget _, rfl⟩
      · exact ⟨spares_self _, rfl⟩
  · exact ⟨spares_self _, rfl⟩

theorem setRecord_spec (s : State F) (g : GoalId) (record : GoalRecord) :
    (s.setRecord g record).board = Function.update s.board g record ∧
      (s.setRecord g record).next = s.next ∧
      ∀ ch, Spares (s.feedback ch) ((s.setRecord g record).feedback ch) ∧
        ((s.setRecord g record).feedback ch).tx = (s.feedback ch).tx := by
  unfold State.setRecord
  dsimp only
  split
  · cases s.made g with
    | none => exact ⟨rfl, rfl, fun ch => ⟨spares_self _, rfl⟩⟩
    | some made =>
        exact ⟨rfl, rfl, spares_release (s := { s with board := Function.update s.board g record })
          made⟩
  · exact ⟨rfl, rfl, fun ch => ⟨spares_self _, rfl⟩⟩

theorem replace_of_removed {record : GoalRecord} {old : GoalChannels}
    (entry : (s.board g).channels = some old) (gone : record.channels = none) :
    s.replace g record = ((s.setRecord g record).close old, [.removed g]) := by
  simp only [State.replace, entry, gone]

theorem replace_of_kept {record : GoalRecord}
    (kept : ∀ old, (s.board g).channels = some old → record.channels ≠ none) :
    s.replace g record = (s.setRecord g record, []) := by
  cases entry : (s.board g).channels with
  | none => simp only [State.replace, entry]
  | some old =>
      cases there : record.channels with
      | none => exact absurd there (kept old entry)
      | some channels => simp only [State.replace, entry, there]

theorem Inv.replace (inv : Inv s trace) {record : GoalRecord}
    (channels : record.channels = (s.board g).channels ∨ record.channels = none) :
    Inv (s.replace g record).1 (trace ++ (s.replace g record).2) := by
  obtain ⟨board, next, spares⟩ := setRecord_spec s g record
  have routes := route_update board rfl
  cases entry : (s.board g).channels with
  | none =>
      rw [replace_of_kept fun old there => absurd (entry.symm.trans there) (by simp)]
      refine inv.quiet nofun (route_of_channels board ?_) next spares
      rcases channels with same | gone
      · exact same
      · rw [gone, entry]
  | some old =>
      rcases channels with same | gone
      · have kept : record.channels ≠ none := by simp [same, entry]
        rw [replace_of_kept fun _ _ => kept]
        exact inv.quiet nofun (route_of_channels board same) next spares
      · rw [replace_of_removed entry gone]
        have routed : route s g = some old.feedbackTx := by simp [route, activeGoals, entry]
        refine inv.disconnect ?_ next fun ch => ?_
        · rw [gone] at routes
          exact routes
        · rw [State.close, State.feedback_setStatus, State.feedback_setFeedback, routed]
          split
          · next own =>
              subst own
              exact ⟨(spares _).1, by simp⟩
          · next other =>
              rw [if_neg fun same => other (Option.some.inj same).symm]
              exact spares ch

theorem Inv.sendGoal (inv : Inv s trace) (sent : s.sendGoal g = some (s', observed))
    (unrouted : route s g = none) : Inv s' (trace ++ observed) := by
  obtain ⟨⟨record, events⟩, stepped, same⟩ := Option.map_eq_some_iff.mp sent
  obtain ⟨rfl, rfl⟩ := Prod.mk.inj same
  obtain ⟨-, same⟩ := Option.ite_none_left_eq_some.mp stepped
  obtain ⟨rfl, -⟩ := Prod.mk.inj (Option.some.inj same)
  have told : Inv s (trace ++ [.sent g]) :=
    inv.quiet (by simp [Event.isQuiet]) rfl rfl fun ch => ⟨spares_self _, rfl⟩
  rw [List.append_cons]
  refine told.connect ?_ rfl ?_ fun ch other => ?_
  · exact (route_update rfl rfl).trans (by simp)
  · simp
  · dsimp only
    rw [Function.update_of_ne other, if_neg (by simp [unrouted])]
    exact ⟨spares_self _, rfl⟩

theorem Inv.feedbackStream (inv : Inv s trace) (opened : s.feedbackStream g = some (s', observed)) :
    Inv s' (trace ++ observed) := by
  unfold State.feedbackStream at opened
  split at opened
  · next channels entry =>
      obtain ⟨⟨record, events⟩, stepped, same⟩ := Option.map_eq_some_iff.mp opened
      obtain ⟨rfl, rfl⟩ := Prod.mk.inj same
      obtain ⟨rfl, -⟩ := Prod.mk.inj (Option.some.inj stepped)
      have routed : route s g = some channels.feedbackTx := by simp [route, activeGoals, entry]
      refine inv.connect ?_ rfl ?_ fun ch other => ?_
      · refine (route_update rfl rfl).trans ?_
        simp [entry]
      · simp
      · dsimp only
        rw [Function.update_of_ne other, State.feedback_setFeedback, routed]
        split
        · next own =>
            subst own
            exact ⟨spares_self _, by simp⟩
        · next apart =>
            rw [if_neg fun same => apart (Option.some.inj same).symm]
            exact ⟨spares_self _, rfl⟩
  · obtain ⟨rfl, rfl⟩ := Prod.mk.inj (Option.some.inj opened)
    rw [List.append_nil]
    exact inv

/-- What is done to status channels, or to the receiver of a feedback channel. -/
theorem Inv.aside (inv : Inv s trace) (quiet : ∀ event ∈ observed, event.isQuiet = true)
    (board : s'.board = s.board) (next : s'.next = s.next)
    (spares : ∀ ch, Spares (s.feedback ch) (s'.feedback ch) ∧
      (s'.feedback ch).tx = (s.feedback ch).tx) : Inv s' (trace ++ observed) :=
  inv.quiet quiet (by unfold route; rw [board]) next spares

theorem Inv.act (inv : Inv s trace) {action : BoardAction}
    (acted : s.act g action = some (s', observed)) : Inv s' (trace ++ observed) := by
  unfold State.act at acted
  split at acted
  · cases acted
  · cases acted
  · obtain ⟨-, moved⟩ := Option.ite_none_right_eq_some.mp acted
    obtain ⟨⟨record, events⟩, stepped, same⟩ := Option.map_eq_some_iff.mp moved
    obtain ⟨rfl, rfl⟩ := Prod.mk.inj same
    obtain ⟨-, same⟩ := Option.ite_none_right_eq_some.mp stepped
    obtain ⟨rfl, -⟩ := Prod.mk.inj (Option.some.inj same)
    refine inv.quiet (by simp [Event.isQuiet]) (route_of_channels rfl rfl)
      (State.next_dropStatusRx s g) fun ch => ?_
    dsimp only
    rw [State.feedback_dropStatusRx]
    exact ⟨spares_self _, rfl⟩
  · next sendGoal feedbackStream _ =>
      obtain ⟨⟨record, events⟩, stepped, same⟩ := Option.map_eq_some_iff.mp acted
      have replaced : s.replace g record = (s', observed) := same
      have kept := inv.replace (channels_of_step stepped sendGoal feedbackStream)
      rwa [replaced] at kept

theorem Inv.step {label : Label F} (inv : Inv s trace)
    (unrouted : ∀ g, (s.board g).drawn = false → route s g = none)
    (stepped : s.step label = some (s', observed)) : Inv s' (trace ++ observed) := by
  cases label with
  | sendGoal g =>
      refine inv.sendGoal stepped (unrouted g ?_)
      obtain ⟨_, sent, -⟩ := Option.map_eq_some_iff.mp stepped
      obtain ⟨undrawn, -⟩ := Option.ite_none_left_eq_some.mp sent
      exact Bool.not_eq_true _ ▸ undrawn
  | feedbackStream g => exact inv.feedbackStream stepped
  | act g action => exact inv.act stepped
  | takeFeedback g =>
      obtain ⟨-, taken⟩ := Option.ite_none_right_eq_some.mp stepped
      split at taken <;> cases taken
      refine inv.aside nofun rfl rfl fun ch => ?_
      rw [State.feedback_setFeedback]
      split
      · next own =>
          subst own
          split
          · next handle => exact ⟨fun _ => ⟨by rw [handle]; nofun, rfl⟩, rfl⟩
          · exact ⟨spares_self _, rfl⟩
      · exact ⟨spares_self _, rfl⟩
  | takeStatus g =>
      obtain ⟨-, taken⟩ := Option.ite_none_right_eq_some.mp stepped
      split at taken
      · split at taken <;> cases taken
        · exact inv.aside (by simp [Event.isQuiet]) rfl rfl fun ch => ⟨spares_self _, rfl⟩
        · exact inv.aside nofun rfl rfl fun ch => ⟨spares_self _, rfl⟩
      · cases taken
  | statusWatch g =>
      simp only [State.step, State.statusWatch] at stepped
      split at stepped <;> cases stepped
      all_goals exact inv.aside nofun rfl rfl fun ch => ⟨spares_self _, rfl⟩
  | recv channel => exact inv.recv stepped
  | dropFeedback channel =>
      obtain ⟨-, same⟩ := Option.ite_none_right_eq_some.mp stepped
      cases same
      refine inv.aside nofun rfl rfl fun ch => ?_
      rw [State.feedback_setFeedback]
      split
      · next own =>
          subst own
          exact ⟨spares_forget _, rfl⟩
      · exact ⟨spares_self _, rfl⟩
  | dropStatus channel =>
      obtain ⟨-, same⟩ := Option.ite_none_right_eq_some.mp stepped
      cases same
      exact inv.aside nofun rfl rfl fun ch => ⟨spares_self _, rfl⟩
  | feedbackArrives g feedback =>
      obtain ⟨rfl, rfl⟩ := Prod.mk.inj (Option.some.inj stepped)
      exact inv.feedbackArrives g feedback
  | statusArrives g status =>
      simp only [State.step, State.statusArrives] at stepped
      split at stepped <;> cases stepped
      all_goals exact inv.aside (by simp [Event.isQuiet]) rfl rfl fun ch => ⟨spares_self _, rfl⟩

end Carrying

/-! ## The board -/

section Board

variable {F : Type} {s s' : State F} {observed : List (Event F)} {label : Label F} {g : GoalId}

theorem replace_board (s : State F) (g : GoalId) (record : GoalRecord) :
    (s.replace g record).1.board = Function.update s.board g record := by
  obtain ⟨board, -, -⟩ := setRecord_spec s g record
  unfold State.replace
  split <;> exact board

/-- A step is one of the board, or leaves the board alone. -/
theorem board_of_step (stepped : s.step label = some (s', observed)) :
    s'.board = s.board ∨ ∃ g action record events,
      (s.board g).step action = some (record, events) ∧
        s'.board = Function.update s.board g record := by
  cases label with
  | sendGoal g =>
      obtain ⟨⟨record, events⟩, moved, same⟩ := Option.map_eq_some_iff.mp stepped
      cases same
      exact .inr ⟨g, _, record, events, moved, rfl⟩
  | feedbackStream g =>
      simp only [State.step, State.feedbackStream] at stepped
      split at stepped
      · obtain ⟨⟨record, events⟩, moved, same⟩ := Option.map_eq_some_iff.mp stepped
        cases same
        exact .inr ⟨g, _, record, events, moved, rfl⟩
      · cases stepped
        exact .inl rfl
  | act g action =>
      simp only [State.step, State.act] at stepped
      split at stepped
      · cases stepped
      · cases stepped
      · obtain ⟨-, went⟩ := Option.ite_none_right_eq_some.mp stepped
        obtain ⟨⟨record, events⟩, moved, same⟩ := Option.map_eq_some_iff.mp went
        cases same
        exact .inr ⟨g, _, record, events, moved, rfl⟩
      · obtain ⟨⟨record, events⟩, moved, same⟩ := Option.map_eq_some_iff.mp stepped
        have replaced : s.replace g record = (s', observed) := same
        refine .inr ⟨g, _, record, events, moved, ?_⟩
        rw [← replace_board, replaced]
  | takeFeedback g =>
      obtain ⟨-, taken⟩ := Option.ite_none_right_eq_some.mp stepped
      split at taken <;> cases taken
      exact .inl rfl
  | takeStatus g =>
      obtain ⟨-, taken⟩ := Option.ite_none_right_eq_some.mp stepped
      split at taken
      · split at taken <;> cases taken <;> exact .inl rfl
      · cases taken
  | statusWatch g =>
      simp only [State.step, State.statusWatch] at stepped
      split at stepped <;> cases stepped <;> exact .inl rfl
  | recv channel =>
      obtain ⟨-, moved⟩ := Option.ite_none_right_eq_some.mp stepped
      split at moved
      · cases moved
        exact .inl rfl
      · split at moved <;> cases moved
        exact .inl rfl
  | dropFeedback channel | dropStatus channel =>
      obtain ⟨-, same⟩ := Option.ite_none_right_eq_some.mp stepped
      cases same
      exact .inl rfl
  | feedbackArrives g feedback =>
      simp only [State.step, State.feedbackArrives] at stepped
      split at stepped <;> cases stepped <;> exact .inl rfl
  | statusArrives g status =>
      simp only [State.step, State.statusArrives] at stepped
      split at stepped <;> cases stepped <;> exact .inl rfl

/-- **The boards of an action client are those of `goalBoard`.** -/
theorem board_reachable {c : Config (State F) (Event F)}
    (reached : (goalStreams F).Reachable Machine.anyStep c) :
    ∃ trace, goalBoard.Reachable Machine.anyStep ⟨c.state.board, trace⟩ := by
  refine reached.invariant (P := fun c : Config (State F) (Event F) =>
    ∃ trace, goalBoard.Reachable Machine.anyStep ⟨c.state.board, trace⟩) ⟨[], .refl⟩ ?_
  rintro c label c' ⟨trace, before⟩ - moved
  obtain ⟨observed, stepped, -⟩ := Machine.next_eq_some moved
  rcases board_of_step stepped with same | ⟨g, action, record, events, ran, after⟩
  · exact ⟨trace, same ▸ before⟩
  · have moved : goalBoard.next ⟨c.state.board, trace⟩ (g, action) =
        some ⟨c'.state.board, trace ++ events.map (g, ·)⟩ := by
      simp only [Machine.next, goalBoard, ran, Option.map_some, after]
    exact ⟨_, before.step trivial moved⟩

/-- Every goal is somewhere in its life. -/
theorem exists_life {c : Config (State F) (Event F)}
    (reached : (goalStreams F).Reachable Machine.anyStep c) (g : GoalId) :
    ∃ events, Life events (c.state.board g) := by
  obtain ⟨trace, before⟩ := board_reachable reached
  exact ⟨_, life_of_reachable before g⟩

end Board

/-! ## What receivers get -/

section Feedback

variable {F : Type} {c : Config (State F) (Event F)}

theorem inv_of_reachable (reached : (goalStreams F).Reachable Machine.anyStep c) :
    Inv c.state c.trace := by
  suffices both : (goalStreams F).Reachable Machine.anyStep c ∧ Inv c.state c.trace from both.2
  refine reached.invariant (P := fun c : Config (State F) (Event F) =>
    (goalStreams F).Reachable Machine.anyStep c ∧ Inv c.state c.trace) ⟨.refl, ?_⟩ ?_
  · refine ⟨Switchboard.wired_nil, fun ch => ⟨rfl, fun _ => rfl, List.prefix_rfl, ?_⟩,
      fun ch _ => ?_⟩
    · exact nofun
    · exact ⟨rfl, nofun⟩
  · rintro c label c' ⟨reached, inv⟩ meets moved
    refine ⟨reached.step meets moved, ?_⟩
    obtain ⟨observed, stepped, grown⟩ := Machine.next_eq_some moved
    rw [grown]
    refine inv.step (fun g undrawn => ?_) stepped
    obtain ⟨events, life⟩ := exists_life reached g
    rw [route, activeGoals, (life.unborn_of undrawn).2]
    rfl

/-- **Feedback goes where it belongs.**  In every run, what the receiver of a feedback channel is
given are the first of the messages that have arrived for its goal while the entry had this channel;
the others wait in the channel, unless the receiver was dropped; and when the receiver is told that
there will be no more, it has got them all. -/
theorem feedback_exact (F : Type) (c : Config (State F) (Event F))
    (reached : (goalStreams F).Reachable Machine.anyStep c) (channel : ℕ) :
    received channel c.trace <+: due c.trace channel ∧
      ((c.state.feedback channel).rx ≠ .nobody →
        received channel c.trace ++ (c.state.feedback channel).queue = due c.trace channel) ∧
      (.ended channel ∈ c.trace → received channel c.trace = due c.trace channel) := by
  have carries := (inv_of_reachable reached).carries channel
  exact ⟨carries.given, carries.waiting, fun finished => (carries.finished finished).2⟩

end Feedback

/-! ## What watchers see -/

section Status

variable {F : Type}

/-- The last status that has arrived for a goal since it was sent. -/
def latest (g : GoalId) (trace : List (Event F)) : GoalStatus :=
  trace.foldl (fun status event =>
    match event with
    | .sent g' => if g' = g then .unknown else status
    | .statusArrived g' new => if g' = g then new else status
    | _ => status) .unknown

/-- The receiver of the status is with the call or the handle, or with `result` that waits. -/
def Holds (r : GoalRecord) : Prop :=
  r.call.isSome = true ∨ r.handle = some .idle ∨ r.handle = some .waiting

/-- The status channel of a goal that was sent: its entry has the sender; while the receiver is
kept, it has the last status, and only a caller takes it away before the result is asked for. -/
structure Watches (r : GoalRecord) (made : GoalChannels) (channel : StatusChannel)
    (status : GoalStatus) (taken : Prop) : Prop where
  entry : ∀ channels, r.channels = some channels →
    channels.statusTx = made.statusTx ∧ channel.tx = true
  value : channel.kept = true → channel.value = status
  holds : channel.kept = true → Holds r
  taken : channel.kept = false → Holds r → taken

structure StatusInv (s : State F) (trace : List (Event F)) : Prop where
  undrawn : ∀ g, s.made g = none → s.board g = {}
  old : ∀ g made, s.made g = some made → made.statusTx < s.next
  apart : ∀ g g' made made', s.made g = some made → s.made g' = some made' →
    made.statusTx = made'.statusTx → g = g'
  watches : ∀ g made, s.made g = some made →
    Watches (s.board g) made (s.status made.statusTx) (latest g trace) (.statusTaken g ∈ trace)

variable {s s' : State F} {trace observed : List (Event F)} {g : GoalId}

/-- Events that are not about the status of a goal. -/
def Event.sparesStatus (g : GoalId) : Event F → Bool
  | .sent g' | .statusArrived g' _ | .statusTaken g' => g' ≠ g
  | _ => true

theorem latest_spared (spared : ∀ event ∈ observed, event.sparesStatus g = true) :
    latest g (trace ++ observed) = latest g trace ∧
      (.statusTaken g ∈ trace ++ observed ↔ .statusTaken g ∈ trace) := by
  constructor
  · rw [latest, List.foldl_append, ← latest]
    refine List.foldlRecOn observed _ (motive := fun status => status = latest g trace) rfl ?_
    intro status same event listed
    have := spared event listed
    cases event <;> simp_all [Event.sparesStatus]
  · refine List.mem_append.trans (or_iff_left fun listed => ?_)
    have := spared _ listed
    simp [Event.sparesStatus] at this

/-- A step of one goal. -/
theorem StatusInv.frame (inv : StatusInv s trace) (makes : s'.made = s.made)
    (next : s.next ≤ s'.next) (board : ∀ g', g' ≠ g → s'.board g' = s.board g')
    (status : ∀ ch, (∀ made, s.made g = some made → ch ≠ made.statusTx) →
      s'.status ch = s.status ch)
    (spared : ∀ g', g' ≠ g → ∀ event ∈ observed, event.sparesStatus g' = true)
    (undrawn : s.made g = none → s'.board g = {})
    (watches : ∀ made, s.made g = some made → Watches (s'.board g) made
      (s'.status made.statusTx) (latest g (trace ++ observed))
      (.statusTaken g ∈ trace ++ observed)) :
    StatusInv s' (trace ++ observed) := by
  refine ⟨fun g' unmade => ?_, fun g' made makes' => ?_, by rw [makes]; exact inv.apart,
    fun g' made makes' => ?_⟩
  · rw [makes] at unmade
    by_cases same : g' = g
    · subst same
      exact undrawn unmade
    · rw [board g' same]
      exact inv.undrawn g' unmade
  · rw [makes] at makes'
    exact Nat.lt_of_lt_of_le (inv.old g' made makes') next
  · rw [makes] at makes'
    by_cases same : g' = g
    · subst same
      exact watches made makes'
    · obtain ⟨unchanged, untaken⟩ := @latest_spared _ trace observed g' (spared g' same)
      rw [board g' same, unchanged, untaken, status _ fun made' own shared =>
        same (inv.apart g' g made made' makes' own shared)]
      exact inv.watches g' made makes'

/-- Nothing happens to the statuses but that callers get and drop receivers. -/
theorem StatusInv.aside (inv : StatusInv s trace) (makes : s'.made = s.made)
    (next : s'.next = s.next) (board : s'.board = s.board)
    (status : ∀ ch, (s'.status ch).tx = (s.status ch).tx ∧
      (s'.status ch).value = (s.status ch).value ∧ (s'.status ch).kept = (s.status ch).kept)
    (spared : ∀ g, ∀ event ∈ observed, event.sparesStatus g = true) :
    StatusInv s' (trace ++ observed) := by
  refine ⟨by rw [makes, board]; exact inv.undrawn, by rw [makes, next]; exact inv.old,
    by rw [makes]; exact inv.apart, fun g made makes' => ?_⟩
  rw [makes] at makes'
  obtain ⟨unchanged, untaken⟩ := @latest_spared _ trace observed g (spared g)
  obtain ⟨entry, value, holds, taken⟩ := inv.watches g made makes'
  obtain ⟨tx, same, kept⟩ := status made.statusTx
  rw [unchanged, untaken, board]
  exact ⟨by rwa [tx], by rwa [same, kept], by rwa [kept], by rwa [kept]⟩

theorem StatusInv.sendGoal (inv : StatusInv s trace) (sent : s.sendGoal g = some (s', observed)) :
    StatusInv s' (trace ++ observed) := by
  obtain ⟨⟨record, events⟩, stepped, same⟩ := Option.map_eq_some_iff.mp sent
  obtain ⟨rfl, rfl⟩ := Prod.mk.inj same
  obtain ⟨-, same⟩ := Option.ite_none_left_eq_some.mp stepped
  obtain ⟨rfl, -⟩ := Prod.mk.inj (Option.some.inj same)
  -- the channels of the other goals are older
  have older : ∀ g' made, g' ≠ g → Function.update s.made g (some ⟨s.next, s.next⟩) g' = some made →
      s.made g' = some made ∧ made.statusTx < s.next := by
    intro g' made other makes
    rw [Function.update_of_ne other] at makes
    exact ⟨makes, inv.old g' made makes⟩
  refine ⟨fun g' unmade => ?_, fun g' made makes => ?_,
    fun g₁ g₂ made₁ made₂ makes₁ makes₂ same => ?_,
    fun g' made makes => ?_⟩
  · by_cases own : g' = g
    · subst own
      simp at unmade
    · dsimp only at unmade ⊢
      rw [Function.update_of_ne own] at unmade ⊢
      exact inv.undrawn g' unmade
  · by_cases own : g' = g
    · subst own
      obtain rfl : ⟨s.next, s.next⟩ = made := by simpa using makes
      exact Nat.lt_succ_self s.next
    · exact Nat.lt_succ_of_lt (older g' made own makes).2
  · by_cases own₁ : g₁ = g <;> by_cases own₂ : g₂ = g
    · exact own₁.trans own₂.symm
    · subst own₁
      obtain rfl : ⟨s.next, s.next⟩ = made₁ := by simpa using makes₁
      exact absurd same (Nat.ne_of_gt (older g₂ made₂ own₂ makes₂).2)
    · subst own₂
      obtain rfl : ⟨s.next, s.next⟩ = made₂ := by simpa using makes₂
      exact absurd same (Nat.ne_of_lt (older g₁ made₁ own₁ makes₁).2)
    · exact inv.apart g₁ g₂ made₁ made₂ (older g₁ made₁ own₁ makes₁).1
        (older g₂ made₂ own₂ makes₂).1 same
  · by_cases own : g' = g
    · subst own
      obtain rfl : ⟨s.next, s.next⟩ = made := by simpa using makes
      dsimp only
      rw [Function.update_self, Function.update_self]
      refine ⟨fun channels entry => ?_, fun _ => ?_, fun _ => .inl rfl, nofun⟩
      · cases entry
        exact ⟨rfl, rfl⟩
      · simp [latest]
    · obtain ⟨makes, earlier⟩ := older g' made own makes
      have spared : ∀ event ∈ [(.sent g : Event F), .opened s.next g],
          event.sparesStatus g' = true := by
        intro event listed
        rcases List.mem_pair.mp listed with rfl | rfl
        · simpa [Event.sparesStatus] using Ne.symm own
        · rfl
      obtain ⟨unchanged, untaken⟩ := @latest_spared _ trace _ g' spared
      dsimp only
      rw [unchanged, untaken, Function.update_of_ne own,
        Function.update_of_ne (Nat.ne_of_lt earlier)]
      exact inv.watches g' made makes

theorem StatusInv.feedbackStream (inv : StatusInv s trace)
    (opened : s.feedbackStream g = some (s', observed)) : StatusInv s' (trace ++ observed) := by
  unfold State.feedbackStream at opened
  split at opened
  · next channels entry =>
      obtain ⟨⟨record, events⟩, stepped, same⟩ := Option.map_eq_some_iff.mp opened
      obtain ⟨rfl, rfl⟩ := Prod.mk.inj same
      obtain ⟨rfl, -⟩ := Prod.mk.inj (Option.some.inj stepped)
      have spared : ∀ g', ∀ event ∈ [(.opened s.next g : Event F)],
          event.sparesStatus g' = true := by simp [Event.sparesStatus]
      refine inv.frame (g := g) rfl (Nat.le_succ _) (fun g' other => Function.update_of_ne other ..)
        (fun _ _ => rfl) (fun g' _ => spared g') (fun unmade => ?_) fun made own => ?_
      · rw [inv.undrawn g unmade] at entry
        cases entry
      · obtain ⟨unchanged, untaken⟩ := @latest_spared _ trace _ g (spared g)
        have before := inv.watches g made own
        dsimp only
        rw [unchanged, untaken, Function.update_self]
        refine { before with entry := fun channels' entry' => ?_ }
        rw [entry] at entry'
        cases entry'
        exact before.entry channels entry
  · obtain ⟨rfl, rfl⟩ := Prod.mk.inj (Option.some.inj opened)
    rw [List.append_nil]
    exact inv

theorem channels_of_holds {r : GoalRecord} (life : ∃ events, Life events r) (holds : Holds r) :
    ∃ channels, r.channels = some channels := by
  obtain ⟨events, life⟩ := life
  cases life with
  | calling quiet | held quiet => exact ⟨_, rfl⟩
  | _ => simp [Holds] at holds

/-- What the last step of a call or a handle does to its status channel. -/
theorem status_setRecord {record : GoalRecord} {made : GoalChannels} (own : s.made g = some made)
    (ch : ℕ) : (s.setRecord g record).status ch =
      if ch = made.statusTx ∧ State.isOpen (s.board g) = true ∧ State.isOpen record = false then
        { s.status ch with kept := false }
      else s.status ch := by
  simp only [State.setRecord, own, Option.elim_some]
  split
  · next ends =>
      simp only [Bool.and_eq_true, Bool.not_eq_true'] at ends
      rw [State.release, State.status_setStatus]
      by_cases same : ch = made.statusTx
      · subst same
        simp [ends]
      · simp [same]
  · next stays =>
      rw [if_neg]
      simpa using fun _ => stays

theorem status_replace {record : GoalRecord} {made : GoalChannels} (own : s.made g = some made)
    (entry : ∀ channels, (s.board g).channels = some channels →
      channels.statusTx = made.statusTx) :
    (∀ ch, ch ≠ made.statusTx → (s.replace g record).1.status ch = s.status ch) ∧
      ((s.replace g record).1.status made.statusTx).value = (s.status made.statusTx).value ∧
      ((s.replace g record).1.status made.statusTx).kept =
        (if State.isOpen (s.board g) = true ∧ State.isOpen record = false then false
          else (s.status made.statusTx).kept) ∧
      (record.channels ≠ none → ((s.replace g record).1.status made.statusTx).tx =
        (s.status made.statusTx).tx) := by
  have others : ∀ ch, ch ≠ made.statusTx → (s.setRecord g record).status ch = s.status ch := by
    intro ch other
    rw [status_setRecord own, if_neg fun both => other both.1]
  have same := @status_setRecord _ s g record made own made.statusTx
  simp only [true_and] at same
  unfold State.replace
  split
  · next old there gone =>
      have shared := entry old there
      rw [State.close, shared]
      refine ⟨fun ch other => ?_, ?_, ?_, fun kept => absurd gone kept⟩
      · rw [State.status_setStatus, if_neg other]
        exact others ch other
      all_goals
        rw [State.status_setStatus, if_pos rfl]
        dsimp only [State.status_setFeedback]
        rw [same]
        split <;> rfl
  · refine ⟨others, ?_, ?_, fun _ => ?_⟩
    all_goals
      rw [same]
      split <;> rfl

theorem isOpen_of_holds {r : GoalRecord} (holds : Holds r) : State.isOpen r = true := by
  rcases holds with calls | idle | waiting
  · simp [State.isOpen, calls]
  · simp [State.isOpen, idle]
  · simp [State.isOpen, waiting]

/-- Until `result` asks for the result, a call or a handle that goes on has the receiver if it had
it before. -/
theorem holds_iff_of_step {r r' : GoalRecord} {action : BoardAction} {events : List BoardEvent}
    (life : ∃ events, Life events r) (stepped : r.step action = some (r', events))
    (plain : ∀ channels, action ≠ .sendGoal channels)
    (plain' : ∀ channel, action ≠ .feedbackStream channel) (early : action ≠ .terminal)
    (goes : State.isOpen r' = true) : Holds r' ↔ Holds r := by
  obtain ⟨before, life⟩ := life
  cases action with simp only [GoalRecord.step, Option.ite_none_right_eq_some,
      Option.map_eq_some_iff, Option.some.injEq, Prod.mk.injEq] at stepped
  | sendGoal channels => exact absurd rfl (plain channels)
  | feedbackStream channel => exact absurd rfl (plain' channel)
  | terminal => exact absurd rfl early
  | requestSent =>
      obtain ⟨calls, rfl, -⟩ := stepped
      simp [Holds, calls]
  | respond response =>
      obtain ⟨calls, responded⟩ := stepped
      obtain ⟨channels, rfl, -⟩ := life.calling_of calls
      cases response with
      | none =>
          cases responded
          cases goes
      | some response =>
          rw [GoalRecord.respond] at responded
          split at responded <;> cases responded
          · simp [Holds]
          · cases goes
  | result =>
      obtain ⟨holds, rfl, -⟩ := stepped
      simp [Holds, holds]
  | sendFailed | disconnected =>
      obtain ⟨calls, rfl, -⟩ := stepped
      obtain ⟨channels, rfl, -⟩ := life.calling_of calls
      cases goes
  | resultReturns ok =>
      obtain ⟨holds, rfl, -⟩ := stepped
      obtain ⟨channels, rfl, -⟩ := life.held_of holds
      cases goes
  | dropCall =>
      obtain ⟨_, calls, rfl, -⟩ := stepped
      obtain ⟨channels, rfl, -⟩ := life.calling_of calls
      cases goes
  | dropHandle =>
      obtain ⟨_, holds, rfl, -⟩ := stepped
      obtain ⟨channels, rfl, -⟩ := life.held_of holds
      cases goes

theorem made_replace (record : GoalRecord) :
    (s.replace g record).1.made = s.made ∧ (s.replace g record).1.next = s.next := by
  have same : (s.setRecord g record).made = s.made ∧ (s.setRecord g record).next = s.next := by
    unfold State.setRecord
    cases s.made g <;> dsimp only <;> split <;> exact ⟨rfl, rfl⟩
  unfold State.replace
  split <;> exact same

theorem observed_replace (record : GoalRecord) (g' : GoalId) :
    ∀ event ∈ (s.replace g record).2, event.sparesStatus g' = true := by
  unfold State.replace
  split
  · intro event listed
    obtain rfl := List.mem_singleton.mp listed
    rfl
  · exact nofun

theorem StatusInv.replace (inv : StatusInv s trace) {action : BoardAction} {record : GoalRecord}
    {events : List BoardEvent} (life : ∃ events, Life events (s.board g))
    (stepped : (s.board g).step action = some (record, events))
    (plain : ∀ channels, action ≠ .sendGoal channels)
    (plain' : ∀ channel, action ≠ .feedbackStream channel) (early : action ≠ .terminal) :
    StatusInv (s.replace g record).1 (trace ++ (s.replace g record).2) := by
  have board : (s.replace g record).1.board = Function.update s.board g record :=
    replace_board s g record
  have made : ∃ made, s.made g = some made := by
    by_contra unmade
    have undrawn := inv.undrawn g (Option.eq_none_iff_forall_ne_some.mpr fun made own =>
      unmade ⟨made, own⟩)
    rw [undrawn] at stepped
    cases action with
    | sendGoal channels => exact plain channels rfl
    | feedbackStream channel => exact plain' channel rfl
    | _ => cases stepped
  obtain ⟨made, own⟩ := made
  have before := inv.watches g made own
  obtain ⟨others, value, kept, tx⟩ := @status_replace _ s g record made own fun channels there =>
    (before.entry channels there).1
  obtain ⟨unchanged, untaken⟩ := @latest_spared _ trace _ g (@observed_replace _ s g record g)
  refine inv.frame (g := g) ?_ ?_ (fun g' other => ?_) (fun ch other => others ch (other made own))
    (fun g' _ => observed_replace record g') (fun unmade => ?_) fun made' own' => ?_
  · exact (made_replace record).1
  · exact Nat.le_of_eq (made_replace record).2.symm
  · rw [board, Function.update_of_ne other]
  · cases own.symm.trans unmade
  · obtain rfl := Option.some.inj (own.symm.trans own')
    rw [board, Function.update_self, unchanged, untaken]
    refine ⟨fun channels there => ?_, fun keeps => ?_, fun keeps => ?_, fun lost holds => ?_⟩
    · have same := (channels_of_step stepped plain plain').resolve_right (by rw [there]; nofun)
      rw [tx (by rw [there]; nofun)]
      exact before.entry channels (same ▸ there)
    · rw [value]
      refine before.value ?_
      rw [kept] at keeps
      split_ifs at keeps
      exact keeps
    · rw [kept] at keeps
      split_ifs at keeps with ends
      have held := before.holds keeps
      have goes : State.isOpen record = true := by
        by_contra finished
        exact ends ⟨isOpen_of_holds held, Bool.not_eq_true _ ▸ finished⟩
      exact (holds_iff_of_step life stepped plain plain' early goes).mpr held
    · have goes := isOpen_of_holds holds
      rw [kept, if_neg (by simp [goes])] at lost
      exact before.taken lost ((holds_iff_of_step life stepped plain plain' early goes).mp holds)

theorem StatusInv.act (inv : StatusInv s trace) {action : BoardAction}
    (life : ∃ events, Life events (s.board g))
    (acted : s.act g action = some (s', observed)) : StatusInv s' (trace ++ observed) := by
  unfold State.act at acted
  split at acted
  · cases acted
  · cases acted
  · obtain ⟨-, moved⟩ := Option.ite_none_right_eq_some.mp acted
    obtain ⟨⟨record, events⟩, stepped, same⟩ := Option.map_eq_some_iff.mp moved
    obtain ⟨rfl, rfl⟩ := Prod.mk.inj same
    obtain ⟨waiting, same⟩ := Option.ite_none_right_eq_some.mp stepped
    obtain ⟨rfl, -⟩ := Prod.mk.inj (Option.some.inj same)
    have spared : ∀ g', ∀ event ∈ [(.fetching g : Event F)], event.sparesStatus g' = true := by
      simp [Event.sparesStatus]
    refine inv.frame (g := g) ?_ ?_ (fun g' other => Function.update_of_ne other ..)
      (fun ch other => ?_) (fun g' _ => spared g') (fun unmade => ?_) fun made own => ?_
    · unfold State.dropStatusRx
      split <;> rfl
    · exact Nat.le_of_eq (State.next_dropStatusRx s g).symm
    · show (s.dropStatusRx g).status ch = s.status ch
      unfold State.dropStatusRx
      split
      · next made own => exact (State.status_setStatus ..).trans (if_neg (other made own))
      · rfl
    · rw [inv.undrawn g unmade] at waiting
      cases waiting
    · obtain ⟨unchanged, untaken⟩ := @latest_spared _ trace _ g (spared g)
      obtain ⟨before, life⟩ := life
      obtain ⟨channels, there, -⟩ := life.held_of waiting
      have dropped : (s.dropStatusRx g).status made.statusTx =
          { s.status made.statusTx with kept := false } := by
        simp only [State.dropStatusRx, own, State.status_setStatus, if_true]
      dsimp only
      rw [unchanged, untaken, Function.update_self, dropped]
      refine ⟨(inv.watches g made own).entry, nofun, nofun, fun _ holds => ?_⟩
      rw [there] at holds
      simp [Holds] at holds
  · next sendGoal feedbackStream early =>
      obtain ⟨⟨record, events⟩, stepped, same⟩ := Option.map_eq_some_iff.mp acted
      have replaced : s.replace g record = (s', observed) := same
      have kept := inv.replace life stepped sendGoal feedbackStream early
      rwa [replaced] at kept

theorem StatusInv.takeStatus (inv : StatusInv s trace)
    (took : s.takeStatus g = some (s', observed)) : StatusInv s' (trace ++ observed) := by
  obtain ⟨idle, taken⟩ := Option.ite_none_right_eq_some.mp took
  split at taken
  · next made own =>
      split at taken <;> cases taken
      · refine inv.frame (g := g) rfl (Nat.le_refl _) (fun _ _ => rfl) (fun ch other => ?_) ?_ ?_ ?_
        · rw [State.status_setStatus, if_neg (other made own)]
        · intro g' other event listed
          obtain rfl := List.mem_singleton.mp listed
          simpa [Event.sparesStatus] using Ne.symm other
        · intro unmade
          cases own.symm.trans unmade
        · intro made' own'
          obtain rfl := Option.some.inj (own.symm.trans own')
          rw [State.status_setStatus, if_pos rfl]
          refine ⟨(inv.watches g made own).entry, nofun, nofun, fun _ _ => ?_⟩
          exact List.mem_append_right _ List.mem_cons_self
      · rw [List.append_nil]
        exact inv
  · cases taken

theorem StatusInv.statusArrives (inv : StatusInv s trace) (life : ∃ events, Life events (s.board g))
    (status : GoalStatus) :
    StatusInv (s.statusArrives g status).1 (trace ++ (s.statusArrives g status).2) := by
  have spared : ∀ g', g' ≠ g → ∀ event ∈ [(.statusArrived g status : Event F)],
      event.sparesStatus g' = true := by
    intro g' other event listed
    obtain rfl := List.mem_singleton.mp listed
    simpa [Event.sparesStatus] using Ne.symm other
  have newest : latest g (trace ++ [.statusArrived g status]) = status := by
    simp [latest]
  have untaken : .statusTaken g ∈ trace ++ [.statusArrived g status] ↔ .statusTaken g ∈ trace := by
    simp
  cases entry : (s.board g).channels with
  | none =>
      simp only [State.statusArrives, entry]
      refine inv.frame (g := g) rfl (Nat.le_refl _) (fun _ _ => rfl) (fun _ _ => rfl) spared
        (inv.undrawn g) fun made own => ?_
      have before := inv.watches g made own
      rw [untaken]
      refine { before with value := fun kept => ?_ }
      obtain ⟨channels, there⟩ := channels_of_holds life (before.holds kept)
      cases entry.symm.trans there
  | some channels =>
      simp only [State.statusArrives, entry]
      refine inv.frame (g := g) rfl (Nat.le_refl _) (fun _ _ => rfl) (fun ch other => ?_) spared
        (inv.undrawn g) fun made own => ?_
      · obtain ⟨made, own⟩ : ∃ made, s.made g = some made := by
          by_contra unmade
          rw [inv.undrawn g (Option.eq_none_iff_forall_ne_some.mpr fun made own =>
            unmade ⟨made, own⟩)] at entry
          cases entry
        rw [State.status_setStatus, if_neg]
        rw [((inv.watches g made own).entry channels entry).1]
        exact other made own
      · have before := inv.watches g made own
        obtain ⟨same, tx⟩ := before.entry channels entry
        rw [untaken, newest, State.status_setStatus, if_pos same.symm, same]
        split
        · exact ⟨before.entry, fun _ => rfl, before.holds, before.taken⟩
        · next unwatched =>
            refine { before with value := fun kept => ?_ }
            simp [kept] at unwatched

theorem StatusInv.step {label : Label F} (inv : StatusInv s trace)
    (lives : ∀ g, ∃ events, Life events (s.board g))
    (stepped : s.step label = some (s', observed)) : StatusInv s' (trace ++ observed) := by
  cases label with
  | sendGoal g => exact inv.sendGoal stepped
  | feedbackStream g => exact inv.feedbackStream stepped
  | act g action => exact inv.act (lives g) stepped
  | takeStatus g => exact inv.takeStatus stepped
  | statusArrives g status =>
      obtain ⟨rfl, rfl⟩ := Prod.mk.inj (Option.some.inj stepped)
      exact inv.statusArrives (lives g) status
  | takeFeedback g =>
      obtain ⟨-, taken⟩ := Option.ite_none_right_eq_some.mp stepped
      split at taken <;> cases taken
      exact inv.aside rfl rfl rfl (fun _ => ⟨rfl, rfl, rfl⟩) fun _ => nofun
  | statusWatch g =>
      simp only [State.step, State.statusWatch] at stepped
      split at stepped <;> cases stepped
      · refine inv.aside rfl rfl rfl (fun ch => ?_) fun _ => nofun
        rw [State.status_setStatus]
        split
        · next same => exact ⟨by rw [same], by rw [same], by rw [same]⟩
        · exact ⟨rfl, rfl, rfl⟩
      · exact inv.aside rfl rfl rfl (fun _ => ⟨rfl, rfl, rfl⟩) fun _ => nofun
  | recv channel =>
      obtain ⟨-, moved⟩ := Option.ite_none_right_eq_some.mp stepped
      split at moved
      · cases moved
        exact inv.aside rfl rfl rfl (fun _ => ⟨rfl, rfl, rfl⟩) (by simp [Event.sparesStatus])
      · split at moved <;> cases moved
        exact inv.aside rfl rfl rfl (fun _ => ⟨rfl, rfl, rfl⟩) (by simp [Event.sparesStatus])
  | dropFeedback channel =>
      obtain ⟨-, same⟩ := Option.ite_none_right_eq_some.mp stepped
      cases same
      exact inv.aside rfl rfl rfl (fun _ => ⟨rfl, rfl, rfl⟩) fun _ => nofun
  | dropStatus channel =>
      obtain ⟨-, same⟩ := Option.ite_none_right_eq_some.mp stepped
      cases same
      refine inv.aside rfl rfl rfl (fun ch => ?_) fun _ => nofun
      rw [State.status_setStatus]
      split
      · next same => exact ⟨by rw [same], by rw [same], by rw [same]⟩
      · exact ⟨rfl, rfl, rfl⟩
  | feedbackArrives g feedback =>
      simp only [State.step, State.feedbackArrives] at stepped
      split at stepped <;> cases stepped
      all_goals
        exact inv.aside rfl rfl rfl (fun _ => ⟨rfl, rfl, rfl⟩) (by simp [Event.sparesStatus])

variable {c : Config (State F) (Event F)}

theorem statusInv_of_reachable (reached : (goalStreams F).Reachable Machine.anyStep c) :
    StatusInv c.state c.trace := by
  suffices both : (goalStreams F).Reachable Machine.anyStep c ∧ StatusInv c.state c.trace
    from both.2
  refine reached.invariant (P := fun c : Config (State F) (Event F) =>
    (goalStreams F).Reachable Machine.anyStep c ∧ StatusInv c.state c.trace) ⟨.refl, ?_⟩ ?_
  · exact ⟨fun g _ => rfl, nofun, nofun, nofun⟩
  · rintro c label c' ⟨reached, inv⟩ meets moved
    refine ⟨reached.step meets moved, ?_⟩
    obtain ⟨observed, stepped, grown⟩ := Machine.next_eq_some moved
    rw [grown]
    exact inv.step (exists_life reached) stepped

/-- **The handle sees the last status.**  As long as the call of `send_goal` or the handle, or
`result` while it waits, has the receiver, the status channel of the goal has the last status that
has arrived for the goal, and the sender is in the entry. -/
theorem status_latest (F : Type) (c : Config (State F) (Event F))
    (reached : (goalStreams F).Reachable Machine.anyStep c) (g : GoalId) (made : GoalChannels)
    (own : c.state.made g = some made) (kept : (c.state.status made.statusTx).kept = true) :
    (c.state.status made.statusTx).value = latest g c.trace ∧
      (c.state.status made.statusTx).tx = true := by
  have watches := (statusInv_of_reachable reached).watches g made own
  obtain ⟨channels, there⟩ := channels_of_holds (exists_life reached g) (watches.holds kept)
  exact ⟨watches.value kept, (watches.entry channels there).2⟩

theorem exists_statusArrived {trace : List (Event F)}
    (finished : (latest g trace).isTerminal = true) :
    ∃ status, .statusArrived g status ∈ trace ∧ status.isTerminal = true := by
  refine List.foldlRecOn trace _ (motive := fun status : GoalStatus => status.isTerminal = true →
    ∃ status, .statusArrived g status ∈ trace ∧ status.isTerminal = true)
    (fun finished => by cases finished) ?_ finished
  intro status earlier event listed finished
  cases event with
  | sent g' =>
      dsimp only at finished
      split at finished
      · cases finished
      · exact earlier finished
  | statusArrived g' new =>
      dsimp only at finished
      split at finished
      · next own => exact ⟨new, own ▸ listed, finished⟩
      · exact earlier finished
  | _ => exact earlier finished

/-- What asks for the result is `result` that goes on. -/
theorem fetching_of_step {label : Label F} (stepped : s.step label = some (s', observed))
    (fetches : .fetching g ∈ observed) :
    observed = [.fetching g] ∧ s.goesOn g = true ∧ (s.board g).handle = some .waiting := by
  cases label with
  | act g' action =>
      simp only [State.step, State.act] at stepped
      split at stepped
      · cases stepped
      · cases stepped
      · obtain ⟨goes, moved⟩ := Option.ite_none_right_eq_some.mp stepped
        obtain ⟨⟨record, events⟩, ran, same⟩ := Option.map_eq_some_iff.mp moved
        obtain ⟨-, rfl⟩ := Prod.mk.inj same
        obtain rfl := Event.fetching.inj (List.mem_singleton.mp fetches)
        exact ⟨rfl, goes, (Option.ite_none_right_eq_some.mp ran).1⟩
      · obtain ⟨⟨record, events⟩, -, same⟩ := Option.map_eq_some_iff.mp stepped
        have replaced : s.replace g' record = (s', observed) := same
        unfold State.replace at replaced
        split at replaced <;> cases replaced
        · cases List.mem_singleton.mp fetches
        · cases fetches
  | sendGoal g' =>
      obtain ⟨_, -, same⟩ := Option.map_eq_some_iff.mp stepped
      cases same
      simp at fetches
  | feedbackStream g' =>
      simp only [State.step, State.feedbackStream] at stepped
      split at stepped
      · obtain ⟨_, -, same⟩ := Option.map_eq_some_iff.mp stepped
        cases same
        simp at fetches
      · cases stepped
        cases fetches
  | takeFeedback g' =>
      obtain ⟨-, taken⟩ := Option.ite_none_right_eq_some.mp stepped
      split at taken <;> cases taken
      cases fetches
  | takeStatus g' =>
      obtain ⟨-, taken⟩ := Option.ite_none_right_eq_some.mp stepped
      split at taken
      · split at taken <;> cases taken <;> simp at fetches
      · cases taken
  | statusWatch g' =>
      simp only [State.step, State.statusWatch] at stepped
      split at stepped <;> cases stepped <;> cases fetches
  | recv channel =>
      obtain ⟨-, moved⟩ := Option.ite_none_right_eq_some.mp stepped
      split at moved
      · cases moved
        simp at fetches
      · split at moved <;> cases moved
        simp at fetches
  | dropFeedback channel | dropStatus channel =>
      obtain ⟨-, same⟩ := Option.ite_none_right_eq_some.mp stepped
      cases same
      cases fetches
  | feedbackArrives g' feedback =>
      simp only [State.step, State.feedbackArrives] at stepped
      split at stepped <;> cases stepped <;> simp at fetches
  | statusArrives g' status =>
      simp only [State.step, State.statusArrives] at stepped
      split at stepped <;> cases stepped <;> simp at fetches

/-- When `result` goes on, the goal has come to its end or nobody watches for it. -/
theorem StatusInv.goesOn (inv : StatusInv s trace) (life : ∃ events, Life events (s.board g))
    (goes : s.goesOn g = true) (waiting : (s.board g).handle = some .waiting) :
    .statusTaken g ∈ trace ∨ ∃ status, .statusArrived g status ∈ trace ∧
      status.isTerminal = true := by
  have holds : Holds (s.board g) := .inr (.inr waiting)
  unfold State.goesOn at goes
  split at goes
  · next made own =>
      have watches := inv.watches g made own
      cases kept : (s.status made.statusTx).kept with
      | false => exact .inl (watches.taken kept holds)
      | true =>
          obtain ⟨channels, there⟩ := channels_of_holds life holds
          simp only [kept, (watches.entry channels there).2, Bool.not_true, Bool.false_or,
            Bool.or_false] at goes
          exact .inr (exists_statusArrived (watches.value kept ▸ goes))
  · cases goes

/-- **The result is asked for after the end.**  `result` asks for the result only when a terminal
status has arrived for the goal or the caller has taken the receiver of the status. -/
theorem fetching_afterTerminal (F : Type) (c : Config (State F) (Event F))
    (reached : (goalStreams F).Reachable Machine.anyStep c) (g : GoalId)
    (before after : List (Event F)) (fetches : c.trace = before ++ .fetching g :: after) :
    .statusTaken g ∈ before ∨ ∃ status, .statusArrived g status ∈ before ∧
      status.isTerminal = true := by
  suffices both : (goalStreams F).Reachable Machine.anyStep c ∧ ∀ before after,
      c.trace = before ++ .fetching g :: after → .statusTaken g ∈ before ∨
        ∃ status, .statusArrived g status ∈ before ∧ status.isTerminal = true from
    both.2 before after fetches
  clear fetches before after
  refine reached.invariant (P := fun c : Config (State F) (Event F) =>
    (goalStreams F).Reachable Machine.anyStep c ∧ ∀ before after,
      c.trace = before ++ .fetching g :: after → .statusTaken g ∈ before ∨
        ∃ status, .statusArrived g status ∈ before ∧ status.isTerminal = true) ⟨.refl, ?_⟩ ?_
  · intro before after fetches
    simp [Machine.start] at fetches
  · rintro c label c' ⟨reached, earlier⟩ meets moved
    refine ⟨reached.step meets moved, fun before after fetches => ?_⟩
    obtain ⟨observed, stepped, grown⟩ := Machine.next_eq_some moved
    rw [grown] at fetches
    rcases split_append fetches with ⟨after', same⟩ | ⟨before', rfl, new⟩
    · exact earlier before after' same
    · obtain ⟨single, goes, waiting⟩ := fetching_of_step stepped (g := g) (by simp [new])
      have first : before' = [] := by
        rw [single] at new
        cases before' with
        | nil => rfl
        | cons _ _ => simp at new
      rw [first, List.append_nil]
      exact (statusInv_of_reachable reached).goesOn (exists_life reached g) goes waiting


end Status

/-! ## A goal with two streams -/

/-- The caller takes the feedback of a goal, asks for a new stream later, and reads both to their
ends; feedback for another goal comes in between. -/
def twoStreams : List (Label ℕ) :=
  [.sendGoal demoGoal, .feedbackArrives otherGoal 9, .act demoGoal .requestSent,
    .act demoGoal (.respond (some ⟨true, 0, 0⟩)), .feedbackArrives demoGoal 1,
    .takeFeedback demoGoal, .feedbackArrives demoGoal 2, .recv 0, .feedbackStream demoGoal,
    .feedbackArrives demoGoal 3, .recv 0, .recv 0, .recv 1]

theorem feedback_exact_twoStreams :
    ∃ c, (goalStreams ℕ).Reachable Machine.anyStep c ∧ .ended 0 ∈ c.trace ∧
      due c.trace 0 = [1, 2] ∧ received 0 c.trace = due c.trace 0 := by
  obtain ⟨c, reached, seen⟩ := (goalStreams ℕ).exists_of_schedule Machine.anyStep twoStreams
    (fun c => decide (.ended 0 ∈ c.trace ∧ due c.trace 0 = [1, 2])) true (by decide +kernel)
  obtain ⟨finished, carried⟩ := of_decide_eq_true seen
  exact ⟨c, reached, finished, carried, ((feedback_exact ℕ c reached 0).2.2 finished)⟩

/-- The handle waits for the end of the goal and then asks for the result. -/
def waitsForEnd : List (Label ℕ) :=
  [.sendGoal demoGoal, .act demoGoal .requestSent, .statusArrives demoGoal .executing,
    .act demoGoal (.respond (some ⟨true, 0, 0⟩)), .act demoGoal .result,
    .statusArrives otherGoal .aborted, .statusArrives demoGoal .succeeded]

theorem status_latest_waitsForEnd :
    ∃ c, (goalStreams ℕ).Reachable Machine.anyStep c ∧
      (c.state.status 0).value = latest demoGoal c.trace ∧
      latest demoGoal c.trace = .succeeded := by
  obtain ⟨c, reached, seen⟩ := (goalStreams ℕ).exists_of_schedule Machine.anyStep waitsForEnd
    (fun c => decide (c.state.made demoGoal = some ⟨0, 0⟩ ∧ (c.state.status 0).kept = true ∧
      latest demoGoal c.trace = .succeeded)) true (by decide +kernel)
  obtain ⟨own, kept, last⟩ := of_decide_eq_true seen
  exact ⟨c, reached, (status_latest ℕ c reached demoGoal ⟨0, 0⟩ own kept).1, last⟩

theorem fetching_afterTerminal_waitsForEnd :
    ∃ c, (goalStreams ℕ).Reachable Machine.anyStep c ∧ ∃ before,
      c.trace = before ++ [.fetching demoGoal] ∧
      ∃ status, .statusArrived demoGoal status ∈ before ∧ status.isTerminal = true := by
  obtain ⟨c, reached, seen⟩ := (goalStreams ℕ).exists_of_schedule Machine.anyStep
    (waitsForEnd ++ [.act demoGoal .terminal])
    (fun c => decide (c.trace = c.trace.dropLast ++ [.fetching demoGoal] ∧
      .statusTaken demoGoal ∉ c.trace)) true (by decide +kernel)
  obtain ⟨fetches, untaken⟩ := of_decide_eq_true seen
  refine ⟨c, reached, c.trace.dropLast, fetches, ?_⟩
  refine (fetching_afterTerminal ℕ c reached demoGoal _ [] fetches).resolve_left fun taken => ?_
  exact untaken ((List.dropLast_sublist _).subset taken)

end RosZ.Action.GoalStreams
