import Mathlib.Data.List.Basic
import RosZ.Lib.Machine
import RosZ.Lib.PartialMap

/-!
# New-data callbacks

A subscription, a service and a client each tell the executor of new data through a callback that
`rmw_*_set_on_new_*_callback` installs.  Three mutexes guard the callback, its user data and the
number of arrivals that nobody was told of; `unread` arrivals are reported when a callback is
installed.

## Design notes

An arrival and its notification are two steps, since the data are queued before the notification
takes the lock of the callback.  What runs under that lock is one step.  A set call is a sequence
of sections, each of which holds one lock at a time or one inside the other; a subscription stores
the user data first and then flushes and installs under one lock, a service or a client flushes,
installs and stores the user data under three.  Any number of arrivals and set calls may be under
way.

The model keeps with an installed callback the user data it was registered with.  The program does
not, and no step reads it; it says what an invocation ought to pass.
-/

namespace RosZ.Rmw

open Transition

/-- The entities that have a new-data callback. -/
inductive EntityKind where
  | subscription | service | client
deriving DecidableEq, Repr

namespace DataCallback

/-- A function pointer. -/
abbrev CallbackFn := ℕ

abbrev SetId := ℕ

/-- A callback and the user data it was registered with. -/
structure Registration where
  callback : CallbackFn
  userData : ℕ
deriving DecidableEq, Repr

/-- What the three mutexes guard. -/
structure Holders where
  callback : Option Registration
  /-- A pointer, zero at first. -/
  callbackUserData : ℕ
  unreadCount : ℕ

/-- What a set call is about to do. -/
inductive SetPhase where
  /-- Store the user data, before the callback of a subscription. -/
  | storeFirst (callback : Option CallbackFn) (userData : ℕ)
  /-- Flush and install under the lock of the callback. -/
  | flushAndInstall (callback : Option CallbackFn) (userData : ℕ)
  /-- Flush, for the new callback of a service or a client. -/
  | flush (callback : CallbackFn) (userData : ℕ)
  | install (callback : CallbackFn) (userData : ℕ)
  | clear
  /-- Store the user data and return. -/
  | storeLast (userData : ℕ)
deriving DecidableEq, Repr

structure State where
  holders : Holders
  /-- The arrivals whose notification is to come. -/
  inProgress : ℕ
  setters : SetId → Option SetPhase
  nextSetter : SetId

inductive Label where
  | arrive
  /-- The notification of an arrival. -/
  | notify
  | set (callback : Option CallbackFn) (userData : ℕ)
  | advance (setter : SetId)

inductive Event where
  | arrived
  /-- A callback is called with the user data and the number of new arrivals. -/
  | invoked (registration : Registration) (userData : ℕ) (count : ℕ)
deriving DecidableEq

/-! ## The sections -/

/-- `notify_callback`, under the lock of the callback. -/
def Holders.notify (h : Holders) : Holders × List Event :=
  match h.callback with
  | some registration => (h, [.invoked registration h.callbackUserData 1])
  | none => ({ h with unreadCount := h.unreadCount + 1 }, [])

/-- The callback is told of the unread arrivals, if there are any. -/
def Holders.flush (h : Holders) (callback : CallbackFn) (userData : ℕ) : Holders × List Event :=
  if 0 < h.unreadCount then
    ({ h with unreadCount := 0 }, [.invoked ⟨callback, userData⟩ userData h.unreadCount])
  else (h, [])

/-- The phase in which a set call begins. -/
def SetPhase.first (kind : EntityKind) (callback : Option CallbackFn) (userData : ℕ) : SetPhase :=
  match kind, callback with
  | .subscription, _ => .storeFirst callback userData
  | _, some fn => .flush fn userData
  | _, none => .clear

/-- One section of a set call, and what comes after it. -/
def SetPhase.run (h : Holders) : SetPhase → Holders × List Event × Option SetPhase
  | .storeFirst callback userData =>
      ({ h with callbackUserData := userData }, [], some (.flushAndInstall callback userData))
  | .flushAndInstall callback userData =>
      match callback with
      | some fn =>
          let (h, events) := h.flush fn userData
          ({ h with callback := some ⟨fn, userData⟩ }, events, none)
      | none => ({ h with callback := none }, [], none)
  | .flush callback userData =>
      let (h, events) := h.flush callback userData
      (h, events, some (.install callback userData))
  | .install callback userData =>
      ({ h with callback := some ⟨callback, userData⟩ }, [], some (.storeLast userData))
  | .clear => ({ h with callback := none }, [], some (.storeLast 0))
  | .storeLast userData => ({ h with callbackUserData := userData }, [], none)

namespace State

/-- The result of a step: the state after it and what is observed of it. -/
abbrev After : Type := State × List Event

def arrive (s : State) : After := ({ s with inProgress := s.inProgress + 1 }, [.arrived])

def notify (s : State) : Option After :=
  match s.inProgress with
  | 0 => none
  | inProgress + 1 =>
      let (holders, events) := s.holders.notify
      some ({ s with holders, inProgress }, events)

def set (kind : EntityKind) (s : State) (callback : Option CallbackFn) (userData : ℕ) : State :=
  { s with
    setters := Function.update s.setters s.nextSetter (some (.first kind callback userData))
    nextSetter := s.nextSetter + 1 }

def advance (s : State) (setter : SetId) : Option After :=
  match s.setters setter with
  | some phase =>
      let (holders, events, next) := phase.run s.holders
      some ({ s with holders, setters := Function.update s.setters setter next }, events)
  | none => none

def step (kind : EntityKind) (s : State) : Label → Option After
  | .arrive => some s.arrive
  | .notify => s.notify
  | .set callback userData => some (s.set kind callback userData, [])
  | .advance setter => s.advance setter

end State

/-- An entity of the given kind, on which no callback has been set. -/
def entity (kind : EntityKind) : Machine State Label Event where
  init :=
    { holders := { callback := none, callbackUserData := 0, unreadCount := 0 }
      inProgress := 0
      setters := fun _ => none
      nextSetter := 0 }
  step := State.step kind

/-! ## Accounts -/

/-- The number of arrivals. -/
def arrivals (trace : List Event) : ℕ := trace.count .arrived

/-- The number of arrivals that callbacks were told of. -/
def delivered : List Event → ℕ
  | [] => 0
  | .arrived :: later => delivered later
  | .invoked _ _ count :: later => count + delivered later

/-- **What the callbacks are to account for**, `c` being the state and the history so far. -/
structure Accounts (c : Config State Event) : Prop where
  balance : arrivals c.trace =
    delivered c.trace + c.state.holders.unreadCount + c.state.inProgress
  /-- No arrival is left unread with a callback installed and no set call under way. -/
  read : c.state.holders.callback.isSome = true →
    (∀ id, id < c.state.nextSetter → c.state.setters id = none) →
    c.state.holders.unreadCount = 0
  /-- Each invocation passes the user data that its callback was registered with. -/
  passes : ∀ registration userData count, .invoked registration userData count ∈ c.trace →
    userData = registration.userData

/-- A set call is between its flush and its installation. -/
def State.flushed (s : State) (id : SetId) : Bool :=
  match s.setters id with
  | some (.install _ _) => true
  | _ => false

/-- A notification finds the user data of the callback that is installed; or it finds none, and
no set call has flushed and not installed yet. -/
def Undisturbed (c : Config State Event) : Label → Prop
  | .notify =>
      match c.state.holders.callback with
      | some registration => c.state.holders.callbackUserData = registration.userData
      | none => ∀ id, id < c.state.nextSetter → c.state.flushed id = false
  | _ => True

instance : DecidableRel Undisturbed := by
  intro c label
  unfold Undisturbed
  split
  · split <;> infer_instance
  · infer_instance

/-! ## What a section does -/

section Sections

variable {h h' : Holders} {events : List Event} {next : Option SetPhase}

@[simp] theorem arrivals_append (trace observed : List Event) :
    arrivals (trace ++ observed) = arrivals trace + arrivals observed :=
  List.count_append

@[simp] theorem delivered_append (trace observed : List Event) :
    delivered (trace ++ observed) = delivered trace + delivered observed := by
  induction trace with
  | nil => exact (Nat.zero_add _).symm
  | cons event later ih =>
      cases event with
      | arrived => exact ih
      | invoked registration userData count =>
          show count + delivered (later ++ observed) = count + delivered later + _
          rw [ih, Nat.add_assoc]

/-- Every invocation among the events passes the user data of its callback. -/
def Passing (events : List Event) : Prop :=
  ∀ registration userData count, .invoked registration userData count ∈ events →
    userData = registration.userData

theorem Passing.append {first second : List Event} (passing : Passing first)
    (passing' : Passing second) : Passing (first ++ second) := by
  intro registration userData count member
  rcases List.mem_append.mp member with before | now
  · exact passing registration userData count before
  · exact passing' registration userData count now

theorem passing_nil : Passing [] := by
  intro registration userData count member
  cases member

/-- What a section of a set call does: unread arrivals stay unread or are reported, with the right
user data, and when there are none there will be none. -/
structure Reported (h h' : Holders) (events : List Event) : Prop where
  quiet : arrivals events = 0
  balance : delivered events + h'.unreadCount = h.unreadCount
  passing : Passing events

theorem Reported.refl {callback : Option Registration} {userData : ℕ} :
    Reported h ⟨callback, userData, h.unreadCount⟩ [] :=
  ⟨rfl, Nat.zero_add _, passing_nil⟩

theorem Reported.unread_le (reported : Reported h h' events) : h'.unreadCount ≤ h.unreadCount := by
  rw [← reported.balance]
  exact Nat.le_add_left _ _

/-- A flush reports all that is unread. -/
theorem reported_flush (h : Holders) (callback : CallbackFn) (userData : ℕ) :
    Reported h (h.flush callback userData).1 (h.flush callback userData).2 ∧
      (h.flush callback userData).1.unreadCount = 0 := by
  unfold Holders.flush
  split
  · refine ⟨⟨rfl, rfl, ?_⟩, rfl⟩
    intro registration userData' count member
    obtain ⟨rfl, rfl, -⟩ := Event.invoked.inj (List.mem_singleton.mp member)
    rfl
  · next none => exact ⟨.refl, Nat.eq_zero_of_not_pos none⟩

theorem reported_run {phase : SetPhase} (ran : phase.run h = (h', events, next)) :
    Reported h h' events := by
  cases phase with
  | storeFirst callback userData | install callback userData | storeLast userData =>
      cases ran
      exact .refl
  | clear =>
      cases ran
      exact .refl
  | flushAndInstall callback userData =>
      cases callback with
      | none =>
          cases ran
          exact .refl
      | some fn =>
          cases ran
          obtain ⟨quiet, balance, passing⟩ := (reported_flush h fn userData).1
          exact ⟨quiet, balance, passing⟩
  | flush callback userData =>
      cases ran
      exact (reported_flush h callback userData).1

/-- Nothing is unread when a set call is about to install after its flush. -/
theorem unread_of_next_install {phase : SetPhase} {callback : CallbackFn} {userData : ℕ}
    (ran : phase.run h = (h', events, some (.install callback userData))) : h'.unreadCount = 0 := by
  cases phase with
  | flush callback userData =>
      cases ran
      exact (reported_flush h callback userData).2
  | flushAndInstall callback userData => cases callback <;> cases ran
  | _ => cases ran

/-- A callback is found installed with nothing unread, if that held before and of an installation
to come. -/
theorem unread_of_run {phase : SetPhase} (ran : phase.run h = (h', events, next))
    (read : h.callback.isSome = true → h.unreadCount = 0)
    (flushed : ∀ callback userData, phase = .install callback userData → h.unreadCount = 0)
    (installed : h'.callback.isSome = true) : h'.unreadCount = 0 := by
  cases phase with
  | storeFirst callback userData | storeLast userData =>
      cases ran
      exact read installed
  | clear =>
      cases ran
      cases installed
  | install callback userData =>
      cases ran
      exact flushed callback userData rfl
  | flushAndInstall callback userData =>
      cases callback with
      | none =>
          cases ran
          cases installed
      | some fn =>
          cases ran
          exact (reported_flush h fn userData).2
  | flush callback userData =>
      cases ran
      exact (reported_flush h callback userData).2

end Sections

/-! ## Runs -/

/-- What holds of the state in runs whose notifications meet the condition. -/
structure Steady (s : State) : Prop where
  fresh : ∀ id phase, s.setters id = some phase → id < s.nextSetter
  read : s.holders.callback.isSome = true → s.holders.unreadCount = 0
  flushed : ∀ id callback userData, s.setters id = some (.install callback userData) →
    s.holders.unreadCount = 0

section Runs

variable {kind : EntityKind} {s s' : State} {label : Label} {trace observed : List Event}

theorem advance_eq_some {setter : SetId} (stepped : s.advance setter = some (s', observed)) :
    ∃ phase holders next, s.setters setter = some phase ∧
      phase.run s.holders = (holders, observed, next) ∧
      s' = { s with holders, setters := Function.update s.setters setter next } := by
  unfold State.advance at stepped
  split at stepped
  · next phase found =>
      cases stepped
      exact ⟨phase, _, _, found, rfl, rfl⟩
  · cases stepped

/-- The arrivals add up after every step, whatever the interleaving. -/
theorem balance_step (stepped : s.step kind label = some (s', observed))
    (balance : arrivals trace = delivered trace + s.holders.unreadCount + s.inProgress) :
    arrivals (trace ++ observed) =
      delivered (trace ++ observed) + s'.holders.unreadCount + s'.inProgress := by
  rw [arrivals_append, delivered_append, balance]
  cases label with
  | arrive =>
      cases stepped
      show _ + 1 = _ + 0 + s.holders.unreadCount + (s.inProgress + 1)
      omega
  | notify =>
      simp only [State.step, State.notify, Holders.notify] at stepped
      split at stepped
      · cases stepped
      · next inProgress due =>
          rw [due]
          split at stepped <;> cases stepped
          · show _ + 0 = _ + 1 + s.holders.unreadCount + inProgress
            omega
          · show _ + 0 = _ + 0 + (s.holders.unreadCount + 1) + inProgress
            omega
  | set callback userData =>
      cases stepped
      rfl
  | advance setter =>
      obtain ⟨phase, holders, next, -, ran, rfl⟩ := advance_eq_some stepped
      have reported := reported_run ran
      show _ + arrivals observed = _ + delivered observed + holders.unreadCount + s.inProgress
      rw [reported.quiet, ← reported.balance]
      omega

/-- An invocation by a notification passes the right user data under the condition. -/
theorem passing_step (meets : Undisturbed ⟨s, trace⟩ label)
    (stepped : s.step kind label = some (s', observed)) : Passing observed := by
  cases label with
  | arrive =>
      cases stepped
      intro registration userData count member
      simp at member
  | notify =>
      simp only [State.step, State.notify, Holders.notify] at stepped
      split at stepped
      · cases stepped
      · split at stepped <;> cases stepped
        · next registration installed =>
            intro registration' userData count member
            obtain ⟨rfl, rfl, -⟩ := Event.invoked.inj (List.mem_singleton.mp member)
            simpa only [Undisturbed, installed] using meets
        · exact passing_nil
  | set callback userData =>
      cases stepped
      exact passing_nil
  | advance setter =>
      obtain ⟨phase, holders, next, -, ran, -⟩ := advance_eq_some stepped
      exact (reported_run ran).passing

theorem Steady.advance {setter : SetId} (steady : Steady s)
    (stepped : s.advance setter = some (s', observed)) : Steady s' := by
  obtain ⟨phase, holders, next, found, ran, rfl⟩ := advance_eq_some stepped
  refine ⟨fun id phase' found' => ?_, fun installed => ?_, fun id callback userData found' => ?_⟩
  · rcases PartialMap.update_eq_some_iff.mp found' with ⟨rfl, -⟩ | ⟨-, before⟩
    · exact steady.fresh id phase found
    · exact steady.fresh id phase' before
  · refine unread_of_run ran steady.read (fun callback userData flushed => ?_) installed
    exact steady.flushed setter callback userData (flushed ▸ found)
  · rcases PartialMap.update_eq_some_iff.mp found' with ⟨-, now⟩ | ⟨-, before⟩
    · exact unread_of_next_install (now ▸ ran)
    · have none := steady.flushed id callback userData before
      exact Nat.eq_zero_of_le_zero (none ▸ (reported_run ran).unread_le)

theorem Steady.notify (steady : Steady s) (meets : Undisturbed ⟨s, trace⟩ .notify)
    (stepped : s.notify = some (s', observed)) : Steady s' := by
  simp only [State.notify, Holders.notify] at stepped
  split at stepped
  · cases stepped
  · split at stepped <;> cases stepped
    · exact ⟨steady.fresh, steady.read, steady.flushed⟩
    · next missing =>
        refine ⟨steady.fresh, fun installed => ?_, fun id callback userData found => ?_⟩
        · have present : s.holders.callback.isSome = true := installed
          rw [missing] at present
          cases present
        · simp only [Undisturbed, missing] at meets
          have early := meets id (steady.fresh id _ found)
          rw [State.flushed, show s.setters id = _ from found] at early
          cases early

theorem Steady.set (steady : Steady s) (callback : Option CallbackFn) (userData : ℕ) :
    Steady (s.set kind callback userData) := by
  refine ⟨fun id phase found => ?_, steady.read, fun id callback' userData' found => ?_⟩
  · rcases PartialMap.update_eq_some_iff.mp found with ⟨rfl, -⟩ | ⟨-, before⟩
    · exact Nat.lt_succ_self _
    · exact Nat.lt_succ_of_lt (steady.fresh id phase before)
  · rcases PartialMap.update_eq_some_iff.mp found with ⟨-, now⟩ | ⟨-, before⟩
    · cases kind <;> cases callback <;> cases now
    · exact steady.flushed id callback' userData' before

theorem Steady.step (steady : Steady s) (meets : Undisturbed ⟨s, trace⟩ label)
    (stepped : s.step kind label = some (s', observed)) : Steady s' := by
  cases label with
  | arrive =>
      cases stepped
      exact ⟨steady.fresh, steady.read, steady.flushed⟩
  | notify => exact steady.notify meets stepped
  | set callback userData =>
      cases stepped
      exact steady.set callback userData
  | advance setter => exact steady.advance stepped

/-- Arrivals add up in every run. -/
theorem balance_of_reachable {c : Config State Event}
    (reached : (entity kind).Reachable Machine.anyStep c) : arrivals c.trace =
      delivered c.trace + c.state.holders.unreadCount + c.state.inProgress := by
  refine reached.invariant (P := fun c => arrivals c.trace =
    delivered c.trace + c.state.holders.unreadCount + c.state.inProgress) rfl ?_
  intro c label c' balance _ moved
  obtain ⟨observed, stepped, grown⟩ := Machine.next_eq_some moved
  rw [grown]
  exact balance_step stepped balance

end Runs

/-- A callback is replaced on a subscription: data arrive after the new user data is stored. -/
def replacesCallback : List Label :=
  [.set (some 1) 7, .advance 0, .advance 0, .set (some 2) 8, .advance 1, .arrive, .notify]

/-- A request arrives between the flush and the installation of a callback. -/
def arrivesAfterFlush : List Label :=
  [.set (some 1) 7, .advance 0, .arrive, .notify, .advance 0, .advance 0]

/-- The request stays unread. -/
theorem unread_arrivesAfterFlush {kind : EntityKind} (separate : kind ≠ .subscription) :
    ∃ c, (entity kind).Reachable Machine.anyStep c ∧ c.state.holders.callback.isSome = true ∧
      (c.state.nextSetter = 1 ∧ c.state.setters 0 = none) ∧ c.state.holders.unreadCount = 1 := by
  obtain ⟨c, reached, seen⟩ := Machine.exists_of_schedule (entity kind) Machine.anyStep
    arrivesAfterFlush (fun c => (c.state.holders.callback.isSome,
      (c.state.nextSetter, c.state.setters 0), c.state.holders.unreadCount)) (true, (1, none), 1)
    (by
      cases kind with
      | subscription => exact absurd rfl separate
      | service | client => rfl)
  simp only [Prod.mk.injEq] at seen
  exact ⟨c, reached, seen⟩

/-- The accounts fail for each kind of entity: a subscription passes the user data of the next
callback to the present one, a service or a client leaves an arrival unread. -/
theorem exists_unaccounted (kind : EntityKind) :
    ¬ ∀ c, (entity kind).Reachable Machine.anyStep c → Accounts c := by
  intro always
  by_cases same : kind = .subscription
  · subst same
    obtain ⟨c, reached, seen⟩ := Machine.exists_of_schedule (entity .subscription)
      Machine.anyStep replacesCallback Config.trace [.arrived, .invoked ⟨1, 7⟩ 8 1]
      (by decide +kernel)
    have passes := (always c reached).passes ⟨1, 7⟩ 8 1 (seen ▸ by decide)
    exact absurd passes (by decide)
  · obtain ⟨c, reached, installed, ⟨one, returned⟩, unread⟩ := unread_arrivesAfterFlush same
    have read : c.state.holders.unreadCount = 0 := by
      refine (always c reached).read installed fun id early => ?_
      rw [one] at early
      rw [Nat.lt_one_iff.mp early]
      exact returned
    rw [unread] at read
    cases read

end DataCallback

end RosZ.Rmw
