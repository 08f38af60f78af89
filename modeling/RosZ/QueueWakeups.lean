import RosZ.Lib.Machine
import RosZ.Queue

/-!
# Wake-ups of asynchronous receivers

A receiver of a `BoundedQueue` registers a listener, looks for an item, and waits for its listener
to be notified when there is none.  A push notifies one listener.

## Design notes

The notification saturates: `notify(1)` does nothing when some listener is notified already.  Which
listener it picks otherwise is a choice of the label.  A listener that is dropped while it is
notified passes its notification on, be it that the receiver was dropped while it waited, or that
it returns with an item and its listener was notified in the meantime.

A receiver holds no lock while it registers its listener or drops it, so these are steps of their
own; looking for an item is a critical section, and so is a push with its notification.
-/

namespace RosZ

namespace BoundedQueue

open Transition

variable {α : Type*}

/-- Where a call of `recv_async` stands, and whether its listener is notified. -/
inductive Receiver where
  /-- About to register a listener. -/
  | starting
  /-- About to look for an item. -/
  | checking (notified : Bool)
  /-- About to drop its listener and to return the item it has taken. -/
  | returning (notified : Bool)
  | waiting (notified : Bool)
deriving DecidableEq, Repr

namespace Receiver

/-- Has a listener that is notified. -/
def notified : Receiver → Bool
  | .starting => false
  | .checking n | .returning n | .waiting n => n

/-- Has a listener that is not notified. -/
def listening : Receiver → Bool
  | .starting => false
  | .checking n | .returning n | .waiting n => !n

/-- The receiver after its listener is notified. -/
def notify : Receiver → Receiver
  | .starting => .starting
  | .checking _ => .checking true
  | .returning _ => .returning true
  | .waiting _ => .waiting true

end Receiver

/-- Notify one listener unless some listener is notified already; `target` is the receiver whose
listener is picked. -/
def notify (receivers : List Receiver) (target : Option ℕ) : Option (List Receiver) :=
  if receivers.any Receiver.notified || !receivers.any Receiver.listening then
    if target = none then some receivers else none
  else do
    let i ← target
    let receiver ← receivers[i]?
    if receiver.listening then some (receivers.set i receiver.notify) else none

/-- Drop the listener of a receiver that is done: a notification it has is passed on. -/
def dropListener (receivers : List Receiver) (i : ℕ) (receiver : Receiver) (target : Option ℕ) :
    Option (List Receiver) :=
  if receiver.notified then notify (receivers.eraseIdx i) target
  else if target = none then some (receivers.eraseIdx i) else none

/-- A queue and the receivers that are under way. -/
structure Shared (α : Type*) where
  queue : BoundedQueue α
  receivers : List Receiver

inductive Label (α : Type*) where
  /-- Somebody polls a new `recv_async`. -/
  | start
  | listen (i : ℕ)
  | check (i : ℕ)
  | finish (i : ℕ) (target : Option ℕ)
  /-- A waiting receiver whose listener is notified goes on. -/
  | wake (i : ℕ)
  /-- A waiting receiver is dropped. -/
  | drop (i : ℕ) (target : Option ℕ)
  | push (item : α) (target : Option ℕ)
  | tryRecv
deriving DecidableEq, Repr

namespace Shared

/-- One step of a receiver, of a producer or of somebody who does not wait. -/
def step (s : Shared α) : Label α → Option (Shared α × List α)
  | .start => some ({ s with receivers := s.receivers ++ [.starting] }, [])
  | .listen i =>
      match s.receivers[i]? with
      | some .starting => some ({ s with receivers := s.receivers.set i (.checking false) }, [])
      | _ => none
  | .check i =>
      match s.receivers[i]? with
      | some (.checking n) =>
          match s.queue.tryRecv with
          | some (item, queue) =>
              some ({ queue, receivers := s.receivers.set i (.returning n) }, [item])
          | none => some ({ s with receivers := s.receivers.set i (.waiting n) }, [])
      | _ => none
  | .finish i target =>
      match s.receivers[i]? with
      | some (.returning n) =>
          (dropListener s.receivers i (.returning n) target).map
            fun receivers => ({ s with receivers }, [])
      | _ => none
  | .wake i =>
      match s.receivers[i]? with
      | some (.waiting true) => some ({ s with receivers := s.receivers.set i .starting }, [])
      | _ => none
  | .drop i target =>
      match s.receivers[i]? with
      | some (.waiting n) =>
          (dropListener s.receivers i (.waiting n) target).map
            fun receivers => ({ s with receivers }, [])
      | _ => none
  | .push item target =>
      (notify s.receivers target).map
        fun receivers => ({ queue := (s.queue.push item).1, receivers }, [])
  | .tryRecv =>
      match s.queue.tryRecv with
      | some (item, queue) => some ({ s with queue }, [item])
      | none => none

end Shared

/-- The runs of a queue with any number of receivers; a trace has the items handed out. -/
def receiving (α : Type*) (capacity : ℕ) : Machine (Shared α) (Label α) α where
  init := { queue := .new capacity, receivers := [] }
  step := Shared.step

/-! ## Counting receivers -/

namespace Receiver

/-- Will look for an item before it waits again. -/
def ready : Receiver → Bool
  | .starting | .checking _ | .waiting true => true
  | .returning _ | .waiting false => false

/-- Will pass a notification on. -/
def relays : Receiver → Bool
  | .checking true | .returning true => true
  | _ => false

def sleeping : Receiver → Bool
  | .waiting false => true
  | _ => false

theorem listening_of_sleeping : ∀ {receiver : Receiver},
    receiver.sleeping = true → receiver.listening = true
  | .waiting false, _ => rfl

theorem notified_of_relays : ∀ {receiver : Receiver},
    receiver.relays = true → receiver.notified = true
  | .checking true, _ | .returning true, _ => rfl

/-- A listener that is picked belongs to a receiver that sleeps, and wakes up, or to one that will
pass the notification on. -/
theorem notify_of_listening : ∀ {receiver : Receiver}, receiver.listening = true →
    receiver = .waiting false ∨ (receiver.notify.ready = receiver.ready ∧
      receiver.sleeping = false ∧ receiver.relays = false ∧ receiver.notify.sleeping = false ∧
      receiver.notify.relays = true ∧ receiver.notify.notified = true)
  | .checking false, _ | .returning false, _ => .inr ⟨rfl, rfl, rfl, rfl, rfl, rfl⟩
  | .waiting false, _ => .inl rfl

end Receiver

/-- How many receivers have a listener that is notified. -/
def notified (receivers : List Receiver) : ℕ := receivers.countP Receiver.notified

def ready (receivers : List Receiver) : ℕ := receivers.countP Receiver.ready

def relays (receivers : List Receiver) : ℕ := receivers.countP Receiver.relays

def sleeping (receivers : List Receiver) : ℕ := receivers.countP Receiver.sleeping

theorem relays_le_notified (receivers : List Receiver) : relays receivers ≤ notified receivers :=
  List.countP_mono_left fun _ _ => Receiver.notified_of_relays

namespace Shared

/-- There is an item, somebody waits for a notification, and nobody is notified or runs. -/
def LostWakeUp (s : Shared α) : Prop :=
  s.queue.data ≠ [] ∧ .waiting false ∈ s.receivers ∧ ∀ receiver ∈ s.receivers,
    receiver = .waiting false

end Shared

/-! ## One notification -/

/-- The place of a receiver in the list of all of them. -/
theorem exists_place {receivers : List Receiver} {i : ℕ} {receiver : Receiver}
    (found : receivers[i]? = some receiver) : ∃ before after,
      receivers = before ++ receiver :: after ∧ receivers.eraseIdx i = before ++ after ∧
        ∀ r, receivers.set i r = before ++ r :: after := by
  obtain ⟨inside, rfl⟩ := List.getElem?_eq_some_iff.mp found
  have whole : receivers = receivers.take i ++ receivers[i] :: receivers.drop (i + 1) := by
    rw [List.getElem_cons_drop, List.take_append_drop]
  refine ⟨receivers.take i, receivers.drop (i + 1), whole, ?_, ?_⟩
  · exact List.eraseIdx_eq_take_drop_succ _ _
  · intro r
    exact List.set_eq_take_append_cons_drop.trans (if_pos inside)

theorem notify_cases {l l' : List Receiver} {target : Option ℕ} (done : notify l target = some l') :
    (l' = l ∧ (0 < notified l ∨ sleeping l = 0)) ∨
      (notified l = 0 ∧ ∃ before r after, l = before ++ r :: after ∧ r.listening = true ∧
        l' = before ++ r.notify :: after) := by
  unfold notify at done
  split at done
  · next idle =>
      left
      split at done
      · obtain rfl := Option.some.inj done
        refine ⟨rfl, ?_⟩
        rcases Bool.or_eq_true_iff.mp idle with already | nobody
        · left
          exact List.countP_pos_iff.mpr (List.any_eq_true.mp already)
        · right
          refine List.countP_eq_zero.mpr fun r present asleep => ?_
          have listens := List.any_eq_true.mpr ⟨r, present, Receiver.listening_of_sleeping asleep⟩
          simp [listens] at nobody
      · cases done
  · next fresh =>
      right
      obtain ⟨i, -, picked⟩ := Option.bind_eq_some_iff.mp done
      obtain ⟨r, found, rest⟩ := Option.bind_eq_some_iff.mp picked
      split at rest
      · next listens =>
          obtain rfl := Option.some.inj rest
          obtain ⟨before, after, whole, -, set⟩ := exists_place found
          refine ⟨?_, before, r, after, whole, listens, set _⟩
          refine List.countP_eq_zero.mpr fun r present already => fresh ?_
          exact Bool.or_eq_true_iff.mpr (.inl (List.any_eq_true.mpr ⟨r, present, already⟩))
      · cases rest

/-- What a notification does to the counts. -/
theorem notify_counts {l l' : List Receiver} {target : Option ℕ}
    (done : notify l target = some l') :
    (l' = l ∧ (0 < notified l ∨ sleeping l = 0)) ∨
      (notified l = 0 ∧ notified l' = 1 ∧
        ((ready l' = ready l + 1 ∧ relays l' = relays l ∧ sleeping l' + 1 = sleeping l) ∨
          (ready l' = ready l ∧ relays l' = relays l + 1 ∧ sleeping l' = sleeping l))) := by
  rcases notify_cases done with same | ⟨none, before, r, after, rfl, listens, rfl⟩
  · exact .inl same
  · refine .inr ⟨none, ?_⟩
    simp only [notified, ready, relays, sleeping, List.countP_append, List.countP_cons] at none ⊢
    rcases Receiver.notify_of_listening listens with rfl | ⟨same, awake, fresh, still, will, told⟩
    · simp only [Receiver.notified, Receiver.notify, Receiver.ready, Receiver.relays,
        Receiver.sleeping, if_true, Bool.false_eq_true, if_false, true_and] at none ⊢
      omega
    · simp only [same, awake, fresh, still, will, told, if_true, Bool.false_eq_true, if_false,
        true_and, and_true] at none ⊢
      split at none <;> omega

/-! ## Enough receivers for the items -/

/-- Receivers that are not asleep can take all items, or the only receiver that sleeps will get
the notification under way. -/
def Enough (items : ℕ) (receivers : List Receiver) : Prop :=
  sleeping receivers = 0 ∨ items ≤ ready receivers + relays receivers ∨
    (relays receivers = 1 ∧ sleeping receivers = 1)

/-- A step that keeps this strands nobody. -/
structure Served (items : ℕ) (receivers : List Receiver) : Prop where
  notified_le : notified receivers ≤ 1
  enough : Enough items receivers

theorem Served.mono {items fewer : ℕ} {receivers : List Receiver}
    (served : Served items receivers) (le : fewer ≤ items) : Served fewer receivers := by
  refine ⟨served.notified_le, ?_⟩
  rcases served.enough with nobody | enough | last
  · exact .inl nobody
  · exact .inr (.inl (Nat.le_trans le enough))
  · exact .inr (.inr last)

/-- A notification that somebody receives makes up for one item. -/
theorem Served.of_notify {items : ℕ} {l l' : List Receiver} {target : Option ℕ}
    (done : notify l target = some l') (quiet : notified l = 0)
    (enough : sleeping l ≤ 1 ∨ items ≤ ready l + 1) : Served items l' := by
  have silent : relays l = 0 := Nat.eq_zero_of_le_zero (quiet ▸ relays_le_notified l)
  rcases notify_counts done with ⟨rfl, already | nobody⟩ | ⟨-, one, woken | relayed⟩
  · omega
  · exact ⟨by omega, .inl nobody⟩
  · refine ⟨Nat.le_of_eq one, ?_⟩
    unfold Enough
    omega
  · refine ⟨Nat.le_of_eq one, ?_⟩
    unfold Enough
    omega

/-! ## One receiver among the others -/

section Place

variable {items : ℕ} {before after : List Receiver}

/-- The others and the receiver itself. -/
theorem countP_place (p : Receiver → Bool) (r : Receiver) :
    (before ++ r :: after).countP p = (before ++ after).countP p + (p r).toNat := by
  rw [List.countP_append, List.countP_append, List.countP_cons, ← Nat.add_assoc]
  cases p r <;> rfl

theorem served_place {r : Receiver} : Served items (before ++ r :: after) ↔
    notified (before ++ after) + r.notified.toNat ≤ 1 ∧
      (sleeping (before ++ after) + r.sleeping.toNat = 0 ∨
        items ≤ ready (before ++ after) + r.ready.toNat +
          (relays (before ++ after) + r.relays.toNat) ∨
        (relays (before ++ after) + r.relays.toNat = 1 ∧
          sleeping (before ++ after) + r.sleeping.toNat = 1)) := by
  constructor
  · rintro ⟨le, enough⟩
    simp only [Enough, notified, sleeping, ready, relays, countP_place] at le enough
    exact ⟨le, enough⟩
  · rintro ⟨le, enough⟩
    constructor
    · simpa only [notified, countP_place] using le
    · simpa only [Enough, sleeping, ready, relays, countP_place] using enough

theorem Served.start (served : Served items (before ++ after)) :
    Served items (before ++ .starting :: after) := by
  obtain ⟨le, enough⟩ := served
  refine served_place.mpr ⟨le, ?_⟩
  unfold Enough at enough
  simp only [Receiver.ready, Receiver.relays, Receiver.sleeping, Bool.toNat_true,
    Bool.toNat_false]
  omega

theorem Served.listen (served : Served items (before ++ .starting :: after)) :
    Served items (before ++ .checking false :: after) :=
  (served_place (r := .checking false)).mpr ((served_place (r := .starting)).mp served)

theorem Served.wake (served : Served items (before ++ .waiting true :: after)) :
    Served items (before ++ .starting :: after) := by
  obtain ⟨le, enough⟩ := served_place.mp served
  exact served_place.mpr ⟨Nat.le_trans (Nat.le_add_right _ _) le, enough⟩

theorem Served.take {n : Bool} (served : Served (items + 1) (before ++ .checking n :: after)) :
    Served items (before ++ .returning n :: after) := by
  obtain ⟨le, enough⟩ := served_place.mp served
  refine served_place.mpr ⟨le, ?_⟩
  cases n <;> simp only [Receiver.ready, Receiver.relays, Receiver.sleeping, Bool.toNat_true,
    Bool.toNat_false] at enough ⊢ <;> omega

theorem Served.wait {n : Bool} (served : Served items (before ++ .checking n :: after)) :
    Served 0 (before ++ .waiting n :: after) :=
  served_place.mpr ⟨(served_place.mp served).1, .inr (.inl (Nat.zero_le _))⟩

/-- A receiver that is done makes room for another one if its listener is notified. -/
theorem Served.dropListener {r : Receiver} {i : ℕ} {target : Option ℕ}
    {receivers l' : List Receiver} (served : Served items (before ++ r :: after))
    (done : dropListener receivers i r target = some l')
    (erased : receivers.eraseIdx i = before ++ after)
    (leaves : r = .returning r.notified ∨ r = .waiting r.notified) : Served items l' := by
  obtain ⟨le, enough⟩ := served_place.mp served
  have relayed := relays_le_notified (before ++ after)
  unfold BoundedQueue.dropListener at done
  rw [erased] at done
  cases told : r.notified with
  | true =>
      rw [told] at le leaves done
      refine .of_notify done (by simpa using le) ?_
      rcases leaves with rfl | rfl <;> simp only [Receiver.ready, Receiver.relays,
        Receiver.sleeping, Bool.toNat_true, Bool.toNat_false] at le enough ⊢ <;> omega
  | false =>
      rw [told] at leaves done
      split at done
      · cases ‹false = true›
      · split at done
        · obtain rfl := Option.some.inj done
          refine ⟨by omega, ?_⟩
          unfold Enough
          rcases leaves with rfl | rfl <;> simp only [Receiver.ready, Receiver.relays,
            Receiver.sleeping, Bool.toNat_true, Bool.toNat_false] at enough ⊢ <;> omega
        · cases done

/-- A receiver goes on and leaves the others as they are. -/
theorem Served.set {items items' i : ℕ} {receivers : List Receiver} {r r' : Receiver}
    (served : Served items receivers) (found : receivers[i]? = some r)
    (goesOn : ∀ {before after : List Receiver}, Served items (before ++ r :: after) →
      Served items' (before ++ r' :: after)) : Served items' (receivers.set i r') := by
  obtain ⟨before, after, whole, -, set⟩ := exists_place found
  rw [set]
  rw [whole] at served
  exact goesOn served

end Place

theorem tryRecv_eq_none {q : BoundedQueue α} (received : q.tryRecv = none) : q.data = [] := by
  unfold tryRecv at received
  split at received
  · assumption
  · cases received

theorem length_push (q : BoundedQueue α) (item : α) : (q.push item).1.data.length =
    if q.capacity ≤ q.data.length then q.data.length - 1 + 1 else q.data.length + 1 := by
  unfold push
  split <;> simp

namespace Shared

/-- Whenever somebody sleeps and a notification is under way, a push overwrites an item, or adds
one that a receiver which is not asleep will take, or the only receiver that sleeps is going to be
notified. -/
def Heard (c : Config (Shared α) α) : Label α → Prop
  | .push _ _ =>
      0 < sleeping c.state.receivers → 0 < notified c.state.receivers →
        c.state.queue.data.length < ready c.state.receivers + relays c.state.receivers ∨
          (0 < c.state.queue.data.length ∧
            c.state.queue.capacity ≤ c.state.queue.data.length) ∨
          (relays c.state.receivers = 1 ∧ sleeping c.state.receivers = 1)
  | _ => True

instance : DecidableRel (Heard : Config (Shared α) α → Label α → Prop)
  | _, .push _ _ => inferInstanceAs (Decidable (_ → _ → _))
  | _, .start | _, .listen _ | _, .check _ | _, .finish _ _ | _, .wake _ | _, .drop _ _
  | _, .tryRecv => inferInstanceAs (Decidable True)

theorem Served.push {s : Shared α} {item : α} {target : Option ℕ} {receivers : List Receiver}
    {observed : List α} (served : Served s.queue.data.length s.receivers)
    (heard : Heard ⟨s, observed⟩ (.push item target))
    (done : notify s.receivers target = some receivers) :
    Served (s.queue.push item).1.data.length receivers := by
  obtain ⟨le, enough⟩ := served
  unfold Enough at enough
  have silent := relays_le_notified s.receivers
  rw [length_push]
  rcases notify_counts done with ⟨rfl, already | nobody⟩ | ⟨quiet, -, -⟩
  · refine ⟨le, ?_⟩
    rcases Nat.eq_zero_or_pos (sleeping s.receivers) with nobody | asleep
    · exact .inl nobody
    · have room := heard asleep already
      dsimp only at room
      unfold Enough
      split <;> omega
  · exact ⟨le, .inl nobody⟩
  · refine .of_notify done quiet ?_
    split <;> omega

/-- A receiver that is done passes on the notification it has. -/
theorem Served.leave {s after : Shared α} {observed : List α} {i : ℕ} {r : Receiver}
    {target : Option ℕ} (served : Served s.queue.data.length s.receivers)
    (found : s.receivers[i]? = some r) (leaves : r = .returning r.notified ∨ r = .waiting r.notified)
    (stepped : (dropListener s.receivers i r target).map
      (fun receivers => ({ s with receivers }, ([] : List α))) = some (after, observed)) :
    Served after.queue.data.length after.receivers := by
  obtain ⟨receivers, done, same⟩ := Option.map_eq_some_iff.mp stepped
  obtain ⟨rfl, -⟩ := Prod.mk.inj same
  obtain ⟨before, rest, whole, erased, -⟩ := exists_place found
  rw [whole] at served
  exact served.dropListener done erased leaves

theorem served_step {c c' : Config (Shared α) α} {label : Label α} {capacity : ℕ}
    (served : Served c.state.queue.data.length c.state.receivers) (heard : Heard c label)
    (moved : (receiving α capacity).next c label = some c') :
    Served c'.state.queue.data.length c'.state.receivers := by
  obtain ⟨observed, stepped, -⟩ := Machine.next_eq_some moved
  change c.state.step label = some (c'.state, observed) at stepped
  generalize c'.state = after at stepped
  cases label with
  | start =>
      obtain ⟨rfl, -⟩ := Prod.mk.inj (Option.some.inj stepped)
      exact .start (by rwa [List.append_nil])
  | listen i =>
      simp only [step] at stepped
      split at stepped
      · next found =>
          obtain ⟨rfl, -⟩ := Prod.mk.inj (Option.some.inj stepped)
          exact served.set found .listen
      · cases stepped
  | check i =>
      simp only [step] at stepped
      split at stepped
      · next n found =>
          split at stepped
          · next item queue received =>
              obtain ⟨rfl, -⟩ := Prod.mk.inj (Option.some.inj stepped)
              rw [tryRecv_eq_some received] at served
              exact served.set found .take
          · next received =>
              obtain ⟨rfl, -⟩ := Prod.mk.inj (Option.some.inj stepped)
              rw [tryRecv_eq_none received]
              exact served.set found .wait
      · cases stepped
  | finish i target =>
      simp only [step] at stepped
      split at stepped
      · next n found => exact Served.leave served found (.inl rfl) stepped
      · cases stepped
  | wake i =>
      simp only [step] at stepped
      split at stepped
      · next found =>
          obtain ⟨rfl, -⟩ := Prod.mk.inj (Option.some.inj stepped)
          exact served.set found .wake
      · cases stepped
  | drop i target =>
      simp only [step] at stepped
      split at stepped
      · next n found => exact Served.leave served found (.inr rfl) stepped
      · cases stepped
  | push item target =>
      obtain ⟨receivers, done, same⟩ := Option.map_eq_some_iff.mp stepped
      obtain ⟨rfl, -⟩ := Prod.mk.inj same
      exact Served.push served heard done
  | tryRecv =>
      simp only [step] at stepped
      split at stepped
      · next item queue received =>
          obtain ⟨rfl, -⟩ := Prod.mk.inj (Option.some.inj stepped)
          rw [tryRecv_eq_some received] at served
          exact served.mono (Nat.le_succ _)
      · cases stepped

/-- When a receiver that is not asleep is there for each item, nobody is stranded. -/
theorem Served.not_lostWakeUp {s : Shared α}
    (served : Served s.queue.data.length s.receivers) : ¬ s.LostWakeUp := by
  rintro ⟨items, asleep, all⟩
  have nonempty : 0 < s.queue.data.length := List.length_pos_iff.mpr items
  have slept : 0 < sleeping s.receivers := List.countP_pos_iff.mpr ⟨_, asleep, rfl⟩
  have noneOf : ∀ p : Receiver → Bool, p (.waiting false) = false →
      s.receivers.countP p = 0 := by
    intro p not
    refine List.countP_eq_zero.mpr fun r present holds => ?_
    rw [all r present, not] at holds
    cases holds
  rcases served.enough with nobody | enough | ⟨one, -⟩
  · omega
  · rw [ready, relays, noneOf _ rfl, noneOf _ rfl] at enough
    omega
  · rw [relays, noneOf _ rfl] at one
    cases one

theorem not_lostWakeUp_of_reachable {capacity : ℕ} {c : Config (Shared α) α}
    (reached : (receiving α capacity).Reachable Heard c) : ¬ c.state.LostWakeUp := by
  refine Served.not_lostWakeUp (reached.invariant
    (P := fun c => Served c.state.queue.data.length c.state.receivers) ?_ ?_)
  · exact ⟨Nat.zero_le _, .inl rfl⟩
  · intro c label c' served heard moved
    exact served_step served heard moved

/-- Two receivers sleep, and the first of two items has been taken before the second arrives. -/
theorem not_lostWakeUp_of_reachable_twoReceivers : ∃ c, (receiving ℕ 10).Reachable Heard c ∧
    c.trace = [1] ∧ c.state.queue.data = [2] ∧ ¬ c.state.LostWakeUp := by
  obtain ⟨c, reached, seen⟩ := (receiving ℕ 10).exists_of_schedule Heard
    [.start, .start, .listen 0, .check 0, .listen 1, .check 1, .push 1 (some 0), .wake 0,
      .listen 0, .check 0, .push 2 (some 0)]
    (fun c => (c.trace, c.state.queue.data)) ([1], [2]) (by decide +kernel)
  obtain ⟨trace, data⟩ := Prod.mk.inj seen
  exact ⟨c, reached, trace, data, not_lostWakeUp_of_reachable reached⟩

/-- The second of two quick pushes notifies nobody, and the receiver that was notified takes one
item only. -/
theorem second_push_strands_receiver :
    ¬ ∀ c, (receiving ℕ 10).Reachable Machine.anyStep c → ¬ c.state.LostWakeUp := by
  obtain ⟨c, reached, seen⟩ := (receiving ℕ 10).exists_of_schedule Machine.anyStep
    [.start, .start, .listen 0, .check 0, .listen 1, .check 1, .push 1 (some 0), .push 2 none,
      .wake 0, .listen 0, .check 0, .finish 0 none]
    (fun c => (c.state.queue.data, c.state.receivers)) ([2], [.waiting false])
    (by decide +kernel)
  obtain ⟨data, receivers⟩ := Prod.mk.inj seen
  intro claim
  refine claim c reached ⟨?_, ?_, ?_⟩
  · rw [data]
    exact List.cons_ne_nil _ _
  · rw [receivers]
    exact List.mem_singleton_self _
  · rw [receivers]
    intro r present
    exact List.mem_singleton.mp present

end Shared

end BoundedQueue

end RosZ
