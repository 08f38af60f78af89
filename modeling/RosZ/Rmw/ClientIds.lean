import RosZ.Lib.PartialMap
import RosZ.Service.Server

/-!
# Sequence ids of the middleware's clients

`ClientImpl::send_request` takes the id that it returns from a counter of its own, and
`rmw_send_request` of the `ZClient` takes the number that goes into the attachment of the request
from another.  Both start at 1 and both grow by one with every call, also with one whose request
cannot be sent; but a call takes its two numbers one after the other, and calls overlap.

`InOrder` is the condition under which the numbers of a call are the same: calls take their second
number in the order in which they took the first.  `idsMatch_of_reachable` is what holds then, and
`mismatch_of_attach` says that a call which overtakes another gets two different numbers.

The counters are 64 bits wide and wrap, so ids repeat after 2^64 calls.
-/

namespace RosZ.Rmw

open Transition
open RosZ.Service (Attachment GidArray)

abbrev CallId := ℕ

/-- The part of a `ZClient` that numbers its requests. -/
structure ZClient where
  sn : UInt64
  gid : GidArray

/-- `new_attchment`, at the time `now`. -/
def ZClient.newAttchment (client : ZClient) (now : Int64) : Attachment × ZClient :=
  ({ sequenceNumber := client.sn.toInt64, sourceTimestamp := now, sourceGid := client.gid },
    { client with sn := client.sn + 1 })

/-- Client implementation for RMW. -/
structure ClientImpl where
  inner : ZClient
  /-- Mirrors the counter of the inner client. -/
  sequenceCounter : Int64

namespace ClientImpl

/-- How far a call of `send_request` has got. -/
inductive Phase where
  /-- It has the id that it is to return. -/
  | numbered (sn : Int64)
  /-- It has the attachment of its request, which is about to be sent. -/
  | attached (sn : Int64) (attachment : Attachment)
deriving DecidableEq, Repr

/-- A client and the calls on it, numbered in the order in which they take their ids. -/
structure State where
  client : ClientImpl
  calls : CallId → Option Phase
  nextCall : CallId

inductive Label where
  /-- `sequence_counter.fetch_add` of a new call. -/
  | number
  /-- `sn.fetch_add`, for the attachment. -/
  | attach (call : CallId) (now : Int64)
  /-- The request is sent, or fails to be. -/
  | send (call : CallId) (sent : Bool)

inductive Event where
  /-- The call has sent a request with the attachment and returns the id. -/
  | returned (call : CallId) (sequenceId : Int64) (attachment : Attachment)
  | failed (call : CallId)
deriving DecidableEq

namespace State

/-- The result of a step: the state after it and what is observed of it. -/
abbrev After : Type := State × List Event

def setPhase (s : State) (call : CallId) (phase : Option Phase) : State :=
  { s with calls := Function.update s.calls call phase }

def number (s : State) : After :=
  ({ s.setPhase s.nextCall (some (.numbered s.client.sequenceCounter)) with
      client := { s.client with sequenceCounter := s.client.sequenceCounter + 1 }
      nextCall := s.nextCall + 1 }, [])

def attach (s : State) (call : CallId) (now : Int64) : Option After :=
  match s.calls call with
  | some (.numbered sn) =>
      let (attachment, inner) := s.client.inner.newAttchment now
      some ({ s.setPhase call (some (.attached sn attachment)) with
        client := { s.client with inner } }, [])
  | _ => none

def send (s : State) (call : CallId) (sent : Bool) : Option After :=
  match s.calls call with
  | some (.attached sn attachment) =>
      some (s.setPhase call none,
        if sent then [.returned call sn attachment] else [.failed call])
  | _ => none

def step (s : State) : Label → Option After
  | .number => some s.number
  | .attach call now => s.attach call now
  | .send call sent => s.send call sent

end State

/-- The calls on a new client. -/
def calls (gid : GidArray) : Machine State Label Event where
  init :=
    { client := { inner := { sn := 1, gid }, sequenceCounter := 1 }
      calls := fun _ => none
      nextCall := 0 }
  step := State.step

/-! ## Ids and the wire -/

/-- The ids that calls return are the numbers on their requests, and no two are the same. -/
structure IdsMatch (trace : List Event) : Prop where
  wire : ∀ call sequenceId attachment, .returned call sequenceId attachment ∈ trace →
    attachment.sequenceNumber = sequenceId
  distinct : ∀ call call' sequenceId attachment attachment',
    .returned call sequenceId attachment ∈ trace →
    .returned call' sequenceId attachment' ∈ trace → call = call'

/-- The call has its id and not yet its attachment. -/
def State.isNumbered (s : State) (call : CallId) : Bool :=
  match s.calls call with
  | some (.numbered _) => true
  | _ => false

/-- No call takes its attachment before one that began earlier, and there are no more calls than
ids. -/
def InOrder (c : Config State Event) : Label → Prop
  | .number => c.state.nextCall < UInt64.size
  | .attach call _ => ∀ earlier, earlier < call → c.state.isNumbered earlier = false
  | .send _ _ => True

instance : DecidableRel InOrder := by
  intro c label
  cases label <;> (unfold InOrder; infer_instance)

/-! ## The numbers of a call -/

/-- The id of a call. -/
def idOf (call : ℕ) : Int64 := Int64.ofNat (call + 1)

theorem idOf_succ (call : ℕ) : idOf call + 1 = idOf (call + 1) :=
  (Int64.ofNat_add (call + 1) 1).symm

/-- The number that a counter at the given position yields. -/
theorem toInt64_ofNat (position : ℕ) : (UInt64.ofNat (position + 1)).toInt64 = idOf position := rfl

/-- Ids do not repeat as long as there are no more calls than ids. -/
theorem idOf_injective {call call' : ℕ} (few : call < UInt64.size) (few' : call' < UInt64.size)
    (same : idOf call = idOf call') : call = call' := by
  have numbers : (UInt64.ofNat (call + 1)).toNat = (UInt64.ofNat (call' + 1)).toNat :=
    congrArg (fun id => id.toUInt64.toNat) same
  rw [UInt64.toNat_ofNat', UInt64.toNat_ofNat'] at numbers
  unfold UInt64.size at few few'
  omega

/-- What holds when `turn` calls have taken their attachments, in order: these are the calls
before `turn`, and the others wait for theirs. -/
structure Turn (s : State) (trace : List Event) (turn : CallId) : Prop where
  turn_le : turn ≤ s.nextCall
  few : s.nextCall ≤ UInt64.size
  counter : s.client.sequenceCounter = idOf s.nextCall
  sn : s.client.inner.sn = UInt64.ofNat (turn + 1)
  waiting : ∀ call, turn ≤ call → call < s.nextCall →
    s.calls call = some (.numbered (idOf call))
  numbered : ∀ call sn, s.calls call = some (.numbered sn) → turn ≤ call ∧ call < s.nextCall
  attached : ∀ call sn attachment, s.calls call = some (.attached sn attachment) →
    call < turn ∧ sn = idOf call ∧ attachment.sequenceNumber = idOf call
  returned : ∀ call sequenceId attachment, .returned call sequenceId attachment ∈ trace →
    call < turn ∧ sequenceId = idOf call ∧ attachment.sequenceNumber = idOf call

section Turn

variable {s s' : State} {label : Label} {trace observed : List Event} {turn : CallId}

theorem Turn.number (taken : Turn s trace turn) (few : s.nextCall < UInt64.size) :
    Turn s.number.1 trace turn := by
  have other : ∀ {call}, call ≠ s.nextCall → s.number.1.calls call = s.calls call :=
    fun apart => Function.update_of_ne apart ..
  have new : s.number.1.calls s.nextCall = some (.numbered (idOf s.nextCall)) := by
    rw [← taken.counter]
    exact Function.update_self ..
  refine ⟨Nat.le_succ_of_le taken.turn_le, few, ?_, taken.sn, ?_, ?_, ?_, taken.returned⟩
  · show s.client.sequenceCounter + 1 = _
    rw [taken.counter, idOf_succ]
    rfl
  · intro call late early
    by_cases same : call = s.nextCall
    · rw [same, new]
    · rw [other same]
      exact taken.waiting call late (Nat.lt_of_le_of_ne (Nat.le_of_lt_succ early) same)
  · intro call sn found
    by_cases same : call = s.nextCall
    · rw [same]
      exact ⟨taken.turn_le, Nat.lt_succ_self _⟩
    · obtain ⟨late, early⟩ := taken.numbered call sn (other same ▸ found)
      exact ⟨late, Nat.lt_succ_of_lt early⟩
  · intro call sn attachment found
    by_cases same : call = s.nextCall
    · rw [same, new] at found
      cases found
    · exact taken.attached call sn attachment (other same ▸ found)

theorem Turn.attach {call : CallId} {now : Int64} (taken : Turn s trace turn)
    (meets : InOrder ⟨s, trace⟩ (.attach call now))
    (stepped : s.attach call now = some (s', observed)) :
    observed = [] ∧ Turn s' trace (turn + 1) := by
  unfold State.attach at stepped
  split at stepped
  · next sn found =>
      cases stepped
      obtain ⟨late, early⟩ := taken.numbered call sn found
      -- every earlier call has its attachment, so it is this call's turn
      obtain rfl : call = turn := by
        rcases Nat.lt_or_eq_of_le late with before | same
        · have waits := meets turn before
          rw [State.isNumbered, taken.waiting turn le_rfl (Nat.lt_trans before early)] at waits
          cases waits
        · exact same.symm
      obtain rfl : sn = idOf call :=
        Phase.numbered.inj (Option.some.inj (found.symm.trans (taken.waiting call le_rfl early)))
      refine ⟨rfl, early, taken.few, taken.counter, ?_, ?_, ?_, ?_, ?_⟩
      · show s.client.inner.sn + 1 = _
        rw [taken.sn]
        exact (UInt64.ofNat_add (call + 1) 1).symm
      · intro other late' early'
        have apart : other ≠ call := Nat.ne_of_gt late'
        exact (Function.update_of_ne apart ..).trans
          (taken.waiting other (Nat.le_of_succ_le late') early')
      · intro other sn found'
        rcases PartialMap.update_eq_some_iff.mp found' with ⟨-, now⟩ | ⟨apart, before⟩
        · cases now
        · obtain ⟨late', early'⟩ := taken.numbered other sn before
          exact ⟨Nat.lt_of_le_of_ne late' (Ne.symm apart), early'⟩
      · intro other sn attachment found'
        rcases PartialMap.update_eq_some_iff.mp found' with ⟨rfl, now⟩ | ⟨-, before⟩
        · cases now
          refine ⟨Nat.lt_succ_self _, rfl, ?_⟩
          rw [← toInt64_ofNat, ← taken.sn]
        · obtain ⟨early', id⟩ := taken.attached other sn attachment before
          exact ⟨Nat.lt_succ_of_lt early', id⟩
      · intro other sequenceId attachment seen
        obtain ⟨early', id⟩ := taken.returned other sequenceId attachment seen
        exact ⟨Nat.lt_succ_of_lt early', id⟩
  · cases stepped

theorem Turn.send {call : CallId} {sent : Bool} (taken : Turn s trace turn)
    (stepped : s.send call sent = some (s', observed)) : Turn s' (trace ++ observed) turn := by
  unfold State.send at stepped
  split at stepped
  · next sn attachment found =>
      cases stepped
      obtain ⟨early, id⟩ := taken.attached call sn attachment found
      refine ⟨taken.turn_le, taken.few, taken.counter, taken.sn, ?_, ?_, ?_, ?_⟩
      · intro other late early'
        have apart : other ≠ call := Nat.ne_of_gt (Nat.lt_of_lt_of_le early late)
        exact (Function.update_of_ne apart ..).trans (taken.waiting other late early')
      · exact fun other sn' found' => taken.numbered other sn' (PartialMap.of_update_none found')
      · exact fun other sn' attachment' found' =>
          taken.attached other sn' attachment' (PartialMap.of_update_none found')
      · intro other sequenceId attachment' seen
        rcases List.mem_append.mp seen with before | now
        · exact taken.returned other sequenceId attachment' before
        · split at now
          · obtain ⟨rfl, rfl, rfl⟩ := Event.returned.inj (List.mem_singleton.mp now)
            exact ⟨early, id⟩
          · cases List.mem_singleton.mp now
  · cases stepped

theorem Turn.step (taken : Turn s trace turn) (meets : InOrder ⟨s, trace⟩ label)
    (stepped : s.step label = some (s', observed)) :
    ∃ turn', Turn s' (trace ++ observed) turn' := by
  cases label with
  | number =>
      cases stepped
      rw [List.append_nil]
      exact ⟨turn, taken.number meets⟩
  | attach call now =>
      obtain ⟨rfl, after⟩ := taken.attach meets stepped
      rw [List.append_nil]
      exact ⟨turn + 1, after⟩
  | send call sent => exact ⟨turn, taken.send stepped⟩

end Turn

theorem turn_of_reachable {gid : GidArray} {c : Config State Event}
    (reached : (calls gid).Reachable InOrder c) : ∃ turn, Turn c.state c.trace turn := by
  refine reached.invariant (P := fun c => ∃ turn, Turn c.state c.trace turn) ?_ ?_
  · exact ⟨0, le_rfl, Nat.zero_le _, rfl, rfl, fun _ _ early => absurd early (Nat.not_lt_zero _),
      by simp [Machine.start, calls], by simp [Machine.start, calls],
      by simp [Machine.start]⟩
  · rintro c label c' ⟨turn, taken⟩ meets moved
    obtain ⟨observed, stepped, grown⟩ := Machine.next_eq_some moved
    rw [grown]
    exact taken.step meets stepped

/-- **The ids are those on the wire** in a run where no call overtakes another between its two
numbers. -/
theorem idsMatch_of_reachable (gid : GidArray) (c : Config State Event)
    (reached : (calls gid).Reachable InOrder c) : IdsMatch c.trace := by
  obtain ⟨turn, taken⟩ := turn_of_reachable reached
  refine ⟨fun call sequenceId attachment seen => ?_, ?_⟩
  · obtain ⟨-, id, wire⟩ := taken.returned call sequenceId attachment seen
    rw [wire, id]
  · intro call call' sequenceId attachment attachment' seen seen'
    obtain ⟨early, id, -⟩ := taken.returned call sequenceId attachment seen
    obtain ⟨early', id', -⟩ := taken.returned call' sequenceId attachment' seen'
    have few := Nat.le_trans taken.turn_le taken.few
    exact idOf_injective (Nat.lt_of_lt_of_le early few) (Nat.lt_of_lt_of_le early' few)
      (id.symm.trans id')

/-- The condition is needed whenever a call takes its attachment: one that overtakes another
has two different numbers from then on. -/
theorem mismatch_of_attach {gid : GidArray} {c c' : Config State Event} {call : CallId}
    {now : Int64} (reached : (calls gid).Reachable InOrder c)
    (overtakes : ¬ InOrder c (.attach call now))
    (moved : (calls gid).next c (.attach call now) = some c') :
    ∃ sn attachment, c'.state.calls call = some (.attached sn attachment) ∧
      attachment.sequenceNumber ≠ sn := by
  obtain ⟨turn, taken⟩ := turn_of_reachable reached
  obtain ⟨observed, stepped, -⟩ := Machine.next_eq_some moved
  obtain ⟨s, trace⟩ := c
  obtain ⟨s', trace'⟩ := c'
  simp only [calls, State.step, State.attach] at stepped
  split at stepped
  · next sn found =>
      cases stepped
      obtain ⟨late, early⟩ := taken.numbered call sn found
      have same := Phase.numbered.inj (Option.some.inj (found.symm.trans
        (taken.waiting call late early)))
      refine ⟨sn, _, Function.update_self .., ?_⟩
      show s.client.inner.sn.toInt64 ≠ sn
      rw [taken.sn, toInt64_ofNat, same]
      intro equal
      have few : call < UInt64.size := Nat.lt_of_lt_of_le early taken.few
      obtain rfl : turn = call := idOf_injective (Nat.lt_of_le_of_lt late few) few equal
      -- it is the call's turn, so no earlier call has to wait
      refine overtakes fun earlier before => ?_
      unfold State.isNumbered
      split
      · next sn' waits =>
          exact absurd (taken.numbered earlier sn' waits).1 (Nat.not_le_of_lt before)
      · rfl
  · cases stepped

/-! ## Runs -/

def demoGid : GidArray := Vector.replicate 16 3

/-- Two calls in order; the request of the first one is lost. -/
theorem idsMatch_of_reachable_inOrder :
    ∃ c, (calls demoGid).Reachable InOrder c ∧
      c.trace = [.failed 0, .returned 1 2 ⟨2, 6, demoGid⟩] ∧ IdsMatch c.trace := by
  obtain ⟨c, reached, seen⟩ := Machine.exists_of_schedule (calls demoGid) InOrder
    [.number, .number, .attach 0 5, .attach 1 6, .send 0 false, .send 1 true]
    Config.trace [.failed 0, .returned 1 2 ⟨2, 6, demoGid⟩] (by decide +kernel)
  exact ⟨c, reached, seen, idsMatch_of_reachable demoGid c reached⟩

/-- **Two calls swap their numbers**: the second one takes its attachment first, so each returns
the id of the other's request. -/
theorem send_request_swaps_ids :
    ¬ ∀ c, (calls demoGid).Reachable Machine.anyStep c → IdsMatch c.trace := by
  intro always
  obtain ⟨c, reached, seen⟩ := Machine.exists_of_schedule (calls demoGid) Machine.anyStep
    [.number, .number, .attach 1 5, .attach 0 6, .send 1 true, .send 0 true]
    Config.trace [.returned 1 2 ⟨1, 5, demoGid⟩, .returned 0 1 ⟨2, 6, demoGid⟩]
    (by decide +kernel)
  have wire := (always c reached).wire 1 2 ⟨1, 5, demoGid⟩ (seen ▸ List.mem_cons_self)
  exact absurd wire (by decide)

end ClientImpl

end RosZ.Rmw
