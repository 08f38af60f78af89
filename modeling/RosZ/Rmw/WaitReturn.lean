import Mathlib.Data.List.Nodup
import Mathlib.Data.List.ReduceOption
import RosZ.Rmw.WaitSet

/-!
# What `rmw_wait` reports

When something is ready, `rmw_wait` goes through the arrays that it was given, puts a null in
place of each entry whose entity is not ready, and resets the guard conditions that are.  When
the time-out expires it returns without touching them.

## The sweep

The test of the loop changes while the loop runs: a guard condition is reset where it is found
ready, and found unready where the array names it again.  `StillReady` is the test as it stands
after some places have been visited, and `Swept` describes the arrays at that point: places not
yet visited are untouched, and a visited place keeps its entry when the entity was still ready
as the loop came by.

## The condition

`Reports` is what a caller expects of the arrays and guard conditions, in terms of the
readiness before the return.  It holds in two cases only: something is ready and no triggered
guard condition is listed twice, or all entries were null from the outset.  A call that times
out with anything in its arrays leaves all of it looking ready.
-/

namespace RosZ.Rmw

open Transition

variable {α : Type}

/-! ## Places -/

namespace WaitArrays

variable (a : WaitArrays)

@[simp] theorem slots_setNull (slot : Slot) : (a.setNull slot).slots = a.slots := by
  cases slot <;> simp [setNull, slots]

theorem join_getElem?_set_none {β : Type} (entries : List (Option β)) (i : ℕ) :
    ((entries.set i none)[i]?).join = none := by
  rw [List.getElem?_set_self']
  cases entries[i]? <;> rfl

theorem entry_setNull_self (slot : Slot) : (a.setNull slot).entry slot = none := by
  cases slot <;> simp only [setNull, entry, join_getElem?_set_none, Option.map_none]

theorem entry_setNull_of_ne {slot slot' : Slot} (other : slot' ≠ slot) :
    (a.setNull slot).entry slot' = a.entry slot' := by
  cases slot <;> cases slot' <;> first
    | rfl
    | next i j =>
        have apart : i ≠ j := fun same => other (by rw [same])
        simp only [setNull, entry, List.getElem?_set_ne apart]

theorem nodup_slots : a.slots.Nodup := by
  have places : ∀ {place : ℕ → Slot} (n : ℕ), Function.Injective place →
      ((List.range n).map place).Nodup := fun n injective => List.nodup_range.map injective
  refine ((((places _ fun _ _ => Slot.subscription.inj).append
    (places _ fun _ _ => Slot.service.inj) ?_).append
    (places _ fun _ _ => Slot.client.inj) ?_).append
    (places _ fun _ _ => Slot.guardCondition.inj) ?_).append
    (places _ fun _ _ => Slot.event.inj) ?_
  all_goals
    intro slot first second
    obtain ⟨i, -, rfl⟩ := List.mem_map.mp second
    simp at first

/-- Each place is visited once. -/
theorem not_mem_of_slots {before after : List Slot} {slot : Slot}
    (order : a.slots = before ++ slot :: after) : slot ∉ before := by
  intro earlier
  have distinct := a.nodup_slots
  rw [order] at distinct
  exact (List.nodup_append.mp distinct).2.2 slot earlier slot List.mem_cons_self rfl

theorem mem_range_of_join {β : Type} {entries : List (Option β)} {i : ℕ} {item : β}
    (found : (entries[i]?).join = some item) : i ∈ List.range entries.length := by
  obtain ⟨present, -⟩ := List.getElem?_eq_some_iff.mp (Option.join_eq_some_iff.mp found)
  exact List.mem_range.mpr present

theorem mem_slots_of_entry {slot : Slot} {h : Handle} (found : a.entry slot = some h) :
    slot ∈ a.slots := by
  cases slot with
  | subscription i | service i | client i | guardCondition i | event i =>
      obtain ⟨item, stored, -⟩ := Option.map_eq_some_iff.mp found
      simpa [slots] using mem_range_of_join stored

theorem mem_reduceOption_of_join {β : Type} {entries : List (Option β)} {i : ℕ} {item : β}
    (found : (entries[i]?).join = some item) : item ∈ entries.reduceOption :=
  List.reduceOption_mem_iff.mpr (List.mem_of_getElem? (Option.join_eq_some_iff.mp found))

/-- What is in the arrays is looked at. -/
theorem mem_handles_of_entry {slot : Slot} {h : Handle} (found : a.entry slot = some h) :
    h ∈ a.waitSet.handles := by
  cases slot with
  | subscription i | service i | client i | guardCondition i | event i =>
      obtain ⟨item, stored, rfl⟩ := Option.map_eq_some_iff.mp found
      simpa [waitSet, WaitSetImpl.handles] using mem_reduceOption_of_join stored

end WaitArrays

/-! ## The sweep -/

def Handle.IsGuardCondition (h : Handle) : Prop := ∃ g, h = .guardCondition g

/-- A reset makes that guard condition unready and changes nothing else. -/
theorem Entities.isReady_reset (e : Entities α) (found h : Handle) :
    (e.reset found).isReady h = true ↔
      e.isReady h = true ∧ ¬ (found.IsGuardCondition ∧ h = found) := by
  constructor
  · intro ready
    refine ⟨isReady_of_reset ready, ?_⟩
    rintro ⟨⟨g, rfl⟩, rfl⟩
    simp [reset, isReady, GuardConditionImpl.reset] at ready
  · rintro ⟨ready, other⟩
    cases found with
    | guardCondition g =>
        cases h with
        | guardCondition g' =>
            have apart : g' ≠ g := fun same => other ⟨⟨g, rfl⟩, by rw [same]⟩
            simpa [reset, isReady, apart] using ready
        | _ => exact ready
    | _ => exact ready

/-- The entity passes the test of the loop after the places `visited`: it was ready, and has not
been reset since. -/
def StillReady (ready : Handle → Bool) (a : WaitArrays) (visited : List Slot) (h : Handle) :
    Prop :=
  ready h = true ∧ ¬ (h.IsGuardCondition ∧ ∃ slot ∈ visited, a.entry slot = some h)

/-- The arrays `b` and the readiness `now` that are left after the places `visited`, when the
arrays were `a` and the readiness was `ready`. -/
structure Swept (ready : Handle → Bool) (a : WaitArrays) (visited : List Slot)
    (now : Handle → Bool) (b : WaitArrays) : Prop where
  now : ∀ h, now h = true ↔ StillReady ready a visited h
  slots : b.slots = a.slots
  untouched : ∀ slot ∉ visited, b.entry slot = a.entry slot
  visited : ∀ before slot after, visited = before ++ slot :: after → ∀ h,
    b.entry slot = some h ↔ a.entry slot = some h ∧ StillReady ready a before h

theorem Swept.start (ready : Handle → Bool) (a : WaitArrays) : Swept ready a [] ready a where
  now h := by simp [StillReady]
  slots := rfl
  untouched _ _ := rfl
  visited before slot after split := by simp at split

/-- After one more place: `found` is the entry there, and `b'` and `now'` are what the loop makes
of it. -/
theorem Swept.visit {ready now now' : Handle → Bool} {a b b' : WaitArrays} {visited : List Slot}
    {slot : Slot} (swept : Swept ready a visited now b) (unvisited : slot ∉ visited)
    (after : ∀ h, now' h = true ↔
      now h = true ∧ ¬ (h.IsGuardCondition ∧ a.entry slot = some h))
    (slots : b'.slots = b.slots) (others : ∀ slot' ≠ slot, b'.entry slot' = b.entry slot')
    (kept : ∀ h, b'.entry slot = some h ↔ a.entry slot = some h ∧ now h = true) :
    Swept ready a (visited ++ [slot]) now' b' where
  now h := by
    rw [after, swept.now, StillReady, StillReady]
    constructor
    · rintro ⟨⟨was, before⟩, here⟩
      refine ⟨was, ?_⟩
      rintro ⟨condition, slot', member, found⟩
      rcases List.mem_append.mp member with earlier | last
      · exact before ⟨condition, slot', earlier, found⟩
      · obtain rfl := List.mem_singleton.mp last
        exact here ⟨condition, found⟩
    · rintro ⟨was, nowhere⟩
      refine ⟨⟨was, ?_⟩, ?_⟩
      · rintro ⟨condition, slot', member, found⟩
        exact nowhere ⟨condition, slot', List.mem_append_left _ member, found⟩
      · rintro ⟨condition, found⟩
        exact nowhere ⟨condition, slot, List.mem_append_right _ (List.mem_singleton.mpr rfl), found⟩
  slots := slots.trans swept.slots
  untouched slot' absent := by
    rw [List.mem_append, not_or, List.mem_singleton] at absent
    rw [others slot' absent.2, swept.untouched slot' absent.1]
  visited before slot' after split h := by
    rcases split_append split with ⟨after', earlier⟩ | ⟨before', rfl, last⟩
    · have other : slot' ≠ slot := by
        rintro rfl
        exact unvisited (by rw [earlier]; simp)
      rw [others slot' other, swept.visited before slot' after' earlier h]
    · obtain ⟨rfl, rfl, -⟩ : before' = [] ∧ slot = slot' ∧ after = [] := by
        cases before' with
        | nil =>
            obtain ⟨same, empty⟩ := List.cons.inj last
            exact ⟨rfl, same, empty.symm⟩
        | cons _ _ => simp at last
      rw [kept, List.append_nil, ← swept.now]

section Places

variable {ready now : Handle → Bool} {a b : WaitArrays} {visited : List Slot} {slot : Slot}
  {h : Handle}

/-- A null entry stays null. -/
theorem Swept.skip (swept : Swept ready a visited now b) (unvisited : slot ∉ visited)
    (null : a.entry slot = none) : Swept ready a (visited ++ [slot]) now b := by
  have absent : ∀ h, a.entry slot ≠ some h := by simp [null]
  refine swept.visit unvisited (fun k => ?_) rfl (fun _ _ => rfl) fun k => ?_
  · simp only [absent, and_false, not_false_eq_true, and_true]
  · rw [swept.untouched slot unvisited]
    simp only [absent, false_and]

/-- The entry of something unready becomes null. -/
theorem Swept.drop (swept : Swept ready a visited now b) (unvisited : slot ∉ visited)
    (present : a.entry slot = some h) (unready : ¬ now h = true) :
    Swept ready a (visited ++ [slot]) now (b.setNull slot) := by
  refine swept.visit unvisited (fun k => ?_) (b.slots_setNull slot)
    (fun slot' other => b.entry_setNull_of_ne other) fun k => ?_
  · refine (and_iff_left_of_imp ?_).symm
    rintro isReady ⟨-, found⟩
    obtain rfl := Option.some.inj (present.symm.trans found)
    exact unready isReady
  · rw [b.entry_setNull_self, present]
    constructor
    · intro kept
      cases kept
    · rintro ⟨found, isReady⟩
      obtain rfl := Option.some.inj found
      exact absurd isReady unready

/-- The entry of something ready stays, and the entity is reset. -/
theorem Swept.keep {e : Entities α} (swept : Swept ready a visited e.isReady b)
    (unvisited : slot ∉ visited) (present : a.entry slot = some h) (isReady : e.isReady h = true) :
    Swept ready a (visited ++ [slot]) (e.reset h).isReady b := by
  refine swept.visit unvisited (fun k => ?_) rfl (fun _ _ => rfl) fun k => ?_
  · rw [e.isReady_reset, present]
    refine and_congr_right fun _ => not_congr ⟨?_, ?_⟩
    · rintro ⟨condition, rfl⟩
      exact ⟨condition, rfl⟩
    · rintro ⟨condition, found⟩
      obtain rfl := Option.some.inj found
      exact ⟨condition, rfl⟩
  · rw [swept.untouched slot unvisited, present]
    refine (and_iff_left_of_imp fun found => ?_).symm
    obtain rfl := Option.some.inj found
    exact isReady

end Places

/-! ## What a caller expects -/

/-- The arrays as the caller finds them after the return. -/
def Outcome.arrays (given : WaitArrays) : Outcome → WaitArrays
  | .ok arrays => arrays
  | .timeout => given

/-- The return reports what was ready in `e`, and leaves `e'`: each place keeps its entry if that
was ready and is null otherwise, and the guard conditions reported are reset. -/
structure Reports (e : Entities α) (given : WaitArrays) (outcome : Outcome) (e' : Entities α) :
    Prop where
  slots : (outcome.arrays given).slots = given.slots
  entries : ∀ slot, (outcome.arrays given).entry slot = (given.entry slot).filter e.isReady
  reset : ∀ g, e'.isReady (.guardCondition g) = true ↔ e.isReady (.guardCondition g) = true ∧
    ∀ slot, (outcome.arrays given).entry slot ≠ some (.guardCondition g)

/-- No triggered guard condition is listed twice. -/
def ResetOnce (e : Entities α) (a : WaitArrays) : Prop :=
  ∀ slot slot' h, a.entry slot = some h → a.entry slot' = some h → h.IsGuardCondition →
    e.isReady h = true → slot = slot'

section Reports

variable {e e' : Entities α} {a b : WaitArrays}

/-- An entry that is reset on the way is not reported again. -/
theorem Swept.reset_before (swept : Swept e.isReady a a.slots e'.isReady b)
    {before after : List Slot} {slot slot' : Slot} {h : Handle}
    (order : a.slots = before ++ slot' :: after) (earlier : slot ∈ before)
    (found : a.entry slot = some h) (condition : h.IsGuardCondition) :
    b.entry slot' ≠ some h := by
  intro kept
  obtain ⟨-, -, nowhere⟩ := (swept.visited before slot' after order h).mp kept
  exact nowhere ⟨condition, slot, earlier, found⟩

theorem Reports.resetOnce (reports : Reports e a (.ok b) e')
    (swept : Swept e.isReady a a.slots e'.isReady b) : ResetOnce e a := by
  intro slot slot' h found found' condition ready
  by_contra apart
  have kept : ∀ place, a.entry place = some h → b.entry place = some h := by
    intro place there
    rw [show b.entry place = (a.entry place).filter e.isReady from reports.entries place, there,
      Option.filter_some_pos ready]
  obtain ⟨before, after, order⟩ := List.append_of_mem (a.mem_slots_of_entry found')
  have member := a.mem_slots_of_entry found
  rw [order, List.mem_append, List.mem_cons] at member
  rcases member with earlier | same | later
  · exact swept.reset_before order earlier found condition (kept slot' found')
  · exact apart same
  · obtain ⟨between, rest, rfl⟩ := List.append_of_mem later
    have order' : a.slots = (before ++ slot' :: between) ++ slot :: rest := by
      rw [order, List.append_assoc, List.cons_append]
    exact swept.reset_before order' (by simp) found' condition (kept slot found)

theorem Swept.entry_iff (swept : Swept e.isReady a a.slots e'.isReady b) (once : ResetOnce e a)
    (slot : Slot) (h : Handle) :
    b.entry slot = some h ↔ a.entry slot = some h ∧ e.isReady h = true := by
  by_cases member : slot ∈ a.slots
  · obtain ⟨before, after, order⟩ := List.append_of_mem member
    rw [swept.visited before slot after order h]
    refine and_congr_right fun found => ?_
    constructor
    · rintro ⟨ready, -⟩
      exact ready
    · intro ready
      refine ⟨ready, ?_⟩
      rintro ⟨condition, slot', earlier, found'⟩
      obtain rfl := once slot slot' h found found' condition ready
      exact a.not_mem_of_slots order earlier
  · have absent : ∀ k, a.entry slot ≠ some k := fun k found =>
      member (a.mem_slots_of_entry found)
    rw [swept.untouched slot member]
    constructor
    · intro found
      exact absurd found (absent h)
    · rintro ⟨found, -⟩
      exact absurd found (absent h)

theorem Swept.reports (swept : Swept e.isReady a a.slots e'.isReady b) (once : ResetOnce e a) :
    Reports e a (.ok b) e' where
  slots := swept.slots
  entries slot := by
    ext h
    rw [Option.filter_eq_some_iff]
    exact swept.entry_iff once slot h
  reset g := by
    show _ ↔ _ ∧ ∀ slot, b.entry slot ≠ some (.guardCondition g)
    rw [swept.now, StillReady]
    refine and_congr_right fun ready => ?_
    constructor
    · intro nowhere slot kept
      obtain ⟨found, -⟩ := (swept.entry_iff once slot _).mp kept
      exact nowhere ⟨⟨g, rfl⟩, slot, a.mem_slots_of_entry found, found⟩
    · rintro unreported ⟨-, slot, -, found⟩
      exact unreported slot ((swept.entry_iff once slot _).mpr ⟨found, ready⟩)

/-- A time-out leaves the arrays as they are, which is a report only of arrays full of nulls. -/
theorem reports_timeout_iff (unready : e.anyReady a = false)
    (same : ∀ h, e'.isReady h = e.isReady h) :
    Reports e a .timeout e' ↔ ∀ slot, a.entry slot = none := by
  constructor
  · intro reports slot
    by_contra present
    obtain ⟨h, found⟩ := Option.ne_none_iff_exists'.mp present
    have filtered : a.entry slot = (a.entry slot).filter e.isReady := reports.entries slot
    rw [found, eq_comm, Option.filter_eq_some_iff] at filtered
    have ready : e.anyReady a = true :=
      List.any_eq_true.mpr ⟨h, a.mem_handles_of_entry found, filtered.2⟩
    rw [unready] at ready
    cases ready
  · intro empty
    refine ⟨rfl, fun slot => ?_, fun g => ?_⟩
    · show a.entry slot = (a.entry slot).filter e.isReady
      rw [empty slot, Option.filter_none]
    · rw [same]
      refine (and_iff_left fun slot => ?_).symm
      show a.entry slot ≠ _
      rw [empty slot]
      exact Option.some_ne_none _ ∘ Eq.symm

end Reports

/-! ## Quiet runs -/

/-- The waiter has not looked at any entity, since the call or since it was last awake. -/
def Phase.Fresh (a : WaitArrays) : Phase → Prop
  | .polling rest => rest = a.waitSet.handles
  | .checking _ _ rest => rest = a.waitSet.handles
  | .updating _ => False
  | _ => True

/-- The waiter is inside a call with the arrays `a` and has yet to look at them. -/
def WaitState.Awaits (s : WaitState α) (w : WaiterId) (a : WaitArrays) : Prop :=
  ∃ phase, s.waiters w = some ⟨a, phase⟩ ∧ phase.Fresh a

/-- The waiter makes no new call, and nobody changes what is ready, but for the resets of the waiter
itself. -/
def Quiet (w : WaiterId) (c : Config (WaitState α) Event) (label : Label α) : Prop :=
  (∀ arrays timeout, label ≠ .call w arrays timeout) ∧
    (label = .update w ∨ ∀ s' observed, c.state.step label = some (s', observed) →
      s'.entities.isReady = c.state.entities.isReady)

/-- In a quiet run from `c` to `c'` the waiter goes on until its call returns. -/
def ReturnsQuietly (entities : Entities α) (w : WaiterId) (outcome : Outcome)
    (c c' : Config (WaitState α) Event) : Prop :=
  ∃ c₁ label, (rmwWait entities).Runs (Quiet w) c c₁ ∧ Quiet w c₁ label ∧
    (rmwWait entities).next c₁ label = some c' ∧ c'.trace = c₁.trace ++ [.returned w outcome]

/-- The entities before `rest` were looked at, and none of them is ready. -/
def LookedUpTo (ready : Handle → Bool) (a : WaitArrays) (rest : List Handle) : Prop :=
  ∃ looked, a.waitSet.handles = looked ++ rest ∧ ∀ h ∈ looked, ready h = false

theorem LookedUpTo.start (ready : Handle → Bool) (a : WaitArrays) :
    LookedUpTo ready a a.waitSet.handles :=
  ⟨[], rfl, fun _ member => absurd member List.not_mem_nil⟩

theorem LookedUpTo.next {ready : Handle → Bool} {a : WaitArrays} {h : Handle} {rest : List Handle}
    (looked : LookedUpTo ready a (h :: rest)) (unready : ready h = false) :
    LookedUpTo ready a rest := by
  obtain ⟨before, order, none⟩ := looked
  refine ⟨before ++ [h], by rw [order, List.append_assoc, List.singleton_append], ?_⟩
  intro k member
  rcases List.mem_append.mp member with earlier | same
  · exact none k earlier
  · rw [List.mem_singleton.mp same]
    exact unready

/-- What the waiter found out before it got to the arrays. -/
def Phase.Looked (ready : Handle → Bool) (a : WaitArrays) : Phase → Prop
  | .polling rest => LookedUpTo ready a rest
  | .checking _ _ rest => LookedUpTo ready a rest
  | .updating _ => False
  | _ => True

theorem Phase.Fresh.looked {a : WaitArrays} {phase : Phase} (fresh : phase.Fresh a)
    (ready : Handle → Bool) : phase.Looked ready a := by
  cases phase with
  | polling rest | checking timeout timedOut rest =>
      obtain rfl : rest = _ := fresh
      exact .start ready a
  | updating rest => exact fresh
  | entering | holding | blocked | woken => trivial

/-- How far a call has got with the arrays `a`, when `ready` was ready before and `now` is. -/
inductive Progress (ready : Handle → Bool) (a : WaitArrays) (now : Handle → Bool) : Waiter → Prop
  | looking {phase : Phase} (same : now = ready) (looked : phase.Looked ready a) :
      Progress ready a now ⟨a, phase⟩
  | updating {b : WaitArrays} {visited rest : List Slot}
      (found : ∃ h ∈ a.waitSet.handles, ready h = true) (order : a.slots = visited ++ rest)
      (swept : Swept ready a visited now b) : Progress ready a now ⟨b, .updating rest⟩

/-- The waiter, if it is still inside its call, has made progress with it. -/
def WaitState.InCall (s : WaitState α) (w : WaiterId) (ready : Handle → Bool) (a : WaitArrays) :
    Prop :=
  ∀ waiter, s.waiters w = some waiter → Progress ready a s.entities.isReady waiter

/-- Who moves in a step, if it is a waiter. -/
def Label.waiter : Label α → Option WaiterId
  | .call w _ _ | .lock w | .block w | .timeOut w | .check w | .update w => some w
  | .arrive _ | .notifyAll | .take _ => none

section Steps

variable {s s' : WaitState α} {w : WaiterId} {label : Label α} {observed : List Event}

/-- How a call ends: at the end of its loop over the arrays, or when it has looked at everything. -/
inductive WaitState.Ending (b : WaitArrays) : Phase → Outcome → Prop
  | ok : Ending b (.updating []) (.ok b)
  | polled : Ending b (.polling []) .timeout
  | checked (timeout : Timeout) (timedOut : Bool) :
      Ending b (.checking timeout timedOut []) .timeout

/-- What a waiter does in a step of its own: it goes on, or its call returns.  Only an update of
its arrays changes entities. -/
inductive WaitState.WaiterStep (s : WaitState α) (label : Label α) (w : WaiterId)
    (s' : WaitState α) : List Event → Prop
  | goesOn (others : ∀ v, v ≠ w → s'.waiters v = s.waiters v)
      (entities : label = .update w ∨ s'.entities = s.entities) : WaiterStep s label w s' []
  | returns {b : WaitArrays} {phase : Phase} {outcome : Outcome}
      (others : ∀ v, v ≠ w → s'.waiters v = s.waiters v) (same : s'.entities = s.entities)
      (there : s.waiters w = some ⟨b, phase⟩) (ends : Ending b phase outcome) :
      WaiterStep s label w s' [.returned w outcome]

theorem WaitState.WaiterStep.setPhase {b : WaitArrays} {phase : Phase}
    (waiters : s'.waiters = (s.setPhase w b phase).waiters)
    (entities : label = .update w ∨ s'.entities = s.entities) : WaiterStep s label w s' [] := by
  refine .goesOn (fun v other => ?_) entities
  rw [waiters]
  exact Function.update_of_ne other ..

theorem WaitState.waiterStep (stepped : s.step label = some (s', observed))
    (own : label.waiter = some w) : WaiterStep s label w s' observed := by
  have elsewhere : ∀ v, v ≠ w → (Function.update s.waiters w none) v = s.waiters v :=
    fun v other => Function.update_of_ne other ..
  cases label with
  | call v arrays timeout =>
      cases own
      simp only [step, call] at stepped
      split at stepped <;> cases stepped
      all_goals exact .setPhase rfl (.inr rfl)
  | lock v =>
      cases own
      simp only [step, lock] at stepped
      split at stepped <;> cases stepped
      all_goals exact .setPhase rfl (.inr rfl)
  | block v =>
      cases own
      simp only [step, block] at stepped
      split at stepped <;> cases stepped
      exact .setPhase rfl (.inr rfl)
  | timeOut v =>
      cases own
      simp only [step, timeOut] at stepped
      split at stepped <;> cases stepped
      exact .setPhase rfl (.inr rfl)
  | check v =>
      cases own
      simp only [step, check] at stepped
      split at stepped
      · split at stepped <;> cases stepped
        all_goals exact .setPhase rfl (.inr rfl)
      · next there =>
          cases stepped
          exact .returns elsewhere rfl there .polled
      · split at stepped <;> cases stepped
        all_goals exact .setPhase rfl (.inr rfl)
      · next there =>
          split at stepped <;> cases stepped
          · exact .returns elsewhere rfl there (.checked _ _)
          · exact .setPhase rfl (.inr rfl)
      · cases stepped
  | update v =>
      cases own
      simp only [step, update] at stepped
      split at stepped
      · split at stepped
        · cases stepped
          exact .setPhase rfl (.inl rfl)
        · split at stepped <;> cases stepped
          all_goals exact .setPhase rfl (.inl rfl)
      · next there =>
          cases stepped
          exact .returns elsewhere rfl there .ok
      · cases stepped
  | arrive | notifyAll | take => cases own

/-- The steps of others can only wake the waiter. -/
theorem WaitState.step_other (stepped : s.step label = some (s', observed))
    (other : label.waiter ≠ some w) :
    (s'.waiters w = s.waiters w ∨ s'.waiters w = (s.waiters w).map wake) ∧
      ∀ outcome, .returned w outcome ∉ observed := by
  cases moves : label.waiter with
  | some v =>
      have apart : w ≠ v := by
        rintro rfl
        exact other moves
      cases waiterStep stepped moves with
      | goesOn others => exact ⟨.inl (others w apart), by simp⟩
      | returns others => exact ⟨.inl (others w apart), by simp [apart]⟩
  | none =>
      cases label with
      | arrive arrival =>
          obtain ⟨entities, -, same⟩ := Option.map_eq_some_iff.mp stepped
          cases same
          exact ⟨.inl rfl, by simp⟩
      | notifyAll =>
          simp only [step, notifyAll] at stepped
          split at stepped <;> cases stepped
          exact ⟨.inr rfl, by simp⟩
      | take h =>
          cases stepped
          exact ⟨.inl rfl, by simp⟩
      | _ => cases moves

variable {ready : Handle → Bool} {a : WaitArrays}

theorem WaitState.inCall_of_eq {waiter : Waiter} (now : s'.waiters w = some waiter)
    (progress : Progress ready a s'.entities.isReady waiter) : s'.InCall w ready a := by
  intro found there
  obtain rfl := Option.some.inj (now.symm.trans there)
  exact progress

theorem WaitState.inCall_of_none (left : s'.waiters w = none) : s'.InCall w ready a := by
  intro found there
  rw [left] at there
  cases there

theorem Progress.wake {now : Handle → Bool} {waiter : Waiter}
    (progress : Progress ready a now waiter) : Progress ready a now (WaitState.wake waiter) := by
  unfold WaitState.wake
  split
  · next asleep =>
      cases progress with
      | looking same looked => exact .looking same trivial
      | updating found order swept => cases asleep
  · exact progress

/-- A waiter that is not yet at the arrays goes on, and nothing gets ready or unready. -/
theorem Progress.looked {now : Handle → Bool} {b : WaitArrays} {phase phase' : Phase}
    (progress : Progress ready a now ⟨b, phase⟩) (looking : ∀ rest, phase ≠ .updating rest)
    (goesOn : phase.Looked ready a → phase'.Looked ready a) : Progress ready a now ⟨b, phase'⟩ := by
  cases progress with
  | looking same looked => exact .looking same (goesOn looked)
  | updating found order swept => exact absurd rfl (looking _)

theorem WaitState.InCall.lock (inCall : s.InCall w ready a)
    (stepped : s.lock w = some (s', observed)) : s'.InCall w ready a := by
  unfold WaitState.lock at stepped
  split at stepped
  · next there =>
      cases stepped
      have progress := inCall _ there
      exact inCall_of_eq (Function.update_self ..) (progress.looked (by simp) fun _ => trivial)
  · next there =>
      cases stepped
      cases inCall _ there with
      | looking same looked =>
          exact inCall_of_eq (Function.update_self ..)
            (.looking same (.start ready _))
  · cases stepped

theorem WaitState.InCall.block (inCall : s.InCall w ready a)
    (stepped : s.block w = some (s', observed)) : s'.InCall w ready a := by
  unfold WaitState.block at stepped
  split at stepped
  · next there =>
      cases stepped
      have progress := inCall _ there
      exact inCall_of_eq (Function.update_self ..) (progress.looked (by simp) fun _ => trivial)
  · cases stepped

theorem WaitState.InCall.timeOut (inCall : s.InCall w ready a)
    (stepped : s.timeOut w = some (s', observed)) : s'.InCall w ready a := by
  unfold WaitState.timeOut at stepped
  split at stepped
  · next there =>
      cases stepped
      have progress := inCall _ there
      exact inCall_of_eq (Function.update_self ..) (progress.looked (by simp) fun _ => trivial)
  · cases stepped

/-- A waiter looks at one entity: the loop over the arrays begins, or the waiter looks on. -/
theorem Progress.look {now : Handle → Bool} {b : WaitArrays} {phase : Phase} {h : Handle}
    {rest : List Handle} (progress : Progress ready a now ⟨b, phase⟩) (phase' : Phase)
    (looking : phase.Looked ready a → LookedUpTo ready a (h :: rest))
    (goesOn : LookedUpTo ready a rest → phase'.Looked ready a)
    (notYet : ∀ rest, phase ≠ .updating rest) :
    (now h = true → Progress ready a now ⟨b, .updating b.slots⟩) ∧
      (¬ now h = true → Progress ready a now ⟨b, phase'⟩) := by
  cases progress with
  | looking same looked =>
      subst same
      refine ⟨fun found => ?_, fun unready => ?_⟩
      · obtain ⟨before, order, -⟩ := looking looked
        exact .updating ⟨h, by rw [order]; simp, found⟩ rfl (.start now a)
      · exact .looking rfl (goesOn ((looking looked).next (Bool.eq_false_iff.mpr unready)))
  | updating found order swept => exact absurd rfl (notYet _)

theorem WaitState.InCall.check (inCall : s.InCall w ready a)
    (stepped : s.check w = some (s', observed)) : s'.InCall w ready a := by
  unfold WaitState.check at stepped
  split at stepped
  · next arrays h rest there =>
      obtain ⟨begins, goesOn⟩ := (inCall _ there).look (.polling rest) id id (by simp)
      split at stepped
      · next found =>
          cases stepped
          exact inCall_of_eq (Function.update_self ..) (begins found)
      · next unready =>
          cases stepped
          exact inCall_of_eq (Function.update_self ..) (goesOn unready)
  · cases stepped
    exact inCall_of_none (Function.update_self ..)
  · next arrays timeout timedOut h rest there =>
      obtain ⟨begins, goesOn⟩ :=
        (inCall _ there).look (.checking timeout timedOut rest) id id (by simp)
      split at stepped
      · next found =>
          cases stepped
          exact inCall_of_eq (Function.update_self ..) (begins found)
      · next unready =>
          cases stepped
          exact inCall_of_eq (Function.update_self ..) (goesOn unready)
  · next there =>
      split at stepped
      · cases stepped
        exact inCall_of_none (Function.update_self ..)
      · cases stepped
        have progress := inCall _ there
        exact inCall_of_eq (Function.update_self ..) (progress.looked (by simp) fun _ => trivial)
  · cases stepped

theorem WaitState.InCall.update (inCall : s.InCall w ready a)
    (stepped : s.update w = some (s', observed)) : s'.InCall w ready a := by
  unfold WaitState.update at stepped
  split at stepped
  · next b slot rest there =>
      cases inCall _ there with
      | looking same looked => exact looked.elim
      | updating found order swept =>
          next visited =>
          have unvisited := a.not_mem_of_slots order
          have order' : a.slots = (visited ++ [slot]) ++ rest := by
            rw [order, List.append_assoc, List.singleton_append]
          have before := swept.untouched slot unvisited
          split at stepped
          · next null =>
              cases stepped
              exact inCall_of_eq (Function.update_self ..)
                (.updating found order' (swept.skip unvisited (before ▸ null)))
          · next h present =>
              split at stepped
              · next isReady =>
                  cases stepped
                  exact inCall_of_eq (Function.update_self ..)
                    (.updating found order' (swept.keep unvisited (before ▸ present) isReady))
              · next unready =>
                  cases stepped
                  exact inCall_of_eq (Function.update_self ..)
                    (.updating found order' (swept.drop unvisited (before ▸ present) unready))
  · cases stepped
    exact inCall_of_none (Function.update_self ..)
  · cases stepped

/-- **What a quiet step keeps.** -/
theorem WaitState.InCall.step {trace : List Event} (inCall : s.InCall w ready a)
    (quiet : Quiet w ⟨s, trace⟩ label) (stepped : s.step label = some (s', observed)) :
    s'.InCall w ready a := by
  by_cases own : label.waiter = some w
  · cases label with
    | call v arrays timeout =>
        obtain rfl := Option.some.inj own
        exact absurd rfl (quiet.1 arrays timeout)
    | lock v => cases own; exact inCall.lock stepped
    | block v => cases own; exact inCall.block stepped
    | timeOut v => cases own; exact inCall.timeOut stepped
    | check v => cases own; exact inCall.check stepped
    | update v => cases own; exact inCall.update stepped
    | arrive | notifyAll | take => cases own
  · have same : s'.entities.isReady = s.entities.isReady := by
      rcases quiet.2 with rfl | unchanged
      · exact absurd rfl own
      · exact unchanged s' observed stepped
    intro waiter there
    rw [same]
    rcases (step_other stepped own).1 with kept | woken
    · exact inCall waiter (kept ▸ there)
    · rw [woken] at there
      obtain ⟨before, found, rfl⟩ := Option.map_eq_some_iff.mp there
      exact (inCall before found).wake

/-- A call returns at the end of its loop over the arrays, or when it has looked at everything. -/
theorem WaitState.step_returned {outcome : Outcome} (ready : Handle → Bool) (a : WaitArrays)
    (stepped : s.step label = some (s', observed))
    (seen : .returned w outcome ∈ observed) :
    s'.entities = s.entities ∧ ∃ b phase, s.waiters w = some ⟨b, phase⟩ ∧
      ((outcome = .ok b ∧ phase = .updating []) ∨
        (outcome = .timeout ∧ (∀ rest, phase ≠ .updating rest) ∧
          (phase.Looked ready a → LookedUpTo ready a []))) := by
  have own : label.waiter = some w := by
    by_contra other
    exact (step_other stepped other).2 outcome seen
  cases waiterStep stepped own with
  | goesOn => cases seen
  | @returns b phase ended _ same there ends =>
      obtain rfl : outcome = ended := by simpa using seen
      refine ⟨same, b, phase, there, ?_⟩
      cases ends with
      | ok => exact .inl ⟨rfl, rfl⟩
      | polled | checked => exact .inr ⟨rfl, by simp, id⟩

end Steps

/-- A call that awaits its arrays makes the progress of a quiet run. -/
theorem inCall_of_runs {entities : Entities α} {w : WaiterId} {a : WaitArrays}
    {c c' : Config (WaitState α) Event} (awaits : c.state.Awaits w a)
    (run : (rmwWait entities).Runs (Quiet w) c c') :
    c'.state.InCall w c.state.entities.isReady a := by
  refine run.induct (P := fun d => d.state.InCall w c.state.entities.isReady a) ?_ ?_
  · obtain ⟨phase, there, fresh⟩ := awaits
    exact WaitState.inCall_of_eq there (.looking rfl (fresh.looked _))
  · intro d label d' inCall quiet moved
    obtain ⟨observed, stepped, -⟩ := Machine.next_eq_some moved
    exact inCall.step quiet stepped

/-- **When a return reports exactly what is ready.**  Readiness does not change from `c`, where the
waiter has not yet looked at its entities, to `c'`, where the call has returned.  The arrays and
the guard conditions are as they should be if and only if something is ready and no triggered
guard condition is listed twice, or the arrays hold nothing. -/
theorem reports_iff (entities : Entities α) (w : WaiterId) (a : WaitArrays) (outcome : Outcome)
    (c c' : Config (WaitState α) Event) (awaits : c.state.Awaits w a)
    (returns : ReturnsQuietly entities w outcome c c') :
    Reports c.state.entities a outcome c'.state.entities ↔
      (c.state.entities.anyReady a = true ∧ ResetOnce c.state.entities a) ∨
        ∀ slot, a.entry slot = none := by
  obtain ⟨c₁, label, run, -, moved, recorded⟩ := returns
  have inCall := inCall_of_runs awaits run
  obtain ⟨observed, stepped, grown⟩ := Machine.next_eq_some moved
  obtain rfl : observed = [.returned w outcome] :=
    List.append_cancel_left (grown.symm.trans recorded)
  obtain ⟨same, b, phase, there, ended⟩ :=
    WaitState.step_returned c.state.entities.isReady a stepped (List.mem_singleton.mpr rfl)
  have progress := inCall _ there
  rcases ended with ⟨rfl, rfl⟩ | ⟨rfl, early, exhausted⟩
  · cases progress with
    | looking now looked => exact looked.elim
    | updating found order swept =>
        rw [List.append_nil] at order
        subst order
        rw [← same] at swept
        constructor
        · intro reports
          exact .inl ⟨List.any_eq_true.mpr found, reports.resetOnce swept⟩
        · rintro (⟨-, once⟩ | empty)
          · exact swept.reports once
          · refine swept.reports fun slot slot' h found => ?_
            rw [empty slot] at found
            cases found
  · cases progress with
    | updating found order swept => exact absurd rfl (early _)
    | looking now looked =>
        obtain ⟨all, order, unready⟩ := exhausted looked
        rw [List.append_nil] at order
        subst order
        have quiet : c.state.entities.anyReady a = false := by
          rw [Entities.anyReady, List.any_eq_false]
          intro h member
          rw [unready h member]
          exact Bool.false_ne_true
        rw [reports_timeout_iff quiet fun h => by rw [same, now], quiet]
        simp only [Bool.false_eq_true, false_and, false_or]

/-! ## Runs -/

/-- The waiter itself moves. -/
def Label.isOwn (w : WaiterId) : Label α → Bool
  | .lock v | .block v | .timeOut v | .check v | .update v => v == w
  | _ => false

def OwnStep (w : WaiterId) (_ : Config (WaitState α) Event) (label : Label α) : Prop :=
  label.isOwn w = true

instance (w : WaiterId) : DecidableRel (@OwnStep α w) := fun _ _ => instDecidableEqBool ..

/-- A waiter does not disturb itself. -/
theorem quiet_of_ownStep {w : WaiterId} {c : Config (WaitState α) Event} {label : Label α}
    (own : OwnStep w c label) : Quiet w c label := by
  have moves : label.waiter = some w := by
    cases label with
    | lock v | block v | timeOut v | check v | update v => exact congrArg some (beq_iff_eq.mp own)
    | call | arrive | notifyAll | take => cases own
  refine ⟨fun arrays timeout called => ?_, or_iff_not_imp_left.mpr fun notUpdate => ?_⟩
  · rw [called] at own
    cases own
  · intro s' observed stepped
    cases WaitState.waiterStep stepped moves with
    | goesOn _ entities => rw [entities.resolve_left notUpdate]
    | returns _ same => rw [same]

/-- A waiter that has just called with time-out zero. -/
def polls (entities : Entities ℕ) (arrays : WaitArrays) : Config (WaitState ℕ) Event where
  state :=
    { entities
      waiters := Function.update (fun _ => none) 0 (some ⟨arrays, .polling arrays.waitSet.handles⟩)
      mutex := none
      pending := 0 }
  trace := []

theorem awaits_polls (entities : Entities ℕ) (arrays : WaitArrays) :
    (polls entities arrays).state.Awaits 0 arrays :=
  ⟨.polling arrays.waitSet.handles, rfl, rfl⟩

/-- The waiter takes the steps of the schedule and then returns. -/
theorem returnsQuietly_of_schedule {entities : Entities ℕ} {arrays : WaitArrays}
    {schedule : List (Label ℕ)} {outcome : Outcome} {c₁ c' : Config (WaitState ℕ) Event}
    (last : Label ℕ) (own : last.isOwn 0 = true)
    (executed : (rmwWait entities).runLabels (OwnStep 0) (polls entities arrays) schedule = some c₁)
    (moved : (rmwWait entities).next c₁ last = some c')
    (recorded : c'.trace = c₁.trace ++ [.returned 0 outcome]) :
    ReturnsQuietly entities 0 outcome (polls entities arrays) c' :=
  ⟨c₁, last, (Machine.runs_of_runLabels executed).mono fun _ _ => quiet_of_ownStep,
    quiet_of_ownStep own, moved, recorded⟩

/-- A triggered guard condition, and a subscription without a message. -/
def triggeredEntities : Entities ℕ :=
  { demoEntities with guardConditions := fun _ => ⟨true, true⟩ }

/-- The two, and a null entry. -/
def mixedArrays : WaitArrays where
  subscriptions := [none, some 0]
  guardConditions := [some 0]
  services := []
  clients := []
  events := []

theorem resetOnce_mixedArrays : ResetOnce triggeredEntities mixedArrays := by
  have only : ∀ slot h, mixedArrays.entry slot = some h → h.IsGuardCondition →
      slot = .guardCondition 0 := by
    rintro slot h found ⟨g, rfl⟩
    have member : slot ∈ [.subscription 0, .subscription 1, Slot.guardCondition 0] :=
      mixedArrays.mem_slots_of_entry found
    simp only [List.mem_cons, List.not_mem_nil, or_false] at member
    rcases member with rfl | rfl | rfl
    · cases found
    · cases found
    · rfl
  intro slot slot' h found found' condition _
  rw [only slot h found condition, only slot' h found' condition]

/-- The guard condition is reported and reset, the subscription is not. -/
theorem reports_iff_mixedArrays :
    ∃ c', ReturnsQuietly triggeredEntities 0 (.ok ⟨[none, none], [some 0], [], [], []⟩)
        (polls triggeredEntities mixedArrays) c' ∧
      Reports triggeredEntities mixedArrays (.ok ⟨[none, none], [some 0], [], [], []⟩)
        c'.state.entities := by
  obtain ⟨c₁, executed, c', moved, recorded⟩ : ∃ c₁, (rmwWait triggeredEntities).runLabels
      (OwnStep 0) (polls triggeredEntities mixedArrays)
      [.check 0, .check 0, .update 0, .update 0, .update 0] = some c₁ ∧
      ∃ c', (rmwWait triggeredEntities).next c₁ (.update 0) = some c' ∧ c'.trace =
        c₁.trace ++ [.returned 0 (.ok ⟨[none, none], [some 0], [], [], []⟩)] :=
    ⟨_, rfl, _, rfl, rfl⟩
  have returns := returnsQuietly_of_schedule (.update 0) rfl executed moved recorded
  exact ⟨c', returns, (reports_iff triggeredEntities 0 mixedArrays _ _ c'
    (awaits_polls triggeredEntities mixedArrays) returns).mpr
      (.inl ⟨rfl, resetOnce_mixedArrays⟩)⟩

/-- **A call that times out leaves a subscription without a message in its array.** -/
theorem rmwWait_times_out_with_entries :
    ¬ ∀ (w : WaiterId) (a : WaitArrays) (outcome : Outcome) (c c' : Config (WaitState ℕ) Event),
      c.state.Awaits w a → ReturnsQuietly demoEntities w outcome c c' →
      Reports c.state.entities a outcome c'.state.entities := by
  intro always
  obtain ⟨c₁, executed, c', moved, recorded⟩ : ∃ c₁, (rmwWait demoEntities).runLabels
      (OwnStep 0) (polls demoEntities demoArrays) [.check 0] = some c₁ ∧
      ∃ c', (rmwWait demoEntities).next c₁ (.check 0) = some c' ∧
        c'.trace = c₁.trace ++ [.returned 0 .timeout] := ⟨_, rfl, _, rfl, rfl⟩
  have reports := always 0 demoArrays .timeout _ c' (awaits_polls demoEntities demoArrays)
    (returnsQuietly_of_schedule (.check 0) rfl executed moved recorded)
  have nulled : some (Handle.subscription 0) = none := reports.entries (.subscription 0)
  cases nulled

end RosZ.Rmw
