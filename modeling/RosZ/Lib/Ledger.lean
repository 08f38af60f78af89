import Mathlib.Data.List.AList
import Mathlib.Data.List.Induction
import Mathlib.Data.List.Nodup

/-!
# Ledgers of requests and answers

A table of requests that wait for an answer, seen through what was done to it: a request is
opened under a key, and closed when its answer is sent.  `outstanding` reads off a ledger which
request waits under a key.

A ledger is `Regular` when requests are opened under free keys only and each closing closes the
request that waits there.  Then a table that follows the ledger never loses a request, and
`Regular.nodup_answers` says that none is closed twice, if none was opened twice.
-/

namespace Ledger

variable {κ ι : Type*}

inductive Entry (κ ι : Type*) where
  | opened (key : κ) (item : ι)
  | closed (key : κ) (item : ι)
deriving DecidableEq

def Entry.key : Entry κ ι → κ
  | .opened key _ | .closed key _ => key

/-- The requests opened, oldest first. -/
def requests (ledger : List (Entry κ ι)) : List ι :=
  ledger.filterMap fun
    | .opened _ item => some item
    | .closed _ _ => none

/-- The requests closed, oldest first. -/
def answers (ledger : List (Entry κ ι)) : List ι :=
  ledger.filterMap fun
    | .opened _ _ => none
    | .closed _ item => some item

section

variable {ledger : List (Entry κ ι)} {k : κ} {item : ι}

@[simp] theorem requests_opened :
    requests (ledger ++ [.opened k item]) = requests ledger ++ [item] := by simp [requests]

@[simp] theorem requests_closed :
    requests (ledger ++ [.closed k item]) = requests ledger := by simp [requests]

@[simp] theorem answers_opened :
    answers (ledger ++ [.opened k item]) = answers ledger := by simp [answers]

@[simp] theorem answers_closed :
    answers (ledger ++ [.closed k item]) = answers ledger ++ [item] := by simp [answers]

end

section Outstanding

variable [DecidableEq κ]

/-- What waits under a key after the entry, when `held` waited there before. -/
def Entry.after (k : κ) (held : Option ι) : Entry κ ι → Option ι
  | .opened key item => if key = k then some item else held
  | .closed key _ => if key = k then none else held

/-- The request that waits under a key. -/
def outstanding (ledger : List (Entry κ ι)) (k : κ) : Option ι :=
  ledger.foldl (Entry.after k) none

variable {ledger : List (Entry κ ι)} {k : κ} {item : ι}

@[simp] theorem outstanding_nil : outstanding ([] : List (Entry κ ι)) k = none := rfl

@[simp] theorem outstanding_snoc (entry : Entry κ ι) :
    outstanding (ledger ++ [entry]) k = entry.after k (outstanding ledger k) := by
  rw [outstanding, List.foldl_append]
  rfl

theorem Entry.after_of_ne {entry : Entry κ ι} (other : entry.key ≠ k) (held : Option ι) :
    entry.after k held = held := by
  cases entry with
  | opened key item => exact if_neg other
  | closed key item => exact if_neg other

omit [DecidableEq κ] in
/-- The last entry of a ledger is the one in question, or behind it. -/
theorem snoc_eq_iff {entry found : Entry κ ι} {before after : List (Entry κ ι)} :
    ledger ++ [entry] = before ++ found :: after ↔
      (ledger = before ∧ entry = found ∧ after = []) ∨
        ∃ after', after = after' ++ [entry] ∧ ledger = before ++ found :: after' := by
  rcases List.eq_nil_or_concat after with rfl | ⟨after, last, rfl⟩
  · constructor
    · intro same
      obtain ⟨rfl, last⟩ := List.append_inj' same rfl
      exact .inl ⟨rfl, List.singleton_inj.mp last, rfl⟩
    · rintro (⟨rfl, rfl, -⟩ | ⟨after', empty, -⟩)
      · rfl
      · simp at empty
  · rw [List.concat_eq_append]
    constructor
    · intro same
      rw [← List.cons_append, ← List.append_assoc] at same
      obtain ⟨rfl, final⟩ := List.append_inj' same rfl
      exact .inr ⟨after, by rw [List.singleton_inj.mp final], rfl⟩
    · rintro (⟨-, -, empty⟩ | ⟨after', same, rfl⟩)
      · simp at empty
      · rw [same, List.append_assoc, List.cons_append]

/-- A request waits under a key when the last entry about the key has opened it. -/
theorem outstanding_eq_some_iff :
    outstanding ledger k = some item ↔ ∃ before after,
      ledger = before ++ .opened k item :: after ∧ ∀ entry ∈ after, entry.key ≠ k := by
  induction ledger using List.reverseRecOn with
  | nil => simp
  | append_singleton ledger entry ih =>
      rw [outstanding_snoc]
      simp only [snoc_eq_iff]
      constructor
      · intro waits
        by_cases about : entry.key = k
        · cases entry with
          | opened key item' =>
              obtain rfl : key = k := about
              rw [Entry.after, if_pos rfl, Option.some.injEq] at waits
              exact ⟨ledger, [], .inl ⟨rfl, by rw [waits], rfl⟩, by simp⟩
          | closed key item' =>
              obtain rfl : key = k := about
              rw [Entry.after, if_pos rfl] at waits
              cases waits
        · rw [Entry.after_of_ne about] at waits
          obtain ⟨before, after, same, quiet⟩ := ih.mp waits
          refine ⟨before, after ++ [entry], .inr ⟨after, rfl, same⟩, fun later member => ?_⟩
          rcases List.mem_append.mp member with earlier | last
          · exact quiet later earlier
          · rwa [List.mem_singleton.mp last]
      · rintro ⟨before, after, ⟨rfl, rfl, rfl⟩ | ⟨after', rfl, same⟩, quiet⟩
        · exact if_pos rfl
        · rw [Entry.after_of_ne (quiet entry (by simp))]
          exact ih.mpr ⟨before, after', same, fun later member => quiet later (by simp [member])⟩

/-- Requests are opened under free keys, and closed where they wait. -/
inductive Regular : List (Entry κ ι) → Prop
  | nil : Regular []
  | opened {ledger : List (Entry κ ι)} {k : κ} (item : ι) (regular : Regular ledger)
      (free : outstanding ledger k = none) : Regular (ledger ++ [.opened k item])
  | closed {ledger : List (Entry κ ι)} {k : κ} {item : ι} (regular : Regular ledger)
      (waits : outstanding ledger k = some item) : Regular (ledger ++ [.closed k item])

/-- What a regular ledger says of requests that are opened once. -/
structure Settled (ledger : List (Entry κ ι)) : Prop where
  answers : (answers ledger).Nodup
  opened : ∀ item ∈ Ledger.answers ledger, item ∈ requests ledger
  waiting : ∀ k item, outstanding ledger k = some item →
    item ∈ requests ledger ∧ item ∉ Ledger.answers ledger
  once : ∀ k k' item, outstanding ledger k = some item → outstanding ledger k' = some item → k = k'

theorem outstanding_opened_eq_some {k k' : κ} {item item' : ι}
    (waits : outstanding (ledger ++ [.opened k item]) k' = some item') :
    (k' = k ∧ item' = item) ∨ (k' ≠ k ∧ outstanding ledger k' = some item') := by
  rw [outstanding_snoc, Entry.after] at waits
  split at waits
  · next same => exact .inl ⟨same.symm, (Option.some.inj waits).symm⟩
  · next other => exact .inr ⟨Ne.symm other, waits⟩

theorem outstanding_closed_eq_some {k k' : κ} {item item' : ι}
    (waits : outstanding (ledger ++ [.closed k item]) k' = some item') :
    k' ≠ k ∧ outstanding ledger k' = some item' := by
  rw [outstanding_snoc, Entry.after] at waits
  split at waits
  · cases waits
  · next other => exact ⟨Ne.symm other, waits⟩

/-- A request that was not opened before is opened. -/
theorem Settled.open_ (settled : Settled ledger) {k : κ} {item : ι}
    (fresh : item ∉ requests ledger) : Settled (ledger ++ [.opened k item]) := by
  refine ⟨?_, ?_, fun k' item' waits => ?_, fun k' k'' item' waits waits' => ?_⟩
  · rw [answers_opened]
    exact settled.answers
  · intro item' member
    rw [answers_opened] at member
    rw [requests_opened]
    exact List.mem_append_left _ (settled.opened item' member)
  · rw [requests_opened, answers_opened]
    rcases outstanding_opened_eq_some waits with ⟨-, rfl⟩ | ⟨-, before⟩
    · exact ⟨by simp, fun member => fresh (settled.opened _ member)⟩
    · obtain ⟨seen, unanswered⟩ := settled.waiting k' item' before
      exact ⟨List.mem_append_left _ seen, unanswered⟩
  · rcases outstanding_opened_eq_some waits with ⟨rfl, rfl⟩ | ⟨-, before⟩
    · rcases outstanding_opened_eq_some waits' with ⟨rfl, -⟩ | ⟨-, before'⟩
      · rfl
      · exact absurd (settled.waiting k'' _ before').1 fresh
    · rcases outstanding_opened_eq_some waits' with ⟨-, rfl⟩ | ⟨-, before'⟩
      · exact absurd (settled.waiting k' _ before).1 fresh
      · exact settled.once k' k'' item' before before'

/-- A request that waits is answered. -/
theorem Settled.close (settled : Settled ledger) {k : κ} {item : ι}
    (waits : outstanding ledger k = some item) : Settled (ledger ++ [.closed k item]) := by
  obtain ⟨seen, unanswered⟩ := settled.waiting k item waits
  refine ⟨?_, ?_, fun k' item' waits' => ?_, fun k' k'' item' waits' waits'' => ?_⟩
  · rw [answers_closed, List.nodup_append]
    refine ⟨settled.answers, List.nodup_singleton _, ?_⟩
    rintro item' member _ last rfl
    exact unanswered (List.mem_singleton.mp last ▸ member)
  · intro item' member
    rw [answers_closed] at member
    rw [requests_closed]
    rcases List.mem_append.mp member with earlier | last
    · exact settled.opened item' earlier
    · rwa [List.mem_singleton.mp last]
  · obtain ⟨other, before⟩ := outstanding_closed_eq_some waits'
    rw [requests_closed, answers_closed]
    obtain ⟨seen', unanswered'⟩ := settled.waiting k' item' before
    refine ⟨seen', fun member => ?_⟩
    rcases List.mem_append.mp member with earlier | last
    · exact unanswered' earlier
    · obtain rfl := List.mem_singleton.mp last
      exact other (settled.once k' k item' before waits)
  · obtain ⟨-, before⟩ := outstanding_closed_eq_some waits'
    obtain ⟨-, before'⟩ := outstanding_closed_eq_some waits''
    exact settled.once k' k'' item' before before'

theorem Regular.settled (regular : Regular ledger) (distinct : (requests ledger).Nodup) :
    Settled ledger := by
  induction regular with
  | nil => exact ⟨List.nodup_nil, by simp [Ledger.answers], by simp, by simp⟩
  | @opened ledger k item regular free ih =>
      rw [requests_opened, List.nodup_append] at distinct
      refine (ih distinct.1).open_ fun seen => ?_
      exact distinct.2.2 item seen item (List.mem_singleton.mpr rfl) rfl
  | @closed ledger k item regular waits ih =>
      rw [requests_closed] at distinct
      exact (ih distinct).close waits

/-- No request is answered twice. -/
theorem Regular.nodup_answers (regular : Regular ledger) (distinct : (requests ledger).Nodup) :
    (answers ledger).Nodup :=
  (regular.settled distinct).answers

/-- No request is opened under a key where another waits. -/
theorem Regular.free (regular : Regular ledger) {before after : List (Entry κ ι)}
    (split : ledger = before ++ .opened k item :: after) : outstanding before k = none := by
  induction regular generalizing after with
  | nil => simp at split
  | opened item' regular free ih =>
      rcases snoc_eq_iff.mp split with ⟨rfl, same, -⟩ | ⟨after', -, earlier⟩
      · cases same
        exact free
      · exact ih earlier
  | closed regular waits ih =>
      rcases snoc_eq_iff.mp split with ⟨-, same, -⟩ | ⟨after', -, earlier⟩
      · cases same
      · exact ih earlier

/-- A request that was opened is closed or still waits. -/
theorem Regular.answered_or_waiting (regular : Regular ledger) (seen : .opened k item ∈ ledger) :
    item ∈ answers ledger ∨ outstanding ledger k = some item := by
  induction regular with
  | nil => cases seen
  | @opened ledger k' item' regular free ih =>
      rw [answers_opened, outstanding_snoc, Entry.after]
      rcases List.mem_append.mp seen with earlier | last
      · refine (ih earlier).imp_right fun waiting => ?_
        have other : k' ≠ k := by
          rintro rfl
          rw [free] at waiting
          cases waiting
        rwa [if_neg other]
      · cases List.mem_singleton.mp last
        exact .inr (if_pos rfl)
  | @closed ledger k' item' regular waits ih =>
      rw [answers_closed, outstanding_snoc, Entry.after]
      rcases List.mem_append.mp seen with earlier | last
      · rcases ih earlier with answered | waiting
        · exact .inl (List.mem_append_left _ answered)
        · by_cases same : k' = k
          · subst same
            obtain rfl := Option.some.inj (waits.symm.trans waiting)
            exact .inl (List.mem_append_right _ (List.mem_singleton.mpr rfl))
          · rw [if_neg same]
            exact .inr waiting
      · cases List.mem_singleton.mp last

/-! ## Tables -/

/-- The table holds the requests that wait. -/
def Holds (table : AList fun _ : κ => ι) (ledger : List (Entry κ ι)) : Prop :=
  ∀ k, table.lookup k = outstanding ledger k

variable {table : AList fun _ : κ => ι}

theorem holds_empty : Holds (∅ : AList fun _ : κ => ι) [] := fun _ => rfl

theorem Holds.insert (holds : Holds table ledger) (k : κ) (item : ι) :
    Holds (table.insert k item) (ledger ++ [.opened k item]) := by
  intro k'
  rw [outstanding_snoc, Entry.after]
  by_cases same : k = k'
  · subst same
    rw [AList.lookup_insert, if_pos rfl]
  · rw [AList.lookup_insert_ne (Ne.symm same), if_neg same, holds k']

theorem Holds.erase (holds : Holds table ledger) (k : κ) (item : ι) :
    Holds (table.erase k) (ledger ++ [.closed k item]) := by
  intro k'
  rw [outstanding_snoc, Entry.after]
  by_cases same : k = k'
  · subst same
    rw [AList.lookup_erase, if_pos rfl]
  · rw [AList.lookup_erase_ne (Ne.symm same), if_neg same, holds k']

end Outstanding

end Ledger
