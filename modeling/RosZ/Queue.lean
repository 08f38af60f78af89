import Mathlib.Data.List.Basic

/-!
# Bounded queues

The queue behind subscribers and servers: it drops the oldest element when full,
which is what the depth of a QoS profile asks for.  Blocking, waking and time-outs
are left to the components that wait on a queue; this module has the critical
sections, which act on the buffered items alone.
-/

namespace RosZ

/-- A queue that drops the oldest element when full. -/
structure BoundedQueue (α : Type*) where
  /-- The buffered items, oldest first. -/
  data : List α
  /-- Maximum capacity; the largest `usize` stands for a queue that keeps all. -/
  capacity : ℕ

namespace BoundedQueue

variable {α : Type*}

def new (capacity : ℕ) : BoundedQueue α := { data := [], capacity }

/-- Push an item, dropping the oldest if at capacity; also whether one was
dropped. -/
def push (q : BoundedQueue α) (item : α) : BoundedQueue α × Bool :=
  if q.capacity ≤ q.data.length then ({ q with data := q.data.tail ++ [item] }, true)
  else ({ q with data := q.data ++ [item] }, false)

/-- Non-blocking receive. -/
def tryRecv (q : BoundedQueue α) : Option (α × BoundedQueue α) :=
  match q.data with
  | [] => none
  | item :: rest => some (item, { q with data := rest })

/-- A push loses at most the oldest items and adds the new one behind. -/
theorem data_push (q : BoundedQueue α) (item : α) :
    ∃ kept, kept <:+ q.data ∧ (q.push item).1.data = kept ++ [item] := by
  unfold push
  split
  · exact ⟨q.data.tail, List.tail_suffix _, rfl⟩
  · exact ⟨q.data, List.suffix_rfl, rfl⟩

theorem capacity_push (q : BoundedQueue α) (item : α) : (q.push item).1.capacity = q.capacity := by
  unfold push
  split <;> rfl

theorem capacity_of_tryRecv {q rest : BoundedQueue α} {item : α}
    (received : q.tryRecv = some (item, rest)) : rest.capacity = q.capacity := by
  unfold tryRecv at received
  split at received
  · cases received
  · cases received
    rfl

theorem tryRecv_eq_some {q rest : BoundedQueue α} {item : α}
    (received : q.tryRecv = some (item, rest)) : q.data = item :: rest.data := by
  unfold tryRecv at received
  split at received
  · cases received
  · next head tail buffered =>
      obtain ⟨rfl, rfl⟩ := Prod.mk.inj (Option.some.inj received)
      exact buffered

end BoundedQueue

end RosZ
