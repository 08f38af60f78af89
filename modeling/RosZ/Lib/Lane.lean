import Mathlib.Data.List.Induction

/-!
# Lanes between many senders and many receivers

A sender is connected to receivers, one after the other, and from then on whatever it sends goes on
its lane to each of them.  `routeOf` reads off what has happened which lanes there are and what
each of them is to carry.

The items on a lane arrive in order.  A lossless lane brings all of them; any other may lose those
that are on it.  `Carries` relates what was sent on a lane to what has arrived and what is on its
way.
-/

namespace Lane

variable {σ ρ α : Type*}

/-! ## What is sent -/

inductive Event (σ ρ α : Type*) where
  | connect (sender : σ) (receiver : ρ)
  | send (sender : σ) (item : α)

/-- Whether there is a lane, and what was sent on it. -/
structure Route (α : Type*) where
  connected : Bool
  sent : List α

section Routes

variable [DecidableEq σ] [DecidableEq ρ] {events : List (Event σ ρ α)} {sender sender' : σ}
  {receiver receiver' : ρ} {item : α}

def Route.after (sender : σ) (receiver : ρ) (r : Route α) : Event σ ρ α → Route α
  | .connect sender' receiver' =>
      if sender' = sender ∧ receiver' = receiver then { r with connected := true } else r
  | .send sender' item =>
      if sender' = sender ∧ r.connected = true then { r with sent := r.sent ++ [item] } else r

/-- What the history says of the lane from a sender to a receiver. -/
def routeOf (events : List (Event σ ρ α)) (sender : σ) (receiver : ρ) : Route α :=
  events.foldl (Route.after sender receiver) { connected := false, sent := [] }

theorem routeOf_snoc (event : Event σ ρ α) :
    routeOf (events ++ [event]) sender receiver =
      (routeOf events sender receiver).after sender receiver event := by
  rw [routeOf, List.foldl_append]
  rfl

theorem routeOf_connect_self : routeOf (events ++ [.connect sender receiver]) sender receiver =
    { routeOf events sender receiver with connected := true } := by
  rw [routeOf_snoc, Route.after, if_pos ⟨rfl, rfl⟩]

theorem routeOf_connect_of_ne (other : ¬ (sender' = sender ∧ receiver' = receiver)) :
    routeOf (events ++ [.connect sender' receiver']) sender receiver =
      routeOf events sender receiver := by
  rw [routeOf_snoc, Route.after, if_neg other]

/-- An item goes on the lanes that its sender has. -/
theorem routeOf_send_self (connected : (routeOf events sender receiver).connected = true) :
    routeOf (events ++ [.send sender item]) sender receiver =
      { routeOf events sender receiver with
        sent := (routeOf events sender receiver).sent ++ [item] } := by
  rw [routeOf_snoc, Route.after, if_pos ⟨rfl, connected⟩]

theorem routeOf_send_of_ne
    (other : ¬ (sender' = sender ∧ (routeOf events sender receiver).connected = true)) :
    routeOf (events ++ [.send sender' item]) sender receiver = routeOf events sender receiver := by
  rw [routeOf_snoc, Route.after, if_neg other]

/-- Nothing is sent where there is no lane. -/
theorem sent_of_not_connected (none : (routeOf events sender receiver).connected = false) :
    (routeOf events sender receiver).sent = [] := by
  induction events using List.reverseRecOn with
  | nil => rfl
  | append_singleton events event ih =>
      cases event with
      | connect sender' receiver' =>
          by_cases here : sender' = sender ∧ receiver' = receiver
          · obtain ⟨rfl, rfl⟩ := here
            rw [routeOf_connect_self] at none
            cases none
          · rw [routeOf_connect_of_ne here] at none ⊢
            exact ih none
      | send sender' item =>
          by_cases here : sender' = sender ∧ (routeOf events sender receiver).connected = true
          · obtain ⟨rfl, connected⟩ := here
            rw [routeOf_send_self connected] at none
            exact absurd (connected.symm.trans none) nofun
          · rw [routeOf_send_of_ne here] at none ⊢
            exact ih none

end Routes

/-! ## What arrives -/

/-- What has arrived on a lane and what is on it, against what was sent. -/
structure Carries (lossless : Prop) (sent arrived waiting : List α) : Prop where
  sublist : (arrived ++ waiting).Sublist sent
  all : lossless → arrived ++ waiting = sent

namespace Carries

variable {lossless : Prop} {sent arrived waiting : List α} {item : α}

theorem nil : Carries lossless ([] : List α) [] [] where
  sublist := List.Sublist.refl _
  all _ := rfl

theorem send (carries : Carries lossless sent arrived waiting) :
    Carries lossless (sent ++ [item]) arrived (waiting ++ [item]) where
  sublist := by
    rw [← List.append_assoc]
    exact carries.sublist.append_right [item]
  all never := by rw [← List.append_assoc, carries.all never]

/-- The first item arrives. -/
theorem arrive (carries : Carries lossless sent arrived (item :: waiting)) :
    Carries lossless sent (arrived ++ [item]) waiting where
  sublist := by
    rw [List.append_assoc]
    exact carries.sublist
  all never := by
    rw [List.append_assoc]
    exact carries.all never

/-- An item is lost. -/
theorem lose (carries : Carries lossless sent arrived waiting) (lossy : ¬ lossless) (i : ℕ) :
    Carries lossless sent arrived (waiting.eraseIdx i) where
  sublist := ((List.eraseIdx_sublist waiting i).append_left arrived).trans carries.sublist
  all never := absurd never lossy

theorem mono {stronger : Prop} (carries : Carries lossless sent arrived waiting)
    (implies : stronger → lossless) : Carries stronger sent arrived waiting where
  sublist := carries.sublist
  all never := carries.all (implies never)

theorem mem_of_arrived (carries : Carries lossless sent arrived waiting) (here : item ∈ arrived) :
    item ∈ sent :=
  carries.sublist.subset (List.mem_append_left _ here)

theorem mem_of_waiting (carries : Carries lossless sent arrived waiting) (here : item ∈ waiting) :
    item ∈ sent :=
  carries.sublist.subset (List.mem_append_right _ here)

end Carries

/-! ## What arrives at a receiver -/

section Arrivals

variable [DecidableEq σ] {items : List (σ × α)} {sender sender' : σ} {item : α}

/-- What a receiver has got from a sender. -/
def arrivedFrom (sender : σ) (items : List (σ × α)) : List α :=
  items.filterMap fun noted => if noted.1 = sender then some noted.2 else none

theorem arrivedFrom_snoc_self :
    arrivedFrom sender (items ++ [(sender, item)]) = arrivedFrom sender items ++ [item] := by
  simp [arrivedFrom]

theorem arrivedFrom_snoc_of_ne (other : sender' ≠ sender) :
    arrivedFrom sender (items ++ [(sender', item)]) = arrivedFrom sender items := by
  simp [arrivedFrom, other]

theorem mem_arrivedFrom : item ∈ arrivedFrom sender items ↔ (sender, item) ∈ items := by
  simp [arrivedFrom, and_comm]

end Arrivals

end Lane
