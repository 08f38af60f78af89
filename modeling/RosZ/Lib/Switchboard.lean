import Mathlib.Data.List.Basic
import Mathlib.Logic.Function.Basic

/-!
# Switchboards

A switchboard connects sources to lines, and what comes from a source goes out on the line that it
is connected to at that moment.  A source has at most one line at a time; a line that was replaced
or disconnected is not used again.

`lineOf` reads off the history of the switchboard what a line is connected to and what it is to
carry: what has come from its source while it was connected to it.  `Wired` says that the
connections are those of the history.  Each event changes the line of one source and no other
(`lineOf_item_self`, `lineOf_item_of_ne` and so on), and keeps `Wired`.
-/

namespace Switchboard

variable {κ α : Type*}

inductive Event (κ α : Type*) where
  | connect (line : ℕ) (source : κ)
  | disconnect (source : κ)
  | item (source : κ) (a : α)

/-- What the history says of a line: the source that it is connected to, and what it is to carry. -/
structure Line (κ α : Type*) where
  source : Option κ
  due : List α

variable [DecidableEq κ]

def Line.after (line : ℕ) (l : Line κ α) : Event κ α → Line κ α
  | .connect line' source =>
      if line' = line then { l with source := some source }
      -- the source has another line now
      else if l.source = some source then { l with source := none }
      else l
  | .disconnect source => if l.source = some source then { l with source := none } else l
  | .item source a => if l.source = some source then { l with due := l.due ++ [a] } else l

/-- What the history says of a line. -/
def lineOf (events : List (Event κ α)) (line : ℕ) : Line κ α :=
  events.foldl (Line.after line) { source := none, due := [] }

/-- The connections of a switchboard are those of its history, and the lines from `next` on were
not used. -/
structure Wired (events : List (Event κ α)) (route : κ → Option ℕ) (next : ℕ) : Prop where
  route_iff : ∀ source line, route source = some line ↔ (lineOf events line).source = some source
  unused : ∀ line, next ≤ line → lineOf events line = { source := none, due := [] }

theorem wired_nil : Wired ([] : List (Event κ α)) (fun _ => none) 0 where
  route_iff source line := by simp [lineOf]
  unused line _ := rfl

section Lines

variable {events : List (Event κ α)} {route : κ → Option ℕ} {next line : ℕ} {source : κ} {a : α}

theorem lineOf_snoc (event : Event κ α) (line : ℕ) :
    lineOf (events ++ [event]) line = (lineOf events line).after line event := by
  rw [lineOf, List.foldl_append]
  rfl

theorem lineOf_connect_self : lineOf (events ++ [.connect line source]) line =
    { lineOf events line with source := some source } := by
  rw [lineOf_snoc, Line.after, if_pos rfl]

/-- The line that the source had before is free. -/
theorem Wired.lineOf_connect_old (wired : Wired events route next) (other : next ≠ line)
    (old : route source = some line) : lineOf (events ++ [.connect next source]) line =
      { lineOf events line with source := none } := by
  rw [lineOf_snoc, Line.after, if_neg other, if_pos ((wired.route_iff source line).mp old)]

theorem Wired.lineOf_connect_of_ne (wired : Wired events route next) (other : next ≠ line)
    (apart : route source ≠ some line) :
    lineOf (events ++ [.connect next source]) line = lineOf events line := by
  rw [lineOf_snoc, Line.after, if_neg other, if_neg (mt (wired.route_iff source line).mpr apart)]

theorem Wired.lineOf_disconnect_self (wired : Wired events route next)
    (old : route source = some line) : lineOf (events ++ [.disconnect source]) line =
      { lineOf events line with source := none } := by
  rw [lineOf_snoc, Line.after, if_pos ((wired.route_iff source line).mp old)]

theorem Wired.lineOf_disconnect_of_ne (wired : Wired events route next)
    (apart : route source ≠ some line) :
    lineOf (events ++ [.disconnect source]) line = lineOf events line := by
  rw [lineOf_snoc, Line.after, if_neg (mt (wired.route_iff source line).mpr apart)]

/-- An item goes out on the line of its source. -/
theorem Wired.lineOf_item_self (wired : Wired events route next)
    (here : route source = some line) : lineOf (events ++ [.item source a]) line =
      { lineOf events line with due := (lineOf events line).due ++ [a] } := by
  rw [lineOf_snoc, Line.after, if_pos ((wired.route_iff source line).mp here)]

theorem Wired.lineOf_item_of_ne (wired : Wired events route next)
    (apart : route source ≠ some line) :
    lineOf (events ++ [.item source a]) line = lineOf events line := by
  rw [lineOf_snoc, Line.after, if_neg (mt (wired.route_iff source line).mpr apart)]

/-- A line has one source. -/
theorem Wired.source_unique (wired : Wired events route next) {source' : κ}
    (first : route source = some line) (second : route source' = some line) : source = source' := by
  rw [wired.route_iff] at first second
  exact Option.some.inj (first.symm.trans second)

theorem Wired.lt_next (wired : Wired events route next) (here : route source = some line) :
    line < next := by
  by_contra late
  rw [wired.route_iff, wired.unused line (Nat.le_of_not_lt late)] at here
  cases here

/-- A source is connected to a new line. -/
theorem Wired.connect (wired : Wired events route next) :
    Wired (events ++ [.connect next source]) (Function.update route source (some next))
      (next + 1) where
  route_iff source' line := by
    by_cases same : source' = source
    · subst same
      rw [Function.update_self]
      by_cases new : next = line
      · subst new
        simp [lineOf_connect_self]
      · refine iff_of_false (fun found => new (Option.some.inj found)) ?_
        by_cases old : route source' = some line
        · rw [wired.lineOf_connect_old new old]
          nofun
        · rw [wired.lineOf_connect_of_ne new old, ← wired.route_iff]
          exact old
    · rw [Function.update_of_ne same]
      by_cases new : next = line
      · subst new
        rw [lineOf_connect_self]
        refine iff_of_false (fun found => ?_) fun found => same (Option.some.inj found).symm
        exact Nat.lt_irrefl _ (wired.lt_next found)
      · by_cases old : route source = some line
        · rw [wired.lineOf_connect_old new old]
          exact iff_of_false (fun found => same (wired.source_unique found old)) nofun
        · rw [wired.lineOf_connect_of_ne new old]
          exact wired.route_iff source' line
  unused line late := by
    have earlier : next ≤ line := Nat.le_of_succ_le late
    rw [wired.lineOf_connect_of_ne (Nat.ne_of_lt late)]
    · exact wired.unused line earlier
    · exact fun old => Nat.not_lt.mpr earlier (wired.lt_next old)

/-- A source is disconnected. -/
theorem Wired.disconnect (wired : Wired events route next) :
    Wired (events ++ [.disconnect source]) (Function.update route source none) next where
  route_iff source' line := by
    by_cases old : route source = some line
    · rw [wired.lineOf_disconnect_self old]
      refine iff_of_false ?_ nofun
      by_cases same : source' = source
      · subst same
        rw [Function.update_self]
        nofun
      · rw [Function.update_of_ne same]
        exact fun found => same (wired.source_unique found old)
    · rw [wired.lineOf_disconnect_of_ne old]
      by_cases same : source' = source
      · subst same
        rw [Function.update_self]
        exact iff_of_false nofun fun found => old ((wired.route_iff source' line).mpr found)
      · rw [Function.update_of_ne same]
        exact wired.route_iff source' line
  unused line late := by
    rw [wired.lineOf_disconnect_of_ne]
    · exact wired.unused line late
    · exact fun old => Nat.not_lt.mpr late (wired.lt_next old)

/-- An item changes no connection. -/
theorem Wired.item (wired : Wired events route next) :
    Wired (events ++ [.item source a]) route next where
  route_iff source' line := by
    rw [lineOf_snoc, Line.after, wired.route_iff]
    split_ifs <;> rfl
  unused line late := by
    rw [wired.lineOf_item_of_ne]
    · exact wired.unused line late
    · exact fun here => Nat.not_lt.mpr late (wired.lt_next here)

end Lines

end Switchboard
