import RosZ.Lib.Names
import Mathlib.Algebra.BigOperators.Group.List.Basic
import Mathlib.Algebra.Order.Ring.Nat

/-!
# Slices by octets

A text is its characters; positions in it count the octets of its UTF-8 form.  A slice fails
when an end of it lies behind the text or inside a character.

* `slice_eq_some_iff` says which slices there are.
* `find` is the position of the first match of a pattern (`find_first`, `find_of_absent`).
  What stands in front of a match can always be sliced off, and what stands behind it.
* `octets` is the UTF-8 form itself; `getElem?_octets_last` reads the octet in front of a
  position when it is looked for in ASCII.
-/

namespace Slices

/-- The number of octets of a text. -/
def byteLength (s : List Char) : ℕ := (s.map Char.utf8Size).sum

@[simp] theorem byteLength_nil : byteLength [] = 0 := rfl

@[simp] theorem byteLength_cons (c : Char) (s : List Char) :
    byteLength (c :: s) = c.utf8Size + byteLength s := List.sum_cons

@[simp] theorem byteLength_append (front back : List Char) :
    byteLength (front ++ back) = byteLength front + byteLength back := by
  rw [byteLength, List.map_append, List.sum_append]
  rfl

theorem byteLength_pos {s : List Char} : 0 < byteLength s ↔ s ≠ [] := by
  rcases s with _ | ⟨c, rest⟩
  · simp
  · have positive := c.utf8Size_pos
    rw [byteLength_cons]
    exact iff_of_true (by omega) (List.cons_ne_nil _ _)

/-! ## Cutting -/

/-- The parts in front of a position and behind it. -/
def cut : ℕ → List Char → Option (List Char × List Char)
  | 0, s => some ([], s)
  | _ + 1, [] => none
  | n + 1, c :: s =>
      if c.utf8Size ≤ n + 1 then
        (cut (n + 1 - c.utf8Size) s).map fun parts => (c :: parts.1, parts.2)
      else none

theorem cut_append (front back : List Char) :
    cut (byteLength front) (front ++ back) = some (front, back) := by
  induction front with
  | nil =>
      show cut 0 back = _
      rw [cut]
  | cons c rest ih =>
      have positive := c.utf8Size_pos
      obtain ⟨n, size⟩ : ∃ n, byteLength (c :: rest) = n + 1 :=
        Nat.exists_eq_add_one.mpr (byteLength_pos.mpr (List.cons_ne_nil c rest))
      rw [byteLength_cons] at size
      have left : n + 1 - c.utf8Size = byteLength rest := by omega
      rw [byteLength_cons, size, List.cons_append, cut, if_pos (by omega), left, ih]
      rfl

theorem cut_eq_some_iff {n : ℕ} {s front back : List Char} :
    cut n s = some (front, back) ↔ s = front ++ back ∧ byteLength front = n := by
  constructor
  · intro found
    induction s generalizing n front with
    | nil =>
        rcases n with _ | n
        · rw [cut, Option.some.injEq, Prod.mk.injEq] at found
          obtain ⟨rfl, rfl⟩ := found
          exact ⟨rfl, rfl⟩
        · cases found
    | cons c rest ih =>
        rcases n with _ | n
        · rw [cut, Option.some.injEq, Prod.mk.injEq] at found
          obtain ⟨rfl, rfl⟩ := found
          exact ⟨rfl, rfl⟩
        · rw [cut] at found
          split_ifs at found with fits
          obtain ⟨⟨front', back'⟩, inner, same⟩ := Option.map_eq_some_iff.mp found
          rw [Prod.mk.injEq] at same
          obtain ⟨rfl, rfl⟩ := same
          obtain ⟨rfl, size⟩ := ih inner
          refine ⟨rfl, ?_⟩
          rw [byteLength_cons, size]
          omega
  · rintro ⟨rfl, rfl⟩
    exact cut_append front back

/-- `&s[start..stop]`. -/
def slice (start stop : ℕ) (s : List Char) : Option (List Char) :=
  (cut stop s).bind fun parts => (cut start parts.1).map Prod.snd

theorem slice_eq_some_iff {start stop : ℕ} {s middle : List Char} :
    slice start stop s = some middle ↔
      ∃ front back, s = front ++ middle ++ back ∧ byteLength front = start ∧
        byteLength (front ++ middle) = stop := by
  unfold slice
  rw [Option.bind_eq_some_iff]
  constructor
  · rintro ⟨⟨upper, back⟩, outer, inner⟩
    obtain ⟨⟨front, rest⟩, lower, rfl⟩ := Option.map_eq_some_iff.mp inner
    obtain ⟨rfl, stops⟩ := cut_eq_some_iff.mp outer
    obtain ⟨rfl, starts⟩ := cut_eq_some_iff.mp lower
    exact ⟨front, back, rfl, starts, stops⟩
  · rintro ⟨front, back, rfl, starts, stops⟩
    refine ⟨(front ++ middle, back), cut_eq_some_iff.mpr ⟨rfl, stops⟩, ?_⟩
    exact Option.map_eq_some_iff.mpr ⟨(front, middle), cut_eq_some_iff.mpr ⟨rfl, starts⟩, rfl⟩

/-- The slice between two parts. -/
theorem slice_middle {start stop : ℕ} (front middle back : List Char)
    (starts : byteLength front = start) (stops : byteLength (front ++ middle) = stop) :
    slice start stop (front ++ middle ++ back) = some middle :=
  slice_eq_some_iff.mpr ⟨front, back, rfl, starts, stops⟩

/-- What stands in front of a position. -/
theorem slice_front (front back : List Char) :
    slice 0 (byteLength front) (front ++ back) = some front :=
  slice_middle [] front back rfl rfl

/-- What stands behind a character of one octet. -/
theorem slice_behind {c : Char} (small : c.utf8Size = 1) (front back : List Char) :
    slice (byteLength front + 1) (byteLength (front ++ c :: back)) (front ++ c :: back) =
      some back := by
  refine slice_eq_some_iff.mpr ⟨front ++ [c], [], ?_, ?_, ?_⟩
  · simp
  · rw [byteLength_append, byteLength_cons, small, byteLength_nil]
  · simp

/-- What stands between two characters of one octet, the second of which ends the text. -/
theorem slice_between {c d : Char} (small : c.utf8Size = 1) (small' : d.utf8Size = 1)
    (front inner : List Char) :
    slice (byteLength front + 1) (byteLength (front ++ c :: (inner ++ [d])) - 1)
      (front ++ c :: (inner ++ [d])) = some inner := by
  refine slice_eq_some_iff.mpr ⟨front ++ [c], [d], ?_, ?_, ?_⟩
  · simp
  · rw [byteLength_append, byteLength_cons, small, byteLength_nil]
  · simp only [byteLength_append, byteLength_cons, byteLength_nil, small, small']
    omega

/-- A slice between a position and one in front of it. -/
theorem slice_of_lt {start stop : ℕ} (s : List Char) (turned : stop < start) :
    slice start stop s = none := by
  rw [Option.eq_none_iff_forall_not_mem]
  intro middle found
  obtain ⟨front, back, -, starts, stops⟩ := slice_eq_some_iff.mp found
  rw [byteLength_append] at stops
  omega

/-! ## Finding -/

/-- `s.find(pattern)`: where the first match starts. -/
def find (pattern : List Char) : List Char → Option ℕ
  | [] => if pattern = [] then some 0 else none
  | c :: s =>
      if pattern <+: c :: s then some 0 else (find pattern s).map (c.utf8Size + ·)

section Matches

variable {pattern : List Char}

theorem find_first (some : pattern ≠ []) {front : List Char}
    (absent : ¬ pattern <:+: front ++ pattern.dropLast) (back : List Char) :
    find pattern (front ++ (pattern ++ back)) = .some (byteLength front) := by
  induction front with
  | nil =>
      obtain ⟨c, rest, rfl⟩ := List.exists_cons_of_ne_nil some
      have found : c :: rest <+: c :: (rest ++ back) := ⟨back, rfl⟩
      rw [List.nil_append, List.cons_append, find, if_pos found]
      rfl
  | cons c rest ih =>
      rw [List.cons_append, List.infix_cons_iff, not_or] at absent
      have here : ¬ pattern <+: c :: (rest ++ (pattern ++ back)) := by
        intro found
        apply absent.1
        refine List.prefix_of_prefix_length_le found
          (Names.dropLast_prefix_append (c :: rest) back) ?_
        simp only [List.length_cons, List.length_append, List.length_dropLast]
        omega
      rw [List.cons_append, find, if_neg here, ih absent.2, byteLength_cons]
      rfl

theorem find_of_absent {s : List Char} (absent : ¬ pattern <:+: s) : find pattern s = none := by
  induction s with
  | nil =>
      rw [find, if_neg]
      rintro rfl
      exact absent (List.nil_infix)
  | cons c rest ih =>
      rw [List.infix_cons_iff, not_or] at absent
      rw [find, if_neg absent.1, ih absent.2]
      rfl

end Matches

/-- The first occurrence of a character. -/
theorem find_char {c : Char} {front : List Char} (absent : c ∉ front) (back : List Char) :
    find [c] (front ++ c :: back) = some (byteLength front) := by
  refine find_first (List.cons_ne_nil c []) ?_ back
  rw [List.dropLast_singleton, List.append_nil, List.singleton_infix_iff]
  exact absent

theorem find_char_of_absent {c : Char} {s : List Char} (absent : c ∉ s) : find [c] s = none := by
  refine find_of_absent ?_
  rw [List.singleton_infix_iff]
  exact absent

/-- A text with a certain character has a first one. -/
theorem exists_first_char {c : Char} {s : List Char} (inside : c ∈ s) :
    ∃ front back, s = front ++ c :: back ∧ c ∉ front := by
  obtain ⟨front, back, rfl, absent⟩ :=
    Names.exists_first (List.cons_ne_nil c []) ((List.singleton_infix_iff c s).mpr inside)
  rw [List.dropLast_singleton, List.append_nil, List.singleton_infix_iff] at absent
  exact ⟨front, back, rfl, absent⟩

/-! ## Octets -/

/-- The UTF-8 form of a text. -/
def octets (s : List Char) : List UInt8 := s.flatMap String.utf8EncodeChar

theorem length_octets (s : List Char) : (octets s).length = byteLength s := by
  induction s with
  | nil => rfl
  | cons c rest ih =>
      rw [octets, List.flatMap_cons, List.length_append, String.length_utf8EncodeChar,
        byteLength_cons, ← ih]
      rfl

/-- A character outside ASCII has no octet in ASCII, so not at its end either. -/
theorem getLast?_utf8EncodeChar {c a : Char} (ascii : a.toNat < 128) :
    (String.utf8EncodeChar c).getLast? = some a.toUInt8 ↔ c = a := by
  have value : a.toUInt8.toNat = a.toNat := by
    show a.toNat % 256 = a.toNat
    omega
  have continuation : ∀ n : ℕ, UInt8.ofNat (n % 64 + 128) ≠ a.toUInt8 := by
    intro n same
    have numbers := congrArg UInt8.toNat same
    rw [value, UInt8.toNat_ofNat'] at numbers
    omega
  have outside : 127 < c.toNat → c ≠ a := by
    rintro large rfl
    omega
  fun_cases String.utf8EncodeChar c
  · next v small =>
    have small : c.toNat < 128 := Nat.lt_succ_of_le small
    rw [List.getLast?_singleton, Option.some.injEq]
    constructor
    · intro same
      have numbers := congrArg UInt8.toNat same
      rw [value, UInt8.toNat_ofNat'] at numbers
      have number : c.toNat % 256 = a.toNat := numbers
      exact Char.toNat_inj.mp (by omega)
    · rintro rfl
      rfl
  · next v large _ =>
    have large : 127 < c.toNat := Nat.not_le.mp large
    refine iff_of_false (fun same => ?_) (outside large)
    exact continuation v (Option.some.inj same)
  · next v large _ _ =>
    have large : 127 < c.toNat := Nat.not_le.mp large
    refine iff_of_false (fun same => ?_) (outside large)
    exact continuation v (Option.some.inj same)
  · next v large _ _ =>
    have large : 127 < c.toNat := Nat.not_le.mp large
    refine iff_of_false (fun same => ?_) (outside large)
    exact continuation v (Option.some.inj same)

/-- The octet in front of a position belongs to the character in front of it. -/
theorem getElem?_octets_last {front : List Char} (some : front ≠ []) (back : List Char) {a : Char}
    (ascii : a.toNat < 128) :
    (octets (front ++ back))[byteLength front - 1]? = .some a.toUInt8 ↔
      front.getLast? = .some a := by
  have inside : byteLength front - 1 < (octets front).length := by
    have positive := byteLength_pos.mpr some
    rw [length_octets]
    omega
  obtain ⟨init, c, rfl⟩ := (List.eq_nil_or_concat' front).resolve_left some
  have last : (octets (init ++ [c])).getLast? = (String.utf8EncodeChar c).getLast? := by
    rw [octets, List.flatMap_append, List.flatMap_singleton]
    exact List.getLast?_append_of_ne_nil _ String.utf8EncodeChar_ne_nil
  have split : octets (init ++ [c] ++ back) = octets (init ++ [c]) ++ octets back :=
    List.flatMap_append
  rw [split, List.getElem?_append_left inside, ← length_octets, ← List.getLast?_eq_getElem?, last,
    getLast?_utf8EncodeChar ascii, List.getLast?_concat, Option.some.injEq]

end Slices
