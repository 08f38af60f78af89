import Mathlib.Data.List.Basic
import Mathlib.Data.List.Infix

/-!
# Slash-separated names

Names built by joining segments with a slash, as in `package/kind/Type`.  A segment
is *plain* when it holds no slash itself.  A join determines its first segment when
that is plain (`join_inj`), so joins of different depth are different names.

`stripEnd` is the pair of an `ends_with` test and the slice that drops the ending;
`stripStart` does the same at the other end.
`contains` and `replace` are the operations on substrings of that name; on names of three
plain segments they find and drop the middle one (`contains_segment`, `replace_segment`).
-/

namespace Names

/-- A segment without a separator in it. -/
def Plain (s : String) : Prop := '/' ∉ s.toList

instance (s : String) : Decidable (Plain s) := inferInstanceAs (Decidable (_ ∉ _))

/-- Two segments with a separator between them. -/
def join (p q : String) : String := p ++ "/" ++ q

theorem toList_join (p q : String) : (join p q).toList = p.toList ++ '/' :: q.toList := by
  simp [join, String.toList_append]

theorem join_ne_empty (p q : String) : join p q ≠ "" := by
  intro h
  have := congrArg String.toList h
  simp [toList_join] at this

/-- What stands before the first separator, and what behind it. -/
theorem append_slash_inj {front front' back back' : List Char} (plain : '/' ∉ front)
    (plain' : '/' ∉ front') :
    front ++ '/' :: back = front' ++ '/' :: back' ↔ front = front' ∧ back = back' := by
  have first : ∀ segment rest : List Char, '/' ∉ segment →
      (segment ++ '/' :: rest).takeWhile (· ≠ '/') = segment := by
    intro segment rest plain
    rw [List.takeWhile_append_of_pos]
    · simp
    · intro c member
      rw [decide_eq_true_eq]
      rintro rfl
      exact plain member
  constructor
  · intro same
    have equal : front = front' := by rw [← first front back plain, same, first front' back' plain']
    subst equal
    exact ⟨rfl, (List.cons.inj (List.append_cancel_left same)).2⟩
  · rintro ⟨rfl, rfl⟩
    rfl

theorem join_inj {p q p' q' : String} (hp : Plain p) (hp' : Plain p') :
    join p q = join p' q' ↔ p = p' ∧ q = q' := by
  rw [← String.toList_inj, toList_join, toList_join, append_slash_inj hp hp', String.toList_inj,
    String.toList_inj]

/-- What stands before `ending` when `s` ends with it. -/
def stripEnd (ending s : String) : Option String :=
  if ending.toList.isSuffixOf s.toList then
    some (String.ofList (s.toList.take (s.toList.length - ending.toList.length)))
  else none

@[simp] theorem stripEnd_eq_none {ending s : String} :
    stripEnd ending s = none ↔ ¬ ending.toList <:+ s.toList := by
  simp [stripEnd]

theorem append_of_stripEnd {ending s base : String} (h : stripEnd ending s = some base) :
    s = base ++ ending := by
  unfold stripEnd at h
  split at h
  · next hsuffix =>
    obtain ⟨front, hfront⟩ := List.isSuffixOf_iff_suffix.mp hsuffix
    rw [← hfront, List.length_append, Nat.add_sub_cancel, List.take_left, Option.some.injEq] at h
    rw [← String.toList_inj, ← h, String.toList_append, String.toList_ofList, hfront]
  · cases h

/-- What stands behind `start` when `s` begins with it. -/
def stripStart (start s : String) : Option String :=
  if start.toList.isPrefixOf s.toList then some (String.ofList (s.toList.drop start.toList.length))
  else none

theorem append_of_stripStart {start s rest : String} (h : stripStart start s = some rest) :
    s = start ++ rest := by
  unfold stripStart at h
  split at h
  · next hprefix =>
    obtain ⟨back, hback⟩ := List.isPrefixOf_iff_prefix.mp hprefix
    rw [← hback, List.drop_left, Option.some.injEq] at h
    rw [← String.toList_inj, ← h, String.toList_append, String.toList_ofList, hback]
  · cases h

theorem exists_stripStart {start s : String} (h : start.toList <+: s.toList) :
    ∃ rest, stripStart start s = some rest :=
  ⟨_, if_pos (List.isPrefixOf_iff_prefix.mpr h)⟩

/-! ## Counting separators -/

/-- The number of separators in a name. -/
def slashes (s : String) : ℕ := s.toList.count '/'

theorem plain_iff_slashes {s : String} : Plain s ↔ slashes s = 0 := List.count_eq_zero.symm

theorem slashes_append (s t : String) : slashes (s ++ t) = slashes s + slashes t := by
  simp [slashes, String.toList_append]

theorem slashes_join (p q : String) : slashes (join p q) = slashes p + 1 + slashes q := by
  simp only [slashes, toList_join, List.count_append, List.count_cons_self]
  omega

/-- A join with one separator has plain segments. -/
theorem plain_of_slashes_join {p q : String} (h : slashes (join p q) ≤ 1) : Plain p ∧ Plain q := by
  rw [slashes_join] at h
  exact ⟨plain_iff_slashes.mpr (by omega), plain_iff_slashes.mpr (by omega)⟩

/-! ## Substrings -/

/-- `part` is a substring of `s`. -/
def contains (part s : String) : Bool := part.toList <:+: s.toList

/-- The characters with every match of `pattern` replaced, from the left and without overlap;
`skip` counts the characters of a match that are still to be passed over. -/
def replaceFrom (pattern replacement : List Char) : (skip : ℕ) → List Char → List Char
  | _, [] => []
  | skip + 1, _ :: rest => replaceFrom pattern replacement skip rest
  | 0, c :: rest =>
      if pattern <+: c :: rest then
        replacement ++ replaceFrom pattern replacement (pattern.length - 1) rest
      else c :: replaceFrom pattern replacement 0 rest

/-- All matches of a pattern replaced by another string. -/
def replace (pattern replacement s : String) : String :=
  String.ofList (replaceFrom pattern.toList replacement.toList 0 s.toList)

section Matches

variable {pattern replacement : List Char}

theorem replaceFrom_skip (front back : List Char) :
    replaceFrom pattern replacement front.length (front ++ back) =
      replaceFrom pattern replacement 0 back := by
  induction front with
  | nil => rfl
  | cons c rest ih => exact ih

/-- Without a match nothing is replaced. -/
theorem replaceFrom_of_none {s : List Char} (absent : ¬ pattern <:+: s) :
    replaceFrom pattern replacement 0 s = s := by
  induction s with
  | nil => rfl
  | cons c rest ih =>
      rw [List.infix_cons_iff, not_or] at absent
      rw [replaceFrom, if_neg absent.1, ih absent.2]

theorem dropLast_prefix_append (front back : List Char) :
    front ++ pattern.dropLast <+: front ++ (pattern ++ back) := by
  rw [List.prefix_append_right_inj]
  exact pattern.dropLast_prefix.trans (List.prefix_append pattern back)

/-- The first match is replaced where it stands: no match begins in front of it. -/
theorem replaceFrom_first (some : pattern ≠ []) {front : List Char}
    (absent : ¬ pattern <:+: front ++ pattern.dropLast) (back : List Char) :
    replaceFrom pattern replacement 0 (front ++ (pattern ++ back)) =
      front ++ (replacement ++ replaceFrom pattern replacement 0 back) := by
  induction front with
  | nil =>
      obtain ⟨c, rest, rfl⟩ := List.exists_cons_of_ne_nil some
      have found : c :: rest <+: c :: (rest ++ back) := ⟨back, rfl⟩
      rw [List.nil_append, List.nil_append, List.cons_append, replaceFrom, if_pos found,
        List.length_cons, Nat.add_sub_cancel, replaceFrom_skip]
  | cons c rest ih =>
      rw [List.cons_append, List.infix_cons_iff, not_or] at absent
      have here : ¬ pattern <+: c :: (rest ++ (pattern ++ back)) := by
        intro found
        apply absent.1
        refine List.prefix_of_prefix_length_le found (dropLast_prefix_append (c :: rest) back) ?_
        simp only [List.length_cons, List.length_append, List.length_dropLast]
        omega
      rw [List.cons_append, replaceFrom, if_neg here, ih absent.2, List.cons_append]

/-- Where there is a match, there is a first one. -/
theorem exists_first (some : pattern ≠ []) : ∀ {s : List Char}, pattern <:+: s →
    ∃ front back, s = front ++ (pattern ++ back) ∧ ¬ pattern <:+: front ++ pattern.dropLast
  | [], found => absurd (List.eq_nil_of_infix_nil found) some
  | c :: rest, found => by
      by_cases here : pattern <+: c :: rest
      · obtain ⟨back, same⟩ := here
        refine ⟨[], back, same.symm, fun inside => ?_⟩
        have shorter := inside.length_le
        have positive := List.length_pos_iff.mpr some
        rw [List.nil_append, List.length_dropLast] at shorter
        omega
      · have further := (List.infix_cons_iff.mp found).resolve_left here
        obtain ⟨front, back, rfl, absent⟩ := exists_first some further
        refine ⟨c :: front, back, rfl, fun inside => ?_⟩
        rcases List.infix_cons_iff.mp inside with starts | inside
        · exact here (starts.trans (dropLast_prefix_append (c :: front) back))
        · exact absent inside

/-- Replacing keeps the characters that are in no match. -/
theorem count_le_replaceFrom (some : pattern ≠ []) {c : Char} (other : c ∉ pattern) :
    ∀ s : List Char, s.count c ≤ (replaceFrom pattern replacement 0 s).count c := by
  intro s
  induction length : s.length using Nat.strong_induction_on generalizing s with
  | _ n ih =>
      by_cases found : pattern <:+: s
      · obtain ⟨front, back, rfl, absent⟩ := exists_first some found
        have positive := List.length_pos_iff.mpr some
        have rest := ih back.length (by simp only [← length, List.length_append]; omega) back rfl
        rw [replaceFrom_first some absent]
        simp only [List.count_append, List.count_eq_zero.mpr other]
        omega
      · rw [replaceFrom_of_none found]

/-- A match brings the characters of its replacement in. -/
theorem count_add_le_replaceFrom (some : pattern ≠ []) {c : Char} (other : c ∉ pattern)
    {s : List Char} (found : pattern <:+: s) :
    s.count c + replacement.count c ≤ (replaceFrom pattern replacement 0 s).count c := by
  obtain ⟨front, back, rfl, absent⟩ := exists_first some found
  have rest := @count_le_replaceFrom pattern replacement some c other back
  rw [replaceFrom_first some absent]
  simp only [List.count_append, List.count_eq_zero.mpr other]
  omega

/-- A pattern without a certain character does not reach across it. -/
theorem infix_across {c : Char} (other : c ∉ pattern) (some : pattern ≠ [])
    {front back : List Char} :
    pattern <:+: front ++ c :: back ↔ pattern <:+: front ∨ pattern <:+: back := by
  rw [List.infix_append_iff_ne_nil]
  constructor
  · rintro (inFront | behind | ⟨l, r, -, isSome, rfl, -, starts⟩)
    · exact .inl inFront
    · rcases List.infix_cons_iff.mp behind with starts | inBack
      · obtain ⟨first, rest, rfl⟩ := List.exists_cons_of_ne_nil some
        rw [(List.cons_prefix_cons.mp starts).1] at other
        exact absurd List.mem_cons_self other
      · exact .inr inBack
    · obtain ⟨first, rest, rfl⟩ := List.exists_cons_of_ne_nil isSome
      rw [(List.cons_prefix_cons.mp starts).1] at other
      exact absurd (List.mem_append_right _ List.mem_cons_self) other
  · rintro (inFront | inBack)
    · exact .inl inFront
    · exact .inr (.inl (List.infix_cons_iff.mpr (.inr inBack)))

end Matches

/-- A segment between two separators, as a pattern. -/
def segment (kind : String) : String := "/" ++ kind ++ "/"

theorem toList_segment (kind : String) : (segment kind).toList = '/' :: (kind.toList ++ ['/']) := by
  simp [segment, String.toList_append]

/-- A pattern that starts with a separator leaves plain characters alone. -/
theorem replaceFrom_plain {pattern replacement front : List Char} (plain : '/' ∉ front)
    (back : List Char) :
    replaceFrom ('/' :: pattern) replacement 0 (front ++ back) =
      front ++ replaceFrom ('/' :: pattern) replacement 0 back := by
  induction front with
  | nil => rfl
  | cons c rest ih =>
      have noMatch : ¬ '/' :: pattern <+: c :: (rest ++ back) := by
        rintro ⟨tail, same⟩
        rw [List.cons_append, List.cons.injEq] at same
        exact plain (same.1 ▸ List.mem_cons_self)
      rw [List.cons_append, replaceFrom, if_neg noMatch, List.cons_append,
        ih fun inside => plain (List.mem_cons_of_mem _ inside)]

/-- Replacing a segment between separators by one separator at most halves their number. -/
theorem count_replaceFrom {kind : List Char} (plain : '/' ∉ kind) (skip : ℕ) (s : List Char) :
    s.count '/' ≤ (s.take skip).count '/' +
      2 * (replaceFrom ('/' :: (kind ++ ['/'])) ['/'] skip s).count '/' := by
  induction s generalizing skip with
  | nil => simp
  | cons c rest ih =>
      cases skip with
      | succ skip =>
          have below := ih skip
          rw [replaceFrom, List.take_succ_cons, List.count_cons, List.count_cons]
          omega
      | zero =>
          rw [replaceFrom, List.take_zero, List.count_nil]
          by_cases isMatch : '/' :: (kind ++ ['/']) <+: c :: rest
          · obtain ⟨back, same⟩ := isMatch
            rw [List.cons_append, List.cons.injEq] at same
            have taken : rest.take (kind.length + 1) = kind ++ ['/'] := by
              rw [← same.2, List.take_left' (by simp)]
            have below := ih (kind.length + 1)
            rw [taken, List.count_append, List.count_eq_zero.mpr plain] at below
            rw [if_pos ⟨back, by rw [← same.1, ← same.2]; rfl⟩, ← same.1]
            simp only [List.length_cons, List.length_append, List.length_nil, Nat.zero_add,
              Nat.add_sub_cancel, List.count_cons_self, List.singleton_append,
              List.count_nil] at below ⊢
            omega
          · have below := ih 0
            rw [List.take_zero, List.count_nil] at below
            rw [if_neg isMatch, List.count_cons, List.count_cons]
            omega

theorem slashes_replace {kind : String} (plain : Plain kind) (s : String) :
    slashes s ≤ 2 * slashes (replace (segment kind) "/" s) := by
  have bound := count_replaceFrom plain 0 s.toList
  rw [List.take_zero, List.count_nil, Nat.zero_add, ← toList_segment] at bound
  unfold slashes replace
  rw [String.toList_ofList]
  exact bound

/-- Dropping the middle one of three plain segments. -/
theorem replace_segment {p kind q : String} (hp : Plain p) (hq : Plain q) :
    replace (segment kind) "/" (join p (join kind q)) = join p q := by
  have front := @replaceFrom_plain (kind.toList ++ ['/']) ['/'] p.toList hp
    ('/' :: (kind.toList ++ '/' :: q.toList))
  have isMatch : '/' :: (kind.toList ++ ['/']) <+: '/' :: (kind.toList ++ '/' :: q.toList) :=
    ⟨q.toList, by simp⟩
  have middle := @replaceFrom_skip ('/' :: (kind.toList ++ ['/'])) ['/'] (kind.toList ++ ['/'])
    q.toList
  have back := @replaceFrom_plain (kind.toList ++ ['/']) ['/'] q.toList hq []
  simp only [List.append_nil, replaceFrom, List.length_append, List.length_singleton,
    List.append_assoc, List.singleton_append] at middle back
  rw [← String.toList_inj]
  unfold replace
  rw [String.toList_ofList, toList_segment, toList_join, toList_join, toList_join]
  show replaceFrom _ ['/'] 0 _ = _
  rw [front, replaceFrom, if_pos isMatch]
  simp only [List.length_cons, List.length_append, Nat.add_sub_cancel, List.length_nil,
    Nat.zero_add]
  rw [middle, back]
  rfl

/-- Of three plain segments, only the middle one stands between separators. -/
theorem contains_segment {p kind q other : String} (hp : Plain p) (hkind : Plain kind)
    (hq : Plain q) (hother : Plain other) :
    contains (segment other) (join p (join kind q)) = true ↔ other = kind := by
  unfold contains
  rw [decide_eq_true_eq, toList_segment, toList_join, toList_join]
  constructor
  · rintro ⟨front, back, same⟩
    -- two of the two separators are those of the pattern
    have counts := congrArg (List.count '/') same
    simp only [List.count_append, List.count_cons, List.count_nil, List.count_eq_zero.mpr hp,
      List.count_eq_zero.mpr hkind, List.count_eq_zero.mpr hq,
      List.count_eq_zero.mpr hother, beq_self_eq_true, if_true] at counts
    have plainFront : Plain (String.ofList front) := by
      unfold Plain
      rw [String.toList_ofList]
      exact List.count_eq_zero.mp (by omega)
    have joined : join (String.ofList front) (join other (String.ofList back)) =
        join p (join kind q) := by
      rw [← String.toList_inj]
      simp only [toList_join, String.toList_ofList]
      rw [← same]
      simp
    have rest := ((join_inj plainFront hp).mp joined).2
    exact ((join_inj hother hkind).mp rest).1
  · rintro rfl
    exact ⟨p.toList, q.toList, by simp⟩

end Names
