import Mathlib.Algebra.Order.Ring.Nat
import Mathlib.Data.List.DropRight

/-!
# Words and gaps

Texts over an arbitrary alphabet, in which some characters are *blank*.

* `words` are the runs of other characters, `trim` drops the blanks at both ends.
* `squeeze` joins the words of a text with one space each.  Between two words this is
  `collapse`, which makes one space of every gap (`squeeze_between`); it changes nothing
  exactly when every gap is a single space already (`collapse_eq_self_iff`).
* `collapse` works piece by piece across a character that is not blank
  (`collapse_append_cons`), so it commutes with cutting a text at such a character.
-/

namespace Words

variable {α : Type*} {blank : α → Bool}

/-- A text without blanks. -/
def Solid (blank : α → Bool) (s : List α) : Prop := ∀ c ∈ s, blank c = false

/-- A text of blanks. -/
def Gap (blank : α → Bool) (s : List α) : Prop := ∀ c ∈ s, blank c = true

instance (s : List α) : Decidable (Solid blank s) := List.decidableBAll (blank · = false) s

instance (s : List α) : Decidable (Gap blank s) := List.decidableBAll (blank · = true) s

theorem solid_append {s t : List α} : Solid blank (s ++ t) ↔ Solid blank s ∧ Solid blank t :=
  List.forall_mem_append

/-! ## Words -/

/-- The words of a text, without the empty ones between two blanks. -/
def words (blank : α → Bool) (s : List α) : List (List α) :=
  (s.splitOnP blank).filter fun word => !word.isEmpty

@[simp] theorem words_nil : words blank [] = [] := rfl

/-- A blank separates words. -/
theorem words_append_cons {c : α} (isBlank : blank c = true) (s t : List α) :
    words blank (s ++ c :: t) = words blank s ++ words blank t := by
  rw [words, List.splitOnP_append_cons s t isBlank, List.filter_append]
  rfl

theorem words_cons {c : α} (isBlank : blank c = true) (s : List α) :
    words blank (c :: s) = words blank s := by
  have split := words_append_cons isBlank [] s
  rw [words_nil, List.nil_append, List.nil_append] at split
  exact split

theorem words_solid {word : List α} (some : word ≠ []) (solid : Solid blank word) :
    words blank word = [word] := by
  rw [words, List.splitOnP_eq_singleton solid, List.filter_eq_self, List.forall_mem_singleton,
    Bool.not_eq_true', List.isEmpty_eq_false_iff]
  exact some

theorem ne_nil_of_mem_words {word s : List α} (member : word ∈ words blank s) : word ≠ [] := by
  have kept := (List.mem_filter.mp member).2
  rwa [Bool.not_eq_true', List.isEmpty_eq_false_iff] at kept

theorem words_gap_append {gap : List α} (blanks : Gap blank gap) (s : List α) :
    words blank (gap ++ s) = words blank s := by
  induction gap with
  | nil => rfl
  | cons c gap ih =>
      obtain ⟨first, others⟩ := List.forall_mem_cons.mp blanks
      rw [List.cons_append, words_cons first, ih others]

/-- A word in front of a gap. -/
theorem words_append_gap {word gap : List α} (some : word ≠ []) (solid : Solid blank word)
    (isGap : gap ≠ []) (blanks : Gap blank gap) (s : List α) :
    words blank (word ++ gap ++ s) = word :: words blank s := by
  obtain ⟨c, gap, rfl⟩ := List.exists_cons_of_ne_nil isGap
  obtain ⟨first, others⟩ := List.forall_mem_cons.mp blanks
  rw [List.append_assoc, List.cons_append, words_append_cons first, words_solid some solid,
    words_gap_append others, List.singleton_append]

/-! ## Trimming -/

/-- The text without the blanks at its ends. -/
def trim (blank : α → Bool) (s : List α) : List α := (s.dropWhile blank).rdropWhile blank

/-- A text with something else at both ends is what is left of it between gaps. -/
theorem trim_between {front back s : List α} (before : Gap blank front) (after : Gap blank back)
    (first : ∀ c ∈ s.head?, blank c = false) (last : ∀ c ∈ s.getLast?, blank c = false)
    (some : s ≠ []) : trim blank (front ++ s ++ back) = s := by
  obtain ⟨c, rest, rfl⟩ := List.exists_cons_of_ne_nil some
  have left : (front ++ (c :: rest) ++ back).dropWhile blank = (c :: rest) ++ back := by
    rw [List.append_assoc, List.dropWhile_append_of_pos before, List.cons_append,
      List.dropWhile_cons_of_neg]
    rw [Bool.not_eq_true]
    exact first c rfl
  rw [trim, left]
  clear left before
  induction back using List.reverseRecOn with
  | nil =>
      rw [List.append_nil, List.rdropWhile_eq_self_iff]
      intro _
      rw [Bool.not_eq_true]
      exact last _ (List.getLast?_eq_some_getLast _)
  | append_singleton back d ih =>
      obtain ⟨others, final⟩ := List.forall_mem_append.mp after
      rw [← List.append_assoc, List.rdropWhile_concat_pos _ _ _ (final d List.mem_cons_self)]
      exact ih others

theorem trim_gap {gap : List α} (blanks : Gap blank gap) : trim blank gap = [] := by
  rw [trim, List.dropWhile_eq_nil_iff.mpr blanks, List.rdropWhile_nil]

/-- A gap at the end makes no difference. -/
theorem trim_append_gap {gap : List α} (blanks : Gap blank gap) (s : List α) :
    trim blank (s ++ gap) = trim blank s := by
  have dropped : ∀ t : List α, (t ++ gap).rdropWhile blank = t.rdropWhile blank := by
    intro t
    induction gap using List.reverseRecOn with
    | nil => rw [List.append_nil]
    | append_singleton gap c ih =>
        obtain ⟨others, last⟩ := List.forall_mem_append.mp blanks
        rw [← List.append_assoc, List.rdropWhile_concat_pos _ _ _ (last c List.mem_cons_self)]
        exact ih others
  by_cases all : Gap blank s
  · rw [trim_gap (List.forall_mem_append.mpr ⟨all, blanks⟩), trim_gap all]
  · have kept : s.dropWhile blank ≠ [] := fun none => all (List.dropWhile_eq_nil_iff.mp none)
    have split : (s ++ gap).dropWhile blank = s.dropWhile blank ++ gap := by
      rw [List.dropWhile_append, if_neg]
      rw [List.isEmpty_iff]
      exact kept
    rw [trim, split, dropped, trim]

/-- A text is its trimmed form between two gaps. -/
theorem exists_trim (s : List α) : ∃ front back, s = front ++ trim blank s ++ back ∧
    Gap blank front ∧ Gap blank back := by
  refine ⟨s.takeWhile blank, (s.dropWhile blank).rtakeWhile blank, ?_, ?_, ?_⟩
  · rw [trim, List.append_assoc, List.rdropWhile_append_rtakeWhile,
      List.takeWhile_append_dropWhile]
  · exact fun c member => List.mem_takeWhile_imp member
  · exact fun c member => List.mem_rtakeWhile_imp member

theorem words_append_trailing {gap : List α} (blanks : Gap blank gap) (s : List α) :
    words blank (s ++ gap) = words blank s := by
  rcases gap with _ | ⟨c, gap⟩
  · rw [List.append_nil]
  · obtain ⟨first, others⟩ := List.forall_mem_cons.mp blanks
    have none := words_gap_append others []
    rw [List.append_nil, words_nil] at none
    rw [words_append_cons first, none, List.append_nil]

/-- Trimming leaves the words as they are. -/
theorem words_trim (s : List α) : words blank (trim blank s) = words blank s := by
  obtain ⟨front, back, shape, before, after⟩ := @exists_trim α blank s
  conv_rhs => rw [shape]
  rw [words_append_trailing after, words_gap_append before]

/-! ## Collapsing gaps -/

section Spaces

variable {space : α}

/-- The words of a text with one space between them. -/
def squeeze (blank : α → Bool) (space : α) (s : List α) : List α :=
  [space].intercalate (words blank s)

/-- Every gap becomes one space. -/
def collapse (blank : α → Bool) (space : α) : List α → List α
  | [] => []
  | c :: s =>
      if blank c then
        if s.head?.any blank then collapse blank space s else space :: collapse blank space s
      else c :: collapse blank space s

theorem collapse_solid_cons {c : α} (solid : blank c = false) (s : List α) :
    collapse blank space (c :: s) = c :: collapse blank space s := by
  rw [collapse, if_neg (Bool.eq_false_iff.mp solid)]

/-- What stands between two words when a text is squeezed. -/
theorem squeeze_between {text : List α} (first last : List α) (before : Solid blank first)
    (starts : first = [] → ∀ c ∈ text.head?, blank c = false)
    (after : Solid blank last) (some : last ≠ []) :
    squeeze blank space (first ++ text ++ last) = first ++ collapse blank space text ++ last := by
  induction text generalizing first with
  | nil =>
      have solid : Solid blank (first ++ last) := solid_append.mpr ⟨before, after⟩
      rw [List.append_nil, squeeze, words_solid (List.append_ne_nil_of_right_ne_nil _ some) solid,
        collapse, List.append_nil, List.intercalate_singleton]
  | cons c text ih =>
      rcases isBlank : blank c with _ | _
      · have solid : Solid blank (first ++ [c]) :=
          solid_append.mpr ⟨before, List.forall_mem_singleton.mpr isBlank⟩
        have longer := ih (first ++ [c]) solid (fun none => absurd none (by simp))
        rw [collapse_solid_cons isBlank]
        rw [List.append_assoc first [c] text, List.append_assoc first [c]] at longer
        exact longer
      · have word : first ≠ [] := by
          intro none
          have solid := starts none c rfl
          rw [isBlank] at solid
          cases solid
        have split : ∀ s, words blank (first ++ c :: s) = first :: words blank s := by
          intro s
          rw [words_append_cons isBlank, words_solid word before, List.singleton_append]
        rw [collapse, if_pos isBlank]
        rcases next : text.head?.any blank with _ | _
        · -- the next word starts behind this blank
          have solid : ∀ d ∈ text.head?, blank d = false := by
            rw [Option.any_eq_false] at next
            exact fun d member => Bool.not_eq_true _ ▸ next d member
          have further := ih [] (fun _ member => absurd member List.not_mem_nil) fun _ => solid
          rw [List.nil_append, List.nil_append] at further
          have someWord : words blank (text ++ last) ≠ [] := by
            intro none
            rw [squeeze, none, List.intercalate_nil] at further
            exact List.append_ne_nil_of_right_ne_nil _ some further.symm
          rw [squeeze, List.append_assoc, List.cons_append, split,
            List.intercalate_cons_of_ne_nil someWord]
          show first ++ [space] ++ squeeze blank space (text ++ last) = _
          rw [further, if_neg Bool.false_ne_true]
          simp only [List.append_assoc, List.cons_append, List.nil_append]
        · obtain ⟨d, rest, rfl⟩ : ∃ d rest, text = d :: rest := by
            rcases text with _ | ⟨d, rest⟩
            · cases next
            · exact ⟨d, rest, rfl⟩
          have isBlank' : blank d = true := next
          have same := ih first before fun none => absurd none word
          rw [if_pos rfl, ← same]
          have fewer : words blank (d :: rest ++ last) = words blank (rest ++ last) :=
            words_cons isBlank' _
          rw [squeeze, squeeze, List.append_assoc, List.cons_append, split, fewer,
            List.append_assoc, List.cons_append, words_append_cons isBlank',
            words_solid word before, List.singleton_append]

/-- Collapsing works piece by piece across a character that is not blank. -/
theorem collapse_append_cons {c : α} (solid : blank c = false) (s t : List α) :
    collapse blank space (s ++ c :: t) =
      collapse blank space s ++ c :: collapse blank space t := by
  induction s with
  | nil =>
      rw [List.nil_append, collapse_solid_cons solid, collapse]
      rfl
  | cons d s ih =>
      have same : (s ++ c :: t).head?.any blank = s.head?.any blank := by
        rcases s with _ | ⟨e, s⟩
        · exact solid
        · rfl
      rw [List.cons_append, collapse, collapse, ih, same]
      split_ifs
      · rfl
      · rfl
      · rfl

theorem collapse_intercalate {sep : α} (solid : blank sep = false) (parts : List (List α)) :
    collapse blank space ([sep].intercalate parts) =
      [sep].intercalate (parts.map (collapse blank space)) := by
  induction parts with
  | nil => rfl
  | cons part parts ih =>
      rcases parts with _ | ⟨next, parts⟩
      · rw [List.map_singleton, List.intercalate_singleton, List.intercalate_singleton]
      · rw [List.intercalate_cons_cons, List.append_assoc, List.singleton_append,
          collapse_append_cons solid, ih, List.map_cons, List.map_cons, List.map_cons,
          List.intercalate_cons_cons, List.append_assoc, List.singleton_append]

/-- No two blanks follow each other, and every blank is a space. -/
def SingleSpaced (blank : α → Bool) (space : α) (s : List α) : Prop :=
  (∀ c ∈ s, blank c = true → c = space) ∧
    s.IsChain fun c d => ¬ (blank c = true ∧ blank d = true)

theorem length_collapse_le (s : List α) : (collapse blank space s).length ≤ s.length := by
  induction s with
  | nil => exact Nat.le_refl 0
  | cons c s ih =>
      rw [collapse]
      split_ifs
      · exact Nat.le_succ_of_le ih
      · exact Nat.succ_le_succ ih
      · exact Nat.succ_le_succ ih

theorem collapse_eq_self_iff {s : List α} :
    collapse blank space s = s ↔ SingleSpaced blank space s := by
  induction s with
  | nil => exact iff_of_true rfl ⟨fun _ member => absurd member List.not_mem_nil, List.IsChain.nil⟩
  | cons c s ih =>
      have shorter := @length_collapse_le α blank space s
      have chain : (c :: s).IsChain (fun c d => ¬ (blank c = true ∧ blank d = true)) ↔
          (blank c = true → s.head?.any blank = false) ∧
            s.IsChain fun c d => ¬ (blank c = true ∧ blank d = true) := by
        rcases s with _ | ⟨d, s⟩
        · simp
        · rw [List.isChain_cons_cons]
          simp
      rw [collapse, SingleSpaced, List.forall_mem_cons, chain]
      split_ifs with isBlank two
      · refine iff_of_false (fun same => ?_) (fun single => ?_)
        · have lengths := congrArg List.length same
          rw [List.length_cons] at lengths
          omega
        · rw [single.2.1 isBlank] at two
          cases two
      · rw [List.cons.injEq, ih, SingleSpaced]
        rw [Bool.not_eq_true] at two
        simp only [isBlank, two, forall_const, true_and, eq_comm]
        exact and_assoc.symm
      · rw [List.cons.injEq, ih, SingleSpaced]
        simp [isBlank]

theorem gap_collapse (isSpace : blank space = true) {gap : List α} (blanks : Gap blank gap) :
    Gap blank (collapse blank space gap) := by
  induction gap with
  | nil => exact blanks
  | cons c gap ih =>
      obtain ⟨first, others⟩ := List.forall_mem_cons.mp blanks
      rw [collapse, if_pos first]
      split_ifs
      · exact ih others
      · exact List.forall_mem_cons.mpr ⟨isSpace, ih others⟩

/-- The other characters stay. -/
theorem countP_collapse {p : α → Bool} (isSpace : p space = false)
    (others : ∀ c, p c = true → blank c = false) (s : List α) :
    (collapse blank space s).countP p = s.countP p := by
  induction s with
  | nil => rfl
  | cons c s ih =>
      have dropped : blank c = true → p c = false := by
        intro isBlank
        by_contra found
        rw [others c (by simpa using found)] at isBlank
        cases isBlank
      rw [collapse]
      split_ifs with isBlank two
      · rw [ih, List.countP_cons_of_neg (by simp [dropped isBlank])]
      · rw [List.countP_cons_of_neg (by simp [isSpace]), ih,
          List.countP_cons_of_neg (by simp [dropped isBlank])]
      · rw [List.countP_cons, List.countP_cons, ih]

theorem mem_of_mem_collapse {c : α} {s : List α} (member : c ∈ collapse blank space s) :
    c ∈ s ∨ c = space := by
  induction s with
  | nil => cases member
  | cons d s ih =>
      rw [collapse] at member
      split_ifs at member
      · exact (ih member).imp_left (List.mem_cons_of_mem d)
      · rcases List.mem_cons.mp member with same | member
        · exact .inr same
        · exact (ih member).imp_left (List.mem_cons_of_mem d)
      · rcases List.mem_cons.mp member with rfl | member
        · exact .inl List.mem_cons_self
        · exact (ih member).imp_left (List.mem_cons_of_mem d)

end Spaces

/-! ## Pieces

Pieces with a separator between them, and what is counted in them.
-/

section Pieces

variable {sep : α}

/-- With a separator behind the last piece too, each piece has one. -/
theorem countP_intercalate (p : α → Bool) {parts : List (List α)} (some : parts ≠ []) :
    ([sep].intercalate parts).countP p + [sep].countP p =
      (parts.map fun part => part.countP p + [sep].countP p).sum := by
  induction parts with
  | nil => exact absurd rfl some
  | cons part parts ih =>
      rcases parts with _ | ⟨next, parts⟩
      · rw [List.intercalate_singleton, List.map_singleton, List.sum_singleton]
      · rw [List.intercalate_cons_cons, List.countP_append, List.countP_append, Nat.add_assoc,
          ih (List.cons_ne_nil _ _)]
        rfl

/-- What the separator does not have is counted in the pieces. -/
theorem countP_intercalate_of_neg {p : α → Bool} (other : p sep = false) (parts : List (List α)) :
    ([sep].intercalate parts).countP p = (parts.map (List.countP p)).sum := by
  have none : [sep].countP p = 0 := List.countP_eq_zero.mpr (by simp [other])
  rcases eq_or_ne parts [] with rfl | some
  · rfl
  · have counted := @countP_intercalate α sep p parts some
    rw [none] at counted
    exact counted

/-- The pieces of a text are one more than its separators. -/
theorem length_splitOn [DecidableEq α] (s : List α) :
    (s.splitOn sep).length = s.count sep + 1 := by
  induction s with
  | nil => rfl
  | cons c s ih =>
      rw [List.splitOn_cons_eq_if_modifyHead, List.count_cons]
      by_cases same : c = sep
      · simp [same, ih]
      · simp [same, ih]

theorem infix_intercalate {part : List α} {parts : List (List α)} (member : part ∈ parts) :
    part <:+: [sep].intercalate parts := by
  induction parts with
  | nil => cases member
  | cons head parts ih =>
      rcases parts with _ | ⟨next, parts⟩
      · obtain rfl := List.mem_singleton.mp member
        exact (List.intercalate_singleton).symm ▸ List.infix_rfl
      · rw [List.intercalate_cons_cons]
        rcases List.mem_cons.mp member with rfl | later
        · exact (List.prefix_append _ _).isInfix.trans (List.prefix_append _ _).isInfix
        · exact (ih later).trans (List.suffix_append _ _).isInfix

/-- The words have everything that is not blank. -/
theorem sum_countP_words {p : α → Bool} (others : ∀ c, p c = true → blank c = false) (s : List α) :
    ((words blank s).map (List.countP p)).sum = s.countP p := by
  have pieces : ((s.splitOnP blank).map (List.countP p)).sum = s.countP p := by
    induction s with
    | nil => rfl
    | cons c s ih =>
        rw [List.splitOnP_cons_eq_if_modifyHead]
        split_ifs with isBlank
        · have dropped : ¬ p c = true := by
            intro found
            rw [others c found] at isBlank
            cases isBlank
          rw [List.countP_cons_of_neg dropped, ← ih]
          exact Nat.zero_add _
        · obtain ⟨head, rest, split⟩ := List.exists_cons_of_ne_nil (List.splitOnP_ne_nil blank s)
          rw [split, List.map_cons, List.sum_cons] at ih
          rw [split, List.modifyHead_cons, List.map_cons, List.sum_cons, List.countP_cons,
            List.countP_cons, ← ih]
          omega
  have filtered : ∀ parts : List (List α),
      ((parts.filter fun word => !word.isEmpty).map (List.countP p)).sum =
        (parts.map (List.countP p)).sum := by
    intro parts
    induction parts with
    | nil => rfl
    | cons part parts ih =>
        rcases part with _ | ⟨c, part⟩
        · rw [List.filter_cons_of_neg (by simp), ih]
          exact (Nat.zero_add _).symm
        · rw [List.filter_cons_of_pos (by simp), List.map_cons, List.sum_cons, ih]
          rfl
  rw [words, filtered, pieces]

/-- Joining the words loses nothing else than blanks. -/
theorem countP_squeeze {space : α} {p : α → Bool} (isSpace : p space = false)
    (others : ∀ c, p c = true → blank c = false) (s : List α) :
    (squeeze blank space s).countP p = s.countP p := by
  rw [squeeze, countP_intercalate_of_neg isSpace, sum_countP_words others]

end Pieces

end Words
