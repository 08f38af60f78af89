import RosZ.Lib.Text
import Mathlib.Data.List.Infix

/-!
# Lines

`str::lines` and `str::split` with a substring.

* A text is the pieces between its line feeds.  `lines` are these without the carriage
  returns in front of line feeds, and without an empty piece at the end (`exists_map_lines`).
  A line feed ends the lines in front of it (`lines_append`).
* `split` cuts a text at the matches of a pattern, from the left and without overlap.  When the
  pattern is a line between two line feeds, this is a recursion over the pieces: a line feed
  is used by one match only (`length_split_standing`).
-/

namespace Lines

/-! ## Lines -/

/-- `strip_suffix('\r')`, on a line that a line feed has ended. -/
def stripReturn (line : List Char) : List Char :=
  if line.getLast? = some '\r' then line.dropLast else line

/-- The lines that the pieces between line feeds stand for. -/
def ofPieces : List (List Char) → List (List Char)
  | [] => []
  | [last] => if last = [] then [] else [last]
  | piece :: next :: pieces => stripReturn piece :: ofPieces (next :: pieces)

/-- `str::lines`. -/
def lines (s : List Char) : List (List Char) := ofPieces (s.splitOn '\n')

theorem ofPieces_append (pieces : List (List Char)) {others : List (List Char)}
    (some : others ≠ []) :
    ofPieces (pieces ++ others) = pieces.map stripReturn ++ ofPieces others := by
  induction pieces with
  | nil => rfl
  | cons piece pieces ih =>
      obtain ⟨next, rest, shape⟩ := List.exists_cons_of_ne_nil
        (List.append_ne_nil_of_right_ne_nil pieces some)
      rw [List.cons_append, List.map_cons, List.cons_append, ← ih, shape, ofPieces]

/-- A text that ends with a line feed. -/
theorem lines_concat (s : List Char) : lines (s ++ ['\n']) = (s.splitOn '\n').map stripReturn := by
  have split := @List.splitOn_append_cons_self Char _ _ '\n' s []
  rw [List.splitOn_nil] at split
  rw [lines, split, ofPieces_append _ (List.cons_ne_nil _ _)]
  exact List.append_nil _

/-- A line feed ends the lines in front of it. -/
theorem lines_append (s t : List Char) :
    lines (s ++ '\n' :: t) = lines (s ++ ['\n']) ++ lines t := by
  rw [lines_concat, lines, List.splitOn_append_cons_self,
    ofPieces_append _ (List.splitOn_ne_nil _ _)]
  rfl

theorem not_mem_of_mem_lines {s line : List Char} (member : line ∈ lines s) : '\n' ∉ line := by
  have each : ∀ pieces : List (List Char), (∀ piece ∈ pieces, '\n' ∉ piece) →
      ∀ line ∈ ofPieces pieces, '\n' ∉ line := by
    intro pieces
    induction pieces with
    | nil => exact fun _ line member => absurd member List.not_mem_nil
    | cons piece pieces ih =>
        intro apart
        obtain ⟨first, others⟩ := List.forall_mem_cons.mp apart
        rcases pieces with _ | ⟨next, pieces⟩
        · rw [ofPieces]
          split_ifs
          · exact fun line member => absurd member List.not_mem_nil
          · exact List.forall_mem_singleton.mpr first
        · rw [ofPieces]
          refine List.forall_mem_cons.mpr ⟨?_, ih others⟩
          unfold stripReturn
          split_ifs
          · exact fun inside => first (List.mem_of_mem_dropLast inside)
          · exact first
  exact each _ (fun piece among => Text.not_mem_of_mem_splitOn among) line member

/-- To whom a carriage return makes no difference, the lines are the pieces between line feeds,
less an empty one at the end. -/
theorem exists_map_lines {β : Type*} {view : List Char → β}
    (blind : ∀ line, view (stripReturn line) = view line) (s : List Char) :
    ∃ rest, (rest = [] ∨ rest = [[]]) ∧ (s.splitOn '\n').map view = (lines s ++ rest).map view := by
  have each : ∀ pieces : List (List Char), ∃ rest, (rest = [] ∨ rest = [[]]) ∧
      pieces.map view = (ofPieces pieces ++ rest).map view := by
    intro pieces
    induction pieces with
    | nil => exact ⟨[], .inl rfl, rfl⟩
    | cons piece pieces ih =>
        obtain ⟨rest, small, same⟩ := ih
        rcases pieces with _ | ⟨next, pieces⟩
        · rw [ofPieces]
          split_ifs with none
          · exact ⟨[[]], .inr rfl, by rw [none]; rfl⟩
          · exact ⟨[], .inl rfl, rfl⟩
        · refine ⟨rest, small, ?_⟩
          show view piece :: (next :: pieces).map view =
            view (stripReturn piece) :: (ofPieces (next :: pieces) ++ rest).map view
          rw [blind, same]
  exact each _

/-! ## Cutting at a pattern -/

/-- The parts between the matches of `pattern`; `skip` counts the characters of a match that
are still to be passed over. -/
def splitFrom (pattern : List Char) : (skip : ℕ) → List Char → List (List Char)
  | _, [] => [[]]
  | skip + 1, _ :: s => splitFrom pattern skip s
  | 0, c :: s =>
      if pattern <+: c :: s then [] :: splitFrom pattern (pattern.length - 1) s
      else (splitFrom pattern 0 s).modifyHead (c :: ·)

/-- `str::split`. -/
def split (pattern s : List Char) : List (List Char) := splitFrom pattern 0 s

theorem splitFrom_skip (pattern front back : List Char) :
    splitFrom pattern front.length (front ++ back) = splitFrom pattern 0 back := by
  induction front with
  | nil => rfl
  | cons c rest ih => exact ih

theorem splitFrom_ne_nil (pattern s : List Char) : ∀ skip, splitFrom pattern skip s ≠ [] := by
  induction s with
  | nil => exact fun _ => List.cons_ne_nil _ _
  | cons c s ih =>
      rintro (_ | skip)
      · rw [splitFrom]
        split_ifs
        · exact List.cons_ne_nil _ _
        · obtain ⟨first, others, shape⟩ := List.exists_cons_of_ne_nil (ih 0)
          rw [shape, List.modifyHead_cons]
          exact List.cons_ne_nil _ _
      · exact ih skip

theorem split_ne_nil (pattern s : List Char) : split pattern s ≠ [] := splitFrom_ne_nil pattern s 0

/-- A match at the front. -/
theorem split_match {pattern : List Char} (some : pattern ≠ []) (s : List Char) :
    split pattern (pattern ++ s) = [] :: split pattern s := by
  obtain ⟨c, rest, rfl⟩ := List.exists_cons_of_ne_nil some
  have found : c :: rest <+: c :: (rest ++ s) := ⟨s, rfl⟩
  rw [split, List.cons_append, splitFrom, if_pos found, List.length_cons, Nat.add_sub_cancel,
    splitFrom_skip]
  rfl

theorem split_cons {pattern s : List Char} {c : Char} (here : ¬ pattern <+: c :: s) :
    split pattern (c :: s) = (split pattern s).modifyHead (c :: ·) := by
  rw [split, splitFrom, if_neg here]
  rfl

/-- Characters at which no match starts. -/
theorem split_append {pattern front s : List Char}
    (here : ∀ c ∈ front, pattern.head? ≠ some c ∧ pattern ≠ []) :
    split pattern (front ++ s) = (split pattern s).modifyHead (front ++ ·) := by
  obtain ⟨first, others, parts⟩ := List.exists_cons_of_ne_nil (split_ne_nil pattern s)
  rw [parts]
  induction front with
  | nil => exact parts
  | cons c front ih =>
      obtain ⟨⟨differs, some⟩, rest⟩ := List.forall_mem_cons.mp here
      have none : ¬ pattern <+: c :: (front ++ s) := by
        rintro ⟨back, same⟩
        obtain ⟨d, tail, rfl⟩ := List.exists_cons_of_ne_nil some
        rw [List.cons_append, List.cons.injEq] at same
        exact differs (congrArg Option.some same.1)
      rw [List.cons_append, split_cons none, ih rest]
      rfl

/-- The parts are what the pattern joins to the text. -/
theorem intercalate_split {pattern : List Char} (some : pattern ≠ []) (s : List Char) :
    pattern.intercalate (split pattern s) = s := by
  induction length : s.length using Nat.strong_induction_on generalizing s with
  | _ n ih =>
      rcases s with _ | ⟨c, s⟩
      · rfl
      by_cases here : pattern <+: c :: s
      · obtain ⟨back, same⟩ := here
        have positive := List.length_pos_iff.mpr some
        have shorter : back.length < n := by
          have lengths := congrArg List.length same
          rw [List.length_append] at lengths
          omega
        rw [← same, split_match some, List.intercalate_cons_of_ne_nil (split_ne_nil _ _),
          List.nil_append, ih back.length shorter back rfl]
      · have shorter : s.length < n := by
          rw [← length, List.length_cons]
          exact Nat.lt_succ_self _
        have rest := ih s.length shorter s rfl
        obtain ⟨first, others, parts⟩ := List.exists_cons_of_ne_nil (split_ne_nil pattern s)
        rw [split_cons here]
        rw [parts] at rest ⊢
        rw [List.modifyHead_cons, List.intercalate_cons_cons_left, rest]

/-! ## Cutting at a line -/

/-- How often a line stands between two line feeds, no line feed counted twice. -/
def standing (line : List Char) : List (List Char) → ℕ
  | [] => 0
  | [_] => 0
  | [_, _] => 0
  | _ :: middle :: next :: pieces =>
      if middle = line then standing line (next :: pieces) + 1
      else standing line (middle :: next :: pieces)

/-- Where the pattern can match behind a line feed. -/
theorem line_prefix_iff {line piece : List Char} (one : '\n' ∉ line) (free : '\n' ∉ piece)
    (pieces : List (List Char)) :
    '\n' :: line ++ ['\n'] <+: '\n' :: ['\n'].intercalate (piece :: pieces) ↔
      piece = line ∧ pieces ≠ [] := by
  rw [List.cons_append, List.cons_prefix_cons]
  rcases pieces with _ | ⟨next, pieces⟩
  · rw [List.intercalate_singleton]
    refine iff_of_false ?_ (fun both => both.2 rfl)
    rintro ⟨-, starts⟩
    exact free (starts.subset (List.mem_append_right _ List.mem_cons_self))
  · rw [List.intercalate_cons_cons, List.append_assoc]
    constructor
    · rintro ⟨-, back, same⟩
      rw [List.append_assoc] at same
      have parts := congrArg (List.splitOn '\n') same
      rw [List.singleton_append, List.singleton_append,
        List.splitOn_append_cons_self_of_not_mem one,
        List.splitOn_append_cons_self_of_not_mem free] at parts
      exact ⟨(List.cons.inj parts).1.symm, List.cons_ne_nil _ _⟩
    · rintro ⟨rfl, -⟩
      exact ⟨rfl, ['\n'].intercalate (next :: pieces), by rw [List.append_assoc]⟩

/-- A line between two line feeds is a match, and nothing else is one. -/
theorem length_split_pieces {line : List Char} (one : '\n' ∉ line) {pieces : List (List Char)}
    (some : pieces ≠ []) (apart : ∀ piece ∈ pieces, '\n' ∉ piece) :
    (split ('\n' :: line ++ ['\n']) (['\n'].intercalate pieces)).length =
      standing line pieces + 1 := by
  have plain : ∀ piece s : List Char, '\n' ∉ piece →
      (split ('\n' :: line ++ ['\n']) (piece ++ s)).length =
        (split ('\n' :: line ++ ['\n']) s).length := by
    intro piece s free
    rw [split_append, List.length_modifyHead]
    intro c member
    refine ⟨fun same => ?_, List.cons_ne_nil _ _⟩
    rw [← Option.some.inj same] at member
    exact free member
  -- behind a line feed that no match uses
  have further : ∀ piece next : List Char, ∀ pieces : List (List Char), '\n' ∉ piece → '\n' ∉ next →
      ¬ (next = line ∧ pieces ≠ []) →
      (split ('\n' :: line ++ ['\n']) (['\n'].intercalate (piece :: next :: pieces))).length =
        (split ('\n' :: line ++ ['\n']) (['\n'].intercalate (next :: pieces))).length := by
    intro piece next pieces free free' differs
    rw [List.intercalate_cons_cons, List.append_assoc, plain _ _ free, List.singleton_append,
      split_cons (mt (line_prefix_iff one free' pieces).mp differs), List.length_modifyHead]
  fun_induction standing line pieces with
  | case1 => exact absurd rfl some
  | case2 piece =>
      have whole := plain piece [] (apart piece List.mem_cons_self)
      rw [List.append_nil] at whole
      rw [List.intercalate_singleton, whole]
      rfl
  | case3 piece next =>
      obtain ⟨first, second⟩ := List.forall_mem_cons.mp apart
      have free := second next List.mem_cons_self
      have whole := plain next [] free
      rw [List.append_nil] at whole
      rw [further piece next [] first free fun both => both.2 rfl, List.intercalate_singleton,
        whole]
      rfl
  | case4 piece next pieces ih =>
      obtain ⟨first, others⟩ := List.forall_mem_cons.mp apart
      have rest := (List.forall_mem_cons.mp others).2
      have shape : ['\n'].intercalate (piece :: line :: next :: pieces) =
          piece ++ ('\n' :: line ++ ['\n'] ++ ['\n'].intercalate (next :: pieces)) := by
        rw [List.intercalate_cons_cons, List.intercalate_cons_cons]
        simp only [List.append_assoc, List.cons_append, List.nil_append]
      have cut := @split_match ('\n' :: line ++ ['\n']) (List.cons_ne_nil _ _)
        (['\n'].intercalate (next :: pieces))
      rw [shape, plain _ _ first, cut, List.length_cons, ih (List.cons_ne_nil _ _) rest]
  | case5 piece middle next pieces differs ih =>
      obtain ⟨first, others⟩ := List.forall_mem_cons.mp apart
      rw [further piece middle _ first (others middle List.mem_cons_self)
          fun both => differs both.1,
        ih (List.cons_ne_nil _ _) others]

/-- The number of parts between the lines of a certain text. -/
theorem length_split_standing {line : List Char} (one : '\n' ∉ line) (s : List Char) :
    (split ('\n' :: line ++ ['\n']) s).length = standing line (s.splitOn '\n') + 1 := by
  have whole := length_split_pieces one (List.splitOn_ne_nil '\n' s) fun piece member =>
    Text.not_mem_of_mem_splitOn member
  rw [List.intercalate_splitOn] at whole
  exact whole

end Lines
