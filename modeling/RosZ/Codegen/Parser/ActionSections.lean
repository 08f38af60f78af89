import RosZ.Codegen.Parser.Files

/-!
# Sections of an action

`parse_action` cuts a text at a substring where `parse_srv_string` looks for lines.  A line is
found as a delimiter by both when it is exactly "---" and stands between two line feeds that no
other delimiter uses (`standing`), so the two rules agree exactly when they count two delimiters
together (`splitsLikeService_iff`).  The texts between the delimiters always are the lines
between them (`lines_of_actionSections`).
-/

namespace RosZ.Codegen.Parser

open Lines

/-! ## Counting delimiters -/

/-- How many lines are delimiters to a service. -/
def delimiters (content : String) : ℕ := (lines content.toList).countP isDelimiter

/-- How many lines are delimiters to an action. -/
def standingDelimiters (content : String) : ℕ :=
  standing "---".toList (content.toList.splitOn '\n')

theorem length_actionSections (content : String) :
    (actionSections content).length = standingDelimiters content + 1 :=
  @length_split_standing "---".toList (by decide) content.toList

theorem isDelimiter_stripReturn (line : List Char) :
    isDelimiter (stripReturn line) = isDelimiter line := by
  unfold stripReturn
  split_ifs with ends
  · obtain ⟨init, rfl⟩ := List.getLast?_eq_some_iff.mp ends
    have blank : Words.Gap isWhitespace ['\r'] := List.forall_mem_singleton.mpr rfl
    rw [List.dropLast_concat, isDelimiter, isDelimiter, trim, trim, Words.trim_append_gap blank]
  · rfl

/-- The lines are counted by the pieces between line feeds. -/
theorem delimiters_eq (content : String) :
    delimiters content = (content.toList.splitOn '\n').countP isDelimiter := by
  obtain ⟨rest, small, same⟩ := exists_map_lines isDelimiter_stripReturn content.toList
  have count : ∀ parts : List (List Char),
      parts.countP isDelimiter = (parts.map isDelimiter).countP id := by
    intro parts
    rw [List.countP_map]
    rfl
  rw [delimiters, count, count, same, List.map_append, List.countP_append]
  rcases small with rfl | rfl
  · rfl
  · rfl

/-- A delimiter of an action is one of a service. -/
theorem standing_le_countP (pieces : List (List Char)) :
    standing "---".toList pieces ≤ pieces.countP isDelimiter := by
  fun_induction standing "---".toList pieces with
  | case1 => exact Nat.zero_le _
  | case2 => exact Nat.zero_le _
  | case3 => exact Nat.zero_le _
  | case4 piece next pieces ih =>
      have isOne : isDelimiter "---".toList = true := by decide
      rw [List.countP_cons, List.countP_cons_of_pos isOne]
      omega
  | case5 piece middle next pieces differs ih =>
      rw [List.countP_cons]
      omega

theorem standingDelimiters_le (content : String) :
    standingDelimiters content ≤ delimiters content := by
  rw [delimiters_eq]
  exact standing_le_countP _

/-! ## The lines of the sections -/

/-- A text of certain lines, whose last line feed may be missing. -/
def Holds (text : List Char) (part : List (List Char)) : Prop :=
  lines (text ++ ['\n']) = part ∧ codes (lines text) = codes part

theorem holds_lines (text : List Char) : Holds text (lines (text ++ ['\n'])) := by
  refine ⟨rfl, ?_⟩
  have split := @List.splitOn_append_cons_self Char _ _ '\n' text []
  rw [codes_lines, codes_lines, split, codes_append]
  exact (List.append_nil _).symm

/-- An action is split at the lines that trim to "---", of which it has exactly two. -/
def SplitsLikeService (content : String) : Prop :=
  ((actionSections content).length = 3 ↔ delimiters content = 2) ∧
  ∀ goal result feedback, actionSections content = [goal, result, feedback] →
    ∃ before between first second, Holds goal before ∧ Holds result between ∧
      isDelimiter first = true ∧ isDelimiter second = true ∧
      lines content.toList = before ++ first :: (between ++ second :: lines feedback)

/-- The sections are the lines around the delimiters. -/
theorem lines_of_actionSections {content : String} {goal result feedback : List Char}
    (sections : actionSections content = [goal, result, feedback]) :
    lines content.toList = lines (goal ++ ['\n']) ++
      "---".toList :: (lines (result ++ ['\n']) ++ "---".toList :: lines feedback) := by
  have whole := @intercalate_split "\n---\n".toList (by decide) content.toList
  have parts : Lines.split "\n---\n".toList content.toList = [goal, result, feedback] := sections
  have delimiter : ∀ text : List Char,
      lines ("---".toList ++ '\n' :: text) = "---".toList :: lines text := by
    intro text
    rw [lines_append]
    rfl
  have shape : content.toList = goal ++ '\n' :: ("---".toList ++ '\n' ::
      (result ++ '\n' :: ("---".toList ++ '\n' :: feedback))) := by
    rw [← whole, parts, List.intercalate_cons_cons, List.intercalate_cons_cons,
      List.intercalate_singleton]
    simp
  rw [shape, lines_append goal ("---".toList ++ _), delimiter,
    lines_append result ("---".toList ++ _), delimiter]

/-- **An action is split like a service** exactly when it has fewer than two delimiters, or two
that both stand between line feeds of their own, or more but not two of these. -/
theorem splitsLikeService_iff (content : String) :
    SplitsLikeService content ↔ delimiters content < 2 ∨
      delimiters content = 2 ∧ standingDelimiters content = 2 ∨
      2 < delimiters content ∧ standingDelimiters content ≠ 2 := by
  have fewer := standingDelimiters_le content
  have counts : SplitsLikeService content ↔
      (standingDelimiters content = 2 ↔ delimiters content = 2) := by
    rw [SplitsLikeService, length_actionSections, and_iff_left]
    · exact iff_congr (by omega) Iff.rfl
    · intro goal result feedback sections
      exact ⟨_, _, "---".toList, "---".toList, holds_lines goal, holds_lines result, by decide,
        by decide, lines_of_actionSections sections⟩
  rw [counts]
  omega

/-- A file with carriage returns is one section to an action. -/
theorem carriageReturns_not_splitsLikeService :
    ¬ SplitsLikeService "int32 a\r\n---\r\nint32 b\r\n---\r\nint32 c\r\n" := by
  intro same
  have three := same.1.mpr (by decide +kernel)
  exact absurd three (by decide +kernel)

end RosZ.Codegen.Parser
