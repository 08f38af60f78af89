import RosZ.Codegen.Parser.Files

/-!
# Slices of the parser

Where the parser can panic.  The slices of `parse_field_type` lie between positions that `find`
has returned (`parseFieldType_ne_panic`).  Those of `parse_default_value` drop the first and the
last character of a text, which are tested apart: they may be the same one.  A default panics
exactly when a lone quotation mark stands for a text (`parseDefaultValue_panic_iff`).

A loop stops at the first line that is refused, so it panics exactly when such a line comes
before every line that is refused (`parseLines_panic_iff`).  Services and actions are loops over
the lines of their sections.
-/

namespace RosZ.Codegen.Parser

open Slices Numerals Lines

/-! ## Outcomes -/

theorem bind_eq_panic_iff {α β : Type} {step : Result α} {next : α → Result β} :
    step >>= next = .error .panic ↔
      step = .error .panic ∨ ∃ value, step = .ok value ∧ next value = .error .panic :=
  Fallible.bind_eq_error_iff

theorem ok_bind {α β : Type} (value : α) (next : α → Result β) :
    (.ok value >>= next) = next value := rfl

/-- What only shapes the result does not panic. -/
theorem bind_ok_eq_panic_iff {α β : Type} {step : Result α} {shape : α → β} :
    (step >>= fun value => .ok (shape value)) = .error .panic ↔ step = .error .panic := by
  rw [bind_eq_panic_iff, or_iff_left]
  rintro ⟨_, _, impossible⟩
  cases impossible

theorem exists_bind_ok_iff {α β : Type} {step : Result α} {shape : α → β} :
    (∃ result, (step >>= fun value => .ok (shape value)) = .ok result) ↔
      ∃ value, step = .ok value := by
  simp only [Fallible.bind_eq_ok_iff]
  constructor
  · rintro ⟨_, value, succeeded, _⟩
    exact ⟨value, succeeded⟩
  · rintro ⟨value, succeeded⟩
    exact ⟨_, value, succeeded, rfl⟩

theorem orBail_ne_panic {α : Type} (message : String) (outcome : Option α) :
    orBail message outcome ≠ .error .panic := by
  rcases outcome with _ | value
  · exact nofun
  · exact nofun

/-! ## Field types -/

theorem parseArraySize_ne_panic (typeStr arrayStr : List Char) :
    parseArraySize typeStr arrayStr ≠ .error .panic := by
  unfold parseArraySize
  split_ifs
  · exact nofun
  · split
    · exact bind_ok_eq_panic_iff.not.mpr (orBail_ne_panic _ _)
    · exact bind_ok_eq_panic_iff.not.mpr (orBail_ne_panic _ _)

theorem parseArray_ne_panic (typeStr : List Char) : parseArray typeStr ≠ .error .panic := by
  by_cases bracket : '[' ∈ typeStr
  · obtain ⟨front, back, rfl, absent⟩ := exists_first_char bracket
    by_cases closed : ∃ inner, back = inner ++ [']']
    · obtain ⟨inner, rfl⟩ := closed
      rw [parseArray_brackets absent, Ne, bind_ok_eq_panic_iff]
      exact parseArraySize_ne_panic _ _
    · -- the bracket that ends the text is not the one found
      have open' : (front ++ '[' :: back).getLast? ≠ some ']' := by
        intro last
        rcases List.eq_nil_or_concat' back with rfl | ⟨inner, final, rfl⟩
        · rw [List.getLast?_concat] at last
          cases last
        · rw [← List.cons_append, ← List.append_assoc, List.getLast?_concat] at last
          exact closed ⟨inner, by rw [Option.some.inj last]⟩
      rw [parseArray, find_char absent]
      dsimp only
      rw [if_pos open']
      intro impossible
      cases impossible
  · rw [parseArray_of_not_mem bracket]
    intro impossible
    cases impossible

theorem exists_parseBase (baseStr : List Char) : ∃ base, parseBase baseStr = .ok base := by
  by_cases slash : '/' ∈ baseStr
  · obtain ⟨pkg, typ, rfl, absent⟩ := exists_first_char slash
    exact ⟨_, parseBase_slash absent typ⟩
  · exact ⟨_, parseBase_of_not_mem slash⟩

/-- **No token panics as a field type.** -/
theorem parseFieldType_ne_panic (typeStr : List Char) (package : String) :
    parseFieldType typeStr package ≠ .error .panic := by
  by_cases unbounded : '[' ∉ typeStr → ¬ ['<', '='] <:+: typeStr
  · rw [parseFieldType_of_no_angle unbounded, Ne, bind_eq_panic_iff, not_or]
    refine ⟨parseArray_ne_panic typeStr, ?_⟩
    rintro ⟨form, -, panics⟩
    obtain ⟨base, bases⟩ := exists_parseBase form.1
    rw [bases] at panics
    cases panics
  · rw [Classical.not_imp, not_not] at unbounded
    obtain ⟨noBracket, angle⟩ := unbounded
    obtain ⟨base, rest, rfl, first⟩ := Names.exists_first (List.cons_ne_nil _ _) angle
    rw [List.mem_append, List.mem_append, not_or, not_or] at noBracket
    have absent : '[' ∉ base ++ ['<'] := by
      rw [List.mem_append, not_or]
      exact ⟨noBracket.1, by decide⟩
    rw [parseFieldType_angle absent first noBracket.2.2 rfl, Ne, bind_ok_eq_panic_iff]
    exact orBail_ne_panic _ _

/-! ## Default values -/

/-- A quotation mark. -/
def IsMark (c : Char) : Prop := c = '"' ∨ c = '\''

instance (c : Char) : Decidable (IsMark c) := inferInstanceAs (Decidable (_ ∨ _))

/-- A quotation mark that would have to be the first character and the last one. -/
def LoneMark (s : List Char) : Prop := ∃ mark, IsMark mark ∧ s = [mark]

/-- The elements of an array default. -/
def elements (inner : List Char) : List (List Char) := (inner.splitOn ',').map trim

/-- A default that is a lone quotation mark, or has one among its elements behind elements that
are quoted. -/
def StrayMark (s : List Char) : Prop :=
  LoneMark s ∨ ∃ inner front elem back, s = '[' :: (inner ++ [']']) ∧
    elements inner = front ++ elem :: back ∧ (∀ other ∈ front, isQuoted other = true) ∧
    LoneMark elem

theorem IsMark.utf8Size {mark : Char} (isMark : IsMark mark) : mark.utf8Size = 1 := by
  rcases isMark with rfl | rfl
  · rfl
  · rfl

/-- A text with given ends is one character or a text between two. -/
theorem ends_iff {a b : Char} {s : List Char} :
    s.head? = some a ∧ s.getLast? = some b ↔
      s = [a] ∧ a = b ∨ ∃ inner, s = a :: (inner ++ [b]) := by
  constructor
  · rintro ⟨first, last⟩
    obtain ⟨rest, rfl⟩ := List.head?_eq_some_iff.mp first
    rcases List.eq_nil_or_concat' rest with rfl | ⟨inner, final, rfl⟩
    · exact .inl ⟨rfl, Option.some.inj last⟩
    · rw [← List.cons_append, List.getLast?_concat] at last
      exact .inr ⟨inner, by rw [Option.some.inj last]⟩
  · rintro (⟨rfl, rfl⟩ | ⟨inner, rfl⟩)
    · exact ⟨rfl, rfl⟩
    · exact ⟨rfl, by rw [← List.cons_append, List.getLast?_concat]⟩

theorem isQuoted_iff {s : List Char} :
    isQuoted s = true ↔ LoneMark s ∨ ∃ mark inner, IsMark mark ∧ s = mark :: (inner ++ [mark]) := by
  have ends : isQuoted s = true ↔
      ∃ mark, IsMark mark ∧ (s.head? = some mark ∧ s.getLast? = some mark) := by
    simp only [isQuoted, Bool.or_eq_true, Bool.and_eq_true, beq_iff_eq, IsMark]
    constructor
    · rintro (both | both)
      · exact ⟨_, .inl rfl, both⟩
      · exact ⟨_, .inr rfl, both⟩
    · rintro ⟨mark, rfl | rfl, both⟩
      · exact .inl both
      · exact .inr both
  simp only [ends, ends_iff, and_true]
  constructor
  · rintro ⟨mark, isMark, rfl | ⟨inner, rfl⟩⟩
    · exact .inl ⟨mark, isMark, rfl⟩
    · exact .inr ⟨mark, inner, isMark, rfl⟩
  · rintro (⟨mark, isMark, rfl⟩ | ⟨mark, inner, isMark, rfl⟩)
    · exact ⟨mark, isMark, .inl rfl⟩
    · exact ⟨mark, isMark, .inr ⟨inner, rfl⟩⟩

/-- The text between two characters of one octet. -/
theorem withoutEnds_between {a b : Char} (small : a.utf8Size = 1) (small' : b.utf8Size = 1)
    (inner : List Char) : withoutEnds (a :: (inner ++ [b])) = .ok inner := by
  have sliced := slice_between small small' [] inner
  rw [withoutEnds]
  exact congrArg orPanic sliced

/-- The one character is dropped twice. -/
theorem withoutEnds_loneMark {s : List Char} (lone : LoneMark s) :
    withoutEnds s = .error .panic := by
  obtain ⟨mark, isMark, rfl⟩ := lone
  have turned : byteLength [mark] - 1 < 1 := by
    rw [byteLength_cons, isMark.utf8Size]
    exact Nat.zero_lt_one
  rw [withoutEnds, slice_of_lt _ turned]
  rfl

/-- A quoted text panics when it is a lone mark. -/
theorem withoutEnds_quoted_iff {s : List Char} (quoted : isQuoted s = true) :
    withoutEnds s = .error .panic ↔ LoneMark s := by
  refine ⟨fun panics => ?_, withoutEnds_loneMark⟩
  refine (isQuoted_iff.mp quoted).resolve_right ?_
  rintro ⟨mark, inner, isMark, rfl⟩
  rw [withoutEnds_between isMark.utf8Size isMark.utf8Size] at panics
  cases panics

theorem parseStrings_panic_iff {elements : List (List Char)} :
    parseStrings elements = .error .panic ↔ ∃ front elem back, elements = front ++ elem :: back ∧
      (∀ other ∈ front, isQuoted other = true) ∧ LoneMark elem := by
  induction elements with
  | nil =>
      refine iff_of_false nofun ?_
      rintro ⟨front, elem, back, same, -⟩
      exact absurd same.symm (List.append_ne_nil_of_right_ne_nil _ (List.cons_ne_nil _ _))
  | cons head rest ih =>
      rw [parseStrings]
      split_ifs with quoted
      · rw [bind_eq_panic_iff, withoutEnds_quoted_iff quoted]
        constructor
        · rintro (lone | ⟨text, -, later⟩)
          · exact ⟨[], head, rest, rfl, fun _ member => absurd member List.not_mem_nil, lone⟩
          · obtain ⟨front, elem, back, rfl, others, lone⟩ := ih.mp (bind_ok_eq_panic_iff.mp later)
            exact ⟨head :: front, elem, back, rfl, List.forall_mem_cons.mpr ⟨quoted, others⟩, lone⟩
        · rintro ⟨front, elem, back, same, others, lone⟩
          rcases front with _ | ⟨other, front⟩
          · obtain ⟨rfl, rfl⟩ := List.cons.inj same
            exact .inl lone
          · obtain ⟨rfl, rfl⟩ := List.cons.inj same
            rcases isQuoted_iff.mp quoted with first | ⟨mark, inner, isMark, rfl⟩
            · exact .inl first
            · refine .inr ⟨inner, withoutEnds_between isMark.utf8Size isMark.utf8Size inner, ?_⟩
              refine bind_ok_eq_panic_iff.mpr (ih.mpr ?_)
              exact ⟨front, elem, back, rfl, (List.forall_mem_cons.mp others).2, lone⟩
      · refine iff_of_false nofun ?_
        rintro ⟨front, elem, back, same, others, lone⟩
        rcases front with _ | ⟨other, front⟩
        · obtain ⟨rfl, rfl⟩ := List.cons.inj same
          exact quoted (isQuoted_iff.mpr (.inl lone))
        · obtain ⟨rfl, rfl⟩ := List.cons.inj same
          exact quoted (others head List.mem_cons_self)

/-- A lone mark is neither a truth value nor a number. -/
theorem LoneMark.noValue {s : List Char} (lone : LoneMark s) :
    parseBool s = none ∧ parseI64 s = none ∧ parseF64 s = none := by
  obtain ⟨mark, isMark, rfl⟩ := lone
  refine ⟨?_, parseI64_quote isMark [], parseF64_quote isMark []⟩
  rcases isMark with rfl | rfl
  · rfl
  · rfl

/-- Only the texts between quotation marks are sliced. -/
theorem parseElements_panic_iff (s : List Char) (parts : List (List Char)) :
    parseElements s parts = .error .panic ↔ ∃ front elem back, parts = front ++ elem :: back ∧
      (∀ other ∈ front, isQuoted other = true) ∧ LoneMark elem := by
  rw [← parseStrings_panic_iff]
  constructor
  · intro panics
    unfold parseElements at panics
    split at panics
    · cases panics
    · cases panics
    · cases panics
    · rcases bind_eq_panic_iff.mp panics with strings | ⟨_, _, impossible⟩
      · exact strings
      · exact absurd impossible (orBail_ne_panic _ _)
  · intro panics
    obtain ⟨front, elem, back, rfl, -, lone⟩ := parseStrings_panic_iff.mp panics
    have member : elem ∈ front ++ elem :: back := List.mem_append_right _ List.mem_cons_self
    obtain ⟨noBool, noInt, noFloat⟩ := lone.noValue
    rw [parseElements, Fallible.mapM_eq_none member noBool, Fallible.mapM_eq_none member noInt,
      Fallible.mapM_eq_none member noFloat]
    exact bind_eq_panic_iff.mpr (.inl panics)

/-- **A default panics** exactly when a lone quotation mark stands for a text in it. -/
theorem parseDefaultValue_panic_iff (s : List Char) :
    parseDefaultValue s = .error .panic ↔ StrayMark s := by
  by_cases isArray : s.head? = some '[' ∧ s.getLast? = some ']'
  · obtain ⟨inner, rfl⟩ := (ends_iff.mp isArray).resolve_left fun both => absurd both.2 (by decide)
    have notLone : ¬ LoneMark ('[' :: (inner ++ [']'])) := by
      rintro ⟨mark, -, same⟩
      exact absurd (congrArg List.length same) (by simp)
    have array : StrayMark ('[' :: (inner ++ [']'])) ↔ ∃ front elem back,
        elements inner = front ++ elem :: back ∧ (∀ other ∈ front, isQuoted other = true) ∧
          LoneMark elem := by
      rw [StrayMark, or_iff_right notLone]
      constructor
      · rintro ⟨inner', front, elem, back, same, rest⟩
        rw [List.cons.injEq, List.append_cancel_right_eq] at same
        rw [same.2]
        exact ⟨front, elem, back, rest⟩
      · rintro ⟨front, elem, back, rest⟩
        exact ⟨inner, front, elem, back, rfl, rest⟩
    rw [parseDefaultValue, if_pos isArray, withoutEnds_between rfl rfl, array]
    show (if inner = [] ∨ elements inner = [] then _ else _) = _ ↔ _
    split_ifs with empty
    · refine iff_of_false nofun ?_
      rintro ⟨front, elem, back, same, -, mark, isMark, rfl⟩
      rcases empty with rfl | none
      · have single : elements [] = [[]] := rfl
        rw [single] at same
        have member : [mark] ∈ [([] : List Char)] :=
          same ▸ List.mem_append_right _ List.mem_cons_self
        cases List.mem_singleton.mp member
      · rw [none] at same
        exact absurd same.symm (List.append_ne_nil_of_right_ne_nil _ (List.cons_ne_nil _ _))
    · exact parseElements_panic_iff _ _
  · have notArray : StrayMark s ↔ LoneMark s := by
      refine or_iff_left ?_
      rintro ⟨inner, front, elem, back, rfl, -⟩
      exact isArray (ends_iff.mpr (.inr ⟨inner, rfl⟩))
    rw [parseDefaultValue, if_neg isArray, notArray]
    constructor
    · intro panics
      split at panics
      · cases panics
      · split_ifs at panics with quoted
        · exact (withoutEnds_quoted_iff quoted).mp (bind_ok_eq_panic_iff.mp panics)
        · split at panics
          · cases panics
          · cases panics
          · cases panics
    · intro lone
      rw [lone.noValue.1]
      dsimp only
      rw [if_pos (isQuoted_iff.mpr (.inl lone)), withoutEnds_loneMark lone]
      rfl

/-! ## Lines -/

/-- A field line whose default panics. -/
def StrayLine (package : String) (line : List Char) : Prop :=
  ∃ typeStr name default parts, splitWhitespace line = typeStr :: name :: default :: parts ∧
    (∃ fieldType, parseFieldType typeStr package = .ok fieldType) ∧
    StrayMark (joinWords (default :: parts))

/-- A field line that is accepted. -/
def FieldLine (package : String) (line : List Char) : Prop :=
  ∃ field, parseField line package 0 = .ok field

theorem parseField_panic_iff {line : List Char} {package : String} (lineNum : ℕ) :
    parseField line package lineNum = .error .panic ↔ StrayLine package line := by
  unfold parseField StrayLine
  rcases words : splitWhitespace line with _ | ⟨typeStr, _ | ⟨name, rest⟩⟩
  · exact iff_of_false nofun fun ⟨_, _, _, _, same, _⟩ => nomatch same
  · exact iff_of_false nofun fun ⟨_, _, _, _, same, _⟩ => nomatch same
  · dsimp only
    rw [bind_eq_panic_iff, or_iff_right (parseFieldType_ne_panic typeStr package)]
    rcases rest with _ | ⟨default, parts⟩
    · refine iff_of_false ?_ fun ⟨_, _, _, _, same, _⟩ => nomatch same
      rintro ⟨_, -, impossible⟩
      cases impossible
    · constructor
      · rintro ⟨fieldType, typed, rest⟩
        refine ⟨typeStr, name, default, parts, rfl, ⟨fieldType, typed⟩, ?_⟩
        rw [← parseDefaultValue_panic_iff]
        exact bind_ok_eq_panic_iff.mp (bind_ok_eq_panic_iff.mp rest)
      · rintro ⟨_, _, _, _, same, ⟨fieldType, typed⟩, stray⟩
        obtain ⟨rfl, rfl, rfl, rfl⟩ : typeStr = _ ∧ name = _ ∧ default = _ ∧ parts = _ := by
          simpa using same
        refine ⟨fieldType, typed, bind_ok_eq_panic_iff.mpr (bind_ok_eq_panic_iff.mpr ?_)⟩
        exact (parseDefaultValue_panic_iff _).mpr stray

/-- Whether a field is accepted does not depend on the number of its line. -/
theorem parseField_eq_ok_iff {line : List Char} {package : String} (lineNum : ℕ) {field : Field} :
    parseField line package lineNum = .ok field ↔ parseField line package 0 = .ok field := by
  unfold parseField
  split
  · exact Iff.rfl
  · exact iff_of_false nofun nofun

theorem parseConstant_eq_ok_iff {line : List Char} (lineNum : ℕ) {constant : Constant} :
    parseConstant line lineNum = .ok constant ↔ parseConstant line 0 = .ok constant := by
  unfold parseConstant
  split
  · exact iff_of_false nofun nofun
  · split
    · exact Iff.rfl
    · exact Iff.rfl
    · exact iff_of_false nofun nofun

/-- A constant that is accepted. -/
def ConstantLine (line : List Char) : Prop := ∃ constant, parseConstant line 0 = .ok constant

/-- The lines of a message that it does not fail at, and those it panics at. -/
def MessageAccepts (package : String) (line : List Char) : Prop :=
  takenForConstant line = true ∨ FieldLine package line

def MessageStray (package : String) (line : List Char) : Prop :=
  takenForConstant line = false ∧ StrayLine package line

/-- The same for a section of an action. -/
def SectionAccepts (package : String) (line : List Char) : Prop :=
  if '=' ∈ line then ConstantLine line else FieldLine package line

def SectionStray (package : String) (line : List Char) : Prop :=
  '=' ∉ line ∧ StrayLine package line

theorem messageLine_constant {line : List Char} (isConstant : takenForConstant line = true)
    (package : String) (lineNum : ℕ) : ∃ item, messageLine package lineNum line = .ok item := by
  rw [messageLine, isConstant_eq, isConstant]
  rcases parseConstant line lineNum with message | constant
  · exact ⟨none, rfl⟩
  · exact ⟨_, rfl⟩

theorem messageLine_field {line : List Char} (isField : takenForConstant line = false)
    (package : String) (lineNum : ℕ) : messageLine package lineNum line =
      parseField line package lineNum >>= fun field => .ok (some (.field field)) := by
  rw [messageLine, isConstant_eq, isField]
  rfl

theorem messageLine_accepts (package : String) (lineNum : ℕ) (line : List Char) :
    (∃ item, messageLine package lineNum line = .ok item) ↔ MessageAccepts package line := by
  rcases isConstant : takenForConstant line with _ | _
  · rw [messageLine_field isConstant, MessageAccepts, isConstant, or_iff_right Bool.false_ne_true,
      exists_bind_ok_iff]
    exact exists_congr fun field => parseField_eq_ok_iff lineNum
  · exact iff_of_true (messageLine_constant isConstant package lineNum) (.inl isConstant)

theorem messageLine_stray (package : String) (lineNum : ℕ) (line : List Char) :
    messageLine package lineNum line = .error .panic ↔ MessageStray package line := by
  rcases isConstant : takenForConstant line with _ | _
  · rw [messageLine_field isConstant, MessageStray, isConstant, bind_ok_eq_panic_iff,
      parseField_panic_iff, and_iff_right rfl]
  · obtain ⟨item, accepted⟩ := messageLine_constant isConstant package lineNum
    rw [accepted, MessageStray, isConstant]
    exact iff_of_false nofun fun both => nomatch both.1

theorem sectionLine_accepts (package : String) (lineNum : ℕ) (line : List Char) :
    (∃ item, sectionLine package lineNum line = .ok item) ↔ SectionAccepts package line := by
  rw [sectionLine, SectionAccepts]
  split_ifs with inside
  · rcases parsed : parseConstant line (lineNum + 1) with message | constant
    · refine iff_of_false (fun ⟨_, impossible⟩ => nomatch impossible) ?_
      rintro ⟨constant, accepted⟩
      rw [← parseConstant_eq_ok_iff (lineNum + 1), parsed] at accepted
      cases accepted
    · exact iff_of_true ⟨_, rfl⟩ ⟨constant, (parseConstant_eq_ok_iff (lineNum + 1)).mp parsed⟩
  · refine exists_bind_ok_iff.trans ?_
    exact exists_congr fun field => parseField_eq_ok_iff (lineNum + 1)

theorem sectionLine_stray (package : String) (lineNum : ℕ) (line : List Char) :
    sectionLine package lineNum line = .error .panic ↔ SectionStray package line := by
  rw [sectionLine, SectionStray]
  split_ifs with inside
  · refine iff_of_false ?_ fun both => both.1 inside
    rcases parseConstant line (lineNum + 1) with message | constant
    · exact nofun
    · exact nofun
  · refine bind_ok_eq_panic_iff.trans ?_
    rw [parseField_panic_iff, and_iff_right inside]

/-! ## Loops -/

/-- A stray line comes before every line that is refused. -/
def PanicsFirst (accepts stray : List Char → Prop) (parts : List (List Char)) : Prop :=
  ∃ front line back, parts = front ++ line :: back ∧ (∀ other ∈ front, accepts other) ∧ stray line

theorem panicsFirst_append {accepts stray : List Char → Prop} {parts parts' : List (List Char)} :
    PanicsFirst accepts stray (parts ++ parts') ↔ PanicsFirst accepts stray parts ∨
      (∀ line ∈ parts, accepts line) ∧ PanicsFirst accepts stray parts' := by
  constructor
  · rintro ⟨front, line, back, same, others, panics⟩
    rcases List.append_eq_append_iff.mp same with ⟨middle, rfl, rest⟩ | ⟨middle, rfl, rest⟩
    · obtain ⟨first, second⟩ := List.forall_mem_append.mp others
      exact .inr ⟨first, middle, line, back, rest, second, panics⟩
    · rcases middle with _ | ⟨line', middle⟩
      · rw [List.append_nil]
        exact .inr ⟨others, [], line, back, rest.symm,
          fun _ member => absurd member List.not_mem_nil, panics⟩
      · obtain ⟨rfl, rfl⟩ := List.cons.inj rest
        exact .inl ⟨front, line, middle, rfl, others, panics⟩
  · rintro (⟨front, line, back, rfl, others, panics⟩ |
      ⟨first, front, line, back, rfl, others, panics⟩)
    · exact ⟨front, line, back ++ parts', by simp, others, panics⟩
    · exact ⟨parts ++ front, line, back, by simp, List.forall_mem_append.mpr ⟨first, others⟩,
        panics⟩

section Loop

variable {turn : ℕ → List Char → Result (Option Item)} {accepts stray : List Char → Prop}

/-- **A loop panics** exactly when it comes to a stray line. -/
theorem parseLines_panic_iff
    (accepted : ∀ lineNum line, (∃ item, turn lineNum line = .ok item) ↔ accepts line)
    (panics : ∀ lineNum line, turn lineNum line = .error .panic ↔ stray line)
    (source : List Char) :
    parseLines turn source = .error .panic ↔ PanicsFirst accepts stray (codes (lines source)) := by
  rw [parseLines_eq, bind_ok_eq_panic_iff, Fallible.mapM_eq_error_iff, ← map_snd_codeLines]
  simp only [accepted, panics]
  constructor
  · rintro ⟨front, line, back, same, others, panics⟩
    refine ⟨front.map Prod.snd, line.2, back.map Prod.snd, ?_, ?_, panics⟩
    · rw [same, List.map_append, List.map_cons]
    · exact List.forall_mem_map.mpr others
  · rintro ⟨_, _, _, same, others, panics⟩
    obtain ⟨front, rest, split, rfl, shape⟩ := List.map_eq_append_iff.mp same
    obtain ⟨line, back, rfl, rfl, rfl⟩ := List.map_eq_cons_iff.mp shape
    exact ⟨front, line, back, split, List.forall_mem_map.mp others, panics⟩

theorem exists_parseLines_iff
    (accepted : ∀ lineNum line, (∃ item, turn lineNum line = .ok item) ↔ accepts line)
    (source : List Char) :
    (∃ items, parseLines turn source = .ok items) ↔
      ∀ line ∈ codes (lines source), accepts line := by
  have turns : (∃ results, (codeLines source).mapM (fun line => turn line.1 line.2) = .ok results) ↔
      ∀ line ∈ codeLines source, accepts line.2 := by
    constructor
    · rintro ⟨results, loop⟩ line member
      obtain ⟨result, -, succeeded⟩ := Fallible.exists_result loop member
      exact (accepted line.1 line.2).mp ⟨result, succeeded⟩
    · intro each
      exact Fallible.exists_mapM_ok fun line member =>
        (accepted line.1 line.2).mpr (each line member)
  rw [parseLines_eq, ← map_snd_codeLines, List.forall_mem_map, ← turns]
  exact exists_bind_ok_iff

end Loop

/-! ## Files -/

section Files

variable {source content package name : String} {path : Path}

theorem exists_parseMsgString_iff (valid : path.stem = .ok name) :
    (∃ message, parseMsgString source package path = .ok message) ↔
      ∀ line ∈ codes (lines source.toList), MessageAccepts package line := by
  rw [← exists_parseLines_iff (messageLine_accepts package), parseMsgString, valid, ok_bind]
  exact exists_bind_ok_iff

theorem parseMsgString_panic_iff (valid : path.stem = .ok name) :
    parseMsgString source package path = .error .panic ↔
      PanicsFirst (MessageAccepts package) (MessageStray package)
        (codes (lines source.toList)) := by
  rw [← parseLines_panic_iff (messageLine_accepts package) (messageLine_stray package),
    parseMsgString, valid, ok_bind]
  exact bind_ok_eq_panic_iff

/-- The text of lines without line feeds, parsed as a message. -/
theorem parseMsgString_joinLines {parts : List (List Char)} (apart : ∀ part ∈ parts, '\n' ∉ part)
    (valid : path.stem = .ok name) (package : String) :
    (parseMsgString (joinLines parts) package path = .error .panic ↔
      PanicsFirst (MessageAccepts package) (MessageStray package) (codes parts)) ∧
    ((∃ message, parseMsgString (joinLines parts) package path = .ok message) ↔
      ∀ line ∈ codes parts, MessageAccepts package line) := by
  rw [parseMsgString_panic_iff valid, exists_parseMsgString_iff valid, codes_joinLines apart]
  exact ⟨Iff.rfl, Iff.rfl⟩

/-- The two messages of a service, one after the other. -/
theorem messages_panic_iff {β : Type} {request response : List (List Char)}
    (apart : ∀ line ∈ request ++ response, '\n' ∉ line) {path path' : Path} {name name' : String}
    (valid : path.stem = .ok name) (valid' : path'.stem = .ok name')
    (package : String) (result : ParsedMessage → ParsedMessage → β) :
    (do
      let first ← parseMsgString (joinLines request) package path
      let second ← parseMsgString (joinLines response) package path'
      return result first second : Result β) = .error .panic ↔
        PanicsFirst (MessageAccepts package) (MessageStray package)
          (codes (request ++ response)) := by
  obtain ⟨before, behind⟩ := List.forall_mem_append.mp apart
  obtain ⟨panics, accepted⟩ := parseMsgString_joinLines before valid package
  obtain ⟨panics', -⟩ := parseMsgString_joinLines behind valid' package
  rw [codes_append, panicsFirst_append, ← panics, ← panics', ← accepted, bind_eq_panic_iff]
  refine or_congr_right ?_
  constructor
  · rintro ⟨first, parsed, rest⟩
    exact ⟨⟨first, parsed⟩, bind_ok_eq_panic_iff.mp rest⟩
  · rintro ⟨⟨first, parsed⟩, second⟩
    exact ⟨first, parsed, bind_ok_eq_panic_iff.mpr second⟩

/-- A service panics at a line of its two messages. -/
theorem parseSrvString_panic_iff (valid : path.stem = .ok name) :
    parseSrvString source package path = .error .panic ↔ ∃ request delimiter response,
      lines source.toList = request ++ delimiter :: response ∧ isDelimiter delimiter = true ∧
        (∀ line ∈ request ++ response, isDelimiter line = false) ∧
        PanicsFirst (MessageAccepts package) (MessageStray package)
          (codes (request ++ response)) := by
  have stem : ∀ kind : String, kind ≠ "" →
      (path.withFileName (name ++ (kind ++ ".msg"))).stem = .ok (name ++ kind) := by
    intro kind some
    rw [← String.append_assoc]
    refine stem_withFileName path fun none => some ?_
    rw [← String.toList_inj, String.toList_append] at none
    exact String.toList_inj.mp (List.append_eq_nil_iff.mp none).2
  rw [parseSrvString, valid, ok_bind]
  dsimp only
  split
  · next idx found =>
    have parts : ∀ request delimiter response,
        lines source.toList = request ++ delimiter :: response →
        isDelimiter delimiter = true → (∀ line ∈ request ++ response, isDelimiter line = false) →
        (lines source.toList).take idx = request ∧
          (lines source.toList).drop (idx + 1) = response := by
      intro request delimiter response split isOne others
      have place : (lines source.toList).findIdxs isDelimiter = [request.length] :=
        findIdxs_eq_singleton_iff.mpr
          ⟨request, delimiter, response, split, Nat.zero_add _, isOne, others⟩
      rw [found, List.cons.injEq] at place
      rw [split, place.1]
      exact ⟨List.take_left, by simp⟩
    obtain ⟨request, delimiter, response, split, place, isOne, others⟩ :=
      findIdxs_eq_singleton_iff.mp found
    obtain ⟨before, behind⟩ := parts request delimiter response split isOne others
    have apart : ∀ line ∈ request ++ response, '\n' ∉ line := by
      intro line member
      refine not_mem_of_mem_lines (s := source.toList) ?_
      rw [split]
      exact (List.mem_append.mp member).elim (List.mem_append_left _) fun back =>
        List.mem_append_right _ (List.mem_cons_of_mem _ back)
    have whole := messages_panic_iff apart (stem "Request" (by decide))
      (stem "Response" (by decide)) package fun first second =>
        ({ name, package, request := { first with name := name ++ "Request" },
           response := { second with name := name ++ "Response" }, source, path } : ParsedService)
    rw [before, behind]
    refine whole.trans
      ⟨fun panics => ⟨request, delimiter, response, split, isOne, others, panics⟩, ?_⟩
    rintro ⟨request', delimiter', response', split', isOne', others', panics⟩
    obtain ⟨before', behind'⟩ := parts request' delimiter' response' split' isOne' others'
    rw [← before, ← behind, before', behind']
    exact panics
  · next other =>
    refine iff_of_false nofun ?_
    rintro ⟨request, delimiter, response, split, isOne, others, -⟩
    exact other _ (findIdxs_eq_singleton_iff.mpr
      ⟨request, delimiter, response, split, rfl, isOne, others⟩)

/-- A section of an action. -/
theorem parseActionSection_iff {text : List Char} :
    (parseActionSection text name package path = .error .panic ↔
      PanicsFirst (SectionAccepts package) (SectionStray package) (codes (lines text))) ∧
    ((∃ message, parseActionSection text name package path = .ok message) ↔
      ∀ line ∈ codes (lines text), SectionAccepts package line) := by
  rw [← parseLines_panic_iff (sectionLine_accepts package) (sectionLine_stray package),
    ← exists_parseLines_iff (sectionLine_accepts package), parseActionSection]
  constructor
  · exact bind_ok_eq_panic_iff
  · exact exists_bind_ok_iff

/-- Nothing is on the lines of a text that is left empty. -/
theorem codes_of_trim_eq_nil {text : List Char} (empty : trim text = []) :
    codes (lines text) = [] := by
  have blank : Words.Gap isWhitespace text := by
    obtain ⟨front, back, shape, before, after⟩ := @Words.exists_trim Char isWhitespace text
    rw [shape, show Words.trim isWhitespace text = [] from empty, List.append_nil]
    exact List.forall_mem_append.mpr ⟨before, after⟩
  rw [codes_lines, codes, List.filter_eq_nil_iff, List.forall_mem_map]
  intro piece among
  have blanks : Words.Gap isWhitespace piece :=
    fun c inside => blank c (Text.mem_of_mem_splitOn among inside).1
  have noComment : '#' ∉ piece := fun inside => absurd (blanks '#' inside) (by decide)
  rw [code, stripComment_of_not_mem noComment, trim, Words.trim_gap blanks]
  decide

theorem parseOptionalSection_iff {text : List Char} :
    (parseOptionalSection text name package path = .error .panic ↔
      PanicsFirst (SectionAccepts package) (SectionStray package) (codes (lines text))) ∧
    ((∃ message, parseOptionalSection text name package path = .ok message) ↔
      ∀ line ∈ codes (lines text), SectionAccepts package line) := by
  obtain ⟨panics, accepted⟩ := @parseActionSection_iff package name path text
  rw [← panics, ← accepted, parseOptionalSection]
  split_ifs with empty
  · rw [panics, accepted, codes_of_trim_eq_nil empty]
    refine ⟨iff_of_false nofun ?_, iff_of_true ⟨none, rfl⟩ fun _ member => ?_⟩
    · rintro ⟨front, line, back, same, -⟩
      exact absurd same.symm (List.append_ne_nil_of_right_ne_nil _ (List.cons_ne_nil _ _))
    · exact absurd member List.not_mem_nil
  · constructor
    · exact bind_ok_eq_panic_iff
    · exact exists_bind_ok_iff

/-- An action panics at a line of its three sections. -/
theorem parseAction_panic_iff :
    parseAction content name package path = .error .panic ↔ ∃ goal result feedback,
      actionSections content = [goal, result, feedback] ∧
        PanicsFirst (SectionAccepts package) (SectionStray package)
          (codes (lines goal ++ lines result ++ lines feedback)) := by
  unfold parseAction
  split
  · next goal result feedback sections =>
    have whole : PanicsFirst (SectionAccepts package) (SectionStray package)
        (codes (lines goal ++ lines result ++ lines feedback)) ↔
        ∃ goal' result' feedback', actionSections content =
          [goal', result', feedback'] ∧
          PanicsFirst (SectionAccepts package) (SectionStray package)
            (codes (lines goal' ++ lines result' ++ lines feedback')) := by
      rw [sections]
      simp
    obtain ⟨goals, goal'⟩ := @parseActionSection_iff package (name ++ "Goal") path goal
    obtain ⟨results, result'⟩ := @parseOptionalSection_iff package (name ++ "Result") path result
    obtain ⟨feedbacks, -⟩ := @parseOptionalSection_iff package (name ++ "Feedback") path feedback
    rw [← whole, codes_append, codes_append, List.append_assoc, panicsFirst_append, ← goals,
      ← goal', panicsFirst_append, ← results, ← result', ← feedbacks, bind_eq_panic_iff]
    refine or_congr_right ?_
    constructor
    · rintro ⟨first, parsed, rest⟩
      refine ⟨⟨first, parsed⟩, (bind_eq_panic_iff.mp rest).imp_right ?_⟩
      rintro ⟨second, parsed, rest⟩
      exact ⟨⟨second, parsed⟩, bind_ok_eq_panic_iff.mp rest⟩
    · rintro ⟨⟨first, parsed⟩, rest⟩
      refine ⟨first, parsed, bind_eq_panic_iff.mpr (rest.imp_right ?_)⟩
      rintro ⟨⟨second, parsed⟩, third⟩
      exact ⟨second, parsed, bind_ok_eq_panic_iff.mpr third⟩
  · next other =>
    refine iff_of_false nofun ?_
    rintro ⟨goal, result, feedback, sections, -⟩
    exact other goal result feedback sections

end Files

/-! ## The parsers -/

/-- **When no parser panics**: no token panics as a field type, a default panics exactly when it
has a stray quotation mark, and a file exactly when a field line with such a default comes before
every line that is refused. -/
theorem ne_panic_iff {path : Path} {name : String} (valid : path.stem = .ok name)
    (source package : String) :
    (∀ token, parseFieldType token package ≠ .error .panic) ∧
    (∀ s, parseDefaultValue s ≠ .error .panic ↔ ¬ StrayMark s) ∧
    (parseMsgString source package path ≠ .error .panic ↔
      ¬ PanicsFirst (MessageAccepts package) (MessageStray package) (codes (lines source.toList))) ∧
    (parseSrvString source package path ≠ .error .panic ↔ ∀ request delimiter response,
      lines source.toList = request ++ delimiter :: response → isDelimiter delimiter = true →
        (∀ line ∈ request ++ response, isDelimiter line = false) →
        ¬ PanicsFirst (MessageAccepts package) (MessageStray package)
          (codes (request ++ response))) ∧
    (∀ actionName, parseAction source actionName package path ≠ .error .panic ↔
      ∀ goal result feedback, actionSections source = [goal, result, feedback] →
        ¬ PanicsFirst (SectionAccepts package) (SectionStray package)
          (codes (lines goal ++ lines result ++ lines feedback))) := by
  refine ⟨fun token => parseFieldType_ne_panic token package,
    fun s => not_congr (parseDefaultValue_panic_iff s),
    not_congr (parseMsgString_panic_iff valid), ?_, fun actionName => ?_⟩
  · rw [Ne, parseSrvString_panic_iff valid]
    push Not
    exact Iff.rfl
  · rw [Ne, parseAction_panic_iff]
    push Not
    exact Iff.rfl

theorem ne_panic_iff_quoted :
    parseMsgString "string s 'a'" "pkg" ⟨[], some (Cdr.utf8Bytes "A.msg")⟩ ≠ .error .panic ↔
      ¬ PanicsFirst (MessageAccepts "pkg") (MessageStray "pkg")
        (codes (lines "string s 'a'".toList)) :=
  (ne_panic_iff (show Path.stem ⟨[], some (Cdr.utf8Bytes "A.msg")⟩ = .ok "A" by decide +kernel)
    "string s 'a'" "pkg").2.2.1

/-- A default that is a lone quotation mark. -/
theorem loneMark_panics :
    parseMsgString "string s \"" "pkg" ⟨[], some (Cdr.utf8Bytes "A.msg")⟩ = .error .panic := by
  decide +kernel

end RosZ.Codegen.Parser
