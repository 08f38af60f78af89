import RosZ.Codegen.Parser.MessageLines

/-!
# Quoted defaults

What is left of a quoted text behind the four passes over its line: the comment is cut off, the
line may be taken for a constant, its words are joined with single spaces again, and a list is
cut at its commas.  Only then are quotation marks looked for.

* Joining the words collapses the gaps in the text (`parseDefaultValue_single`,
  `parseDefaultValue_list`).
* A comma in a text makes one element more (`uncut_of_parseDefaultValue`), and a '#' cuts off a
  quotation mark (`marks_stripComment_lt`), so neither leaves the texts as they were.

`preserved_iff` is what remains.
-/

namespace RosZ.Codegen.Parser

open Lines Words Numerals

/-! ## Texts in quotation marks -/

/-- White space without a line feed. -/
def Blank (gap : List Char) : Prop := Gap isWhitespace gap ∧ '\n' ∉ gap

/-- A text in quotation marks, with neither of the marks and no line feed in it. -/
structure QuotedText where
  mark : Char
  text : List Char
  isMark : IsMark mark
  free : ∀ c ∈ text, ¬ IsMark c
  oneLine : '\n' ∉ text

def QuotedText.source (quoted : QuotedText) : List Char :=
  quoted.mark :: (quoted.text ++ [quoted.mark])

/-- An element of a list, with white space around it. -/
structure QuotedElement extends QuotedText where
  front : List Char
  back : List Char
  blankFront : Blank front
  blankBack : Blank back

def QuotedElement.spaced (element : QuotedElement) : List Char :=
  element.front ++ element.toQuotedText.source ++ element.back

/-- A quoted string, or a bracketed list of them with commas in between. -/
inductive QuotedDefault where
  | single (quoted : QuotedText)
  | list (elements : List QuotedElement)

/-- What stands between the brackets of a list. -/
def listText (elements : List QuotedElement) : List Char :=
  [','].intercalate (elements.map QuotedElement.spaced)

def QuotedDefault.source : QuotedDefault → List Char
  | .single quoted => quoted.source
  | .list elements => '[' :: (listText elements ++ [']'])

/-- The texts between the quotation marks. -/
def QuotedDefault.texts : QuotedDefault → List (List Char)
  | .single quoted => [quoted.text]
  | .list elements => elements.map fun element => element.text

/-- The default that is meant. -/
def QuotedDefault.value : QuotedDefault → DefaultValue
  | .single quoted => .string (String.ofList quoted.text)
  | .list elements => .stringArray (elements.map fun element => String.ofList element.text)

/-- Every gap is one space already. -/
abbrev Spaced (text : List Char) : Prop := SingleSpaced isWhitespace ' ' text

/-! ## Quotation marks -/

/-- The number of quotation marks. -/
def marks (s : List Char) : ℕ := s.countP fun c => decide (IsMark c)

theorem marks_append (s t : List Char) : marks (s ++ t) = marks s + marks t := List.countP_append

theorem IsMark.isWhitespace {mark : Char} (isMark : IsMark mark) : isWhitespace mark = false := by
  rcases isMark with rfl | rfl
  · rfl
  · rfl

theorem marks_squeeze (s : List Char) : marks (squeeze isWhitespace ' ' s) = marks s :=
  countP_squeeze (by decide) (fun _ isMark => (of_decide_eq_true isMark).isWhitespace) s

theorem marks_between {a b : Char} (isA : IsMark a) (isB : IsMark b) (inner : List Char) :
    2 ≤ marks (a :: (inner ++ [b])) := by
  have single : marks [b] = 1 := by simp [marks, isB]
  have first : marks (a :: (inner ++ [b])) = marks (inner ++ [b]) + 1 :=
    List.countP_cons_of_pos (decide_eq_true isA)
  rw [first, marks_append, single]
  omega

theorem marks_gap {gap : List Char} (blanks : Gap isWhitespace gap) : marks gap = 0 := by
  rw [marks, List.countP_eq_zero]
  intro c member isMark
  have other := (of_decide_eq_true isMark).isWhitespace
  rw [blanks c member] at other
  cases other

theorem marks_trim (s : List Char) : marks (trim s) = marks s := by
  obtain ⟨front, back, shape, before, after⟩ := @exists_trim Char isWhitespace s
  conv_rhs => rw [shape]
  rw [marks_append, marks_append, marks_gap before, marks_gap after, Nat.zero_add, Nat.add_zero]
  rfl

/-- No mark is lost at the commas. -/
theorem marks_intercalate (parts : List (List Char)) :
    marks ([','].intercalate parts) = (parts.map marks).sum :=
  countP_intercalate_of_neg (by decide) parts

theorem marks_elements (inner : List Char) : ((elements inner).map marks).sum = marks inner := by
  rw [elements, List.map_map]
  calc ((inner.splitOn ',').map (marks ∘ trim)).sum = ((inner.splitOn ',').map marks).sum := by
        congr 1
        exact List.map_congr_left fun part _ => marks_trim part
    _ = marks inner := by rw [← marks_intercalate, List.intercalate_splitOn]

theorem marks_source (quoted : QuotedText) : marks quoted.source = 2 := by
  have inside : marks quoted.text = 0 := by
    rw [marks, List.countP_eq_zero]
    exact fun c member isMark => quoted.free c member (of_decide_eq_true isMark)
  have last : marks [quoted.mark] = 1 := by simp [marks, quoted.isMark]
  have first : marks quoted.source = marks (quoted.text ++ [quoted.mark]) + 1 :=
    List.countP_cons_of_pos (decide_eq_true quoted.isMark)
  rw [first, marks_append, inside, last]

theorem marks_spaced (element : QuotedElement) : marks element.spaced = 2 := by
  rw [QuotedElement.spaced, marks_append, marks_append, marks_gap element.blankFront.1,
    marks_gap element.blankBack.1, marks_source]

theorem marks_brackets (inner : List Char) : marks ('[' :: (inner ++ [']'])) = marks inner := by
  have first : marks ('[' :: (inner ++ [']'])) = marks (inner ++ [']']) :=
    List.countP_cons_of_neg (by decide)
  rw [first, marks_append]
  rfl

/-- A quoted default has two marks for each of its texts. -/
theorem marks_default (default : QuotedDefault) :
    marks default.source = 2 * default.texts.length := by
  cases default with
  | single quoted => exact marks_source quoted
  | list parts =>
      have each : (parts.map QuotedElement.spaced).map marks = parts.map fun _ => 2 := by
        rw [List.map_map]
        exact List.map_congr_left fun element _ => marks_spaced element
      rw [QuotedDefault.source, marks_brackets, listText, marks_intercalate, each,
        QuotedDefault.texts, List.length_map, List.map_const']
      simp [Nat.mul_comm]

/-- Behind a '#' in a text, there is the mark that closes it. -/
theorem exists_hash_of_texts {default : QuotedDefault}
    (inside : ∃ text ∈ default.texts, '#' ∈ text) :
    ∃ front back, default.source = front ++ '#' :: back ∧ 0 < marks back := by
  obtain ⟨quoted, part, hash⟩ : ∃ quoted : QuotedText, quoted.source <:+: default.source ∧
      '#' ∈ quoted.text := by
    obtain ⟨text, member, hash⟩ := inside
    cases default with
    | single quoted =>
        rw [List.mem_singleton.mp member] at hash
        exact ⟨quoted, List.infix_rfl, hash⟩
    | list parts =>
        obtain ⟨element, among, rfl⟩ := List.mem_map.mp member
        refine ⟨element.toQuotedText, ?_, hash⟩
        have spaced : element.toQuotedText.source <:+: element.spaced :=
          ⟨element.front, element.back, rfl⟩
        have listed : element.spaced <:+: listText parts :=
          infix_intercalate (List.mem_map_of_mem among)
        exact (spaced.trans listed).trans ⟨['['], [']'], rfl⟩
  obtain ⟨before, after, shape⟩ := part
  obtain ⟨front, back, split⟩ := List.append_of_mem hash
  refine ⟨before ++ quoted.mark :: front, back ++ quoted.mark :: after, ?_, ?_⟩
  · rw [← shape, QuotedText.source, split]
    simp
  · rw [marks, List.countP_pos_iff]
    exact ⟨quoted.mark, by simp, decide_eq_true quoted.isMark⟩

/-- What is neither a mark, a comma, a bracket nor a blank stands in a text. -/
theorem exists_of_mem_source {c : Char} (other : c ∉ ['"', '\'', '[', ',', ']'])
    (noBlank : ∀ {gap : List Char}, Blank gap → c ∉ gap) {default : QuotedDefault}
    (inside : c ∈ default.source) : ∃ text ∈ default.texts, c ∈ text := by
  simp only [List.mem_cons, List.not_mem_nil, or_false, not_or] at other
  obtain ⟨double, single, opening, comma, closing⟩ := other
  have ofSource : ∀ {quoted : QuotedText}, c ∈ quoted.source → c ∈ quoted.text := by
    intro quoted inside
    have noMark : c ≠ quoted.mark := by
      rintro rfl
      exact quoted.isMark.elim double single
    simpa [QuotedText.source, noMark] using inside
  cases default with
  | single quoted => exact ⟨quoted.text, List.mem_singleton_self _, ofSource inside⟩
  | list parts =>
      have listed : c ∈ listText parts := by
        simpa [QuotedDefault.source, opening, closing] using inside
      have sum : (listText parts).count c =
          ((parts.map QuotedElement.spaced).map (·.count c)).sum :=
        countP_intercalate_of_neg (p := (· == c)) (beq_eq_false_iff_ne.mpr (Ne.symm comma)) _
      rw [← List.count_pos_iff, sum, List.sum_pos_iff_exists_pos_nat] at listed
      obtain ⟨_, counted, positive⟩ := listed
      obtain ⟨part, member, rfl⟩ := List.mem_map.mp counted
      have found : c ∈ part := List.count_pos_iff.mp positive
      obtain ⟨element, among, rfl⟩ := List.mem_map.mp member
      refine ⟨element.text, List.mem_map_of_mem among, ?_⟩
      simp only [QuotedElement.spaced, List.mem_append, noBlank element.blankFront,
        noBlank element.blankBack, false_or, or_false] at found
      exact ofSource found

theorem hash_not_mem_blank {gap : List Char} (blank : Blank gap) : '#' ∉ gap :=
  fun inside => absurd (blank.1 '#' inside) (by decide)

theorem hash_mem_source {default : QuotedDefault} (inside : '#' ∈ default.source) :
    ∃ text ∈ default.texts, '#' ∈ text :=
  exists_of_mem_source (by decide) hash_not_mem_blank inside

theorem oneLine_default (default : QuotedDefault) : '\n' ∉ default.source := by
  intro inside
  obtain ⟨text, member, found⟩ := exists_of_mem_source (by decide) And.right inside
  cases default with
  | single quoted =>
      rw [List.mem_singleton.mp member] at found
      exact quoted.oneLine found
  | list parts =>
      obtain ⟨element, -, rfl⟩ := List.mem_map.mp member
      exact element.oneLine found

/-! ## What is read as quoted -/

/-- A quoted text that can be sliced has a mark at either end. -/
theorem two_le_marks {s text : List Char} (quoted : isQuoted s = true)
    (sliced : withoutEnds s = .ok text) : 2 ≤ marks s := by
  rcases isQuoted_iff.mp quoted with lone | ⟨mark, inner, isMark, rfl⟩
  · rw [withoutEnds_loneMark lone] at sliced
    cases sliced
  · exact marks_between isMark isMark inner

/-- The elements that are read as texts. -/
theorem parseStrings_eq_ok {parts : List (List Char)} {texts : List String}
    (read : parseStrings parts = .ok (some texts)) :
    texts.length = parts.length ∧ 2 * texts.length ≤ (parts.map marks).sum := by
  induction parts generalizing texts with
  | nil =>
      rw [parseStrings, Except.ok.injEq, Option.some.injEq] at read
      rw [← read]
      exact ⟨rfl, Nat.le_refl 0⟩
  | cons part parts ih =>
      rw [parseStrings] at read
      split_ifs at read with quoted
      · obtain ⟨text, sliced, rest⟩ := Fallible.bind_eq_ok_iff.mp read
        obtain ⟨others, later, same⟩ := Fallible.bind_eq_ok_iff.mp rest
        obtain ⟨others, rfl, rfl⟩ := Option.map_eq_some_iff.mp (Except.ok.inj same)
        obtain ⟨lengths, enough⟩ := ih later
        have two := two_le_marks quoted sliced
        rw [List.length_cons, List.length_cons, List.map_cons, List.sum_cons]
        exact ⟨congrArg (· + 1) lengths, by omega⟩
      · cases Except.ok.inj read

/-- A default in brackets is read element by element. -/
theorem parseDefaultValue_brackets {s inner : List Char} (shape : s = '[' :: (inner ++ [']'])) :
    parseDefaultValue s =
      if inner = [] ∨ elements inner = [] then
        bail s!"Empty array default value: {String.ofList s}"
      else parseElements s (elements inner) := by
  subst shape
  rw [parseDefaultValue, if_pos (ends_iff.mpr (.inr ⟨inner, rfl⟩)), withoutEnds_between rfl rfl]
  rfl

/-- What the elements of an array are read as. -/
theorem parseElements_cases {s : List Char} {parts : List (List Char)} {value : DefaultValue}
    (read : parseElements s parts = .ok value) :
    (∃ texts, parseStrings parts = .ok (some texts) ∧ value = .stringArray texts) ∨
      (∃ bools, value = .boolArray bools) ∨ (∃ ints, value = .intArray ints) ∨
        ∃ floats, value = .floatArray floats := by
  unfold parseElements at read
  split at read
  · exact .inr (.inl ⟨_, (Except.ok.inj read).symm⟩)
  · exact .inr (.inr (.inl ⟨_, (Except.ok.inj read).symm⟩))
  · exact .inr (.inr (.inr ⟨_, (Except.ok.inj read).symm⟩))
  · obtain ⟨strings, parsed, same⟩ := Fallible.bind_eq_ok_iff.mp read
    obtain ⟨texts, rfl, shape⟩ := Option.map_eq_some_iff.mp (orBail_eq_ok_iff.mp same)
    exact .inl ⟨texts, parsed, shape.symm⟩

/-- What a default is read as. -/
theorem parseDefaultValue_cases {s : List Char} {value : DefaultValue}
    (read : parseDefaultValue s = .ok value) :
    (∃ inner, s = '[' :: (inner ++ [']']) ∧ parseElements s (elements inner) = .ok value) ∨
      (isQuoted s = true ∧ ∃ text, withoutEnds s = .ok text ∧
        value = .string (String.ofList text)) ∨
      (∃ b, value = .bool b) ∨ (∃ i, value = .int i) ∨ ∃ f, value = .float f := by
  by_cases isArray : s.head? = some '[' ∧ s.getLast? = some ']'
  · obtain ⟨inner, rfl⟩ := (ends_iff.mp isArray).resolve_left fun both => absurd both.2 (by decide)
    rw [parseDefaultValue_brackets rfl] at read
    split_ifs at read with none
    · cases read
    · exact .inl ⟨inner, rfl, read⟩
  · right
    rw [parseDefaultValue, if_neg isArray] at read
    split at read
    · exact .inr (.inl ⟨_, (Except.ok.inj read).symm⟩)
    · split_ifs at read with quoted
      · obtain ⟨text, sliced, same⟩ := Fallible.bind_eq_ok_iff.mp read
        exact .inl ⟨quoted, text, sliced, (Except.ok.inj same).symm⟩
      · split at read
        · exact .inr (.inr (.inl ⟨_, (Except.ok.inj read).symm⟩))
        · exact .inr (.inr (.inr ⟨_, (Except.ok.inj read).symm⟩))
        · cases read

/-- A default that is read as a list of texts. -/
theorem stringArray_of_parseDefaultValue {s : List Char} {texts : List String}
    (read : parseDefaultValue s = .ok (.stringArray texts)) : ∃ inner, s = '[' :: (inner ++ [']']) ∧
      parseStrings (elements inner) = .ok (some texts) := by
  rcases parseDefaultValue_cases read with
    ⟨inner, shape, each⟩ | ⟨-, _, -, same⟩ | ⟨_, same⟩ | ⟨_, same⟩ | ⟨_, same⟩
  · refine ⟨inner, shape, ?_⟩
    rcases parseElements_cases each with ⟨texts', parsed, same⟩ | ⟨_, same⟩ | ⟨_, same⟩ | ⟨_, same⟩
    · rw [parsed, DefaultValue.stringArray.inj same]
    all_goals cases same
  all_goals cases same

/-- A default that is read as a text. -/
theorem string_of_parseDefaultValue {s : List Char} {text : String}
    (read : parseDefaultValue s = .ok (.string text)) : 2 ≤ marks s := by
  rcases parseDefaultValue_cases read with
    ⟨inner, -, each⟩ | ⟨quoted, _, sliced, -⟩ | ⟨_, same⟩ | ⟨_, same⟩ | ⟨_, same⟩
  · rcases parseElements_cases each with ⟨_, -, same⟩ | ⟨_, same⟩ | ⟨_, same⟩ | ⟨_, same⟩
    all_goals cases same
  · exact two_le_marks quoted sliced
  all_goals cases same

/-- Whatever is read as the texts of a default has two marks for each of them. -/
theorem marks_of_parseDefaultValue {s : List Char} {default : QuotedDefault}
    (read : parseDefaultValue s = .ok default.value) : 2 * default.texts.length ≤ marks s := by
  cases default with
  | single quoted => exact string_of_parseDefaultValue read
  | list parts =>
      obtain ⟨inner, rfl, strings⟩ := stringArray_of_parseDefaultValue read
      have enough := (parseStrings_eq_ok strings).2
      rw [marks_elements, List.length_map] at enough
      rw [QuotedDefault.texts, List.length_map, marks_brackets]
      exact enough

/-! ## Texts without commas -/

/-- A quotation mark starts neither a truth value nor a number. -/
theorem noValue_of_isMark {mark : Char} (isMark : IsMark mark) (s : List Char) :
    parseBool (mark :: s) = none ∧ parseI64 (mark :: s) = none ∧ parseF64 (mark :: s) = none := by
  refine ⟨?_, parseI64_quote isMark s, parseF64_quote isMark s⟩
  rcases isMark with rfl | rfl
  · simp [parseBool]
  · simp [parseBool]

/-- The default of a quoted text has its gaps collapsed. -/
theorem parseDefaultValue_single (quoted : QuotedText) :
    parseDefaultValue (squeeze isWhitespace ' ' quoted.source) =
      .ok (.string (String.ofList (collapse isWhitespace ' ' quoted.text))) := by
  have solid : Solid isWhitespace [quoted.mark] :=
    List.forall_mem_singleton.mpr quoted.isMark.isWhitespace
  have squeezed : squeeze isWhitespace ' ' quoted.source =
      quoted.mark :: (collapse isWhitespace ' ' quoted.text ++ [quoted.mark]) :=
    squeeze_between [quoted.mark] [quoted.mark] solid
      (fun none => absurd none (List.cons_ne_nil _ _)) solid (List.cons_ne_nil _ _)
  have notArray :
      ¬ ((quoted.mark :: (collapse isWhitespace ' ' quoted.text ++ [quoted.mark])).head? =
          some '[' ∧
        (quoted.mark :: (collapse isWhitespace ' ' quoted.text ++ [quoted.mark])).getLast? =
          some ']') := by
    rintro ⟨same, -⟩
    have isMark := quoted.isMark
    rw [Option.some.inj same] at isMark
    exact absurd isMark (by decide)
  have isQuoted := isQuoted_iff.mpr (.inr ⟨quoted.mark, collapse isWhitespace ' ' quoted.text,
    quoted.isMark, rfl⟩)
  rw [squeezed, parseDefaultValue, if_neg notArray, (noValue_of_isMark quoted.isMark _).1]
  dsimp only
  rw [if_pos isQuoted, withoutEnds_between quoted.isMark.utf8Size quoted.isMark.utf8Size]
  rfl

/-- What an element comes to. -/
def QuotedElement.collapsed (element : QuotedElement) : List Char :=
  element.mark :: (collapse isWhitespace ' ' element.text ++ [element.mark])

theorem trim_collapse_spaced (element : QuotedElement) :
    trim (collapse isWhitespace ' ' element.spaced) = element.collapsed := by
  have solid := element.isMark.isWhitespace
  have shape : collapse isWhitespace ' ' element.spaced = collapse isWhitespace ' ' element.front ++
      element.collapsed ++ collapse isWhitespace ' ' element.back := by
    have split : element.spaced = element.front ++ element.mark ::
        (element.text ++ element.mark :: element.back) := by
      simp [QuotedElement.spaced, QuotedText.source]
    rw [split, collapse_append_cons solid, collapse_append_cons solid]
    simp [QuotedElement.collapsed]
  rw [shape]
  refine trim_between (gap_collapse rfl element.blankFront.1) (gap_collapse rfl element.blankBack.1)
    (fun c first => ?_) (fun c last => ?_) (List.cons_ne_nil _ _)
  · rw [Option.mem_some_iff.mp first] at solid
    exact solid
  · rw [QuotedElement.collapsed, ← List.cons_append, List.getLast?_concat] at last
    rw [Option.mem_some_iff.mp last] at solid
    exact solid

theorem parseStrings_collapsed (parts : List QuotedElement) :
    parseStrings (parts.map QuotedElement.collapsed) = .ok (some (parts.map fun element =>
      String.ofList (collapse isWhitespace ' ' element.text))) := by
  induction parts with
  | nil => rfl
  | cons element parts ih =>
      have isQuoted := isQuoted_iff.mpr (.inr ⟨element.mark, collapse isWhitespace ' ' element.text,
        element.isMark, rfl⟩)
      rw [List.map_cons, QuotedElement.collapsed, parseStrings, if_pos isQuoted,
        withoutEnds_between element.isMark.utf8Size element.isMark.utf8Size, ih]
      rfl

/-- A list with its gaps collapsed. -/
theorem squeeze_list (parts : List QuotedElement) :
    squeeze isWhitespace ' ' (QuotedDefault.list parts).source =
      '[' :: (collapse isWhitespace ' ' (listText parts) ++ [']']) :=
  squeeze_between ['['] [']'] (List.forall_mem_singleton.mpr (by decide))
    (fun none => absurd none (List.cons_ne_nil _ _)) (List.forall_mem_singleton.mpr (by decide))
    (List.cons_ne_nil _ _)

theorem count_comma_spaced (element : QuotedElement) :
    element.spaced.count ',' = element.text.count ',' := by
  have noMark : element.mark ≠ ',' := by
    intro same
    have isMark := element.isMark
    rw [same] at isMark
    exact absurd isMark (by decide)
  have noBlank : ∀ {gap : List Char}, Blank gap → gap.count ',' = 0 := by
    intro gap blank
    refine List.count_eq_zero.mpr fun inside => ?_
    exact absurd (blank.1 ',' inside) (by decide)
  have source : element.toQuotedText.source.count ',' = element.text.count ',' := by
    rw [QuotedText.source, List.count_cons_of_ne noMark, List.count_append,
      List.count_singleton, if_neg (by simpa using noMark), Nat.add_zero]
  rw [QuotedElement.spaced, List.count_append, List.count_append, noBlank element.blankFront,
    noBlank element.blankBack, source, Nat.zero_add, Nat.add_zero]

/-- The elements of a list are its quoted texts with their gaps collapsed, when no text has a
comma. -/
theorem elements_listText {parts : List QuotedElement} (some : parts ≠ [])
    (uncut : ∀ element ∈ parts, ',' ∉ element.text) :
    elements (collapse isWhitespace ' ' (listText parts)) = parts.map QuotedElement.collapsed := by
  have apart : ∀ part ∈ (parts.map QuotedElement.spaced).map (collapse isWhitespace ' '),
      ',' ∉ part := by
    rw [List.map_map, List.forall_mem_map]
    intro element member inside
    have spaced : ',' ∈ element.spaced := (mem_of_mem_collapse inside).resolve_right (by decide)
    rw [← List.count_pos_iff, count_comma_spaced, List.count_pos_iff] at spaced
    exact uncut element member spaced
  rw [listText, collapse_intercalate (by decide), elements,
    List.splitOn_intercalate _ apart (by simpa using some), List.map_map, List.map_map]
  exact List.map_congr_left fun element _ => trim_collapse_spaced element

/-- The default of a list has the gaps of its texts collapsed. -/
theorem parseDefaultValue_list {parts : List QuotedElement} (some : parts ≠ [])
    (uncut : ∀ element ∈ parts, ',' ∉ element.text) :
    parseDefaultValue (squeeze isWhitespace ' ' (QuotedDefault.list parts).source) =
      .ok (.stringArray (parts.map fun element =>
        String.ofList (collapse isWhitespace ' ' element.text))) := by
  obtain ⟨first, rest, rfl⟩ := List.exists_cons_of_ne_nil some
  have quoted : first.collapsed ∈ (first :: rest).map QuotedElement.collapsed := List.mem_cons_self
  obtain ⟨noBool, noInt, noFloat⟩ := noValue_of_isMark first.isMark
    (collapse isWhitespace ' ' first.text ++ [first.mark])
  have parsed := elements_listText some uncut
  have someElements : elements (collapse isWhitespace ' ' (listText (first :: rest))) ≠ [] := by
    rw [parsed]
    exact List.cons_ne_nil _ _
  have inner : collapse isWhitespace ' ' (listText (first :: rest)) ≠ [] := by
    intro none
    rw [none] at parsed
    have same : first.collapsed = [] := (List.cons.inj parsed.symm).1
    exact absurd same (List.cons_ne_nil _ _)
  rw [squeeze_list, parseDefaultValue_brackets rfl, if_neg (not_or.mpr ⟨inner, someElements⟩),
    parsed, parseElements, Fallible.mapM_eq_none quoted noBool, Fallible.mapM_eq_none quoted noInt,
    Fallible.mapM_eq_none quoted noFloat, parseStrings_collapsed]
  rfl

/-! ## Texts with commas -/

/-- The elements of a list are one more than its commas. -/
theorem length_elements_listText {parts : List QuotedElement} (some : parts ≠ []) :
    (elements (collapse isWhitespace ' ' (listText parts))).length =
      (parts.map fun element => element.text.count ',' + 1).sum := by
  have kept : (collapse isWhitespace ' ' (listText parts)).count ',' = (listText parts).count ',' :=
    countP_collapse (by decide) (fun c isComma => by rw [beq_iff_eq.mp isComma]; decide) _
  have counted : (listText parts).count ',' + 1 = _ :=
    @countP_intercalate Char ',' (· == ',') (parts.map QuotedElement.spaced) (by simpa using some)
  rw [elements, List.length_map, length_splitOn, kept, counted, List.map_map]
  congr 1
  exact List.map_congr_left fun element _ => congrArg (· + 1) (count_comma_spaced element)

/-- What is read as a text for each element is a list of texts without commas. -/
theorem uncut_of_parseDefaultValue {parts : List QuotedElement} {texts : List String}
    (lengths : texts.length = parts.length)
    (read : parseDefaultValue (squeeze isWhitespace ' ' (QuotedDefault.list parts).source) =
      .ok (.stringArray texts)) : parts ≠ [] ∧ ∀ element ∈ parts, ',' ∉ element.text := by
  have some : parts ≠ [] := by
    rintro rfl
    rw [squeeze_list, parseDefaultValue_brackets rfl, if_pos (.inl rfl)] at read
    cases read
  refine ⟨some, ?_⟩
  rw [squeeze_list] at read
  obtain ⟨inner, shape, strings⟩ := stringArray_of_parseDefaultValue read
  obtain rfl : collapse isWhitespace ' ' (listText parts) = inner := by simpa using shape
  have same := (parseStrings_eq_ok strings).1
  have total : (parts.map fun element => element.text.count ',' + 1).sum =
      (parts.map fun element => element.text.count ',').sum + parts.length := by
    rw [List.sum_map_add, List.map_const', List.sum_replicate_nat, Nat.mul_one]
  rw [lengths, length_elements_listText some, total] at same
  have none : (parts.map fun element => element.text.count ',').sum = 0 := by omega
  rw [List.sum_eq_zero_iff_forall_eq_nat, List.forall_mem_map] at none
  exact fun element member => List.count_eq_zero.mp (none element member)

/-! ## What is preserved -/

/-- A default whose texts come through the four passes: no '#', single spaces only, and in a
list, which must not be empty, no commas. -/
structure QuotedDefault.Survives (default : QuotedDefault) : Prop where
  uncommented : ∀ text ∈ default.texts, '#' ∉ text
  spaced : ∀ text ∈ default.texts, Spaced text
  uncut : ∀ parts, default = .list parts → parts ≠ [] ∧ ∀ element ∈ parts, ',' ∉ element.text

theorem stripComment_front (front back : List Char) :
    stripComment (front ++ '#' :: back) <+: front := by
  by_cases before : '#' ∈ front
  · obtain ⟨first, rest, rfl, absent⟩ := Slices.exists_first_char before
    rw [List.append_assoc, List.cons_append, stripComment_append absent]
    exact List.prefix_append _ _
  · rw [stripComment_append before]

/-- A '#' in a text cuts off the mark that closes it. -/
theorem marks_stripComment_lt {default : QuotedDefault}
    (inside : ∃ text ∈ default.texts, '#' ∈ text) :
    marks (stripComment default.source) < 2 * default.texts.length := by
  obtain ⟨front, back, shape, closed⟩ := exists_hash_of_texts inside
  have atMost : marks (stripComment default.source) ≤ marks front := by
    rw [shape]
    exact (stripComment_front front back).sublist.countP_le
  have total := marks_default default
  have hash : marks ('#' :: back) = marks back := List.countP_cons_of_neg (by decide)
  rw [shape, marks_append, hash] at total
  omega

theorem collapsed_eq_iff {text : List Char} :
    String.ofList (collapse isWhitespace ' ' text) = String.ofList text ↔ Spaced text := by
  rw [String.ofList_inj, collapse_eq_self_iff]

/-- **What is read of a quoted default** is what is meant exactly when it survives. -/
theorem parseDefaultValue_source_iff (default : QuotedDefault) :
    parseDefaultValue (squeeze isWhitespace ' ' (stripComment default.source)) =
      .ok default.value ↔ default.Survives := by
  have kept : (∀ text ∈ default.texts, '#' ∉ text) →
      stripComment default.source = default.source := by
    intro uncommented
    refine stripComment_of_not_mem fun inside => ?_
    obtain ⟨text, member, hash⟩ := hash_mem_source inside
    exact uncommented text member hash
  constructor
  · intro read
    have uncommented : ∀ text ∈ default.texts, '#' ∉ text := by
      intro text member hash
      have enough := marks_of_parseDefaultValue read
      have few := marks_stripComment_lt ⟨text, member, hash⟩
      rw [marks_squeeze] at enough
      omega
    rw [kept uncommented] at read
    cases default with
    | single quoted =>
        rw [QuotedDefault.source, parseDefaultValue_single, Except.ok.injEq, QuotedDefault.value,
          DefaultValue.string.injEq, collapsed_eq_iff] at read
        exact ⟨uncommented, List.forall_mem_singleton.mpr read, nofun⟩
    | list parts =>
        obtain ⟨some, uncut⟩ := uncut_of_parseDefaultValue (List.length_map _) read
        rw [parseDefaultValue_list some uncut, Except.ok.injEq, QuotedDefault.value,
          DefaultValue.stringArray.injEq, List.map_inj_left] at read
        refine ⟨uncommented, List.forall_mem_map.mpr fun element member => ?_, ?_⟩
        · exact collapsed_eq_iff.mp (read element member)
        · intro parts' same
          rw [← QuotedDefault.list.inj same]
          exact ⟨some, uncut⟩
  · intro survives
    rw [kept survives.uncommented]
    cases default with
    | single quoted =>
        rw [QuotedDefault.source, parseDefaultValue_single,
          collapsed_eq_iff.mpr (survives.spaced _ (List.mem_singleton_self _))]
        rfl
    | list parts =>
        obtain ⟨some, uncut⟩ := survives.uncut parts rfl
        rw [parseDefaultValue_list some uncut, QuotedDefault.value, Except.ok.injEq,
          DefaultValue.stringArray.injEq, List.map_inj_left]
        exact fun element member =>
          collapsed_eq_iff.mpr (survives.spaced _ (List.mem_map_of_mem member))

/-! ## The line of a field -/

/-- A field line with a quoted default. -/
structure QuotedLine where
  indent : List Char
  typeStr : List Char
  gapType : List Char
  name : List Char
  gapName : List Char
  default : QuotedDefault
  trail : List Char
  blankIndent : Blank indent
  someType : typeStr ≠ []
  plainType : Solid isWhitespace typeStr ∧ '#' ∉ typeStr
  someGapType : gapType ≠ []
  blankGapType : Blank gapType
  someName : name ≠ []
  plainName : Solid isWhitespace name ∧ '#' ∉ name
  someGapName : gapName ≠ []
  blankGapName : Blank gapName
  blankTrail : Blank trail

/-- What stands in front of the default. -/
def QuotedLine.front (line : QuotedLine) : List Char :=
  line.indent ++ (line.typeStr ++ line.gapType ++ (line.name ++ line.gapName))

def QuotedLine.source (line : QuotedLine) : List Char :=
  line.front ++ (line.default.source ++ line.trail)

/-- The field that is meant. -/
def QuotedLine.field (line : QuotedLine) (fieldType : FieldType) : Field :=
  { name := String.ofList line.name, fieldType, default := some line.default.value }

theorem stripComment_append_left {front : List Char} (absent : '#' ∉ front) (back : List Char) :
    stripComment (front ++ back) = front ++ stripComment back := by
  by_cases inside : '#' ∈ back
  · obtain ⟨first, rest, rfl, absent'⟩ := Slices.exists_first_char inside
    have absentBoth : '#' ∉ front ++ first := by simp [absent, absent']
    rw [← List.append_assoc, stripComment_append absentBoth, stripComment_append absent']
  · have absentBoth : '#' ∉ front ++ back := by simp [absent, inside]
    rw [stripComment_of_not_mem absentBoth, stripComment_of_not_mem inside]

theorem splitWhitespace_trail (line : QuotedLine) :
    splitWhitespace (stripComment (line.default.source ++ line.trail)) =
      splitWhitespace (stripComment line.default.source) := by
  have trail : stripComment line.trail = line.trail :=
    stripComment_of_not_mem (hash_not_mem_blank line.blankTrail)
  by_cases inside : '#' ∈ line.default.source
  · obtain ⟨first, rest, shape, absent⟩ := Slices.exists_first_char inside
    rw [shape, List.append_assoc, List.cons_append, stripComment_append absent,
      stripComment_append absent]
  · rw [stripComment_append_left inside, trail, stripComment_of_not_mem inside]
    exact words_append_trailing line.blankTrail.1 _

/-- The words of the line are the type, the name and what is left of the default. -/
theorem splitWhitespace_code (line : QuotedLine) :
    splitWhitespace (code line.source) = line.typeStr :: line.name ::
      splitWhitespace (stripComment line.default.source) := by
  have front : '#' ∉ line.front := by
    simp [QuotedLine.front, hash_not_mem_blank line.blankIndent, line.plainType.2,
      hash_not_mem_blank line.blankGapType, line.plainName.2, hash_not_mem_blank line.blankGapName]
  rw [← splitWhitespace_trail]
  show words isWhitespace (trim (stripComment line.source)) = _
  rw [QuotedLine.source, stripComment_append_left front, trim, words_trim, QuotedLine.front,
    List.append_assoc, words_gap_append line.blankIndent.1, List.append_assoc,
    words_append_gap line.someType line.plainType.1 line.someGapType line.blankGapType.1,
    words_append_gap line.someName line.plainName.1 line.someGapName line.blankGapName.1]
  rfl

theorem oneLine_source (line : QuotedLine) : '\n' ∉ line.source := by
  have ofSolid : ∀ {word : List Char}, Solid isWhitespace word → '\n' ∉ word := by
    intro word solid inside
    exact absurd (solid '\n' inside) (by decide)
  simp [QuotedLine.source, QuotedLine.front, line.blankIndent.2, ofSolid line.plainType.1,
    line.blankGapType.2, ofSolid line.plainName.1, line.blankGapName.2, oneLine_default,
    line.blankTrail.2]

theorem parseDefault_eq_some_iff {parts : List (List Char)} {value : DefaultValue} :
    parseDefault parts = .ok (some value) ↔ parseDefaultValue (joinWords parts) = .ok value := by
  rcases parts with _ | ⟨part, parts⟩
  · have refused : parseDefaultValue (joinWords []) = bail "Invalid default value: " := by
      decide +kernel
    rw [refused]
    exact iff_of_false nofun nofun
  · show (parseDefaultValue (joinWords (part :: parts)) >>= fun value => .ok (some value)) = _ ↔ _
    rw [Fallible.bind_eq_ok_iff]
    constructor
    · rintro ⟨_, read, same⟩
      rw [← Option.some.inj (Except.ok.inj same)]
      exact read
    · intro read
      exact ⟨value, read, rfl⟩

/-- The field is read as it is meant exactly when its default survives. -/
theorem parseField_code_iff {line : QuotedLine} {package : String} {fieldType : FieldType}
    (typed : parseFieldType line.typeStr package = .ok fieldType) (lineNum : ℕ) :
    parseField (code line.source) package lineNum = .ok (line.field fieldType) ↔
      line.default.Survives := by
  rw [← parseDefaultValue_source_iff]
  show _ ↔ parseDefaultValue (joinWords (splitWhitespace (stripComment line.default.source))) = _
  rw [← parseDefault_eq_some_iff, parseField, splitWhitespace_code]
  dsimp only
  rw [typed]
  show (parseDefault _ >>= _) = _ ↔ _
  rw [Fallible.bind_eq_ok_iff]
  constructor
  · rintro ⟨_, read, same⟩
    rw [read]
    exact congrArg (fun field : Field => Except.ok field.default) (Except.ok.inj same)
  · intro read
    exact ⟨_, read, rfl⟩

/-! ## A line among others -/

/-- What a line gives does not depend on its number. -/
theorem messageLine_eq_ok_iff {package : String} {lineNum : ℕ} {line : List Char}
    {item : Option Item} : messageLine package lineNum line = .ok item ↔
      messageLine package 0 line = .ok item := by
  rcases taken : takenForConstant line with _ | _
  · rw [messageLine_field taken, messageLine_field taken, Fallible.bind_eq_ok_iff,
      Fallible.bind_eq_ok_iff]
    simp only [parseField_eq_ok_iff lineNum]
  · by_cases pair : (declaration line).length = 2
    · obtain ⟨constant, parsed, -, outcome⟩ := messageLine_pair taken pair package lineNum
      obtain ⟨constant', parsed', -, outcome'⟩ := messageLine_pair taken pair package 0
      rw [parsed, Except.ok.injEq] at parsed'
      rw [outcome, outcome', parsed']
    · rw [messageLine_noPair taken pair, messageLine_noPair taken pair]

/-- A line gives a field when it is not taken for a constant and read as this field. -/
theorem messageLine_eq_field_iff {package : String} {line : List Char} {field : Field} :
    messageLine package 0 line = .ok (some (.field field)) ↔
      takenForConstant line = false ∧ parseField line package 0 = .ok field := by
  rcases taken : takenForConstant line with _ | _
  · rw [messageLine_field taken, Fallible.bind_eq_ok_iff, and_iff_right rfl]
    simp
  · refine iff_of_false (fun read => ?_) fun both => nomatch both.1
    by_cases pair : (declaration line).length = 2
    · obtain ⟨constant, -, -, outcome⟩ := messageLine_pair taken pair package 0
      rw [outcome] at read
      cases read
    · rw [messageLine_noPair taken pair] at read
      cases read

section Messages

variable {package name : String} {path : Path} {parts before after : List (List Char)}

/-- A message of some lines is what these give, one after the other. -/
theorem parseMsgString_joinLines_eq_ok_iff (valid : path.stem = .ok name)
    (apart : ∀ part ∈ parts, '\n' ∉ part) {message : ParsedMessage} :
    parseMsgString (joinLines parts) package path = .ok message ↔
      ∃ items, (codes parts).mapM (messageLine package 0) = .ok items ∧
        { name, package, fields := items.filterMap fieldOf,
          constants := items.filterMap constantOf, source := joinLines parts, path } = message := by
  have loop : ∀ items, (codes parts).mapM (messageLine package 0) = .ok items ↔
      List.Forall₂ (fun line result => messageLine package line.1 line.2 = .ok result)
        (codeLines (joinLines parts).toList) items := by
    intro items
    rw [Fallible.mapM_eq_ok_iff, ← codes_joinLines apart, ← map_snd_codeLines,
      List.forall₂_map_left_iff]
    simp only [messageLine_eq_ok_iff]
  rw [parseMsgString_eq_ok_iff valid]
  simp only [parseLines_eq_ok_iff, loop]
  constructor
  · rintro ⟨_, ⟨results, rfl, each⟩, same⟩
    exact ⟨results, each, same⟩
  · rintro ⟨results, each, same⟩
    exact ⟨_, ⟨results, rfl, each⟩, same⟩

/-- One more line gives one more field when the line is read as this field. -/
theorem adds_field_iff {first last : ParsedMessage}
    (ofBefore : parseMsgString (joinLines before) package path = .ok first)
    (ofAfter : parseMsgString (joinLines after) package path = .ok last)
    {line : List Char} (apart : ∀ part ∈ before ++ line :: after, '\n' ∉ part)
    (some : code line ≠ []) {field : Field} :
    (∃ message, parseMsgString (joinLines (before ++ line :: after)) package path = .ok message ∧
      message.fields = first.fields ++ field :: last.fields) ↔
      takenForConstant (code line) = false ∧ parseField (code line) package 0 = .ok field := by
  obtain ⟨name, valid, -⟩ := Fallible.bind_eq_ok_iff.mp ofBefore
  obtain ⟨apartBefore, apartRest⟩ := List.forall_mem_append.mp apart
  have apartAfter := (List.forall_mem_cons.mp apartRest).2
  obtain ⟨front, eachFront, rfl⟩ :=
    (parseMsgString_joinLines_eq_ok_iff valid apartBefore).mp ofBefore
  obtain ⟨back, eachBack, rfl⟩ := (parseMsgString_joinLines_eq_ok_iff valid apartAfter).mp ofAfter
  have shape : codes (before ++ line :: after) = codes before ++ code line :: codes after := by
    rw [codes_append, codes, codes, List.map_cons, List.filter_cons_of_pos (by simpa using some)]
    rfl
  have whole : (codes (before ++ line :: after)).mapM (messageLine package 0) =
      messageLine package 0 (code line) >>= fun item => .ok (front ++ item :: back) := by
    rw [shape, List.mapM_append, eachFront, List.mapM_cons, eachBack]
    rcases messageLine package 0 (code line) with stop | item
    · rfl
    · rfl
  simp only [parseMsgString_joinLines_eq_ok_iff valid apart, whole, Fallible.bind_eq_ok_iff]
  rw [← messageLine_eq_field_iff]
  constructor
  · rintro ⟨_, ⟨_, ⟨item, read, same⟩, rfl⟩, fields⟩
    rw [← Except.ok.inj same] at fields
    dsimp only at fields
    rw [List.filterMap_append, List.append_cancel_left_eq, List.filterMap_cons] at fields
    have longer : ∀ rest : List Field, rest ≠ field :: rest := by
      intro rest equal
      exact absurd (congrArg List.length equal) (Nat.ne_of_lt (Nat.lt_succ_self _))
    rcases item with _ | ⟨field' | constant⟩
    · exact absurd fields (longer _)
    · rw [read, (List.cons.inj fields).1]
    · exact absurd fields (longer _)
  · intro read
    refine ⟨_, ⟨_, ⟨_, read, rfl⟩, rfl⟩, ?_⟩
    simp [fieldOf]

/-- **A quoted default is preserved** in a message exactly when it survives and the line is not
taken for a constant. -/
theorem preserved_iff {first last : ParsedMessage} {line : QuotedLine} {fieldType : FieldType}
    (ofBefore : parseMsgString (joinLines before) package path = .ok first)
    (ofAfter : parseMsgString (joinLines after) package path = .ok last)
    (apart : ∀ part ∈ before ++ after, '\n' ∉ part)
    (typed : parseFieldType line.typeStr package = .ok fieldType) :
    (∃ message,
      parseMsgString (joinLines (before ++ line.source :: after)) package path = .ok message ∧
        message.fields = first.fields ++ line.field fieldType :: last.fields) ↔
      line.default.Survives ∧ takenForConstant (code line.source) = false := by
  have some : code line.source ≠ [] := by
    intro none
    have words := splitWhitespace_code line
    rw [none] at words
    cases words
  have apart' : ∀ part ∈ before ++ line.source :: after, '\n' ∉ part := by
    obtain ⟨front, back⟩ := List.forall_mem_append.mp apart
    exact List.forall_mem_append.mpr ⟨front, List.forall_mem_cons.mpr ⟨oneLine_source line, back⟩⟩
  rw [adds_field_iff ofBefore ofAfter apart' some, parseField_code_iff typed, and_comm]

end Messages

/-- The field `string s` with a default. -/
def stringLine (quoted : QuotedText) : QuotedLine where
  indent := []
  typeStr := "string".toList
  gapType := [' ']
  name := ['s']
  gapName := [' ']
  default := .single quoted
  trail := []
  blankIndent := ⟨List.forall_mem_nil _, List.not_mem_nil⟩
  someType := List.cons_ne_nil _ _
  plainType := ⟨by decide, by decide⟩
  someGapType := List.cons_ne_nil _ _
  blankGapType := ⟨List.forall_mem_singleton.mpr rfl, by decide⟩
  someName := List.cons_ne_nil _ _
  plainName := ⟨List.forall_mem_singleton.mpr rfl, by decide⟩
  someGapName := List.cons_ne_nil _ _
  blankGapName := ⟨List.forall_mem_singleton.mpr rfl, by decide⟩
  blankTrail := ⟨List.forall_mem_nil _, List.not_mem_nil⟩

theorem preserved_iff_spaced :
    (∃ message, parseMsgString (joinLines (["int32 x".toList] ++
        (stringLine ⟨'"', "a b".toList, .inl rfl, by simp [IsMark], by decide⟩).source :: [])) "pkg"
          ⟨[], some (Cdr.utf8Bytes "A.msg")⟩ = .ok message ∧
        message.fields = [⟨⟨"x", ⟨"int32", none, .single, none⟩⟩, none⟩] ++
          (stringLine ⟨'"', "a b".toList, .inl rfl, by simp [IsMark], by decide⟩).field
            ⟨"string", none, .single, none⟩ :: []) ↔
      (stringLine ⟨'"', "a b".toList, .inl rfl, by simp [IsMark], by decide⟩).default.Survives ∧
        takenForConstant (code
          (stringLine ⟨'"', "a b".toList, .inl rfl, by simp [IsMark], by decide⟩).source) = false :=
  @preserved_iff "pkg" ⟨[], some (Cdr.utf8Bytes "A.msg")⟩ ["int32 x".toList] []
    ⟨"A", "pkg", [⟨⟨"x", ⟨"int32", none, .single, none⟩⟩, none⟩], [], "int32 x",
      ⟨[], some (Cdr.utf8Bytes "A.msg")⟩⟩
    ⟨"A", "pkg", [], [], "", ⟨[], some (Cdr.utf8Bytes "A.msg")⟩⟩
    (stringLine ⟨'"', "a b".toList, .inl rfl, by simp [IsMark], by decide⟩)
    ⟨"string", none, .single, none⟩ (by decide +kernel) (by decide +kernel) (by decide)
    (by decide +kernel)

/-- Two spaces in a text become one. -/
theorem doubleSpace_not_preserved :
    ∃ message, parseMsgString "string s \"a  b\"" "pkg" ⟨[], some (Cdr.utf8Bytes "A.msg")⟩ =
      .ok message ∧ ∀ field ∈ message.fields, field.default ≠ some (.string "a  b") :=
  ⟨⟨"A", "pkg", [⟨⟨"s", ⟨"string", none, .single, none⟩⟩, some (.string "a b")⟩], [],
    "string s \"a  b\"", ⟨[], some (Cdr.utf8Bytes "A.msg")⟩⟩, by decide +kernel, by decide +kernel⟩

end RosZ.Codegen.Parser
