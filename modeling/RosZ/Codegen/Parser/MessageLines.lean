import RosZ.Codegen.Parser.Panics

/-!
# What the lines of a message give

The two loops over lines, compared with what a reader of the text expects of them and with each
other.

* A message takes a line for a constant by the place of its first '=', and passes over what is
  no constant then.  Every other line gives a field (`parseMsgString_gives`).
* A section of an action takes every line with '=' for a constant, keeps constants without a
  name and fails where the message passes over.  The two agree on a text exactly when all its
  lines with '=' are constants with a type and a name, or both refuse it
  (`sectionAgrees_iff`).

`declaration` is what both look at to tell a constant: the words in front of the first '='.
-/

namespace RosZ.Codegen.Parser

open Lines

/-! ## Constants -/

/-- The words in front of the first '='. -/
def declaration (line : List Char) : List (List Char) :=
  ((splitOnce '=' line).map fun parts => splitWhitespace parts.1).getD []

theorem declaration_of_some {line front value : List Char}
    (split : splitOnce '=' line = some (front, value)) :
    declaration line = splitWhitespace front := by
  rw [declaration, split]
  rfl

theorem declaration_of_none {line : List Char} (split : splitOnce '=' line = none) :
    declaration line = [] := by
  rw [declaration, split]
  rfl

theorem parseConstant_pair {line : List Char} (pair : (declaration line).length = 2)
    (lineNum : ℕ) : ∃ constant, parseConstant line lineNum = .ok constant ∧ constant.name ≠ "" := by
  unfold parseConstant
  rcases split : splitOnce '=' line with _ | ⟨front, value⟩
  · rw [declaration_of_none split] at pair
    cases pair
  · rw [declaration_of_some split] at pair
    obtain ⟨constType, name, words⟩ := List.length_eq_two.mp pair
    dsimp only
    rw [words]
    refine ⟨_, rfl, fun none => ?_⟩
    have member : name ∈ Words.words isWhitespace front := by
      rw [show Words.words isWhitespace front = [constType, name] from words]
      exact List.mem_cons_of_mem _ List.mem_cons_self
    exact Words.ne_nil_of_mem_words member (by simpa using congrArg String.toList none)

theorem parseConstant_single {line : List Char} (single : (declaration line).length = 1)
    (lineNum : ℕ) : ∃ constant, parseConstant line lineNum = .ok constant ∧ constant.name = "" := by
  unfold parseConstant
  rcases split : splitOnce '=' line with _ | ⟨front, value⟩
  · rw [declaration_of_none split] at single
    cases single
  · rw [declaration_of_some split] at single
    obtain ⟨constType, words⟩ := List.length_eq_one_iff.mp single
    dsimp only
    rw [words]
    exact ⟨_, rfl, rfl⟩

theorem parseConstant_other {line : List Char} (notPair : (declaration line).length ≠ 2)
    (notSingle : (declaration line).length ≠ 1) (lineNum : ℕ) :
    ∃ message, parseConstant line lineNum = .error message := by
  unfold parseConstant
  rcases split : splitOnce '=' line with _ | ⟨front, value⟩
  · exact ⟨_, rfl⟩
  · rw [declaration_of_some split] at notPair notSingle
    dsimp only
    split
    · next words => exact absurd (congrArg List.length words) notPair
    · next words => exact absurd (congrArg List.length words) notSingle
    · exact ⟨_, rfl⟩

/-! ## What a line gives -/

/-- What is promised of a line of a message: a line that is not taken for a constant gives a
field, a constant with a type and a name gives that constant, and what is neither a constant nor
a field is passed over. -/
structure Gives (package : String) (line : List Char) (item : Option Item) : Prop where
  field : takenForConstant line = false →
    ∃ field, parseField line package 0 = .ok field ∧ item = some (.field field)
  constant : takenForConstant line = true → (declaration line).length = 2 →
    ∃ constant, parseConstant line 0 = .ok constant ∧ constant.name ≠ "" ∧
      item = some (.constant constant)
  skipped : takenForConstant line = true → (declaration line).length ≠ 2 →
    ¬ FieldLine package line → item = none

/-- A line taken for a constant gives it when there is a name. -/
theorem messageLine_taken {line : List Char} (taken : takenForConstant line = true)
    (package : String) (lineNum : ℕ) : messageLine package lineNum line =
      .ok (match parseConstant line lineNum with
        | .ok c => if c.name ≠ "" then some (.constant c) else none
        | .error _ => none) := by
  rw [messageLine, isConstant_eq, taken]
  show (match parseConstant line lineNum with
    | .ok c => pure (if c.name ≠ "" then some (.constant c) else none)
    | .error _ => pure none : Result (Option Item)) = _
  rcases parseConstant line lineNum with message | constant
  · rfl
  · rfl

theorem messageLine_pair {line : List Char} (taken : takenForConstant line = true)
    (pair : (declaration line).length = 2) (package : String) (lineNum : ℕ) :
    ∃ constant, parseConstant line 0 = .ok constant ∧ constant.name ≠ "" ∧
      messageLine package lineNum line = .ok (some (.constant constant)) := by
  obtain ⟨constant, parsed, named⟩ := parseConstant_pair pair lineNum
  refine ⟨constant, (parseConstant_eq_ok_iff lineNum).mp parsed, named, ?_⟩
  rw [messageLine_taken taken, parsed]
  exact congrArg Except.ok (if_pos named)

theorem messageLine_noPair {line : List Char} (taken : takenForConstant line = true)
    (noPair : (declaration line).length ≠ 2) (package : String) (lineNum : ℕ) :
    messageLine package lineNum line = .ok none := by
  rw [messageLine_taken taken]
  by_cases single : (declaration line).length = 1
  · obtain ⟨constant, parsed, unnamed⟩ := parseConstant_single single lineNum
    rw [parsed]
    exact congrArg Except.ok (if_neg (not_not.mpr unnamed))
  · obtain ⟨message, failed⟩ := parseConstant_other noPair single lineNum
    rw [failed]

theorem gives_of_messageLine {package : String} {lineNum : ℕ} {line : List Char}
    {item : Option Item} (parsed : messageLine package lineNum line = .ok item) :
    Gives package line item := by
  constructor
  · intro isField
    rw [messageLine_field isField] at parsed
    obtain ⟨field, parsed, same⟩ := Fallible.bind_eq_ok_iff.mp parsed
    exact ⟨field, (parseField_eq_ok_iff lineNum).mp parsed, (Except.ok.inj same).symm⟩
  · intro taken pair
    obtain ⟨constant, accepted, named, outcome⟩ := messageLine_pair taken pair package lineNum
    rw [outcome] at parsed
    exact ⟨constant, accepted, named, (Except.ok.inj parsed).symm⟩
  · intro taken noPair _
    rw [messageLine_noPair taken noPair] at parsed
    exact (Except.ok.inj parsed).symm

/-- The results of a loop, line by line. -/
theorem parseLines_eq_ok_iff {turn : ℕ → List Char → Result (Option Item)} {source : List Char}
    {items : Items} :
    parseLines turn source = .ok items ↔ ∃ results, items = Items.ofResults results ∧
      List.Forall₂ (fun line result => turn line.1 line.2 = .ok result) (codeLines source)
        results := by
  rw [parseLines_eq, Fallible.bind_eq_ok_iff]
  simp only [Fallible.mapM_eq_ok_iff, Except.ok.injEq]
  constructor
  · rintro ⟨results, loop, rfl⟩
    exact ⟨results, rfl, loop⟩
  · rintro ⟨results, rfl, loop⟩
    exact ⟨results, loop, rfl⟩

theorem forall₂_codes {rel : List Char → Option Item → Prop} {source : List Char}
    {results : List (Option Item)}
    (each : List.Forall₂ (fun line result => rel line.2 result) (codeLines source) results) :
    List.Forall₂ rel (codes (lines source)) results := by
  rw [← map_snd_codeLines, List.forall₂_map_left_iff]
  exact each

section Messages

variable {source package : String} {path : Path} {message : ParsedMessage}

theorem exists_parseLines_of_parseMsgString
    (parsed : parseMsgString source package path = .ok message) :
    ∃ items, parseLines (messageLine package) source.toList = .ok items ∧
      message.fields = items.fields ∧ message.constants = items.constants := by
  obtain ⟨_, _, rest⟩ := Fallible.bind_eq_ok_iff.mp parsed
  obtain ⟨items, loop, same⟩ := Fallible.bind_eq_ok_iff.mp rest
  refine ⟨items, loop, ?_⟩
  rw [← Except.ok.inj same]
  exact ⟨rfl, rfl⟩

/-- **The fields and constants of a message** are what its lines give, one after the other. -/
theorem parseMsgString_gives (parsed : parseMsgString source package path = .ok message) :
    ∃ items, List.Forall₂ (Gives package) (codes (lines source.toList)) items ∧
      message.fields = items.filterMap fieldOf ∧
      message.constants = items.filterMap constantOf := by
  obtain ⟨items, loop, fields, constants⟩ := exists_parseLines_of_parseMsgString parsed
  obtain ⟨results, rfl, each⟩ := parseLines_eq_ok_iff.mp loop
  refine ⟨results, forall₂_codes ?_, fields, constants⟩
  exact each.imp fun line result accepted => gives_of_messageLine accepted

theorem parseMsgString_gives_both :
    ∃ items, List.Forall₂ (Gives "pkg") (codes (lines "uint8 A = 1\nstring s".toList)) items ∧
      [({ name := "s", fieldType := ⟨"string", none, .single, none⟩, default := none } : Field)] =
        items.filterMap fieldOf ∧
      [({ name := "A", constType := "uint8", value := "1" } : Constant)] =
        items.filterMap constantOf :=
  @parseMsgString_gives "uint8 A = 1\nstring s" "pkg" ⟨[], some (Cdr.utf8Bytes "A.msg")⟩
    ⟨"A", "pkg", _, _, "uint8 A = 1\nstring s", ⟨[], some (Cdr.utf8Bytes "A.msg")⟩⟩
    (by decide +kernel)

/-- Every line with something on it is a field or a named constant of the message. -/
def KeepsEveryLine (source : String) (message : ParsedMessage) : Prop :=
  ∃ items : List Item, items.length = (codes (lines source.toList)).length ∧
    message.fields = items.filterMap (fun item => fieldOf (some item)) ∧
    message.constants = items.filterMap (fun item => constantOf (some item)) ∧
    ∀ constant ∈ message.constants, constant.name ≠ ""

/-- A constant without a name is passed over. -/
theorem namelessConstant_not_kept :
    ∃ message, parseMsgString "uint8 = 5" "pkg" ⟨[], some (Cdr.utf8Bytes "A.msg")⟩ = .ok message ∧
      ¬ KeepsEveryLine "uint8 = 5" message := by
  refine ⟨⟨"A", "pkg", [], [], "uint8 = 5", ⟨[], some (Cdr.utf8Bytes "A.msg")⟩⟩,
    by decide +kernel, ?_⟩
  rintro ⟨items, length, fields, constants, -⟩
  have one : (codes (lines "uint8 = 5".toList)).length = 1 := by decide +kernel
  obtain ⟨item, rfl⟩ := List.length_eq_one_iff.mp (length.trans one)
  rcases item with field | constant
  · cases fields
  · cases constants

end Messages

/-! ## Sections of actions -/

theorem sectionLine_pair {line : List Char} (inside : '=' ∈ line)
    (pair : (declaration line).length = 2) (package : String) (lineNum : ℕ) :
    ∃ constant, parseConstant line 0 = .ok constant ∧
      sectionLine package lineNum line = .ok (some (.constant constant)) := by
  obtain ⟨constant, parsed, -⟩ := parseConstant_pair pair (lineNum + 1)
  refine ⟨constant, (parseConstant_eq_ok_iff (lineNum + 1)).mp parsed, ?_⟩
  rw [sectionLine, if_pos inside, parsed]
  rfl

theorem takenForConstant_of_not_mem {line : List Char} (absent : '=' ∉ line) :
    takenForConstant line = false := by
  rw [takenForConstant, splitOnce_of_not_mem absent]

/-- A line that both parsers read in the same way. -/
def ReadAlike (line : List Char) : Prop :=
  '=' ∈ line → takenForConstant line = true ∧ (declaration line).length = 2

theorem sectionLine_of_readAlike {line : List Char} (alike : ReadAlike line) {package : String}
    {lineNum : ℕ} {item : Option Item} :
    sectionLine package lineNum line = .ok item ↔ messageLine package lineNum line = .ok item := by
  by_cases inside : '=' ∈ line
  · obtain ⟨taken, pair⟩ := alike inside
    obtain ⟨constant, parsed, outcome⟩ := sectionLine_pair inside pair package lineNum
    obtain ⟨constant', parsed', -, outcome'⟩ := messageLine_pair taken pair package lineNum
    rw [parsed, Except.ok.injEq] at parsed'
    rw [outcome, outcome', parsed']
  · rw [sectionLine, if_neg inside, messageLine_field (takenForConstant_of_not_mem inside)]
    simp only [Fallible.bind_eq_ok_iff, parseField_eq_ok_iff lineNum,
      parseField_eq_ok_iff (lineNum + 1)]
    exact Iff.rfl

theorem constant_of_messageLine {package : String} {lineNum : ℕ} {line : List Char}
    {item : Option Item} (parsed : messageLine package lineNum line = .ok item) :
    (constantOf item).isSome = (takenForConstant line && (declaration line).length == 2) := by
  rcases taken : takenForConstant line with _ | _
  · obtain ⟨field, -, rfl⟩ := (gives_of_messageLine parsed).field taken
    rfl
  · by_cases pair : (declaration line).length = 2
    · obtain ⟨constant, -, -, rfl⟩ := (gives_of_messageLine parsed).constant taken pair
      rw [pair]
      rfl
    · rw [messageLine_noPair taken pair] at parsed
      rw [← Except.ok.inj parsed, beq_eq_false_iff_ne.mpr pair]
      rfl

/-- A section takes every line with '=' for a constant. -/
theorem constant_of_sectionLine {package : String} {lineNum : ℕ} {line : List Char}
    {item : Option Item} (parsed : sectionLine package lineNum line = .ok item) :
    (constantOf item).isSome = decide ('=' ∈ line) := by
  unfold sectionLine at parsed
  split_ifs at parsed with inside
  · obtain ⟨constant, -, same⟩ := Fallible.bind_eq_ok_iff.mp parsed
    rw [← Except.ok.inj same, decide_eq_true inside]
    rfl
  · obtain ⟨field, -, same⟩ := Fallible.bind_eq_ok_iff.mp parsed
    rw [← Except.ok.inj same, decide_eq_false inside]
    rfl

/-- The number of items of a kind is that of the lines that give them. -/
theorem length_filterMap_of_forall₂ {α β γ : Type} {rel : α → β → Prop} {kind : β → Option γ}
    {test : α → Bool} (each : ∀ line result, rel line result → (kind result).isSome = test line)
    {items : List α} {results : List β} (related : List.Forall₂ rel items results) :
    (results.filterMap kind).length = items.countP test := by
  induction related with
  | nil => rfl
  | @cons item result items results first _ ih =>
      have same := each item result first
      rw [List.filterMap_cons, List.countP_cons, ← same]
      rcases kind result with _ | value
      · exact ih
      · exact congrArg (· + 1) ih

/-- Two tests that hold equally often, the one wherever the other does. -/
theorem eq_of_countP_eq {α : Type} {test test' : α → Bool} {items : List α}
    (weaker : ∀ item ∈ items, test item = true → test' item = true)
    (same : items.countP test = items.countP test') :
    ∀ item ∈ items, test' item = true → test item = true := by
  induction items with
  | nil => exact fun item member => absurd member List.not_mem_nil
  | cons head rest ih =>
      obtain ⟨first, others⟩ := List.forall_mem_cons.mp weaker
      have atMost : rest.countP test ≤ rest.countP test' := List.countP_mono_left others
      rw [List.countP_cons, List.countP_cons] at same
      by_cases holds : test head = true
      · rw [if_pos holds, if_pos (first holds)] at same
        exact List.forall_mem_cons.mpr ⟨fun _ => holds, ih others (Nat.add_right_cancel same)⟩
      · by_cases holds' : test' head = true
        · rw [if_neg holds, if_pos holds'] at same
          omega
        · rw [if_neg holds, if_neg holds'] at same
          exact List.forall_mem_cons.mpr ⟨fun holds => absurd holds holds', ih others same⟩

/-- A section is read like a message: accepted together, with the same fields and constants. -/
def SectionAgrees (content package sectionName : String) (path path' : Path) : Prop :=
  ((∃ message, parseActionSection content.toList sectionName package path' = .ok message) ↔
    ∃ message, parseMsgString content package path = .ok message) ∧
  ∀ ofSection message,
    parseActionSection content.toList sectionName package path' = .ok ofSection →
      parseMsgString content package path = .ok message →
        ofSection.fields = message.fields ∧ ofSection.constants = message.constants

section Sections

variable {content package sectionName name : String} {path path' : Path}

theorem parseActionSection_eq_ok_iff {message : ParsedMessage} :
    parseActionSection content.toList sectionName package path = .ok message ↔
      ∃ items, parseLines (sectionLine package) content.toList = .ok items ∧
        { name := sectionName, package, fields := items.fields, constants := items.constants,
          source := String.ofList content.toList, path } = message := by
  rw [parseActionSection, Fallible.bind_eq_ok_iff]
  exact exists_congr fun items => and_congr_right fun _ =>
    ⟨fun same => Except.ok.inj same, fun same => congrArg Except.ok same⟩

theorem parseMsgString_eq_ok_iff (valid : path.stem = .ok name) {message : ParsedMessage} :
    parseMsgString content package path = .ok message ↔
      ∃ items, parseLines (messageLine package) content.toList = .ok items ∧
        { name, package, fields := items.fields, constants := items.constants,
          source := content, path } = message := by
  rw [parseMsgString, valid, ok_bind, Fallible.bind_eq_ok_iff]
  exact exists_congr fun items => and_congr_right fun _ =>
    ⟨fun same => Except.ok.inj same, fun same => congrArg Except.ok same⟩

/-- The two loops decide everything that is compared. -/
theorem sectionAgrees_iff_loops (valid : path.stem = .ok name) :
    SectionAgrees content package sectionName path path' ↔
      ((∃ items, parseLines (sectionLine package) content.toList = .ok items) ↔
        ∃ items, parseLines (messageLine package) content.toList = .ok items) ∧
      ∀ items items', parseLines (sectionLine package) content.toList = .ok items →
        parseLines (messageLine package) content.toList = .ok items' → items = items' := by
  simp only [SectionAgrees, parseActionSection_eq_ok_iff, parseMsgString_eq_ok_iff valid]
  refine and_congr (iff_congr ?_ ?_) ?_
  · exact ⟨fun ⟨_, items, loop, _⟩ => ⟨items, loop⟩, fun ⟨items, loop⟩ => ⟨_, items, loop, rfl⟩⟩
  · exact ⟨fun ⟨_, items, loop, _⟩ => ⟨items, loop⟩, fun ⟨items, loop⟩ => ⟨_, items, loop, rfl⟩⟩
  · constructor
    · intro same items items' loop loop'
      obtain ⟨fields, constants⟩ := same _ _ ⟨items, loop, rfl⟩ ⟨items', loop', rfl⟩
      exact Items.mk.injEq .. ▸ ⟨fields, constants⟩
    · rintro same _ _ ⟨items, loop, rfl⟩ ⟨items', loop', rfl⟩
      rw [same items items' loop loop']
      exact ⟨rfl, rfl⟩

/-- Where every line is read alike, the loops are. -/
theorem parseLines_of_readAlike (alike : ∀ line ∈ codes (lines content.toList), ReadAlike line)
    (items : Items) : parseLines (sectionLine package) content.toList = .ok items ↔
      parseLines (messageLine package) content.toList = .ok items := by
  rw [← map_snd_codeLines, List.forall_mem_map] at alike
  rw [parseLines_eq_ok_iff, parseLines_eq_ok_iff]
  refine exists_congr fun results => and_congr_right fun _ => ?_
  constructor
  · intro each
    exact ((List.forall₂_and_left _ _).mpr ⟨alike, each⟩).imp fun line result both =>
      (sectionLine_of_readAlike both.1).mp both.2
  · intro each
    exact ((List.forall₂_and_left _ _).mpr ⟨alike, each⟩).imp fun line result both =>
      (sectionLine_of_readAlike both.1).mpr both.2

/-- When both loops end with the same items, every line is read alike. -/
theorem readAlike_of_parseLines {items : Items}
    (ofSection : parseLines (sectionLine package) content.toList = .ok items)
    (ofMessage : parseLines (messageLine package) content.toList = .ok items) :
    ∀ line ∈ codes (lines content.toList), ReadAlike line := by
  obtain ⟨results, rfl, each⟩ := parseLines_eq_ok_iff.mp ofSection
  obtain ⟨results', same, each'⟩ := parseLines_eq_ok_iff.mp ofMessage
  rw [Items.ofResults, Items.ofResults, Items.mk.injEq] at same
  -- as many constants, so every line with '=' is taken for one, and has a name
  have named : (results'.filterMap constantOf).length = (codeLines content.toList).countP
      fun line => takenForConstant line.2 && (declaration line.2).length == 2 :=
    length_filterMap_of_forall₂ (fun _ _ parsed => constant_of_messageLine parsed) each'
  have all : (results.filterMap constantOf).length =
      (codeLines content.toList).countP fun line => decide ('=' ∈ line.2) :=
    length_filterMap_of_forall₂ (fun _ _ parsed => constant_of_sectionLine parsed) each
  rw [same.2, named] at all
  have taken : ∀ line : List Char, takenForConstant line = true → '=' ∈ line := by
    intro line taken
    by_contra absent
    rw [takenForConstant_of_not_mem absent] at taken
    cases taken
  have pairs := eq_of_countP_eq (fun line _ holds => decide_eq_true
    (taken line.2 (Bool.and_eq_true_iff.mp holds).1)) all
  rw [← map_snd_codeLines, List.forall_mem_map]
  intro line member inside
  have both := pairs line member (decide_eq_true inside)
  rw [Bool.and_eq_true, beq_iff_eq] at both
  exact both

/-- **A section agrees with a message** exactly when every line with '=' is a constant of both, or
both have a line that they refuse. -/
theorem sectionAgrees_iff (valid : path.stem = .ok name) :
    SectionAgrees content package sectionName path path' ↔
      (∀ line ∈ codes (lines content.toList), ReadAlike line) ∨
      (∃ line ∈ codes (lines content.toList), ¬ MessageAccepts package line) ∧
        ∃ line ∈ codes (lines content.toList), ¬ SectionAccepts package line := by
  have ofMessage := exists_parseLines_iff (messageLine_accepts package) content.toList
  have ofSection := exists_parseLines_iff (sectionLine_accepts package) content.toList
  rw [sectionAgrees_iff_loops valid]
  constructor
  · rintro ⟨together, same⟩
    by_cases accepted : ∃ items, parseLines (messageLine package) content.toList = .ok items
    · obtain ⟨items, loop⟩ := together.mpr accepted
      obtain ⟨items', loop'⟩ := accepted
      rw [← same items items' loop loop'] at loop'
      exact .inl (readAlike_of_parseLines loop loop')
    · refine .inr ⟨?_, ?_⟩
      · rw [ofMessage] at accepted
        push Not at accepted
        exact accepted
      · have refused := mt together.mp accepted
        rw [ofSection] at refused
        push Not at refused
        exact refused
  · rintro (alike | ⟨⟨line, member, refused⟩, ⟨line', member', refused'⟩⟩)
    · have loops := @parseLines_of_readAlike content package alike
      refine ⟨exists_congr loops, fun items items' loop loop' => ?_⟩
      rw [loops, loop', Except.ok.injEq] at loop
      exact loop.symm
    · have noMessage := mt ofMessage.mp fun each => refused (each line member)
      have noSection := mt ofSection.mp fun each => refused' (each line' member')
      exact ⟨iff_of_false noSection noMessage, fun items _ loop => absurd ⟨items, loop⟩ noSection⟩

theorem sectionAgrees_iff_constant :
    SectionAgrees "int32 A = 1" "pkg" "FooGoal" ⟨[], some (Cdr.utf8Bytes "Foo.msg")⟩
        ⟨[], some (Cdr.utf8Bytes "Foo.action")⟩ ↔
      (∀ line ∈ codes (lines "int32 A = 1".toList), ReadAlike line) ∨
      (∃ line ∈ codes (lines "int32 A = 1".toList), ¬ MessageAccepts "pkg" line) ∧
        ∃ line ∈ codes (lines "int32 A = 1".toList), ¬ SectionAccepts "pkg" line :=
  sectionAgrees_iff (show Path.stem _ = .ok "Foo" by decide +kernel)

/-- A bounded string is a constant to a section, and a field to a message. -/
theorem boundedString_not_agrees :
    ¬ SectionAgrees "string<=10 s" "pkg" "FooGoal" ⟨[], some (Cdr.utf8Bytes "Foo.msg")⟩
      ⟨[], some (Cdr.utf8Bytes "Foo.action")⟩ := by
  intro agrees
  have fields := (agrees.2
    ⟨"FooGoal", "pkg", [], [⟨"", "string<", "10 s"⟩], "string<=10 s",
      ⟨[], some (Cdr.utf8Bytes "Foo.action")⟩⟩
    ⟨"Foo", "pkg", [⟨⟨"s", ⟨"string", none, .single, some 10⟩⟩, none⟩], [], "string<=10 s",
      ⟨[], some (Cdr.utf8Bytes "Foo.msg")⟩⟩ (by decide +kernel) (by decide +kernel)).1
  cases fields

end Sections

end RosZ.Codegen.Parser
