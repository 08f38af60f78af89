import RosZ.Codegen.Parser.Lines
import RosZ.Cdr.Primitives
import RosZ.Lib.Fallible
import RosZ.Lib.Lines

/-!
# Definition files

`parser/msg.rs`, `parser/srv.rs` and `parser/action.rs`, without the functions that read the
file: a source text and a path become a message, a service or an action.

Both loops over the lines of a text, that of a message and that of an action's section, are
`parseLines` with what they do with one line as a parameter.  They are a `mapM` over the lines
with something on them (`parseLines_eq`), numbered as in the source.
-/

namespace RosZ.Codegen.Parser

open Slices Lines

/-! ## Paths -/

/-- A path: what stands in front of its last component, and that component when it is a name. -/
structure Path where
  parent : List UInt8
  fileName : Option (List UInt8)
deriving DecidableEq

/-- A file name without its extension; a dot at the front starts none. -/
def fileStem (file : List UInt8) : List UInt8 :=
  match (file.reverse.dropWhile (· ≠ '.'.toUInt8)).tail.reverse with
  | [] => file
  | before => before

/-- The name of a definition is that of its file. -/
def Path.stem (path : Path) : Result String := do
  let file ← orBail "Invalid filename" path.fileName
  orBail "Non-UTF8 filename" (String.fromUTF8? ⟨(fileStem file).toArray⟩)

def Path.withFileName (path : Path) (file : String) : Path :=
  { path with fileName := some (Cdr.utf8Bytes file) }

/-- A file name is read back without its extension. -/
theorem stem_withFileName (path : Path) {name : String} (some : name ≠ "") :
    (path.withFileName (name ++ ".msg")).stem = .ok name := by
  have extension : Cdr.utf8Bytes ".msg" =
      ['.'.toUInt8, 'm'.toUInt8, 's'.toUInt8, 'g'.toUInt8] := rfl
  have front : Cdr.utf8Bytes name ≠ [] := fun none => some (Cdr.utf8Bytes_injective none)
  have shape : ((Cdr.utf8Bytes (name ++ ".msg")).reverse.dropWhile (· ≠ '.'.toUInt8)).tail.reverse =
      Cdr.utf8Bytes name := by
    rw [Cdr.utf8Bytes_append, extension, List.reverse_append]
    have dropped : ('g'.toUInt8 :: 's'.toUInt8 :: 'm'.toUInt8 :: '.'.toUInt8 ::
        (Cdr.utf8Bytes name).reverse).dropWhile (· ≠ '.'.toUInt8) =
        '.'.toUInt8 :: (Cdr.utf8Bytes name).reverse := rfl
    exact (congrArg (List.reverse ∘ List.tail) dropped).trans (List.reverse_reverse _)
  have stem : fileStem (Cdr.utf8Bytes (name ++ ".msg")) = Cdr.utf8Bytes name := by
    rw [fileStem, shape]
    split
    · next none => exact absurd none front
    · rfl
  show orBail _ (String.fromUTF8? ⟨(fileStem (Cdr.utf8Bytes (name ++ ".msg"))).toArray⟩) = _
  rw [stem, Cdr.fromUTF8_utf8Bytes]
  rfl

/-! ## Parsed definitions -/

/-- Parsed message before dependency resolution. -/
structure ParsedMessage where
  name : String
  package : String
  fields : List Field
  constants : List Constant
  source : String
  path : Path
deriving DecidableEq

/-- Parsed service definition. -/
structure ParsedService where
  name : String
  package : String
  request : ParsedMessage
  response : ParsedMessage
  source : String
  path : Path
deriving DecidableEq

/-- Parsed action definition. -/
structure ParsedAction where
  name : String
  package : String
  goal : ParsedMessage
  result : Option ParsedMessage
  feedback : Option ParsedMessage
  source : String
  path : Path
deriving DecidableEq

/-! ## Lines -/

/-- What a line may give. -/
inductive Item where
  | field (field : Field)
  | constant (constant : Constant)
deriving DecidableEq

/-- The two lists that the loops push to. -/
structure Items where
  fields : List Field
  constants : List Constant
deriving DecidableEq

def Items.push (items : Items) : Option Item → Items
  | some (.field field) => { items with fields := items.fields ++ [field] }
  | some (.constant constant) => { items with constants := items.constants ++ [constant] }
  | none => items

/-- A line without its comment and the space around it. -/
def code (line : List Char) : List Char := trim (stripComment line)

/-- The loop over the lines of a text: nothing is done for a line with nothing on it. -/
def parseLines (turn : ℕ → List Char → Result (Option Item)) (source : List Char) : Result Items :=
  (lines source).zipIdx.foldlM (fun items line =>
    if code line.1 = [] then .ok items
    else do
      let item ← turn line.2 (code line.1)
      return items.push item) ⟨[], []⟩

/-- Check if this is a constant (contains '=' but not bounded string/array like string<=255 or
uint8[<=10]). -/
def isConstant (line : List Char) : Result Bool :=
  match find ['='] line with
  | some eqPos =>
      -- the '=' is part of '<=' which is used for bounded types
      if 0 < eqPos ∧ (octets line)[eqPos - 1]? = some '<'.toUInt8 then .ok false
      else do
        let beforeEq ← orPanic (slice 0 eqPos line)
        -- if there's an opening bracket without a closing one, the '=' is inside brackets
        return beforeEq.count '[' == beforeEq.count ']'
  | none => .ok false

/-- What `parse_msg_string` does with a line. -/
def messageLine (package : String) (lineNum : ℕ) (line : List Char) : Result (Option Item) := do
  if ← isConstant line then
    match parseConstant line lineNum with
    | .ok c => return if c.name ≠ "" then some (.constant c) else none
    | .error _ => return none  -- skip invalid constants
  else return some (.field (← parseField line package lineNum))

/-- What `parse_action_section` does with a line. -/
def sectionLine (package : String) (lineNum : ℕ) (line : List Char) : Result (Option Item) :=
  if '=' ∈ line then do
    let constant ← (parseConstant line (lineNum + 1)).mapError Stop.error
    return some (.constant constant)
  else do
    let field ← parseField line package (lineNum + 1)
    return some (.field field)

/-! ## Files -/

/-- Parse a .msg file from a string. -/
def parseMsgString (source package : String) (path : Path) : Result ParsedMessage := do
  let name ← path.stem
  let items ← parseLines (messageLine package) source.toList
  return { name, package, fields := items.fields, constants := items.constants, source, path }

/-- A line that is just "---". -/
def isDelimiter (line : List Char) : Bool := trim line == "---".toList

/-- The text of some lines. -/
def joinLines (parts : List (List Char)) : String := String.ofList (['\n'].intercalate parts)

/-- Parse a .srv file from a string. -/
def parseSrvString (source package : String) (path : Path) : Result ParsedService := do
  let name ← path.stem
  let parts := lines source.toList
  match parts.findIdxs isDelimiter with
  | [delimiterIdx] =>
      let requestPath := path.withFileName (name ++ "Request.msg")
      let responsePath := path.withFileName (name ++ "Response.msg")
      let request ← parseMsgString (joinLines (parts.take delimiterIdx)) package requestPath
      let response ← parseMsgString (joinLines (parts.drop (delimiterIdx + 1))) package responsePath
      return { name, package, request := { request with name := name ++ "Request" },
               response := { response with name := name ++ "Response" }, source, path }
  | delimiterIndices =>
      bail s!"Service must have exactly one '---' delimiter, found {delimiterIndices.length}"

/-- Parse a single section of an action definition (goal/result/feedback). -/
def parseActionSection (content : List Char) (name package : String) (path : Path) :
    Result ParsedMessage := do
  let items ← parseLines (sectionLine package) content
  return { name, package, fields := items.fields, constants := items.constants,
           source := String.ofList content, path }

/-- A section that may be left empty. -/
def parseOptionalSection (content : List Char) (name package : String) (path : Path) :
    Result (Option ParsedMessage) :=
  if trim content = [] then .ok none
  else do return some (← parseActionSection content name package path)

/-- Split by "---" separator (three sections: goal, result, feedback). -/
def actionSections (content : String) : List (List Char) :=
  Lines.split "\n---\n".toList content.toList

/-- Parse action definition from string content. -/
def parseAction (content actionName package : String) (path : Path) : Result ParsedAction :=
  match actionSections content with
  | [goalContent, resultContent, feedbackContent] => do
      let goal ← parseActionSection goalContent (actionName ++ "Goal") package path
      let result ← parseOptionalSection resultContent (actionName ++ "Result") package path
      let feedback ← parseOptionalSection feedbackContent (actionName ++ "Feedback") package path
      return { name := actionName, package, goal, result, feedback, source := content, path }
  | sections =>
      let found := sections.length
      bail s!"Action file must have exactly 3 sections (goal, result, feedback), found {found}"

/-! ## The lines with something on them -/

theorem code_stripReturn (line : List Char) : code (stripReturn line) = code line := by
  unfold stripReturn
  split_ifs with ends
  · obtain ⟨init, rfl⟩ := List.getLast?_eq_some_iff.mp ends
    rw [List.dropLast_concat, code, code]
    have blank : Words.Gap isWhitespace ['\r'] := List.forall_mem_singleton.mpr rfl
    by_cases comment : '#' ∈ init
    · obtain ⟨front, back, rfl, absent⟩ := exists_first_char comment
      rw [List.append_assoc, List.cons_append, stripComment_append absent,
        stripComment_append absent]
    · have none : '#' ∉ init ++ ['\r'] := by
        rw [List.mem_append, not_or]
        exact ⟨comment, by decide⟩
      rw [stripComment_of_not_mem comment, stripComment_of_not_mem none]
      exact (Words.trim_append_gap blank init).symm
  · rfl

/-- What is on the lines that have something on them. -/
def codes (parts : List (List Char)) : List (List Char) := (parts.map code).filter (· ≠ [])

theorem codes_append (parts parts' : List (List Char)) :
    codes (parts ++ parts') = codes parts ++ codes parts' := by
  rw [codes, List.map_append, List.filter_append, codes, codes]

/-- What is on a line, and its number. -/
def codeLine (line : List Char × ℕ) : Option (ℕ × List Char) :=
  if code line.1 = [] then none else some (line.2, code line.1)

def codeLines (source : List Char) : List (ℕ × List Char) :=
  (lines source).zipIdx.filterMap codeLine

theorem map_snd_codeLines (source : List Char) :
    (codeLines source).map Prod.snd = codes (lines source) := by
  have each : ∀ (parts : List (List Char)) (n : ℕ),
      ((parts.zipIdx n).filterMap codeLine).map Prod.snd = codes parts := by
    intro parts
    induction parts with
    | nil => exact fun _ => rfl
    | cons part parts ih =>
        intro n
        rw [List.zipIdx_cons, List.filterMap_cons, codes, List.map_cons, codeLine]
        split_ifs with none
        · rw [List.filter_cons_of_neg (by simpa using none)]
          exact ih (n + 1)
        · rw [List.filter_cons_of_pos (by simpa using none)]
          exact congrArg (code part :: ·) (ih (n + 1))
  exact each _ 0

/-- It makes no difference to them how a line ends. -/
theorem codes_lines (source : List Char) : codes (lines source) = codes (source.splitOn '\n') := by
  obtain ⟨rest, small, same⟩ := exists_map_lines code_stripReturn source
  rw [codes, codes, same, List.map_append, List.filter_append]
  rcases small with rfl | rfl
  · exact (List.append_nil _).symm
  · exact (List.append_nil _).symm

/-- The lines of a joined text. -/
theorem codes_joinLines {parts : List (List Char)} (apart : ∀ part ∈ parts, '\n' ∉ part) :
    codes (lines (joinLines parts).toList) = codes parts := by
  rw [codes_lines, joinLines, String.toList_ofList]
  rcases parts with _ | ⟨part, parts⟩
  · rfl
  · rw [List.splitOn_intercalate _ apart (List.cons_ne_nil _ _)]

/-! ## What the loops come to -/

def fieldOf : Option Item → Option Field
  | some (.field field) => some field
  | _ => none

def constantOf : Option Item → Option Constant
  | some (.constant constant) => some constant
  | _ => none

/-- The two lists of what the lines give. -/
def Items.ofResults (results : List (Option Item)) : Items :=
  ⟨results.filterMap fieldOf, results.filterMap constantOf⟩

theorem foldl_push (results : List (Option Item)) (items : Items) :
    results.foldl Items.push items =
      ⟨items.fields ++ results.filterMap fieldOf,
        items.constants ++ results.filterMap constantOf⟩ := by
  induction results generalizing items with
  | nil => simp
  | cons result results ih =>
      rw [List.foldl_cons, ih, List.filterMap_cons, List.filterMap_cons]
      rcases result with _ | ⟨field | constant⟩
      · rfl
      · simp [Items.push, fieldOf, constantOf]
      · simp [Items.push, fieldOf, constantOf]

/-- **The loop over the lines** does its work on the lines with something on them. -/
theorem parseLines_eq (turn : ℕ → List Char → Result (Option Item)) (source : List Char) :
    parseLines turn source = (codeLines source).mapM (fun line => turn line.1 line.2) >>=
      fun results => .ok (Items.ofResults results) := by
  have loop := @Fallible.foldlM_eq_mapM Stop (ℕ × List Char) (Option Item) (List Char × ℕ) Items
    (fun items line => if code line.1 = [] then .ok items
      else do
        let item ← turn line.2 (code line.1)
        return items.push item)
    codeLine (fun line => turn line.1 line.2) Items.push ?_ ?_ ⟨[], []⟩ (lines source).zipIdx
  · rw [parseLines, loop]
    congr 1
    funext results
    rw [foldl_push, List.nil_append, List.nil_append]
    rfl
  · intro items line skipped
    unfold codeLine at skipped
    split_ifs at skipped with none
    exact if_pos none
  · intro items line picked taken
    unfold codeLine at taken
    split_ifs at taken with none
    rw [← Option.some.inj taken]
    exact if_neg none

/-! ## The delimiter of a service -/

/-- A single delimiter stands between the request and the response. -/
theorem findIdxs_eq_singleton_iff {parts : List (List Char)} {start idx : ℕ} :
    parts.findIdxs isDelimiter start = [idx] ↔ ∃ front delimiter back,
      parts = front ++ delimiter :: back ∧ start + front.length = idx ∧
        isDelimiter delimiter = true ∧ ∀ part ∈ front ++ back, isDelimiter part = false := by
  induction parts generalizing start with
  | nil =>
      refine iff_of_false nofun ?_
      rintro ⟨front, delimiter, back, same, -⟩
      exact absurd same.symm (List.append_ne_nil_of_right_ne_nil _ (List.cons_ne_nil _ _))
  | cons part parts ih =>
      rw [List.findIdxs_cons]
      split_ifs with found
      · rw [List.cons.injEq, List.findIdxs_eq_nil_iff]
        constructor
        · rintro ⟨rfl, others⟩
          exact ⟨[], part, parts, rfl, rfl, found, others⟩
        · rintro ⟨front, delimiter, back, same, place, -, others⟩
          rcases front with _ | ⟨first, front⟩
          · obtain ⟨rfl, rfl⟩ := List.cons.inj same
            exact ⟨place, others⟩
          · obtain ⟨rfl, -⟩ := List.cons.inj same
            rw [others part List.mem_cons_self] at found
            cases found
      · rw [ih]
        constructor
        · rintro ⟨front, delimiter, back, rfl, place, isOne, others⟩
          refine ⟨part :: front, delimiter, back, rfl, ?_, isOne,
            List.forall_mem_cons.mpr ⟨by simpa using found, others⟩⟩
          rw [List.length_cons]
          omega
        · rintro ⟨front, delimiter, back, same, place, isOne, others⟩
          rcases front with _ | ⟨first, front⟩
          · obtain ⟨rfl, rfl⟩ := List.cons.inj same
            exact absurd isOne found
          · obtain ⟨rfl, rfl⟩ := List.cons.inj same
            refine ⟨front, delimiter, back, rfl, ?_, isOne, (List.forall_mem_cons.mp others).2⟩
            rw [List.length_cons] at place
            omega

/-! ## Constants -/

/-- What `is_constant` comes to: the first '=' of the line stands neither behind a '<' nor in
brackets. -/
def takenForConstant (line : List Char) : Bool :=
  match splitOnce '=' line with
  | some (beforeEq, _) =>
      beforeEq.getLast? != some '<' && beforeEq.count '[' == beforeEq.count ']'
  | none => false

theorem isConstant_eq (line : List Char) : isConstant line = .ok (takenForConstant line) := by
  by_cases inside : '=' ∈ line
  · obtain ⟨front, back, rfl, absent⟩ := exists_first_char inside
    have sliced : slice 0 (byteLength front) (front ++ '=' :: back) = some front :=
      slice_middle [] front ('=' :: back) rfl rfl
    rw [isConstant, find_char absent, takenForConstant, splitOnce_append absent]
    dsimp only
    rcases eq_or_ne front [] with rfl | some
    · rfl
    · have last := @getElem?_octets_last front some ('=' :: back) '<' (by decide)
      by_cases bound : front.getLast? = .some '<'
      · rw [if_pos ⟨byteLength_pos.mpr some, last.mpr bound⟩, bound]
        rfl
      · rw [if_neg fun both => bound (last.mp both.2), sliced, bne_iff_ne.mpr bound, Bool.true_and]
        rfl
  · rw [isConstant, find_char_of_absent inside, takenForConstant, splitOnce_of_not_mem inside]

end RosZ.Codegen.Parser
