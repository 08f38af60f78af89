import RosZ.Codegen.Hashing
import RosZ.Lib.Numerals
import RosZ.Lib.Slices
import RosZ.Lib.Words

/-!
# Lines of a definition

`parser/mod.rs`: the comment of a line, constants, fields, field types and default values.

A `&str` is the list of its characters, with positions in octets as in the source; results are
strings.  A parser returns a value, an error with its text, or panics because of a slice
(`Stop.panic`).  Of the chain of an `anyhow` error only the outermost text is kept, which is
what is shown.

`Codegen.Field` is what the resolver reads of a field; here it has its default value as well.
-/

namespace RosZ.Codegen.Parser

open Slices Numerals

/-! ## Outcomes -/

/-- How a parser ends without a value. -/
inductive Stop where
  /-- An `Err`, by the text it shows. -/
  | error (message : String)
  /-- A slice that is out of range or splits a character. -/
  | panic
deriving DecidableEq

/-- What a parser comes to. -/
abbrev Result (α : Type) := Except Stop α

def bail {α : Type} (message : String) : Result α := .error (.error message)

/-- A slice that has to exist. -/
def orPanic {α : Type} : Option α → Result α
  | some value => .ok value
  | none => .error .panic

/-- An inner result in the context of an error. -/
def orBail {α : Type} (message : String) : Option α → Result α
  | some value => .ok value
  | none => bail message

theorem orBail_eq_ok_iff {α : Type} {message : String} {outcome : Option α} {value : α} :
    orBail message outcome = .ok value ↔ outcome = some value := by
  rcases outcome with _ | found
  · exact iff_of_false nofun nofun
  · rw [orBail, Except.ok.injEq, Option.some.injEq]

/-! ## Words -/

/-- `char::is_whitespace`, the property `White_Space` of Unicode. -/
def isWhitespace (c : Char) : Bool :=
  let n := c.toNat
  (0x9 ≤ n && n ≤ 0xD) || n == 0x20 || n == 0x85 || n == 0xA0 || n == 0x1680 ||
    (0x2000 ≤ n && n ≤ 0x200A) || n == 0x2028 || n == 0x2029 || n == 0x202F || n == 0x205F ||
    n == 0x3000

def trim (s : List Char) : List Char := Words.trim isWhitespace s

def splitWhitespace (s : List Char) : List (List Char) := Words.words isWhitespace s

/-- `parts.join(" ")`. -/
def joinWords (parts : List (List Char)) : List Char := [' '].intercalate parts

/-- `s.splitn(2, sep)`: what stands in front of the first separator, and behind it. -/
def splitOnce (sep : Char) (s : List Char) : Option (List Char × List Char) :=
  match s.dropWhile (· ≠ sep) with
  | [] => none
  | _ :: back => some (s.takeWhile (· ≠ sep), back)

theorem splitOnce_append {sep : Char} {front : List Char} (absent : sep ∉ front)
    (back : List Char) : splitOnce sep (front ++ sep :: back) = some (front, back) := by
  have other : ∀ c ∈ front, decide (c ≠ sep) = true := by
    intro c member
    rw [decide_eq_true_eq]
    rintro rfl
    exact absent member
  rw [splitOnce, List.dropWhile_append_of_pos other, List.takeWhile_append_of_pos other]
  simp

theorem splitOnce_of_not_mem {sep : Char} {s : List Char} (absent : sep ∉ s) :
    splitOnce sep s = none := by
  have none : s.dropWhile (· ≠ sep) = [] := by
    rw [List.dropWhile_eq_nil_iff]
    intro c member
    rw [decide_eq_true_eq]
    rintro rfl
    exact absent member
  rw [splitOnce, none]

/-! ## Data -/

/-- Default value for a field (ROS2 syntax). -/
inductive DefaultValue where
  | bool (b : Bool)
  | int (i : ℤ)
  | float (f : Float64)
  | string (s : String)
  | boolArray (bools : List Bool)
  | intArray (ints : List ℤ)
  | floatArray (floats : List Float64)
  | stringArray (strings : List String)
deriving DecidableEq

/-- Field in a message. -/
structure Field extends Codegen.Field where
  default : Option DefaultValue
deriving DecidableEq

/-- Constant definition in a message. -/
structure Constant where
  name : String
  constType : String
  value : String
deriving DecidableEq

/-! ## Comments and constants -/

/-- Strip comments from a line (everything after '#'). -/
def stripComment (line : List Char) : List Char := (line.splitOn '#').headD []

theorem stripComment_of_not_mem {line : List Char} (absent : '#' ∉ line) :
    stripComment line = line := by
  rw [stripComment, List.splitOn_eq_singleton absent]
  rfl

theorem stripComment_append {front : List Char} (absent : '#' ∉ front) (back : List Char) :
    stripComment (front ++ '#' :: back) = front := by
  rw [stripComment, List.splitOn_append_cons_self_of_not_mem absent]
  rfl

/-- Parse a constant line (format: "type NAME = value"). -/
def parseConstant (line : List Char) (lineNum : ℕ) : Except String Constant :=
  match splitOnce '=' line with
  | none => .error s!"Line {lineNum}: Invalid constant format, expected '='"
  | some (declaration, value) =>
      match splitWhitespace declaration with
      | [constType, name] =>
          .ok { name := String.ofList name, constType := String.ofList constType,
                value := String.ofList (trim value) }
      | [constType] =>
          .ok { name := "", constType := String.ofList constType,
                value := String.ofList (trim value) }
      | _ => .error s!"Line {lineNum}: Invalid constant declaration, expected 'type NAME'"

/-! ## Field types -/

/-- The array form between the brackets of a type. -/
def parseArraySize (typeStr arrayStr : List Char) : Result ArrayType :=
  if arrayStr = [] then .ok .unbounded
  else
    match ['<', '='].isPrefixOf? arrayStr with
    | some stripped => do
        let size ← orBail s!"Invalid bounded array size in '{String.ofList typeStr}'"
          (parseUsize stripped)
        return .bounded size
    | none => do
        let size ← orBail s!"Invalid fixed array size in '{String.ofList typeStr}'"
          (parseUsize arrayStr)
        return .fixed size

/-- Handle arrays: type[], type[N], type[<=N]. -/
def parseArray (typeStr : List Char) : Result (List Char × ArrayType) :=
  match find ['['] typeStr with
  | some idx =>
      if typeStr.getLast? ≠ some ']' then
        bail s!"Invalid array syntax: {String.ofList typeStr}"
      else do
        let base ← orPanic (slice 0 idx typeStr)
        let arrayStr ← orPanic (slice (idx + 1) (byteLength typeStr - 1) typeStr)
        let array ← parseArraySize typeStr arrayStr
        return (base, array)
  | none => .ok (typeStr, .single)

/-- Parse package/Type or Type. -/
def parseBase (baseStr : List Char) : Result (Option String × String) :=
  match find ['/'] baseStr with
  | some idx => do
      let pkg ← orPanic (slice 0 idx baseStr)
      let typ ← orPanic (slice (idx + 1) (byteLength baseStr) baseStr)
      return (some (String.ofList pkg), String.ofList typ)
  | none =>
      -- Special case: Header -> std_msgs/Header
      if baseStr = "Header".toList then .ok (some "std_msgs", "Header")
      else .ok (none, String.ofList baseStr)

/-- Parse a field type string (e.g., "uint8[]", "geometry_msgs/Point", "string<=50"). -/
def parseFieldType (typeStr : List Char) (_sourcePackage : String) : Result FieldType :=
  -- bounded strings, but not a type with brackets
  match if '[' ∈ typeStr then none else find ['<', '='] typeStr with
  | some idx => do
      let base ← orPanic (slice 0 idx typeStr)
      let rest ← orPanic (slice (idx + 2) (byteLength typeStr) typeStr)
      let bound ← orBail s!"Invalid string bound in '{String.ofList typeStr}'" (parseUsize rest)
      return { baseType := String.ofList base, package := none, array := .single,
               stringBound := some bound }
  | none => do
      let (baseStr, array) ← parseArray typeStr
      let (package, baseType) ← parseBase baseStr
      return { baseType, package, array, stringBound := none }

/-! ### Where the slices stand -/

theorem parseArray_of_not_mem {typeStr : List Char} (absent : '[' ∉ typeStr) :
    parseArray typeStr = .ok (typeStr, .single) := by
  rw [parseArray, find_char_of_absent absent]

theorem parseArray_brackets {base : List Char} (absent : '[' ∉ base) (inner : List Char) :
    parseArray (base ++ '[' :: (inner ++ [']'])) =
      parseArraySize (base ++ '[' :: (inner ++ [']'])) inner >>= fun array =>
        .ok (base, array) := by
  have last : (base ++ '[' :: (inner ++ [']'])).getLast? = some ']' := by
    rw [← List.cons_append, ← List.append_assoc, List.getLast?_concat]
  rw [parseArray, find_char absent]
  dsimp only
  rw [if_neg (not_not.mpr last), slice_front, slice_between rfl rfl]
  rfl

theorem parseBase_of_not_mem {baseStr : List Char} (absent : '/' ∉ baseStr) :
    parseBase baseStr = .ok (if baseStr = "Header".toList then (some "std_msgs", "Header")
      else (none, String.ofList baseStr)) := by
  rw [parseBase, find_char_of_absent absent]
  dsimp only
  split_ifs
  · rfl
  · rfl

theorem parseBase_slash {pkg : List Char} (absent : '/' ∉ pkg) (typ : List Char) :
    parseBase (pkg ++ '/' :: typ) = .ok (some (String.ofList pkg), String.ofList typ) := by
  rw [parseBase, find_char absent]
  dsimp only
  rw [slice_front, slice_behind rfl]
  rfl

/-- Behind the first "<=" of a type without brackets stands the bound of a string. -/
theorem parseFieldType_angle {base : List Char} (absent : '[' ∉ base ++ ['<'])
    (first : ¬ ['<', '='] <:+: base ++ ['<']) {rest : List Char} (plain : '[' ∉ rest)
    {typeStr : List Char} (shape : base ++ (['<', '='] ++ rest) = typeStr) (package : String) :
    parseFieldType typeStr package =
      orBail s!"Invalid string bound in '{String.ofList typeStr}'" (parseUsize rest) >>= fun bound =>
      .ok { baseType := String.ofList base, package := none, array := .single,
            stringBound := some bound } := by
  subst shape
  have noBracket : '[' ∉ base ++ (['<', '='] ++ rest) := by
    rw [List.mem_append, List.mem_append, not_or, not_or]
    rw [List.mem_append, not_or] at absent
    exact ⟨absent.1, by decide, plain⟩
  have found : find ['<', '='] (base ++ (['<', '='] ++ rest)) = some (byteLength base) :=
    find_first (List.cons_ne_nil _ _) first rest
  have back : slice (byteLength base + 2) (byteLength (base ++ (['<', '='] ++ rest)))
      (base ++ (['<', '='] ++ rest)) = some rest := by
    have behind := @slice_behind '=' rfl (base ++ ['<']) rest
    rw [byteLength_append, show byteLength ['<'] = 1 from rfl, List.append_assoc] at behind
    exact behind
  rw [parseFieldType, if_neg noBracket, found]
  dsimp only
  rw [slice_front, back]
  rfl

/-- Elsewhere the array form is looked for first, and then the package. -/
theorem parseFieldType_of_no_angle {typeStr : List Char}
    (unbounded : '[' ∉ typeStr → ¬ ['<', '='] <:+: typeStr) (package : String) :
    parseFieldType typeStr package = parseArray typeStr >>= fun form =>
      parseBase form.1 >>= fun base =>
      .ok { baseType := base.2, package := base.1, array := form.2, stringBound := none } := by
  have missing : (if '[' ∈ typeStr then none else find ['<', '='] typeStr) = none := by
    split_ifs with brackets
    · rfl
    · exact find_of_absent (unbounded brackets)
  rw [parseFieldType, missing]
  rfl

/-! ## Default values -/

/-- Whether a text starts and ends with the same kind of quotation mark. -/
def isQuoted (s : List Char) : Bool :=
  s.head? == some '"' && s.getLast? == some '"' || s.head? == some '\'' && s.getLast? == some '\''

/-- `s[1..s.len() - 1]`. -/
def withoutEnds (s : List Char) : Result (List Char) := orPanic (slice 1 (byteLength s - 1) s)

def parseBool (s : List Char) : Option Bool :=
  if s = "true".toList ∨ s = "True".toList then some true
  else if s = "false".toList ∨ s = "False".toList then some false
  else none

/-- Try to parse as string array: the texts between the quotation marks, unless an element has
none. -/
def parseStrings : List (List Char) → Result (Option (List String))
  | [] => .ok (some [])
  | elem :: elements =>
      if isQuoted elem then do
        let text ← withoutEnds elem
        let texts ← parseStrings elements
        return texts.map (String.ofList text :: ·)
      else .ok none

/-- The elements of an array, as the first kind that all of them are of. -/
def parseElements (s : List Char) (elements : List (List Char)) : Result DefaultValue :=
  match elements.mapM parseBool, elements.mapM parseI64, elements.mapM parseF64 with
  | some bools, _, _ => .ok (.boolArray bools)
  | none, some ints, _ => .ok (.intArray ints)
  | none, none, some floats => .ok (.floatArray floats)
  | none, none, none => do
      let strings ← parseStrings elements
      orBail s!"Invalid array default value: {String.ofList s}" (strings.map .stringArray)

/-- Parse a default value. -/
def parseDefaultValue (s : List Char) : Result DefaultValue :=
  if s.head? = some '[' ∧ s.getLast? = some ']' then do
    let inner ← withoutEnds s
    let elements := (inner.splitOn ',').map trim
    if inner = [] ∨ elements = [] then bail s!"Empty array default value: {String.ofList s}"
    else parseElements s elements
  else
    match parseBool s with
    | some b => .ok (.bool b)
    | none =>
        if isQuoted s then do
          let text ← withoutEnds s
          return .string (String.ofList text)
        else
          match parseI64 s, parseF64 s with
          | some i, _ => .ok (.int i)
          | none, some f => .ok (.float f)
          | none, none => bail s!"Invalid default value: {String.ofList s}"

/-! ## Fields -/

/-- The default behind the type and the name, when there is one. -/
def parseDefault : List (List Char) → Result (Option DefaultValue)
  | [] => .ok none
  | parts => do return some (← parseDefaultValue (joinWords parts))

/-- Parse a field line (format: "type name" or "type name default_value"). -/
def parseField (line : List Char) (sourcePackage : String) (lineNum : ℕ) : Result Field :=
  match splitWhitespace line with
  | typeStr :: name :: rest => do
      let fieldType ← parseFieldType typeStr sourcePackage
      let default ← parseDefault rest
      return { name := String.ofList name, fieldType, default }
  | _ => bail s!"Line {lineNum}: Invalid field format: {String.ofList line}"

end RosZ.Codegen.Parser
