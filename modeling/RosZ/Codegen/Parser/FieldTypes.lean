import RosZ.Codegen.Parser.Lines

/-!
# Texts of field types

The types a ROS definition can name, with their text and their meaning, and what
`parse_field_type` makes of the text.

Behind a base without brackets and '<', every array form is read back
(`parseFieldType_plain`).  A bounded string is looked for only where there are no brackets, so
the bound of an array of strings becomes part of the base type
(`parseFieldType_boundedArray`).  `parseFieldType_text_iff` puts the two together.
-/

namespace RosZ.Codegen.Parser

open Slices Numerals

/-! ## Types and their texts -/

/-- A letter or an underscore, then letters, digits and underscores. -/
def isIdentifier (s : String) : Bool :=
  match s.toList with
  | [] => false
  | c :: rest => (c.isAlpha || c == '_') && rest.all fun b => b.isAlphanum || b == '_'

/-- The name of a type or of a package. -/
abbrev Identifier := { s : String // isIdentifier s = true }

/-- What stands in front of the array form. -/
inductive BaseSyntax where
  | primitive (name : String) (known : isPrimitiveType name = true)
  | string (bound : Option ℕ)
  | named (package : Option Identifier) (type : Identifier)

/-- A type, as it is written. -/
structure TypeSyntax where
  base : BaseSyntax
  array : ArrayType

def BaseSyntax.bound : BaseSyntax → Option ℕ
  | .string bound => bound
  | _ => none

def BaseSyntax.text : BaseSyntax → List Char
  | .primitive name _ => name.toList
  | .string none => "string".toList
  | .string (some bound) => "string<=".toList ++ Nat.toDigits 10 bound
  | .named none type => type.val.toList
  | .named (some package) type => package.val.toList ++ '/' :: type.val.toList

/-- What stands between the brackets. -/
def sizeText : ArrayType → List Char
  | .fixed n => Nat.toDigits 10 n
  | .bounded n => "<=".toList ++ Nat.toDigits 10 n
  | .single | .unbounded => []

def arrayText (array : ArrayType) : List Char :=
  if array = .single then [] else '[' :: (sizeText array ++ [']'])

def TypeSyntax.text (type : TypeSyntax) : List Char := type.base.text ++ arrayText type.array

/-- The package and the name that are meant; a bare Header is that of std_msgs. -/
def BaseSyntax.meaning : BaseSyntax → Option String × String
  | .primitive name _ => (none, name)
  | .string _ => (none, "string")
  | .named (some package) type => (some package, type)
  | .named none type => (if type.val = "Header" then some "std_msgs" else none, type)

def TypeSyntax.meaning (type : TypeSyntax) : FieldType :=
  { baseType := type.base.meaning.2, package := type.base.meaning.1, array := type.array,
    stringBound := type.base.bound }

/-- The numbers that a type is written with. -/
def arrayNumbers : ArrayType → List ℕ
  | .fixed n | .bounded n => [n]
  | .single | .unbounded => []

def TypeSyntax.numbers (type : TypeSyntax) : List ℕ :=
  type.base.bound.toList ++ arrayNumbers type.array

/-! ## Characters of a base -/

/-- No character of a base without a bound has a meaning of its own to the parser, but for the
slash. -/
theorem plain_of_isIdentifier {s : String} (identifier : isIdentifier s = true) {c : Char}
    (special : c = '[' ∨ c = '<' ∨ c = '/') : c ∉ s.toList := by
  intro member
  unfold isIdentifier at identifier
  split at identifier
  · cases identifier
  · next first rest shape =>
    rw [Bool.and_eq_true, List.all_eq_true] at identifier
    rw [shape] at member
    rcases List.mem_cons.mp member with rfl | member
    · rcases special with rfl | rfl | rfl
      · exact absurd identifier.1 (by decide)
      · exact absurd identifier.1 (by decide)
      · exact absurd identifier.1 (by decide)
    · have inside := identifier.2 c member
      rcases special with rfl | rfl | rfl
      · exact absurd inside (by decide)
      · exact absurd inside (by decide)
      · exact absurd inside (by decide)

theorem isIdentifier_of_primitive {name : String} (known : isPrimitiveType name = true) :
    isIdentifier name = true ∧ name ≠ "Header" := by
  unfold isPrimitiveType at known
  rw [decide_eq_true_eq] at known
  revert name
  decide

theorem not_mem_toDigits {c : Char} (special : c.isDigit = false) (n : ℕ) :
    c ∉ Nat.toDigits 10 n := by
  intro member
  rw [Nat.isDigit_of_mem_toDigits (by decide) (by decide) member] at special
  cases special

/-! ## Array forms -/

theorem parseUsize_eq_some_iff {n value : ℕ} :
    parseUsize (Nat.toDigits 10 n) = some value ↔ n < 2 ^ 64 ∧ value = n := by
  rw [parseUsize_toDigits, Option.filter_eq_some_iff, Option.some.injEq, decide_eq_true_eq]
  constructor
  · rintro ⟨rfl, fits⟩
    exact ⟨fits, rfl⟩
  · rintro ⟨fits, rfl⟩
    exact ⟨rfl, fits⟩

/-- A number that is read into a shape. -/
theorem readNumber_eq_ok_iff {α : Type} {message : String} {n : ℕ} {shape : ℕ → α} {result : α} :
    (orBail message (parseUsize (Nat.toDigits 10 n)) >>= fun value => .ok (shape value)) =
      .ok result ↔ n < 2 ^ 64 ∧ result = shape n := by
  rw [Fallible.bind_eq_ok_iff]
  simp only [orBail_eq_ok_iff, parseUsize_eq_some_iff]
  constructor
  · rintro ⟨value, ⟨fits, rfl⟩, same⟩
    exact ⟨fits, (Except.ok.inj same).symm⟩
  · rintro ⟨fits, rfl⟩
    exact ⟨n, ⟨fits, rfl⟩, rfl⟩

theorem parseArraySize_eq_ok_iff (typeStr : List Char) {array result : ArrayType}
    (isArray : array ≠ .single) :
    parseArraySize typeStr (sizeText array) = .ok result ↔
      (∀ n ∈ arrayNumbers array, n < 2 ^ 64) ∧ result = array := by
  rcases array with _ | n | n | _
  · exact absurd rfl isArray
  · obtain ⟨first, rest, shape⟩ := List.exists_cons_of_ne_nil (@Nat.toDigits_ne_nil n 10)
    have noPrefix : ['<', '='].isPrefixOf? (Nat.toDigits 10 n) = none := by
      have other := not_mem_toDigits (show '<'.isDigit = false from rfl) n
      rw [shape] at other ⊢
      have differs : ('<' == first) = false :=
        beq_eq_false_iff_ne.mpr fun same => other (same ▸ List.mem_cons_self)
      rw [List.isPrefixOf?, differs]
      rfl
    rw [parseArraySize, sizeText, if_neg Nat.toDigits_ne_nil, noPrefix]
    rw [arrayNumbers, List.forall_mem_singleton]
    exact readNumber_eq_ok_iff
  · have isPrefix : ['<', '='].isPrefixOf? ("<=".toList ++ Nat.toDigits 10 n) =
        some (Nat.toDigits 10 n) := by
      simp [List.isPrefixOf?]
    rw [parseArraySize, sizeText, if_neg (List.append_ne_nil_of_left_ne_nil (by decide) _),
      isPrefix]
    rw [arrayNumbers, List.forall_mem_singleton]
    exact readNumber_eq_ok_iff
  · rw [parseArraySize, sizeText, if_pos rfl, Except.ok.injEq, arrayNumbers]
    simp [eq_comm]

/-- A base in front of an array form. -/
theorem parseArray_eq_ok_iff {base : List Char} (plain : '[' ∉ base) {array : ArrayType}
    {result : List Char × ArrayType} :
    parseArray (base ++ arrayText array) = .ok result ↔
      (∀ n ∈ arrayNumbers array, n < 2 ^ 64) ∧ result = (base, array) := by
  rcases eq_or_ne array .single with rfl | isArray
  · rw [arrayText, if_pos rfl, List.append_nil, parseArray_of_not_mem plain, Except.ok.injEq,
      arrayNumbers]
    simp [eq_comm]
  · rw [arrayText, if_neg isArray, parseArray_brackets plain, Fallible.bind_eq_ok_iff]
    simp only [parseArraySize_eq_ok_iff _ isArray, Except.ok.injEq]
    constructor
    · rintro ⟨value, ⟨fits, rfl⟩, same⟩
      exact ⟨fits, same.symm⟩
    · rintro ⟨fits, rfl⟩
      exact ⟨array, ⟨fits, rfl⟩, rfl⟩

/-! ## Bases -/

theorem parseBase_of_isIdentifier {s : String} (identifier : isIdentifier s = true) :
    parseBase s.toList = .ok (if s = "Header" then some "std_msgs" else none, s) := by
  rw [parseBase_of_not_mem (plain_of_isIdentifier identifier (.inr (.inr rfl)))]
  by_cases header : s = "Header"
  · rw [if_pos header, header]
    rfl
  · rw [if_neg header, if_neg (mt String.toList_inj.mp header), String.ofList_toList]

/-- A base without a bound is read back. -/
theorem parseBase_text {base : BaseSyntax} (free : base.bound = none) :
    parseBase base.text = .ok base.meaning := by
  cases base with
  | primitive name known =>
    obtain ⟨identifier, other⟩ := isIdentifier_of_primitive known
    show parseBase name.toList = .ok (none, name)
    rw [parseBase_of_isIdentifier identifier, if_neg other]
  | string bound =>
    rw [BaseSyntax.bound] at free
    rw [free]
    rfl
  | named package type =>
    rcases package with _ | package
    · exact parseBase_of_isIdentifier type.property
    have plain := @plain_of_isIdentifier package package.property '/' (.inr (.inr rfl))
    show parseBase (package.val.toList ++ '/' :: type.val.toList) = .ok (some package.val, type.val)
    rw [parseBase_slash plain, String.ofList_toList, String.ofList_toList]

theorem plain_text {base : BaseSyntax} (free : base.bound = none) {c : Char}
    (special : c = '[' ∨ c = '<') : c ∉ base.text := by
  have special' : c = '[' ∨ c = '<' ∨ c = '/' := special.imp_right .inl
  cases base with
  | primitive name known => exact plain_of_isIdentifier (isIdentifier_of_primitive known).1 special'
  | string bound =>
    rw [BaseSyntax.bound] at free
    rw [free]
    rcases special with rfl | rfl
    · decide
    · decide
  | named package type =>
    rcases package with _ | package
    · exact plain_of_isIdentifier type.property special'
    have slash : c ≠ '/' := by
      rintro rfl
      exact absurd special (by decide)
    show c ∉ package.val.toList ++ '/' :: type.val.toList
    rw [List.mem_append, List.mem_cons, not_or, not_or]
    exact ⟨plain_of_isIdentifier package.property special', slash,
      plain_of_isIdentifier type.property special'⟩

/-! ## Types -/

/-- **A base without a bound** is read back in every array form. -/
theorem parseFieldType_plain {base : BaseSyntax} (free : base.bound = none) {array : ArrayType}
    {package : String} {result : FieldType} :
    parseFieldType (base.text ++ arrayText array) package = .ok result ↔
      (∀ n ∈ arrayNumbers array, n < 2 ^ 64) ∧ result = TypeSyntax.meaning ⟨base, array⟩ := by
  have noBracket := @plain_text base free '[' (.inl rfl)
  have noAngle := @plain_text base free '<' (.inr rfl)
  have unbounded : '[' ∉ base.text ++ arrayText array →
      ¬ ['<', '='] <:+: base.text ++ arrayText array := by
    intro brackets starts
    rcases eq_or_ne array .single with rfl | isArray
    · rw [arrayText, if_pos rfl, List.append_nil] at starts
      exact noAngle (starts.subset List.mem_cons_self)
    · rw [arrayText, if_neg isArray] at brackets
      exact brackets (List.mem_append_right _ List.mem_cons_self)
  rw [parseFieldType_of_no_angle unbounded, Fallible.bind_eq_ok_iff]
  simp only [parseArray_eq_ok_iff noBracket, TypeSyntax.meaning, free]
  constructor
  · rintro ⟨_, ⟨fits, rfl⟩, bases⟩
    rw [parseBase_text free] at bases
    exact ⟨fits, (Except.ok.inj bases).symm⟩
  · rintro ⟨fits, rfl⟩
    refine ⟨(base.text, array), ⟨fits, rfl⟩, ?_⟩
    rw [parseBase_text free]
    rfl

/-- A bounded string outside an array. -/
theorem parseFieldType_boundedSingle {bound : ℕ} {package : String} {result : FieldType} :
    parseFieldType ("string<=".toList ++ Nat.toDigits 10 bound) package = .ok result ↔
      bound < 2 ^ 64 ∧ result = TypeSyntax.meaning ⟨.string (some bound), .single⟩ := by
  have read := @parseFieldType_angle "string".toList (by decide) (by decide)
    (Nat.toDigits 10 bound) (not_mem_toDigits rfl bound) _ rfl package
  change parseFieldType ("string<=".toList ++ Nat.toDigits 10 bound) package = _ at read
  rw [read]
  exact readNumber_eq_ok_iff

/-- In an array of bounded strings the bound becomes part of the base type. -/
theorem parseFieldType_boundedArray {bound : ℕ} {array : ArrayType} (isArray : array ≠ .single)
    {package : String} {result : FieldType}
    (parsed : parseFieldType ("string<=".toList ++ Nat.toDigits 10 bound ++ arrayText array)
      package = .ok result) : result.baseType ≠ "string" := by
  have noBracket : '[' ∉ "string<=".toList ++ Nat.toDigits 10 bound := by
    rw [List.mem_append, not_or]
    exact ⟨by decide, not_mem_toDigits rfl bound⟩
  have noSlash : '/' ∉ "string<=".toList ++ Nat.toDigits 10 bound := by
    rw [List.mem_append, not_or]
    exact ⟨by decide, not_mem_toDigits rfl bound⟩
  have brackets : '[' ∈ "string<=".toList ++ Nat.toDigits 10 bound ++ arrayText array := by
    rw [arrayText, if_neg isArray]
    exact List.mem_append_right _ List.mem_cons_self
  rw [parseFieldType_of_no_angle fun absent => absurd brackets absent] at parsed
  obtain ⟨form, arrays, rest⟩ := Fallible.bind_eq_ok_iff.mp parsed
  obtain ⟨-, rfl⟩ := (parseArray_eq_ok_iff noBracket).mp arrays
  rw [parseBase_of_not_mem noSlash, if_neg (by simp)] at rest
  rw [← Except.ok.inj rest]
  show String.ofList _ ≠ "string"
  rw [Ne, ← String.toList_inj, String.toList_ofList]
  simp

/-- **Field types are read back** exactly when no bounded string is in an array and every number
fits. -/
theorem parseFieldType_text_iff (type : TypeSyntax) (package : String) :
    parseFieldType type.text package = .ok type.meaning ↔
      (type.base.bound = none ∨ type.array = .single) ∧ ∀ n ∈ type.numbers, n < 2 ^ 64 := by
  obtain ⟨base, array⟩ := type
  rcases free : base.bound with _ | bound
  · rw [TypeSyntax.text, parseFieldType_plain free]
    simp [TypeSyntax.numbers, free]
  · have isString : base = .string (some bound) := by
      cases base with
      | primitive name known => cases free
      | string bound' => exact congrArg BaseSyntax.string free
      | named package type => cases free
    subst isString
    rcases eq_or_ne array .single with rfl | isArray
    · have whole : TypeSyntax.text ⟨.string (some bound), .single⟩ =
          "string<=".toList ++ Nat.toDigits 10 bound := List.append_nil _
      rw [whole, parseFieldType_boundedSingle]
      simp [TypeSyntax.numbers, BaseSyntax.bound, arrayNumbers]
    · refine iff_of_false (fun parsed => ?_) (fun both => ?_)
      · exact parseFieldType_boundedArray isArray parsed rfl
      · exact both.1.elim nofun isArray

/-- The bound of an array of strings is lost. -/
theorem parseFieldType_boundedStringArray :
    parseFieldType (TypeSyntax.text ⟨.string (some 10), .unbounded⟩) "pkg" ≠
      .ok (TypeSyntax.meaning ⟨.string (some 10), .unbounded⟩) := by
  decide

end RosZ.Codegen.Parser
