import RosZ.Lib.Text

/-!
# Numbers in texts

`str::parse` for `usize`, `i64` and `f64`.

An `f64` is carried as the decimal that it was written as: `Float64.finite` stands for the
double nearest to `± digits · 10 ^ exponent`.
-/

namespace Numerals

/-- `parse::<usize>`, on 64 bits. -/
def parseUsize (s : List Char) : Option ℕ := Text.fromStrRadix 10 (2 ^ 64) (String.ofList s)

/-- The sign and what stands behind it. -/
def splitSign : List Char → Bool × List Char
  | '-' :: rest => (true, rest)
  | '+' :: rest => (false, rest)
  | s => (false, s)

/-- `parse::<i64>`. -/
def parseI64 (s : List Char) : Option ℤ :=
  let (negative, digits) := splitSign s
  if digits = [] then none
  else
    (Text.fromDigits 10 0 digits).bind fun n =>
      let value : ℤ := if negative then -n else n
      if -2 ^ 63 ≤ value ∧ value < 2 ^ 63 then some value else none

/-- A floating-point number, as it is written. -/
inductive Float64 where
  | nan
  | infinite (negative : Bool)
  | finite (negative : Bool) (digits : ℕ) (exponent : ℤ)
deriving DecidableEq

/-- The exponent behind the mantissa: nothing, or a mark and a signed number. -/
def parseExponent : List Char → Option ℤ
  | [] => some 0
  | mark :: rest =>
      let (negative, digits) := splitSign rest
      if (mark = 'e' ∨ mark = 'E') ∧ digits ≠ [] then
        (Text.fromDigits 10 0 digits).map fun n => if negative then -n else n
      else none

/-- Digits with at most one point among them, and the exponent. -/
def parseNumber (s : List Char) : Option (ℕ × ℤ) :=
  let whole := s.takeWhile Char.isDigit
  let (fraction, rest) := match s.dropWhile Char.isDigit with
    | '.' :: rest => (rest.takeWhile Char.isDigit, rest.dropWhile Char.isDigit)
    | rest => ([], rest)
  if whole ++ fraction = [] then none
  else
    (Text.fromDigits 10 0 (whole ++ fraction)).bind fun digits =>
      (parseExponent rest).map fun exponent => (digits, exponent - fraction.length)

/-- `parse::<f64>`. -/
def parseF64 (s : List Char) : Option Float64 :=
  let (negative, s) := splitSign s
  match parseNumber s with
  | some (digits, exponent) => some (.finite negative digits exponent)
  | none =>
      let word := s.map Char.toLower
      if word = "inf".toList ∨ word = "infinity".toList then some (.infinite negative)
      else if word = "nan".toList then some .nan
      else none

/-- The digits of a number are read back. -/
theorem parseUsize_toDigits (n : ℕ) :
    parseUsize (Nat.toDigits 10 n) = (some n).filter (· < 2 ^ 64) :=
  Text.fromStrRadix_toDigits _ (by decide) (by decide) n

/-- A quotation mark starts no number. -/
theorem parseI64_quote {mark : Char} (quote : mark = '"' ∨ mark = '\'') (s : List Char) :
    parseI64 (mark :: s) = none := by
  rcases quote with rfl | rfl
  · rfl
  · rfl

theorem parseF64_quote {mark : Char} (quote : mark = '"' ∨ mark = '\'') (s : List Char) :
    parseF64 (mark :: s) = none := by
  rcases quote with rfl | rfl
  · simp [parseF64, splitSign, parseNumber]
  · simp [parseF64, splitSign, parseNumber]

example : parseF64 "-1.50e+3".toList = some (.finite true 150 1) := by decide

end Numerals
