import Mathlib.Data.List.Basic
import Mathlib.Data.List.DropRight
import Mathlib.Data.Nat.Notation
import Mathlib.Tactic.IntervalCases

/-!
# Text with fields and numbers

Text made of fields with a separator between them, and numbers written in a radix.

* `fields sep s` splits a text at every separator, as `str::split` does, so that it
  always has at least one field.  It inverts `intercalate` when no field holds the
  separator (`fields_intercalate`), and it determines the text (`fields_injective`).
* `fromStrRadix radix limit s` reads a number below `limit`, as `from_str_radix` does
  for an unsigned type: a leading plus sign is allowed, an empty text is not.  It inverts
  `toDigits` in every radix up to sixteen (`fromStrRadix_ofDigits`).
* `replaceChar` replaces one character by another throughout; it can be undone when the
  new character does not occur in the text.
-/

namespace Text

/-! ## Fields -/

/-- The fields between the separators. -/
def fields (sep : Char) (s : String) : List String := (s.toList.splitOn sep).map String.ofList

/-- A text without a separator in it. -/
def Without (sep : Char) (s : String) : Prop := sep ∉ s.toList

instance (sep : Char) (s : String) : Decidable (Without sep s) :=
  inferInstanceAs (Decidable (_ ∉ _))

/-- There is always a field. -/
theorem exists_cons_fields (sep : Char) (s : String) :
    ∃ first rest, fields sep s = first :: rest := by
  obtain ⟨field, others, split⟩ := List.exists_cons_of_ne_nil (List.splitOn_ne_nil sep s.toList)
  exact ⟨String.ofList field, others.map String.ofList, by rw [fields, split, List.map_cons]⟩

theorem fields_intercalate {sep : Char} {parts : List String} (some : parts ≠ [])
    (apart : ∀ part ∈ parts, Without sep part) :
    fields sep ((String.singleton sep).intercalate parts) = parts := by
  have split : ([sep].intercalate (parts.map String.toList)).splitOn sep =
      parts.map String.toList := by
    refine List.splitOn_intercalate sep ?_ (by simpa using some)
    intro part member
    obtain ⟨text, listed, rfl⟩ := List.mem_map.mp member
    exact apart text listed
  rw [fields, String.toList_intercalate, String.toList_singleton, split, List.map_map]
  calc parts.map (String.ofList ∘ String.toList) = parts.map id :=
        List.map_congr_left fun part _ => String.ofList_toList
    _ = parts := List.map_id parts

theorem fields_of_without {sep : Char} {s : String} (apart : Without sep s) :
    fields sep s = [s] := by
  rw [fields, List.splitOn_eq_singleton apart, List.map_singleton, String.ofList_toList]

/-- A separator between two texts splits the fields of both. -/
theorem fields_append (sep : Char) (s t : String) :
    fields sep (s ++ String.singleton sep ++ t) = fields sep s ++ fields sep t := by
  have shape : (s ++ String.singleton sep ++ t).toList = s.toList ++ sep :: t.toList := by
    simp [String.toList_append]
  rw [fields, shape, List.splitOn_append_cons_self, List.map_append]
  rfl

/-- The parts are made of the characters of the text, but for the separators between them. -/
theorem mem_of_mem_splitOn {sep c : Char} {text part : List Char}
    (among : part ∈ text.splitOn sep) (inside : c ∈ part) : c ∈ text ∧ c ≠ sep := by
  induction text generalizing part with
  | nil =>
      rw [List.splitOn_nil, List.mem_singleton] at among
      rw [among] at inside
      cases inside
  | cons first rest ih =>
      have later : ∀ {part : List Char}, part ∈ rest.splitOn sep → c ∈ part →
          c ∈ first :: rest ∧ c ≠ sep := fun among inside =>
        (ih among inside).imp_left (List.mem_cons_of_mem _)
      obtain ⟨head, others, split⟩ := List.exists_cons_of_ne_nil (List.splitOn_ne_nil sep rest)
      rw [split] at later
      rw [List.splitOn_cons_eq_if_modifyHead, split] at among
      by_cases same : first = sep
      · rw [if_pos (beq_iff_eq.mpr same)] at among
        rcases List.mem_cons.mp among with rfl | among
        · cases inside
        · exact later among inside
      · rw [if_neg (mt beq_iff_eq.mp same), List.modifyHead_cons] at among
        rcases List.mem_cons.mp among with rfl | among
        · rcases List.mem_cons.mp inside with rfl | inside
          · exact ⟨List.mem_cons_self, same⟩
          · exact later List.mem_cons_self inside
        · exact later (List.mem_cons_of_mem _ among) inside

theorem not_mem_of_mem_splitOn {sep : Char} {text part : List Char}
    (among : part ∈ text.splitOn sep) : sep ∉ part :=
  fun inside => (mem_of_mem_splitOn among inside).2 rfl

theorem without_of_mem_fields {sep : Char} {s part : String} (member : part ∈ fields sep s) :
    Without sep part := by
  obtain ⟨field, among, rfl⟩ := List.mem_map.mp member
  unfold Without
  rw [String.toList_ofList]
  exact not_mem_of_mem_splitOn among

/-- The fields make up the text. -/
theorem fields_injective (sep : Char) : Function.Injective (fields sep) := by
  intro s t same
  have split : s.toList.splitOn sep = t.toList.splitOn sep :=
    (List.map_injective_iff.mpr fun _ _ => String.ofList_inj.mp) same
  rw [← String.toList_inj]
  calc s.toList = [sep].intercalate (s.toList.splitOn sep) := (List.intercalate_splitOn sep).symm
    _ = [sep].intercalate (t.toList.splitOn sep) := by rw [split]
    _ = t.toList := List.intercalate_splitOn sep

theorem Without.append {sep : Char} {s t : String} (hs : Without sep s) (ht : Without sep t) :
    Without sep (s ++ t) := by
  unfold Without at *
  rw [String.toList_append, List.mem_append]
  exact not_or.mpr ⟨hs, ht⟩

/-- Joining with another separator adds no separator. -/
theorem Without.intercalate {sep : Char} {glue : String} {parts : List String}
    (apart : Without sep glue) (each : ∀ part ∈ parts, Without sep part) :
    Without sep (glue.intercalate parts) := by
  induction parts with
  | nil => simp [Without]
  | cons part rest ih =>
      have tail : Without sep (glue.intercalate rest) :=
        ih fun q listed => each q (List.mem_cons_of_mem _ listed)
      have head := each part List.mem_cons_self
      cases rest with
      | nil => simpa using head
      | cons next rest =>
          rw [String.intercalate_cons_of_ne_nil (List.cons_ne_nil _ _)]
          exact (head.append apart).append tail

/-! ## Trimming -/

/-- The text without the matches at its end. -/
def trimEndMatches (c : Char) (s : String) : String := String.ofList (s.toList.rdropWhile (· = c))

/-- A list is what is left of its trimmed form and the characters that were trimmed. -/
theorem rdropWhile_eq_iff {c : Char} {l trimmed : List Char} :
    l.rdropWhile (· = c) = trimmed ↔
      (∃ n, l = trimmed ++ List.replicate n c) ∧ trimmed.getLast? ≠ some c := by
  constructor
  · rintro rfl
    constructor
    · refine ⟨(l.rtakeWhile (· = c)).length, ?_⟩
      have trailing : l.rtakeWhile (· = c) = List.replicate (l.rtakeWhile (· = c)).length c := by
        refine List.eq_replicate_of_mem fun x member => ?_
        simpa using List.mem_rtakeWhile_imp member
      rw [← trailing, List.rdropWhile_append_rtakeWhile]
    · intro last
      obtain ⟨some, same⟩ := List.mem_getLast?_eq_getLast last
      exact List.rdropWhile_last_not _ _ some (by simp [← same])
  · rintro ⟨⟨n, rfl⟩, last⟩
    induction n with
    | zero =>
        rw [List.replicate_zero, List.append_nil, List.rdropWhile_eq_self_iff]
        intro some same
        apply last
        rw [List.getLast?_eq_some_getLast some, of_decide_eq_true same]
    | succ n ih =>
        rw [List.replicate_succ', ← List.append_assoc, List.rdropWhile_concat_pos _ _ _ (by simp)]
        exact ih

/-! ## Replacing a character -/

/-- Every `old` becomes a `new`. -/
def replaceChar (old new : Char) (s : String) : String :=
  String.ofList (s.toList.map fun c => if c = old then new else c)

theorem toList_replaceChar (old new : Char) (s : String) :
    (replaceChar old new s).toList = s.toList.map fun c => if c = old then new else c := by
  rw [replaceChar, String.toList_ofList]

theorem without_replaceChar {old new : Char} (other : old ≠ new) (s : String) :
    Without old (replaceChar old new s) := by
  intro member
  rw [toList_replaceChar] at member
  obtain ⟨c, -, same⟩ := List.mem_map.mp member
  split at same
  · exact other same.symm
  · next differs => exact differs same

theorem replaceChar_of_without {old new : Char} {s : String} (absent : Without old s) :
    replaceChar old new s = s := by
  rw [← String.toList_inj, toList_replaceChar]
  calc s.toList.map _ = s.toList.map id := by
        refine List.map_congr_left fun c member => if_neg ?_
        rintro rfl
        exact absent member
    _ = s.toList := List.map_id _

/-- A replacement that hits a new character can be undone. -/
theorem replaceChar_replaceChar {old new : Char} {s : String} (fresh : Without new s) :
    replaceChar new old (replaceChar old new s) = s := by
  rw [← String.toList_inj, toList_replaceChar, toList_replaceChar, List.map_map]
  calc s.toList.map _ = s.toList.map id := by
        refine List.map_congr_left fun c member => ?_
        have differs : c ≠ new := by
          rintro rfl
          exact fresh member
        simp only [Function.comp_apply, id]
        by_cases same : c = old
        · simp [same]
        · simp [same, differs]
    _ = s.toList := List.map_id _

/-! ## Numbers -/

/-- `char::to_digit`: digits, then letters of either case. -/
def digitValue (radix : ℕ) (c : Char) : Option ℕ :=
  let value :=
    if c.isDigit then some (c.toNat - '0'.toNat)
    else if c.isLower then some (c.toNat - 'a'.toNat + 10)
    else if c.isUpper then some (c.toNat - 'A'.toNat + 10)
    else none
  value.filter (· < radix)

/-- Digits from the most significant one on. -/
def fromDigits (radix : ℕ) : ℕ → List Char → Option ℕ
  | value, [] => some value
  | value, c :: rest =>
      (digitValue radix c).bind fun digit => fromDigits radix (value * radix + digit) rest

/-- `from_str_radix` of an unsigned type with `limit` values. -/
def fromStrRadix (radix limit : ℕ) (s : String) : Option ℕ :=
  let digits := match s.toList with
    | '+' :: rest => rest
    | digits => digits
  if digits.isEmpty then none else (fromDigits radix 0 digits).filter (· < limit)

theorem digitValue_digitChar {radix digit : ℕ} (base : radix ≤ 16) (small : digit < radix) :
    digitValue radix digit.digitChar = some digit := by
  have known : digit < 16 := lt_of_lt_of_le small base
  have value : digitValue radix digit.digitChar = (some digit).filter (· < radix) := by
    interval_cases digit <;> rfl
  rw [value]
  simp [Option.filter, small]

theorem digitChar_ne {digit : ℕ} (known : digit < 16) :
    digit.digitChar ≠ '+' ∧ digit.digitChar ≠ '/' ∧ digit.digitChar ≠ ':' ∧
      digit.digitChar ≠ ',' := by
  interval_cases digit <;> decide

theorem fromDigits_append {radix value : ℕ} {front back : List Char} :
    fromDigits radix value (front ++ back) =
      (fromDigits radix value front).bind fun value => fromDigits radix value back := by
  induction front generalizing value with
  | nil => rfl
  | cons c rest ih =>
      simp only [List.cons_append, fromDigits, Option.bind_assoc]
      congr 1
      funext digit
      exact ih

/-- What is read as a number is made of digits. -/
theorem exists_digitValue {radix value n : ℕ} {digits : List Char}
    (read : fromDigits radix value digits = some n) {c : Char} (member : c ∈ digits) :
    ∃ digit, digitValue radix c = some digit := by
  induction digits generalizing value with
  | nil => cases member
  | cons first rest ih =>
      obtain ⟨digit, known, read⟩ := Option.bind_eq_some_iff.mp read
      rcases List.mem_cons.mp member with rfl | member
      · exact ⟨digit, known⟩
      · exact ih read member

theorem fromDigits_toDigits {radix : ℕ} (least : 1 < radix) (base : radix ≤ 16) (n : ℕ) :
    fromDigits radix 0 (Nat.toDigits radix n) = some n := by
  induction n using Nat.strong_induction_on with
  | _ n ih =>
      rw [Nat.toDigits_eq_if least]
      split
      · next small =>
          simp [fromDigits, digitValue_digitChar base small]
      · next large =>
          have positive : 0 < n := by omega
          have smaller : n / radix < n := Nat.div_lt_self positive least
          have last : n % radix < radix := Nat.mod_lt n (by omega)
          rw [fromDigits_append, ih _ smaller, Option.bind_some, fromDigits,
            digitValue_digitChar base last]
          simp only [fromDigits, Option.bind_some, Option.some.injEq]
          rw [Nat.mul_comm]
          exact Nat.div_add_mod n radix

/-- The digits of a number are digit characters. -/
theorem mem_toDigits {radix : ℕ} (least : 1 < radix) {n : ℕ} {c : Char}
    (member : c ∈ Nat.toDigits radix n) : ∃ digit < radix, c = digit.digitChar := by
  induction n using Nat.strong_induction_on with
  | _ n ih =>
      rw [Nat.toDigits_eq_if least] at member
      split at member
      · next small => exact ⟨n, small, List.mem_singleton.mp member⟩
      · next large =>
          have positive : 0 < n := by omega
          rcases List.mem_append.mp member with front | back
          · exact ih _ (Nat.div_lt_self positive least) front
          · exact ⟨n % radix, Nat.mod_lt n (by omega), List.mem_singleton.mp back⟩

/-- The digits of a number are read back, when it fits. -/
theorem fromStrRadix_toDigits {radix : ℕ} (limit : ℕ) (least : 1 < radix) (base : radix ≤ 16)
    (n : ℕ) : fromStrRadix radix limit (String.ofList (Nat.toDigits radix n)) =
      (some n).filter (· < limit) := by
  have unsigned : (match Nat.toDigits radix n with
      | '+' :: rest => rest
      | digits => digits) = Nat.toDigits radix n := by
    split
    · next rest shape =>
        obtain ⟨digit, small, same⟩ := mem_toDigits least
          (show '+' ∈ Nat.toDigits radix n by rw [shape]; exact List.mem_cons_self)
        exact absurd same.symm (digitChar_ne (lt_of_lt_of_le small base)).1
    · rfl
  simp only [fromStrRadix, String.toList_ofList, unsigned, fromDigits_toDigits least base]
  simp

theorem fromStrRadix_ofDigits {radix limit : ℕ} (least : 1 < radix) (base : radix ≤ 16) {n : ℕ}
    (fits : n < limit) :
    fromStrRadix radix limit (String.ofList (Nat.toDigits radix n)) = some n := by
  rw [fromStrRadix_toDigits limit least base]
  simp [Option.filter, fits]

/-- The text of a number holds none of the separators. -/
theorem without_ofDigits {radix : ℕ} (least : 1 < radix) (base : radix ≤ 16) (n : ℕ) {sep : Char}
    (separator : sep = '/' ∨ sep = ':' ∨ sep = ',') :
    Without sep (String.ofList (Nat.toDigits radix n)) := by
  intro member
  rw [String.toList_ofList] at member
  obtain ⟨digit, small, same⟩ := mem_toDigits least member
  obtain ⟨-, slash, colon, comma⟩ := digitChar_ne (lt_of_lt_of_le small base)
  rcases separator with rfl | rfl | rfl
  · exact slash same.symm
  · exact colon same.symm
  · exact comma same.symm

end Text
