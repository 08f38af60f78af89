import RosZ.Lib.Text

/-!
# JSON texts without white space

What a standard JSON writer may write for a value when it puts no white space between
tokens.  A writer may choose how it escapes the characters of a string; the grammar leaves
it that choice, and what is proved holds for every choice.

* `WritesChar`, `WritesString` and `Writes` say which texts stand for a character, a string
  literal and a value.
* `Writes.unambiguous` — no text stands for two values.
* `Writes.spaceless` — without spaces in the strings there are none in the text.
* `compact` is one such writer (`writes_compact`).

Numbers are those without sign, fraction and exponent.  Members of an object keep the order
in which they are written.
-/

namespace Json

/-- A JSON value. -/
inductive Value where
  | number (n : ℕ)
  | string (s : String)
  | array (elements : List Value)
  | object (members : List (String × Value))

/-! ## Strings -/

/-- What the short escapes stand for. -/
def shortEscape : Char → Option Char
  | '"' => some '"'
  | '\\' => some '\\'
  | '/' => some '/'
  | 'b' => some '\x08'
  | 'f' => some '\x0c'
  | 'n' => some '\n'
  | 'r' => some '\r'
  | 't' => some '\t'
  | _ => none

/-- How a character may be written inside a string literal. -/
inductive WritesChar : Char → List Char → Prop
  | itself {c : Char} (quote : c ≠ '"') (escape : c ≠ '\\') (printable : 0x20 ≤ c.toNat) :
      WritesChar c [c]
  | short {mark c : Char} (known : shortEscape mark = some c) : WritesChar c ['\\', mark]
  | unicode {c : Char} {digits : List Char} (four : digits.length = 4)
      (value : Text.fromDigits 16 0 digits = some c.toNat) :
      WritesChar c ('\\' :: 'u' :: digits)
  | surrogates {c : Char} {digits digits' : List Char} {high low : ℕ}
      (four : digits.length = 4) (four' : digits'.length = 4)
      (value : Text.fromDigits 16 0 digits = some high)
      (value' : Text.fromDigits 16 0 digits' = some low)
      (lead : 0xD800 ≤ high ∧ high < 0xDC00) (trail : 0xDC00 ≤ low ∧ low < 0xE000)
      (joined : c.toNat = 0x10000 + (high - 0xD800) * 0x400 + (low - 0xDC00)) :
      WritesChar c ('\\' :: 'u' :: (digits ++ '\\' :: 'u' :: digits'))

/-- The inside of a string literal. -/
inductive WritesChars : List Char → List Char → Prop
  | nil : WritesChars [] []
  | cons {c : Char} {cs text texts : List Char} (head : WritesChar c text)
      (tail : WritesChars cs texts) : WritesChars (c :: cs) (text ++ texts)

/-- A string literal. -/
def WritesString (s : String) (text : List Char) : Prop :=
  ∃ inside, WritesChars s.toList inside ∧ text = '"' :: (inside ++ ['"'])

/-- No character is a surrogate. -/
theorem not_surrogate (c : Char) : ¬ (0xD800 ≤ c.toNat ∧ c.toNat < 0xE000) := by
  have valid := c.valid
  unfold UInt32.isValidChar Nat.isValidChar at valid
  show ¬ (0xD800 ≤ c.val.toNat ∧ c.val.toNat < 0xE000)
  omega

theorem WritesChar.exists_cons {c : Char} {text : List Char} (writes : WritesChar c text) :
    ∃ first rest, text = first :: rest ∧ first ≠ '"' := by
  cases writes with
  | itself quote _ _ => exact ⟨c, [], rfl, quote⟩
  | short _ => exact ⟨_, _, rfl, by decide⟩
  | unicode _ _ => exact ⟨_, _, rfl, by decide⟩
  | surrogates _ _ _ _ _ _ _ => exact ⟨_, _, rfl, by decide⟩

/-- Four digits determine what they stand for, and where they end. -/
theorem digits_inj {digits digits' back back' : List Char} {n n' : ℕ} (four : digits.length = 4)
    (four' : digits'.length = 4) (value : Text.fromDigits 16 0 digits = some n)
    (value' : Text.fromDigits 16 0 digits' = some n') (same : digits ++ back = digits' ++ back') :
    n = n' ∧ back = back' := by
  obtain ⟨rfl, rest⟩ := List.append_inj same (four.trans four'.symm)
  exact ⟨Option.some.inj (value.symm.trans value'), rest⟩

theorem WritesChar.unambiguous {c c' : Char} {text text' back back' : List Char}
    (writes : WritesChar c text) (writes' : WritesChar c' text')
    (same : text ++ back = text' ++ back') : c = c' ∧ back = back' := by
  cases writes with
  | itself quote escape _ =>
      cases writes' with
      | itself _ _ _ => exact List.cons.inj same
      | short _ => exact absurd (List.cons.inj same).1 escape
      | unicode _ _ => exact absurd (List.cons.inj same).1 escape
      | surrogates _ _ _ _ _ _ _ => exact absurd (List.cons.inj same).1 escape
  | @short mark _ known =>
      cases writes' with
      | itself _ escape _ => exact absurd (List.cons.inj same).1.symm escape
      | short known' =>
          obtain ⟨rfl, rest⟩ := List.cons.inj (List.cons.inj same).2
          exact ⟨Option.some.inj (known.symm.trans known'), rest⟩
      | unicode _ _ =>
          rw [(List.cons.inj (List.cons.inj same).2).1] at known
          cases known
      | surrogates _ _ _ _ _ _ _ =>
          rw [(List.cons.inj (List.cons.inj same).2).1] at known
          cases known
  | @unicode _ digits four value =>
      cases writes' with
      | itself _ escape _ => exact absurd (List.cons.inj same).1.symm escape
      | short known =>
          rw [← (List.cons.inj (List.cons.inj same).2).1] at known
          cases known
      | unicode four' value' =>
          obtain ⟨number, rest⟩ := digits_inj four four' value value'
            (List.cons.inj (List.cons.inj same).2).2
          exact ⟨Char.toNat_inj.mp number, rest⟩
      | surrogates four' _ value' _ lead _ _ =>
          obtain ⟨number, -⟩ := digits_inj four four' value value' (by simpa using same)
          exact absurd ⟨by omega, by omega⟩ (not_surrogate c)
  | @surrogates _ digits lows _ _ four fourLow value valueLow lead _ joined =>
      cases writes' with
      | itself _ escape _ => exact absurd (List.cons.inj same).1.symm escape
      | short known =>
          rw [← (List.cons.inj (List.cons.inj same).2).1] at known
          cases known
      | unicode four' value' =>
          obtain ⟨number, -⟩ := digits_inj four four' value value' (by simpa using same)
          exact absurd ⟨by omega, by omega⟩ (not_surrogate c')
      | @surrogates _ digits' lows' _ _ four' fourLow' value' valueLow' _ _ joined' =>
          have units : digits ++ '\\' :: 'u' :: (lows ++ back) =
              digits' ++ '\\' :: 'u' :: (lows' ++ back') := by simpa using same
          obtain ⟨high, rest⟩ := digits_inj four four' value value' units
          obtain ⟨low, rest⟩ := digits_inj fourLow fourLow' valueLow valueLow'
            (List.cons.inj (List.cons.inj rest).2).2
          refine ⟨Char.toNat_inj.mp ?_, rest⟩
          rw [joined, joined', high, low]

theorem WritesChars.unambiguous {cs cs' text text' back back' : List Char}
    (writes : WritesChars cs text) (writes' : WritesChars cs' text')
    (same : text ++ '"' :: back = text' ++ '"' :: back') : cs = cs' ∧ back = back' := by
  induction writes generalizing cs' text' with
  | nil =>
      cases writes' with
      | nil => exact ⟨rfl, (List.cons.inj same).2⟩
      | cons head _ =>
          obtain ⟨first, rest, rfl, quote⟩ := head.exists_cons
          exact absurd (List.cons.inj same).1.symm quote
  | cons head tail ih =>
      cases writes' with
      | nil =>
          obtain ⟨first, rest, rfl, quote⟩ := head.exists_cons
          exact absurd (List.cons.inj same).1 quote
      | cons head' tail' =>
          rw [List.append_assoc, List.append_assoc] at same
          obtain ⟨rfl, rest⟩ := head.unambiguous head' same
          obtain ⟨rfl, rest⟩ := ih tail' rest
          exact ⟨rfl, rest⟩

theorem WritesString.unambiguous {s s' : String} {text text' back back' : List Char}
    (writes : WritesString s text) (writes' : WritesString s' text')
    (same : text ++ back = text' ++ back') : s = s' ∧ back = back' := by
  obtain ⟨inside, chars, rfl⟩ := writes
  obtain ⟨inside', chars', rfl⟩ := writes'
  have inner : inside ++ '"' :: back = inside' ++ '"' :: back' := by
    simpa using (List.cons.inj same).2
  obtain ⟨letters, rest⟩ := chars.unambiguous chars' inner
  exact ⟨String.toList_inj.mp letters, rest⟩

/-! ## Values -/

mutual

/-- The texts of a value. -/
def Writes : Value → List Char → Prop
  | .number n, text => text = Nat.toDigits 10 n
  | .string s, text => WritesString s text
  | .array elements, text =>
      ∃ inside, WritesElements elements inside ∧ text = '[' :: (inside ++ [']'])
  | .object members, text =>
      ∃ inside, WritesMembers members inside ∧ text = '{' :: (inside ++ ['}'])

/-- The elements of an array. -/
def WritesElements : List Value → List Char → Prop
  | [], text => text = []
  | v :: vs, text =>
      ∃ first others, Writes v first ∧ WritesMoreElements vs others ∧ text = first ++ others

/-- The elements behind the first one. -/
def WritesMoreElements : List Value → List Char → Prop
  | [], text => text = []
  | v :: vs, text =>
      ∃ first others, Writes v first ∧ WritesMoreElements vs others ∧
        text = ',' :: (first ++ others)

/-- The members of an object. -/
def WritesMembers : List (String × Value) → List Char → Prop
  | [], text => text = []
  | (key, v) :: members, text =>
      ∃ name value others, WritesString key name ∧ Writes v value ∧
        WritesMoreMembers members others ∧ text = name ++ ':' :: (value ++ others)

/-- The members behind the first one. -/
def WritesMoreMembers : List (String × Value) → List Char → Prop
  | [], text => text = []
  | (key, v) :: members, text =>
      ∃ name value others, WritesString key name ∧ Writes v value ∧
        WritesMoreMembers members others ∧ text = ',' :: (name ++ ':' :: (value ++ others))

end

/-! ### What a value begins with -/

/-- The four kinds of values. -/
inductive Kind where
  | number
  | string
  | array
  | object

def Value.kind : Value → Kind
  | .number _ => .number
  | .string _ => .string
  | .array _ => .array
  | .object _ => .object

/-- The kind of the value that a character begins. -/
def kindAt (c : Char) : Option Kind :=
  if c.isDigit then some .number
  else if c = '"' then some .string
  else if c = '[' then some .array
  else if c = '{' then some .object
  else none

theorem Writes.exists_cons {v : Value} {text : List Char} (writes : Writes v text) :
    ∃ first rest, text = first :: rest ∧ kindAt first = some v.kind := by
  cases v with
  | number n =>
      obtain rfl : text = Nat.toDigits 10 n := writes
      obtain ⟨first, rest, shape⟩ := List.exists_cons_of_ne_nil (@Nat.toDigits_ne_nil n 10)
      have digit : first.isDigit = true := by
        refine Nat.isDigit_of_mem_toDigits (by decide) le_rfl (?_ : first ∈ Nat.toDigits 10 n)
        rw [shape]
        exact List.mem_cons_self
      exact ⟨first, rest, shape, by rw [kindAt, if_pos digit, Value.kind]⟩
  | string s =>
      obtain ⟨inside, -, rfl⟩ := writes
      exact ⟨_, _, rfl, rfl⟩
  | array elements =>
      obtain ⟨inside, -, rfl⟩ := writes
      exact ⟨_, _, rfl, rfl⟩
  | object members =>
      obtain ⟨inside, -, rfl⟩ := writes
      exact ⟨_, _, rfl, rfl⟩

/-- A text does not begin with a mark that begins no value. -/
theorem Writes.ne_cons {v : Value} {text back back' : List Char} {mark : Char}
    (writes : Writes v text) (none : kindAt mark = none) : text ++ back ≠ mark :: back' := by
  obtain ⟨first, rest, rfl, kind⟩ := writes.exists_cons
  intro same
  rw [(List.cons.inj same).1, none] at kind
  cases kind

theorem Writes.kind_eq {v v' : Value} {text text' back back' : List Char}
    (writes : Writes v text) (writes' : Writes v' text')
    (same : text ++ back = text' ++ back') : v.kind = v'.kind := by
  obtain ⟨first, rest, rfl, kind⟩ := writes.exists_cons
  obtain ⟨first', rest', rfl, kind'⟩ := writes'.exists_cons
  rw [(List.cons.inj same).1, kind', Option.some.injEq] at kind
  exact kind.symm

/-! ### No text stands for two values -/

/-- What may stand behind a number. -/
def EndsNumber (back : List Char) : Prop := ∀ c ∈ back.head?, c.isDigit = false

theorem endsNumber_nil : EndsNumber [] := by
  intro c impossible
  cases impossible

theorem endsNumber_cons {c : Char} (mark : c.isDigit = false) (back : List Char) :
    EndsNumber (c :: back) := by
  intro first same
  rwa [← Option.some.inj same]

theorem takeWhile_toDigits (n : ℕ) {back : List Char} (ends : EndsNumber back) :
    (Nat.toDigits 10 n ++ back).takeWhile Char.isDigit = Nat.toDigits 10 n := by
  have nothing : back.takeWhile Char.isDigit = [] := by
    cases back with
    | nil => rfl
    | cons c rest => rw [List.takeWhile_cons, ends c rfl, if_neg Bool.false_ne_true]
  rw [List.takeWhile_append_of_pos, nothing, List.append_nil]
  exact fun c => Nat.isDigit_of_mem_toDigits (by decide) le_rfl

theorem toDigits_unambiguous {n n' : ℕ} {back back' : List Char} (ends : EndsNumber back)
    (ends' : EndsNumber back') (same : Nat.toDigits 10 n ++ back = Nat.toDigits 10 n' ++ back') :
    n = n' ∧ back = back' := by
  have digits : Nat.toDigits 10 n = Nat.toDigits 10 n' := by
    rw [← takeWhile_toDigits n ends, same, takeWhile_toDigits n' ends']
  have value : n = n' := by
    rw [← @Nat.ofDigitChars_ten_toDigits n, digits, Nat.ofDigitChars_ten_toDigits]
  rw [digits] at same
  exact ⟨value, List.append_cancel_left same⟩

/-- Behind a value stands a mark or the end. -/
theorem WritesMoreElements.endsNumber : ∀ {vs : List Value} {text : List Char},
    WritesMoreElements vs text → ∀ back, EndsNumber (text ++ ']' :: back)
  | [], _, rfl, back => endsNumber_cons rfl back
  | _ :: _, _, ⟨_, _, _, _, rfl⟩, _ => endsNumber_cons rfl _

theorem WritesMoreMembers.endsNumber : ∀ {ms : List (String × Value)} {text : List Char},
    WritesMoreMembers ms text → ∀ back, EndsNumber (text ++ '}' :: back)
  | [], _, rfl, back => endsNumber_cons rfl back
  | (_, _) :: _, _, ⟨_, _, _, _, _, _, rfl⟩, _ => endsNumber_cons rfl _

mutual

/-- **No text stands for two values**: with what stands behind it, it determines the value. -/
theorem Writes.unambiguous : ∀ (v v' : Value) {text text' back back' : List Char},
    Writes v text → Writes v' text' → EndsNumber back → EndsNumber back' →
    text ++ back = text' ++ back' → v = v' ∧ back = back'
  | .number n, v', text, text', back, back', writes, writes', ends, ends', same => by
      have kind := writes.kind_eq writes' same
      cases v' with
      | number n' =>
          obtain rfl : text = Nat.toDigits 10 n := writes
          obtain rfl : text' = Nat.toDigits 10 n' := writes'
          obtain ⟨rfl, rest⟩ := toDigits_unambiguous ends ends' same
          exact ⟨rfl, rest⟩
      | string _ | array _ | object _ => cases kind
  | .string s, v', text, text', back, back', writes, writes', _, _, same => by
      have kind := writes.kind_eq writes' same
      cases v' with
      | string s' =>
          obtain ⟨rfl, rest⟩ := WritesString.unambiguous (show WritesString s text from writes)
            (show WritesString s' text' from writes') same
          exact ⟨rfl, rest⟩
      | number _ | array _ | object _ => cases kind
  | .array vs, v', text, text', back, back', writes, writes', _, _, same => by
      have kind := writes.kind_eq writes' same
      cases v' with
      | array vs' =>
          obtain ⟨inside, elements, rfl⟩ := writes
          obtain ⟨inside', elements', rfl⟩ := writes'
          obtain ⟨rfl, rest⟩ := WritesElements.unambiguous vs vs' elements elements'
            (show inside ++ ']' :: back = inside' ++ ']' :: back' by simpa using same)
          exact ⟨rfl, rest⟩
      | number _ | string _ | object _ => cases kind
  | .object ms, v', text, text', back, back', writes, writes', _, _, same => by
      have kind := writes.kind_eq writes' same
      cases v' with
      | object ms' =>
          obtain ⟨inside, members, rfl⟩ := writes
          obtain ⟨inside', members', rfl⟩ := writes'
          obtain ⟨rfl, rest⟩ := WritesMembers.unambiguous ms ms' members members'
            (show inside ++ '}' :: back = inside' ++ '}' :: back' by simpa using same)
          exact ⟨rfl, rest⟩
      | number _ | string _ | array _ => cases kind

theorem WritesElements.unambiguous : ∀ (vs vs' : List Value) {text text' back back' : List Char},
    WritesElements vs text → WritesElements vs' text' →
    text ++ ']' :: back = text' ++ ']' :: back' → vs = vs' ∧ back = back'
  | [], [], _, _, _, _, rfl, rfl, same => ⟨rfl, (List.cons.inj same).2⟩
  | [], v' :: vs', _, _, back, back', rfl, ⟨first', others', head', _, rfl⟩, same => by
      rw [List.append_assoc] at same
      exact absurd same.symm (head'.ne_cons rfl)
  | v :: vs, [], _, _, back, back', ⟨first, others, head, _, rfl⟩, rfl, same => by
      rw [List.append_assoc] at same
      exact absurd same (head.ne_cons rfl)
  | v :: vs, v' :: vs', _, _, back, back', ⟨first, others, head, tail, rfl⟩,
      ⟨first', others', head', tail', rfl⟩, same => by
      rw [List.append_assoc, List.append_assoc] at same
      obtain ⟨rfl, rest⟩ := Writes.unambiguous v v' head head' (tail.endsNumber back)
        (tail'.endsNumber back') same
      obtain ⟨rfl, rest⟩ := WritesMoreElements.unambiguous vs vs' tail tail' rest
      exact ⟨rfl, rest⟩

theorem WritesMoreElements.unambiguous : ∀ (vs vs' : List Value)
    {text text' back back' : List Char}, WritesMoreElements vs text →
    WritesMoreElements vs' text' → text ++ ']' :: back = text' ++ ']' :: back' →
    vs = vs' ∧ back = back'
  | [], [], _, _, _, _, rfl, rfl, same => ⟨rfl, (List.cons.inj same).2⟩
  | [], v' :: vs', _, _, _, _, rfl, ⟨_, _, _, _, rfl⟩, same =>
      absurd (List.cons.inj same).1 (by decide)
  | v :: vs, [], _, _, _, _, ⟨_, _, _, _, rfl⟩, rfl, same =>
      absurd (List.cons.inj same).1 (by decide)
  | v :: vs, v' :: vs', _, _, back, back', ⟨first, others, head, tail, rfl⟩,
      ⟨first', others', head', tail', rfl⟩, same => by
      have same : first ++ (others ++ ']' :: back) = first' ++ (others' ++ ']' :: back') := by
        simpa using same
      obtain ⟨rfl, rest⟩ := Writes.unambiguous v v' head head' (tail.endsNumber back)
        (tail'.endsNumber back') same
      obtain ⟨rfl, rest⟩ := WritesMoreElements.unambiguous vs vs' tail tail' rest
      exact ⟨rfl, rest⟩

theorem WritesMembers.unambiguous : ∀ (ms ms' : List (String × Value))
    {text text' back back' : List Char}, WritesMembers ms text → WritesMembers ms' text' →
    text ++ '}' :: back = text' ++ '}' :: back' → ms = ms' ∧ back = back'
  | [], [], _, _, _, _, rfl, rfl, same => ⟨rfl, (List.cons.inj same).2⟩
  | [], (_, _) :: _, _, _, _, _, rfl, ⟨_, _, _, ⟨_, _, rfl⟩, _, _, rfl⟩, same =>
      absurd (List.cons.inj same).1 (by decide)
  | (_, _) :: _, [], _, _, _, _, ⟨_, _, _, ⟨_, _, rfl⟩, _, _, rfl⟩, rfl, same =>
      absurd (List.cons.inj same).1 (by decide)
  | (key, v) :: ms, (key', v') :: ms', _, _, back, back',
      ⟨name, value, others, named, head, tail, rfl⟩,
      ⟨name', value', others', named', head', tail', rfl⟩, same => by
      have same : name ++ ':' :: (value ++ (others ++ '}' :: back)) =
          name' ++ ':' :: (value' ++ (others' ++ '}' :: back')) := by simpa using same
      obtain ⟨rfl, rest⟩ := named.unambiguous named' same
      obtain ⟨rfl, rest⟩ := Writes.unambiguous v v' head head' (tail.endsNumber back)
        (tail'.endsNumber back') (List.cons.inj rest).2
      obtain ⟨rfl, rest⟩ := WritesMoreMembers.unambiguous ms ms' tail tail' rest
      exact ⟨rfl, rest⟩

theorem WritesMoreMembers.unambiguous : ∀ (ms ms' : List (String × Value))
    {text text' back back' : List Char}, WritesMoreMembers ms text →
    WritesMoreMembers ms' text' → text ++ '}' :: back = text' ++ '}' :: back' →
    ms = ms' ∧ back = back'
  | [], [], _, _, _, _, rfl, rfl, same => ⟨rfl, (List.cons.inj same).2⟩
  | [], (_, _) :: _, _, _, _, _, rfl, ⟨_, _, _, _, _, _, rfl⟩, same =>
      absurd (List.cons.inj same).1 (by decide)
  | (_, _) :: _, [], _, _, _, _, ⟨_, _, _, _, _, _, rfl⟩, rfl, same =>
      absurd (List.cons.inj same).1 (by decide)
  | (key, v) :: ms, (key', v') :: ms', _, _, back, back',
      ⟨name, value, others, named, head, tail, rfl⟩,
      ⟨name', value', others', named', head', tail', rfl⟩, same => by
      have same : name ++ ':' :: (value ++ (others ++ '}' :: back)) =
          name' ++ ':' :: (value' ++ (others' ++ '}' :: back')) := by simpa using same
      obtain ⟨rfl, rest⟩ := named.unambiguous named' same
      obtain ⟨rfl, rest⟩ := Writes.unambiguous v v' head head' (tail.endsNumber back)
        (tail'.endsNumber back') (List.cons.inj rest).2
      obtain ⟨rfl, rest⟩ := WritesMoreMembers.unambiguous ms ms' tail tail' rest
      exact ⟨rfl, rest⟩

end

/-! ## Spaces -/

mutual

/-- No string of the value, and no key, has a space in it. -/
def Value.Spaceless : Value → Prop
  | .number _ => True
  | .string s => Text.Without ' ' s
  | .array vs => AllSpaceless vs
  | .object ms => MembersSpaceless ms

def AllSpaceless : List Value → Prop
  | [] => True
  | v :: vs => v.Spaceless ∧ AllSpaceless vs

def MembersSpaceless : List (String × Value) → Prop
  | [] => True
  | (key, v) :: ms => Text.Without ' ' key ∧ v.Spaceless ∧ MembersSpaceless ms

end

theorem WritesChar.spaceless {c : Char} {text : List Char} (writes : WritesChar c text)
    (other : c ≠ ' ') : ' ' ∉ text := by
  have digits {digits : List Char} {n : ℕ} (value : Text.fromDigits 16 0 digits = some n) :
      ' ' ∉ digits := by
    intro member
    obtain ⟨digit, space⟩ := Text.exists_digitValue value member
    cases space
  cases writes with
  | itself _ _ _ => exact fun member => other (List.mem_singleton.mp member).symm
  | short known =>
      intro member
      rcases List.mem_pair.mp member with escape | rfl
      · cases escape
      · cases known
  | unicode _ value => simpa using digits value
  | surrogates _ _ value value' _ _ _ => simpa using ⟨digits value, digits value'⟩

theorem WritesString.spaceless {s : String} {text : List Char} (writes : WritesString s text)
    (without : Text.Without ' ' s) : ' ' ∉ text := by
  obtain ⟨inside, chars, rfl⟩ := writes
  have each : ' ' ∉ inside := by
    unfold Text.Without at without
    generalize s.toList = cs at chars without
    induction chars with
    | nil => exact List.not_mem_nil
    | cons head _ ih =>
        rw [List.mem_cons, not_or] at without
        rw [List.mem_append, not_or]
        exact ⟨head.spaceless (Ne.symm without.1), ih without.2⟩
  simpa using each

mutual

/-- Without spaces in the strings there are none in the text. -/
theorem Writes.spaceless : ∀ (v : Value) {text : List Char}, Writes v text → v.Spaceless →
    ' ' ∉ text
  | .number n, _, rfl, _ => fun member =>
      absurd (Nat.isDigit_of_mem_toDigits (by decide) le_rfl member) (by decide)
  | .string s, _, writes, without =>
      WritesString.spaceless (show WritesString s _ from writes) without
  | .array vs, _, ⟨inside, elements, rfl⟩, without => by
      simpa using WritesElements.spaceless vs elements without
  | .object ms, _, ⟨inside, members, rfl⟩, without => by
      simpa using WritesMembers.spaceless ms members without

theorem WritesElements.spaceless : ∀ (vs : List Value) {text : List Char},
    WritesElements vs text → AllSpaceless vs → ' ' ∉ text
  | [], _, rfl, _ => List.not_mem_nil
  | v :: vs, _, ⟨_, _, head, tail, rfl⟩, ⟨first, others⟩ => by
      simpa using ⟨Writes.spaceless v head first, WritesMoreElements.spaceless vs tail others⟩

theorem WritesMoreElements.spaceless : ∀ (vs : List Value) {text : List Char},
    WritesMoreElements vs text → AllSpaceless vs → ' ' ∉ text
  | [], _, rfl, _ => List.not_mem_nil
  | v :: vs, _, ⟨_, _, head, tail, rfl⟩, ⟨first, others⟩ => by
      simpa using ⟨Writes.spaceless v head first, WritesMoreElements.spaceless vs tail others⟩

theorem WritesMembers.spaceless : ∀ (ms : List (String × Value)) {text : List Char},
    WritesMembers ms text → MembersSpaceless ms → ' ' ∉ text
  | [], _, rfl, _ => List.not_mem_nil
  | (_, v) :: ms, _, ⟨_, _, _, named, head, tail, rfl⟩, ⟨key, first, others⟩ => by
      simpa using ⟨named.spaceless key, Writes.spaceless v head first,
        WritesMoreMembers.spaceless ms tail others⟩

theorem WritesMoreMembers.spaceless : ∀ (ms : List (String × Value)) {text : List Char},
    WritesMoreMembers ms text → MembersSpaceless ms → ' ' ∉ text
  | [], _, rfl, _ => List.not_mem_nil
  | (_, v) :: ms, _, ⟨_, _, _, named, head, tail, rfl⟩, ⟨key, first, others⟩ => by
      simpa using ⟨named.spaceless key, Writes.spaceless v head first,
        WritesMoreMembers.spaceless ms tail others⟩

end

/-! ## A writer -/

/-- A character as it is mostly written: with the short escapes, and with hexadecimal ones for
the other control characters. -/
def compactChar (c : Char) : List Char :=
  match c with
  | '"' => ['\\', '"']
  | '\\' => ['\\', '\\']
  | '\x08' => ['\\', 'b']
  | '\x0c' => ['\\', 'f']
  | '\n' => ['\\', 'n']
  | '\r' => ['\\', 'r']
  | '\t' => ['\\', 't']
  | c =>
    if c.toNat < 0x20 then
      ['\\', 'u', '0', '0', (c.toNat / 16).digitChar, (c.toNat % 16).digitChar]
    else [c]

def compactString (s : String) : List Char := '"' :: (s.toList.flatMap compactChar ++ ['"'])

mutual

/-- A value without white space between tokens. -/
def compact : Value → List Char
  | .number n => Nat.toDigits 10 n
  | .string s => compactString s
  | .array vs => '[' :: (compactElements vs ++ [']'])
  | .object ms => '{' :: (compactMembers ms ++ ['}'])

def compactElements : List Value → List Char
  | [] => []
  | v :: vs => compact v ++ compactMoreElements vs

def compactMoreElements : List Value → List Char
  | [] => []
  | v :: vs => ',' :: (compact v ++ compactMoreElements vs)

def compactMembers : List (String × Value) → List Char
  | [] => []
  | (key, v) :: ms => compactString key ++ ':' :: (compact v ++ compactMoreMembers ms)

def compactMoreMembers : List (String × Value) → List Char
  | [] => []
  | (key, v) :: ms => ',' :: (compactString key ++ ':' :: (compact v ++ compactMoreMembers ms))

end

theorem writesChar_compactChar (c : Char) : WritesChar c (compactChar c) := by
  unfold compactChar
  split
  case h_8 quote escape _ _ _ _ _ =>
    split
    · next control =>
        refine .unicode rfl ?_
        have high : c.toNat / 16 < 16 := by omega
        have low : c.toNat % 16 < 16 := by omega
        have zero : Text.digitValue 16 '0' = some 0 := rfl
        simp only [Text.fromDigits, zero, Text.digitValue_digitChar le_rfl high,
          Text.digitValue_digitChar le_rfl low, Option.bind_some, Option.some.injEq]
        omega
    · next printable => exact .itself quote escape (by omega)
  all_goals exact .short rfl

theorem writesString_compactString (s : String) : WritesString s (compactString s) := by
  refine ⟨_, ?_, rfl⟩
  induction s.toList with
  | nil => exact .nil
  | cons c cs ih => exact .cons (writesChar_compactChar c) ih

mutual

theorem writes_compact : ∀ v : Value, Writes v (compact v)
  | .number _ => rfl
  | .string s => writesString_compactString s
  | .array vs => ⟨_, writes_compactElements vs, rfl⟩
  | .object ms => ⟨_, writes_compactMembers ms, rfl⟩

theorem writes_compactElements : ∀ vs : List Value, WritesElements vs (compactElements vs)
  | [] => rfl
  | v :: vs => ⟨_, _, writes_compact v, writes_compactMoreElements vs, rfl⟩

theorem writes_compactMoreElements : ∀ vs : List Value,
    WritesMoreElements vs (compactMoreElements vs)
  | [] => rfl
  | v :: vs => ⟨_, _, writes_compact v, writes_compactMoreElements vs, rfl⟩

theorem writes_compactMembers : ∀ ms : List (String × Value),
    WritesMembers ms (compactMembers ms)
  | [] => rfl
  | (key, v) :: ms =>
      ⟨_, _, _, writesString_compactString key, writes_compact v, writes_compactMoreMembers ms,
        rfl⟩

theorem writes_compactMoreMembers : ∀ ms : List (String × Value),
    WritesMoreMembers ms (compactMoreMembers ms)
  | [] => rfl
  | (key, v) :: ms =>
      ⟨_, _, _, writesString_compactString key, writes_compact v, writes_compactMoreMembers ms,
        rfl⟩

end

end Json
