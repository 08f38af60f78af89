import RosZ.Protocol.Entity
import RosZ.Schema.Hash

/-!
# RIHS strings

The two parsers of `RIHS01_` strings: that of the protocol (`entity.rs`), which reads the
octets of the digits two at a time, and that of `ros-z-schema` (`lib.rs`), which hands them
to the `hex` crate.

Two hexadecimal digits are read alike by both (`ReadsAlike`).  The protocol's parser accepts
more: `u8::from_str_radix` allows a plus sign in front of a digit, and a pair of octets that
is no text counts as `00`.  `parsedExactly_iff` says that these pairs are all that separates
the parser from the format.

## Design notes

`hex::decode` is a parameter.  `LawfulHex` says what it is documented to do: it accepts pairs
of hexadecimal digits of either case and returns the octets they stand for.
-/

namespace RosZ

open Text Cdr Protocol

/-! ## Hexadecimal digits -/

def IsHexDigit (c : Char) : Prop := (digitValue 16 c).isSome = true

instance (c : Char) : Decidable (IsHexDigit c) := inferInstanceAs (Decidable (_ = _))

/-- The octets that pairs of hexadecimal digits stand for. -/
def readHex : List Char → Option (List UInt8)
  | [] => some []
  | [_] => none
  | c :: d :: rest => do
      let high ← digitValue 16 c
      let low ← digitValue 16 d
      let octets ← readHex rest
      return UInt8.ofNat (16 * high + low) :: octets

/-- What `hex::decode` is taken for. -/
def LawfulHex (hexDecode : String → Except String (List UInt8)) : Prop :=
  ∀ s octets, hexDecode s = .ok octets ↔ readHex s.toList = some octets

namespace Schema

/-- RIHS01 type hash (32 bytes). -/
structure TypeHash where
  value : Vector UInt8 32
deriving DecidableEq

/-- Parse RIHS01 string format to type hash. -/
def TypeHash.fromRihsString (hexDecode : String → Except String (List UInt8)) (s : String) :
    Except String TypeHash :=
  match Protocol.TypeHash.stripPrefix s with
  | none => .error "Invalid RIHS01 format: must start with 'RIHS01_'"
  | some hexPart =>
      match hexDecode hexPart with
      | .error e => .error s!"Invalid hex encoding: {e}"
      | .ok octets =>
          if sized : octets.toArray.size = 32 then .ok ⟨⟨octets.toArray, sized⟩⟩
          else .error s!"Hash must be 32 bytes, got {octets.length}"

end Schema

/-! ## What a hexadecimal digit is -/

theorem IsHexDigit.lt {c : Char} (hex : IsHexDigit c) : c.toNat < 128 := by
  obtain ⟨digit, value⟩ := Option.isSome_iff_exists.mp hex
  obtain ⟨value, -⟩ := Option.filter_eq_some_iff.mp value
  have below : ∀ {high : UInt32}, c.val ≤ high → high.toNat < 128 → c.toNat < 128 :=
    fun upper ascii => (UInt32.le_iff_toNat_le.mp upper).trans_lt ascii
  -- the digits, the small letters and the capitals are each a range of the code
  split at value
  · next digit =>
    exact below (of_decide_eq_true (Bool.and_eq_true_iff.mp digit).2) (by decide)
  · split at value
    · next lower =>
      exact below (of_decide_eq_true (Bool.and_eq_true_iff.mp lower).2) (by decide)
    · split at value
      · next upper =>
        have both : c.val ≥ 'A'.val ∧ c.val ≤ 'Z'.val := of_decide_eq_true upper
        exact below both.2 (by decide)
      · cases value

/-- A digit is printed back in lower case, and is no sign. -/
theorem IsHexDigit.exists_value {c : Char} (hex : IsHexDigit c) :
    ∃ digit < 16, digitValue 16 c = some digit ∧ digit.digitChar = c.toLower ∧ c ≠ '+' := by
  have ascii : ∀ n < 128, IsHexDigit (Char.ofNat n) → ∃ digit < 16,
      digitValue 16 (Char.ofNat n) = some digit ∧ digit.digitChar = (Char.ofNat n).toLower ∧
        Char.ofNat n ≠ '+' := by
    decide
  have known := ascii c.toNat hex.lt
  rw [Char.ofNat_toNat] at known
  exact known hex

/-! ## Pairs of octets -/

theorem utf8Bytes_cons (c : Char) (rest : List Char) :
    utf8Bytes (String.ofList (c :: rest)) =
      String.utf8EncodeChar c ++ utf8Bytes (String.ofList rest) := by
  rw [utf8Bytes, utf8Bytes, String.toByteArray_ofList, String.toByteArray_ofList,
    List.utf8Encode_cons, List.utf8Encode_singleton]
  simp

/-- Where two octets are a text, it has one character or two ASCII characters. -/
theorem text_of_pair {t : String} (two : (utf8Bytes t).length = 2) :
    (∃ c d, c.toNat < 128 ∧ d.toNat < 128 ∧ t = String.ofList [c, d]) ∨
      ∃ c, 128 ≤ c.toNat ∧ t = String.ofList [c] := by
  have size : ∀ c : Char, 1 ≤ c.utf8Size := Char.utf8Size_pos
  have ascii : ∀ c : Char, c.utf8Size = 1 → c.toNat < 128 := by
    intro c single
    have le : c.val.toNat ≤ 127 := Char.utf8Size_eq_one_iff.mp single
    exact Nat.lt_succ_of_le le
  have wide : ∀ c : Char, c.utf8Size = 2 → 128 ≤ c.toNat := fun c double =>
    (Char.utf8Size_eq_two_iff.mp double).1
  obtain ⟨chars, rfl⟩ : ∃ chars, t = String.ofList chars := ⟨t.toList, String.ofList_toList.symm⟩
  match chars with
  | [] => cases two
  | [c] =>
      rw [utf8Bytes_cons, List.length_append, String.length_utf8EncodeChar] at two
      exact .inr ⟨c, wide c two, rfl⟩
  | [c, d] =>
      rw [utf8Bytes_cons, utf8Bytes_cons, List.length_append, List.length_append,
        String.length_utf8EncodeChar, String.length_utf8EncodeChar] at two
      have both : c.utf8Size + d.utf8Size = 2 := two
      have first := size c
      have second := size d
      exact .inl ⟨c, d, ascii c (by omega), ascii d (by omega), rfl⟩
  | c :: d :: e :: rest =>
      rw [utf8Bytes_cons, utf8Bytes_cons, utf8Bytes_cons, List.length_append, List.length_append,
        List.length_append, String.length_utf8EncodeChar, String.length_utf8EncodeChar,
        String.length_utf8EncodeChar] at two
      have first := size c
      have second := size d
      have third := size e
      omega

/-- Two hexadecimal digits. -/
def ExactPair (pair : List UInt8) : Prop :=
  ∃ c d, IsHexDigit c ∧ IsHexDigit d ∧ pair = utf8Bytes (String.ofList [c, d])

/-- A plus sign and a hexadecimal digit, or no text: read as an octet all the same. -/
def LoosePair (pair : List UInt8) : Prop :=
  (∃ d, IsHexDigit d ∧ pair = utf8Bytes (String.ofList ['+', d])) ∨ ∀ t, pair ≠ utf8Bytes t

theorem fromStrRadix_pair {c d : Char} {hc hd : ℕ} (hex : IsHexDigit c) (hex' : IsHexDigit d)
    (high : digitValue 16 c = some hc) (low : digitValue 16 d = some hd) :
    fromStrRadix 16 (2 ^ 8) (String.ofList [c, d]) = some (16 * hc + hd) := by
  obtain ⟨digit, small, known, -, sign⟩ := hex.exists_value
  obtain ⟨digit', small', known', -, -⟩ := hex'.exists_value
  obtain rfl : digit = hc := Option.some.inj (known.symm.trans high)
  obtain rfl : digit' = hd := Option.some.inj (known'.symm.trans low)
  rw [fromStrRadix, String.toList_ofList]
  split
  · next rest shape => exact absurd (List.cons.inj shape).1 sign
  · have bound : 16 * digit + digit' < 2 ^ 8 := by omega
    have read : fromDigits 16 0 [c, d] = some (16 * digit + digit') := by
      simp [fromDigits, high, low, Nat.mul_comm digit]
    rw [if_neg (by simp), read, Option.filter_some, if_pos (by simpa using bound)]

/-- The parser reads a pair of hexadecimal digits as the octet they stand for. -/
theorem parseChunk_pair {c d : Char} {hc hd : ℕ} (hex : IsHexDigit c) (hex' : IsHexDigit d)
    (high : digitValue 16 c = some hc) (low : digitValue 16 d = some hd) :
    TypeHash.parseChunk (utf8Bytes (String.ofList [c, d])) = some (UInt8.ofNat (16 * hc + hd)) := by
  rw [TypeHash.parseChunk, fromUTF8_utf8Bytes, Option.getD_some,
    fromStrRadix_pair hex hex' high low, Option.map_some]

/-- What is read as a number is made of digits, behind a sign. -/
theorem isHexDigit_of_read {chars : List Char} {n : ℕ}
    (read : fromStrRadix 16 (2 ^ 8) (String.ofList chars) = some n) :
    (∃ digits, chars = '+' :: digits ∧ ∀ c ∈ digits, IsHexDigit c) ∨
      ∀ c ∈ chars, IsHexDigit c := by
  have each : ∀ {digits : List Char},
      (if digits.isEmpty then none else (fromDigits 16 0 digits).filter (· < 2 ^ 8)) = some n →
        ∀ c ∈ digits, IsHexDigit c := by
    intro digits read c member
    split at read
    · cases read
    · exact Option.isSome_iff_exists.mpr
        (exists_digitValue (Option.filter_eq_some_iff.mp read).1 member)
  rw [fromStrRadix, String.toList_ofList] at read
  split at read
  · exact .inl ⟨_, rfl, each read⟩
  · exact .inr (each read)

/-- What the parser accepts for two octets. -/
theorem isSome_parseChunk_iff {pair : List UInt8} (two : pair.length = 2) :
    (TypeHash.parseChunk pair).isSome = true ↔ ExactPair pair ∨ LoosePair pair := by
  by_cases broken : ∀ t, pair ≠ utf8Bytes t
  · have unread : String.fromUTF8? ⟨pair.toArray⟩ = none := by
      refine Option.eq_none_iff_forall_ne_some.mpr fun t text => broken t ?_
      unfold String.fromUTF8? at text
      split at text
      · cases text
        rfl
      · cases text
    rw [TypeHash.parseChunk, unread]
    exact iff_of_true rfl (.inr (.inr broken))
  · push Not at broken
    obtain ⟨t, rfl⟩ := broken
    constructor
    · intro accepted
      obtain ⟨octet, accepted⟩ := Option.isSome_iff_exists.mp accepted
      rw [TypeHash.parseChunk, fromUTF8_utf8Bytes, Option.getD_some] at accepted
      obtain ⟨n, read, -⟩ := Option.map_eq_some_iff.mp accepted
      rcases text_of_pair two with ⟨c, d, -, -, rfl⟩ | ⟨c, wide, rfl⟩
      · rcases isHexDigit_of_read read with ⟨digits, shape, hex⟩ | hex
        · obtain ⟨rfl, rfl⟩ := List.cons.inj shape
          exact .inr (.inl ⟨d, hex d List.mem_cons_self, rfl⟩)
        · exact .inl ⟨c, d, hex c (by simp), hex d (by simp), rfl⟩
      · rcases isHexDigit_of_read read with ⟨digits, shape, -⟩ | hex
        · rw [(List.cons.inj shape).1] at wide
          exact absurd wide (by decide)
        · exact absurd (hex c List.mem_cons_self).lt (by omega)
    · rintro (⟨c, d, hex, hex', same⟩ | ⟨d, hex, same⟩ | none)
      · obtain ⟨hc, high⟩ := Option.isSome_iff_exists.mp hex
        obtain ⟨hd, low⟩ := Option.isSome_iff_exists.mp hex'
        rw [same, parseChunk_pair hex hex' high low]
        rfl
      · obtain ⟨digit, small, value, -, -⟩ := hex.exists_value
        have bound : digit < 256 := by omega
        rw [same, TypeHash.parseChunk, fromUTF8_utf8Bytes, Option.getD_some, Option.isSome_map]
        simp [fromStrRadix, fromDigits, value, Option.filter, bound]
      · exact absurd rfl (none t)

/-! ## All pairs -/

theorem isSome_parseChunks_iff {chunks : List (List UInt8)} :
    (TypeHash.parseChunks chunks).isSome = true ↔
      ∀ chunk ∈ chunks, (TypeHash.parseChunk chunk).isSome = true := by
  induction chunks with
  | nil => simp [TypeHash.parseChunks]
  | cons chunk rest ih =>
      rw [TypeHash.parseChunks, List.forall_mem_cons, ← ih]
      cases TypeHash.parseChunk chunk with
      | none => simp
      | some octet => simp

theorem length_parseChunks {chunks : List (List UInt8)} {octets : List UInt8}
    (read : TypeHash.parseChunks chunks = some octets) : octets.length = chunks.length := by
  induction chunks generalizing octets with
  | nil =>
      cases read
      rfl
  | cons chunk rest ih =>
      obtain ⟨octet, -, read⟩ := Option.bind_eq_some_iff.mp read
      obtain ⟨others, rest, rfl⟩ := Option.map_eq_some_iff.mp read
      rw [List.length_cons, List.length_cons, ih rest]

/-- An even number of things starts with a pair. -/
theorem exists_pair_of_length {α : Type} {n : ℕ} {l : List α} (even : l.length = 2 * (n + 1)) :
    ∃ a b rest, l = a :: b :: rest ∧ rest.length = 2 * n := by
  match l with
  | [] => cases even
  | [_] =>
      have odd : 1 = 2 * (n + 1) := even
      omega
  | a :: b :: rest =>
      refine ⟨a, b, rest, rfl, ?_⟩
      simp only [List.length_cons] at even
      omega

/-- An even number of octets falls into pairs. -/
theorem length_chunks2 {n : ℕ} {octets : List UInt8} (even : octets.length = 2 * n) :
    (chunks2 octets).length = n ∧ ∀ pair ∈ chunks2 octets, pair.length = 2 := by
  induction n generalizing octets with
  | zero =>
      rw [List.length_eq_zero_iff.mp even]
      exact ⟨rfl, nofun⟩
  | succ n ih =>
      obtain ⟨a, b, rest, rfl, fewer⟩ := exists_pair_of_length even
      obtain ⟨count, pairs⟩ := ih fewer
      rw [chunks2, List.length_cons, count, List.forall_mem_cons]
      exact ⟨rfl, rfl, pairs⟩

/-- An even number of hexadecimal digits. -/
structure HexDigits (count : ℕ) (digits : List Char) : Prop where
  length : digits.length = 2 * count
  hex : ∀ c ∈ digits, IsHexDigit c

/-- A digit takes one octet. -/
theorem IsHexDigit.exists_octet {c : Char} (hex : IsHexDigit c) :
    ∃ octet, String.utf8EncodeChar c = [octet] := by
  have small : c.val ≤ 127 := Nat.le_of_lt_succ hex.lt
  apply List.length_eq_one_iff.mp
  rw [String.length_utf8EncodeChar, Char.utf8Size_eq_one_iff.mpr small]

/-- Two digits are the first pair of octets. -/
theorem exists_pair {c d : Char} (hex : IsHexDigit c) (hex' : IsHexDigit d) (rest : List Char) :
    ∃ a b, utf8Bytes (String.ofList [c, d]) = [a, b] ∧
      utf8Bytes (String.ofList (c :: d :: rest)) = a :: b :: utf8Bytes (String.ofList rest) := by
  obtain ⟨a, first⟩ := hex.exists_octet
  obtain ⟨b, second⟩ := hex'.exists_octet
  refine ⟨a, b, ?_, ?_⟩
  · rw [utf8Bytes_cons, utf8Bytes_cons, first, second]
    rfl
  · rw [utf8Bytes_cons, utf8Bytes_cons, first, second]
    rfl

theorem hexByte_ofNat {high low : ℕ} (smallHigh : high < 16) (smallLow : low < 16) :
    hexByte (UInt8.ofNat (16 * high + low)) = String.ofList [high.digitChar, low.digitChar] := by
  have value : (UInt8.ofNat (16 * high + low)).toNat = 16 * high + low :=
    UInt8.toNat_ofNat_of_lt' (show 16 * high + low < 256 by omega)
  rw [hexByte, value, show (16 * high + low) / 16 = high by omega,
    show (16 * high + low) % 16 = low by omega]

/-- On hexadecimal digits the octets are read pair by pair as `hex` reads them, and are printed
as the digits in lower case. -/
theorem HexDigits.read {count : ℕ} {digits : List Char} (hex : HexDigits count digits) :
    (utf8Bytes (String.ofList digits)).length = 2 * count ∧
    (∀ pair ∈ chunks2 (utf8Bytes (String.ofList digits)), ExactPair pair) ∧
    ∃ octets, octets.length = count ∧ readHex digits = some octets ∧
      TypeHash.parseChunks (chunks2 (utf8Bytes (String.ofList digits))) = some octets ∧
      TypeHash.hexString octets = String.ofList (digits.map Char.toLower) := by
  obtain ⟨length, hex⟩ := hex
  induction count generalizing digits with
  | zero =>
      rw [List.length_eq_zero_iff.mp length]
      exact ⟨rfl, nofun, [], rfl, rfl, rfl, rfl⟩
  | succ count ih =>
      obtain ⟨c, d, rest, rfl, fewer⟩ := exists_pair_of_length length
      rw [List.forall_mem_cons, List.forall_mem_cons] at hex
      obtain ⟨hexC, hexD, hex⟩ := hex
      obtain ⟨size, pairs, octets, number, read, parsed, printed⟩ := ih fewer hex
      obtain ⟨high, smallHigh, valueHigh, lowerHigh, -⟩ := hexC.exists_value
      obtain ⟨low, smallLow, valueLow, lowerLow, -⟩ := hexD.exists_value
      obtain ⟨a, b, pair, shape⟩ := exists_pair hexC hexD rest
      have first := parseChunk_pair hexC hexD valueHigh valueLow
      rw [pair] at first
      rw [shape, chunks2]
      refine ⟨?_, ?_, UInt8.ofNat (16 * high + low) :: octets, ?_, ?_, ?_, ?_⟩
      · rw [List.length_cons, List.length_cons, size]
        omega
      · rw [List.forall_mem_cons]
        exact ⟨⟨c, d, hexC, hexD, pair.symm⟩, pairs⟩
      · rw [List.length_cons, number]
      · simp [readHex, valueHigh, valueLow, read]
      · rw [TypeHash.parseChunks, first, Option.bind_some, parsed]
        rfl
      · rw [TypeHash.hexString, List.map_cons, String.join_cons,
          hexByte_ofNat smallHigh smallLow,
          lowerHigh, lowerLow, ← TypeHash.hexString, printed, ← String.ofList_append]
        rfl

/-- Octets that fall into pairs of hexadecimal digits are those of hexadecimal digits. -/
theorem exists_hexDigits {count : ℕ} {octets : List UInt8} (even : octets.length = 2 * count)
    (pairs : ∀ pair ∈ chunks2 octets, ExactPair pair) :
    ∃ digits, HexDigits count digits ∧ octets = utf8Bytes (String.ofList digits) := by
  induction count generalizing octets with
  | zero =>
      refine ⟨[], ⟨rfl, nofun⟩, ?_⟩
      rw [List.length_eq_zero_iff.mp even]
      rfl
  | succ count ih =>
      obtain ⟨a, b, rest, rfl, fewer⟩ := exists_pair_of_length even
      rw [chunks2, List.forall_mem_cons] at pairs
      obtain ⟨⟨c, d, hexC, hexD, pair⟩, pairs⟩ := pairs
      obtain ⟨digits, hex, rfl⟩ := ih fewer pairs
      obtain ⟨a', b', pair', shape⟩ := exists_pair hexC hexD digits
      obtain ⟨rfl, rfl⟩ : a = a' ∧ b = b' := by simpa using pair.trans pair'
      refine ⟨c :: d :: digits, ⟨?_, ?_⟩, shape.symm⟩
      · rw [List.length_cons, List.length_cons, hex.length]
        omega
      · rw [List.forall_mem_cons, List.forall_mem_cons]
        exact ⟨hexC, hexD, hex.hex⟩

/-! ## Whole strings -/

theorem stripPrefix_eq_some_iff {s hex : String} :
    TypeHash.stripPrefix s = some hex ↔ s = "RIHS01_" ++ hex := by
  constructor
  · intro stripped
    exact Names.append_of_stripStart (show Names.stripStart "RIHS01_" s = some hex from stripped)
  · rintro rfl
    exact stripPrefix_append hex

/-- The placeholder of ROS 2 Humble has another beginning. -/
theorem stripPrefix_placeholder : TypeHash.stripPrefix "TypeHashNotSupported" = none := by
  decide

/-- `RIHS01_` and 64 hexadecimal digits. -/
def WellFormed (s : String) : Prop :=
  ∃ digits, HexDigits 32 digits ∧ s = "RIHS01_" ++ String.ofList digits

/-- `RIHS01_` and 64 octets that fall into pairs which are all read as numbers, not all of them
two hexadecimal digits. -/
def Loose (s : String) : Prop :=
  ∃ rest, s = "RIHS01_" ++ rest ∧ (utf8Bytes rest).length = 64 ∧
    (∀ pair ∈ chunks2 (utf8Bytes rest), ExactPair pair ∨ LoosePair pair) ∧
    ∃ pair ∈ chunks2 (utf8Bytes rest), LoosePair pair

/-- The strings of the format are parsed, and no others; what was parsed is printed with its
digits in lower case; the parser of the schema crate agrees. -/
structure ParsedExactly (hexDecode : String → Except String (List UInt8)) (s : String) :
    Prop where
  accepted : (TypeHash.fromRihsString s).isSome = true ↔
    s = "TypeHashNotSupported" ∨ WellFormed s
  printed : ∀ digits, HexDigits 32 digits → s = "RIHS01_" ++ String.ofList digits →
    ∃ h, TypeHash.fromRihsString s = some h ∧
      h.toRihsString false = "RIHS01_" ++ String.ofList (digits.map Char.toLower)
  agrees : s ≠ "TypeHashNotSupported" →
    (TypeHash.fromRihsString s).map (·.value) =
      (Schema.TypeHash.fromRihsString hexDecode s).toOption.map (·.value)

/-- What the protocol's parser does behind the prefix. -/
theorem fromRihsString_append (rest : String) :
    TypeHash.fromRihsString ("RIHS01_" ++ rest) =
      if (utf8Bytes rest).length = 64 then
        (TypeHash.parseChunks (chunks2 (utf8Bytes rest))).bind fun value =>
          if sized : value.toArray.size = 32 then
            some { version := 1, value := ⟨value.toArray, sized⟩ }
          else none
      else none := by
  have other : "RIHS01_" ++ rest ≠ "TypeHashNotSupported" := by
    intro same
    have stripped := stripPrefix_append rest
    rw [same, stripPrefix_placeholder] at stripped
    cases stripped
  rw [TypeHash.fromRihsString, if_neg other, stripPrefix_append]
  rfl

theorem isSome_fromRihsString_append {rest : String} :
    (TypeHash.fromRihsString ("RIHS01_" ++ rest)).isSome = true ↔
      (utf8Bytes rest).length = 64 ∧
        ∀ pair ∈ chunks2 (utf8Bytes rest), ExactPair pair ∨ LoosePair pair := by
  rw [fromRihsString_append]
  split
  · next length =>
      obtain ⟨count, two⟩ := length_chunks2 (show (utf8Bytes rest).length = 2 * 32 from length)
      have pairs : (∀ pair ∈ chunks2 (utf8Bytes rest), ExactPair pair ∨ LoosePair pair) ↔
          (TypeHash.parseChunks (chunks2 (utf8Bytes rest))).isSome = true := by
        rw [isSome_parseChunks_iff]
        exact forall₂_congr fun pair among => (isSome_parseChunk_iff (two pair among)).symm
      rw [pairs, and_iff_right length]
      cases read : TypeHash.parseChunks (chunks2 (utf8Bytes rest)) with
      | none => simp
      | some value =>
          have sized : value.toArray.size = 32 := by
            rw [List.size_toArray, length_parseChunks read, count]
          rw [Option.bind_some, dif_pos sized]
          simp
  · next length => simp [length]

theorem wellFormed_append {rest : String} :
    WellFormed ("RIHS01_" ++ rest) ↔
      (utf8Bytes rest).length = 64 ∧ ∀ pair ∈ chunks2 (utf8Bytes rest), ExactPair pair := by
  constructor
  · rintro ⟨digits, hex, same⟩
    obtain rfl := (String.append_right_inj _).mp same
    obtain ⟨size, pairs, -⟩ := hex.read
    exact ⟨size, pairs⟩
  · rintro ⟨size, pairs⟩
    obtain ⟨digits, hex, same⟩ := exists_hexDigits (show _ = 2 * 32 from size) pairs
    exact ⟨digits, hex, congrArg ("RIHS01_" ++ ·) (utf8Bytes_injective same)⟩

/-- Strings without the prefix are no RIHS strings for either parser. -/
theorem not_wellFormed {s : String} (stripped : TypeHash.stripPrefix s = none) :
    ¬ WellFormed s := by
  rintro ⟨digits, -, rfl⟩
  rw [stripPrefix_append] at stripped
  cases stripped

theorem fromRihsString_eq_none {s : String} (other : s ≠ "TypeHashNotSupported")
    (stripped : TypeHash.stripPrefix s = none) : TypeHash.fromRihsString s = none := by
  rw [TypeHash.fromRihsString, if_neg other, stripped]
  rfl

/-- What `hex` accepts are hexadecimal digits. -/
theorem hexDigits_of_readHex {digits : List Char} {octets : List UInt8}
    (read : readHex digits = some octets) : HexDigits octets.length digits := by
  induction digits using readHex.induct generalizing octets with
  | case1 =>
      cases read
      exact ⟨rfl, nofun⟩
  | case2 c => cases read
  | case3 c d rest ih =>
      obtain ⟨high, valueHigh, read⟩ := Option.bind_eq_some_iff.mp read
      obtain ⟨low, valueLow, read⟩ := Option.bind_eq_some_iff.mp read
      obtain ⟨others, inside, same⟩ := Option.bind_eq_some_iff.mp read
      obtain rfl := Option.some.inj same
      obtain ⟨length, hex⟩ := ih inside
      refine ⟨?_, ?_⟩
      · simp only [List.length_cons, length]
        omega
      · rw [List.forall_mem_cons, List.forall_mem_cons]
        exact ⟨Option.isSome_iff_exists.mpr ⟨_, valueHigh⟩,
          Option.isSome_iff_exists.mpr ⟨_, valueLow⟩, hex⟩

theorem ExactPair.not_loose {pair : List UInt8} (exact' : ExactPair pair) : ¬ LoosePair pair := by
  obtain ⟨c, d, hex, hex', rfl⟩ := exact'
  rintro (⟨d', -, same⟩ | none)
  · obtain ⟨_, -, -, -, sign⟩ := hex.exists_value
    exact sign (List.cons.inj (String.ofList_inj.mp (utf8Bytes_injective same))).1
  · exact none _ rfl

section Parsers

variable {hexDecode : String → Except String (List UInt8)} (lawful : LawfulHex hexDecode)

include lawful

/-- Both parsers read the octets that the digits stand for. -/
theorem read_alike {digits : List Char} (hex : HexDigits 32 digits) :
    ∃ value : Vector UInt8 32,
      TypeHash.fromRihsString ("RIHS01_" ++ String.ofList digits) = some ⟨1, value⟩ ∧
      Schema.TypeHash.fromRihsString hexDecode ("RIHS01_" ++ String.ofList digits) =
        .ok ⟨value⟩ ∧
      TypeHash.hexString value.toList = String.ofList (digits.map Char.toLower) := by
  obtain ⟨size, -, octets, number, read, parsed, printed⟩ := hex.read
  have sized : octets.toArray.size = 32 := by rw [List.size_toArray, number]
  have decoded : hexDecode (String.ofList digits) = .ok octets := by
    rw [lawful, String.toList_ofList, read]
  refine ⟨⟨octets.toArray, sized⟩, ?_, ?_, printed⟩
  · rw [fromRihsString_append, if_pos size, parsed, Option.bind_some, dif_pos sized]
  · simp only [Schema.TypeHash.fromRihsString, stripPrefix_append, decoded]
    rw [dif_pos sized]

/-- The parser of the schema crate accepts what has the format. -/
theorem wellFormed_of_schema {s : String} {h : Schema.TypeHash}
    (parsed : Schema.TypeHash.fromRihsString hexDecode s = .ok h) : WellFormed s := by
  unfold Schema.TypeHash.fromRihsString at parsed
  split at parsed
  · cases parsed
  · next rest stripped =>
      split at parsed
      · cases parsed
      · next octets decoded =>
          split at parsed
          · next sized =>
              have hex := hexDigits_of_readHex ((lawful _ _).mp decoded)
              rw [List.size_toArray] at sized
              rw [sized] at hex
              refine ⟨rest.toList, hex, ?_⟩
              rw [String.ofList_toList]
              exact stripPrefix_eq_some_iff.mp stripped
          · cases parsed

/-- **RIHS strings are parsed exactly, but for the loose ones**; hashes of version 1 are read
back from what is printed. -/
theorem parsedExactly_iff :
    (∀ s, ParsedExactly hexDecode s ↔ ¬ Loose s) ∧
      ∀ h : TypeHash, h.version = 1 → TypeHash.fromRihsString (h.toRihsString false) = some h := by
  refine ⟨fun s => ⟨?_, fun tight => ?_⟩, fun h version => fromRihsString_toRihsString version⟩
  · rintro ⟨accepted, -, -⟩ ⟨rest, rfl, size, pairs, pair, among, loose⟩
    rcases accepted.mp (isSome_fromRihsString_append.mpr ⟨size, pairs⟩) with same | formed
    · have stripped := stripPrefix_append rest
      rw [same, stripPrefix_placeholder] at stripped
      cases stripped
    · exact ((wellFormed_append.mp formed).2 pair among).not_loose loose
  · have accepted : (TypeHash.fromRihsString s).isSome = true ↔
        s = "TypeHashNotSupported" ∨ WellFormed s := by
      by_cases placeholder : s = "TypeHashNotSupported"
      · rw [placeholder]
        exact iff_of_true rfl (.inl rfl)
      rw [or_iff_right placeholder]
      cases stripped : TypeHash.stripPrefix s with
      | none =>
          rw [fromRihsString_eq_none placeholder stripped]
          exact iff_of_false Bool.false_ne_true (not_wellFormed stripped)
      | some rest =>
          obtain rfl := stripPrefix_eq_some_iff.mp stripped
          rw [isSome_fromRihsString_append, wellFormed_append]
          constructor
          · rintro ⟨size, pairs⟩
            refine ⟨size, fun pair among => (pairs pair among).resolve_right fun loose => ?_⟩
            exact tight ⟨rest, rfl, size, pairs, pair, among, loose⟩
          · rintro ⟨size, pairs⟩
            exact ⟨size, fun pair among => .inl (pairs pair among)⟩
    refine ⟨accepted, ?_, fun placeholder => ?_⟩
    · rintro digits hex rfl
      obtain ⟨value, parsed, -, printed⟩ := read_alike lawful hex
      refine ⟨_, parsed, ?_⟩
      rw [TypeHash.toRihsString, if_neg Bool.false_ne_true, if_pos rfl, printed]
    · by_cases formed : WellFormed s
      · obtain ⟨digits, hex, rfl⟩ := formed
        obtain ⟨value, parsed, parsed', -⟩ := read_alike lawful hex
        rw [parsed, parsed']
        rfl
      · have refused : TypeHash.fromRihsString s = none := by
          rw [← Option.not_isSome_iff_eq_none, accepted]
          exact not_or.mpr ⟨placeholder, formed⟩
        rw [refused]
        cases parsed : Schema.TypeHash.fromRihsString hexDecode s with
        | error e => rfl
        | ok h => exact absurd (wellFormed_of_schema lawful parsed) formed

end Parsers

theorem WellFormed.not_loose {s : String} (formed : WellFormed s) : ¬ Loose s := by
  rintro ⟨rest, rfl, -, -, pair, among, loose⟩
  exact ((wellFormed_append.mp formed).2 pair among).not_loose loose

/-- A decoder of hexadecimal digits. -/
def hexDecoder (s : String) : Except String (List UInt8) :=
  match readHex s.toList with
  | some octets => .ok octets
  | none => .error "Invalid character"

theorem lawfulHex_hexDecoder : LawfulHex hexDecoder := by
  intro s octets
  unfold hexDecoder
  cases readHex s.toList with
  | none => simp
  | some found => simp

/-- A string of the format in upper case. -/
def upperRihs : String := "RIHS01_ABCDEF0000000000000000000000000000000000000000000000000000000000"

theorem upperRihs_wellFormed : WellFormed upperRihs :=
  have hex : (upperRihs.toList.drop 7).all (fun c => decide (IsHexDigit c)) = true := by decide
  ⟨upperRihs.toList.drop 7,
    ⟨by decide, fun c member => of_decide_eq_true (List.all_eq_true.mp hex c member)⟩, by decide⟩

theorem parsedExactly_iff_upperRihs : ParsedExactly hexDecoder upperRihs :=
  ((parsedExactly_iff lawfulHex_hexDecoder).1 upperRihs).mpr upperRihs_wellFormed.not_loose

/-- A plus sign in the place of the first digit. -/
def signedRihs : String :=
  "RIHS01_+500000000000000000000000000000000000000000000000000000000000000"

theorem signedRihs_not_parsedExactly : ¬ ParsedExactly hexDecoder signedRihs := by
  rintro ⟨accepted, -, -⟩
  have parsed : (TypeHash.fromRihsString signedRihs).isSome = true := by decide +kernel
  rcases accepted.mp parsed with same | ⟨digits, hex, same⟩
  · exact absurd same (by decide)
  · have behind : signedRihs.toList.drop 7 = digits := by
      rw [same, String.toList_append, @String.toList_ofList digits]
      rfl
    have sign : '+' ∈ digits := by
      rw [← behind]
      decide
    exact absurd (hex.hex '+' sign) (by decide)

end RosZ
