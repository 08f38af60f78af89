import Mathlib.Data.Nat.Digits.Defs

/-!
# Words as octets

A fixed-width word travels as a list of octets, least significant first or most
significant first.  Both layouts are the base-256 digits of the word: `leBytes`
writes exactly `width` of them, `leValue` is Mathlib's `Nat.ofDigits`, and the
big-endian forms are the reversals.

`ByteOrder.decode_encode` is the only fact about words the rest of the
development needs: decoding what was encoded at `width` octets is reduction
modulo `256 ^ width`, hence the identity on words that fit.
-/

namespace Wire

/-- The order in which the octets of a word are laid out. -/
inductive ByteOrder where
  | littleEndian
  | bigEndian
  deriving DecidableEq, Repr

/-- The `width` low octets of `value`, least significant first. -/
def leBytes : ℕ → ℕ → List UInt8
  | 0, _ => []
  | width + 1, value => UInt8.ofNat value :: leBytes width (value / 256)

/-- The number whose base-256 digits are `bytes`, least significant first. -/
def leValue (bytes : List UInt8) : ℕ :=
  Nat.ofDigits 256 (bytes.map UInt8.toNat)

@[simp] theorem length_leBytes (width value : ℕ) :
    (leBytes width value).length = width := by
  induction width generalizing value with
  | zero => rfl
  | succ width ih => simp [leBytes, ih]

theorem leValue_cons (byte : UInt8) (bytes : List UInt8) :
    leValue (byte :: bytes) = byte.toNat + 256 * leValue bytes := by
  simp [leValue, Nat.ofDigits_cons]

/-- Reading back the octets of `value` loses exactly what does not fit. -/
theorem leValue_leBytes (width value : ℕ) :
    leValue (leBytes width value) = value % 256 ^ width := by
  induction width generalizing value with
  | zero => simp [leBytes, leValue, Nat.mod_one]
  | succ width ih =>
      have low : (UInt8.ofNat value).toNat = value % 256 := by simp
      rw [leBytes, leValue_cons, ih, low, pow_succ', Nat.mod_mul]

/-- Only what fits is laid out. -/
theorem leBytes_mod (width value : ℕ) :
    leBytes width (value % 256 ^ width) = leBytes width value := by
  induction width generalizing value with
  | zero => rfl
  | succ width ih =>
      have low : UInt8.ofNat (value % 256 ^ (width + 1)) = UInt8.ofNat value := by
        apply UInt8.toNat_inj.mp
        rw [UInt8.toNat_ofNat', UInt8.toNat_ofNat', pow_succ']
        exact Nat.mod_mul_right_mod value 256 (256 ^ width)
      have high : value % 256 ^ (width + 1) / 256 = value / 256 % 256 ^ width := by
        rw [pow_succ', Nat.mod_mul_right_div_self]
      rw [leBytes, leBytes, low, high, ih]

/-- Octets are the octets of their value. -/
theorem leBytes_leValue : ∀ bytes : List UInt8, leBytes bytes.length (leValue bytes) = bytes
  | [] => rfl
  | byte :: bytes => by
      have low : UInt8.ofNat (byte.toNat + 256 * leValue bytes) = byte := by
        apply UInt8.toNat_inj.mp
        rw [UInt8.toNat_ofNat', Nat.add_mul_mod_self_left]
        exact Nat.mod_eq_of_lt byte.toNat_lt
      have high : (byte.toNat + 256 * leValue bytes) / 256 = leValue bytes := by
        have small := byte.toNat_lt
        omega
      rw [List.length_cons, leValue_cons, leBytes, low, high, leBytes_leValue bytes]

namespace ByteOrder

/-- The `width` octets of `value` in this order. -/
def encode (order : ByteOrder) (width value : ℕ) : List UInt8 :=
  match order with
  | .littleEndian => leBytes width value
  | .bigEndian => (leBytes width value).reverse

/-- The word whose octets in this order are `bytes`. -/
def decode (order : ByteOrder) (bytes : List UInt8) : ℕ :=
  match order with
  | .littleEndian => leValue bytes
  | .bigEndian => leValue bytes.reverse

@[simp] theorem length_encode (order : ByteOrder) (width value : ℕ) :
    (order.encode width value).length = width := by
  cases order <;> simp [encode]

theorem encode_mod (order : ByteOrder) (width value : ℕ) :
    order.encode width (value % 256 ^ width) = order.encode width value := by
  cases order <;> simp [encode, leBytes_mod]

theorem decode_encode (order : ByteOrder) (width value : ℕ) :
    order.decode (order.encode width value) = value % 256 ^ width := by
  cases order <;> simp [encode, decode, leValue_leBytes]

theorem encode_decode (order : ByteOrder) (bytes : List UInt8) :
    order.encode bytes.length (order.decode bytes) = bytes := by
  cases order with
  | littleEndian => exact leBytes_leValue bytes
  | bigEndian =>
      have reversed := leBytes_leValue bytes.reverse
      rw [List.length_reverse] at reversed
      simp only [encode, decode]
      rw [reversed, List.reverse_reverse]

theorem decode_encode_of_lt (order : ByteOrder) {width value : ℕ}
    (fits : value < 256 ^ width) :
    order.decode (order.encode width value) = value := by
  rw [decode_encode, Nat.mod_eq_of_lt fits]

end ByteOrder

end Wire
