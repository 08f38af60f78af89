import Mathlib.Algebra.Order.Ring.Int
import RosZ.Rmw.Bindings

/-!
# Compatibility of QoS profiles

`check_qos_compatibility_with_policy` compares deadlines and leases in nanoseconds, which it
computes in `i64` from seconds and nanoseconds that are `u64`.

* A duration below `2 ^ 63` nanoseconds `Fits`, and is compared as it is; the infinite duration of
  ROS is the longest one of these.
* A longer one `Overflows` and panics, or its seconds or nanoseconds are read as a negative number.

`checksExactly_iff` says for which profiles the check is nevertheless the exact one.
-/

namespace RosZ.Rmw

/-- `as i64`. -/
def asI64 (n : UInt64) : ℤ := n.toInt64.toInt

/-- A result of arithmetic on `i64`; none is an overflow. -/
def checkedI64 (n : ℤ) : Option ℤ := if -2 ^ 63 ≤ n ∧ n < 2 ^ 63 then some n else none

/-- `sec as i64 * 1_000_000_000 + nsec as i64`. -/
def nanoseconds (t : RmwTime) : Option ℤ := do
  let sec ← checkedI64 (asI64 t.sec * 1000000000)
  checkedI64 (sec + asI64 t.nsec)

/-- Both durations are given, and that of the publisher is longer. -/
def exceeds (publisher subscription : RmwTime) : Option Bool := do
  let publisher ← nanoseconds publisher
  let subscription ← nanoseconds subscription
  return decide (subscription > 0 ∧ publisher > 0 ∧ publisher > subscription)

/-- A reliable subscription cannot be matched with a best-effort publisher. -/
def reliabilityDiffers (publisher subscription : RmwQosProfile) : Prop :=
  publisher.reliability = reliabilityBestEffort ∧ subscription.reliability = reliabilityReliable

/-- A transient-local subscription cannot be matched with a volatile publisher. -/
def durabilityDiffers (publisher subscription : RmwQosProfile) : Prop :=
  publisher.durability = durabilityVolatile ∧ subscription.durability = durabilityTransientLocal

def livelinessDiffers (publisher subscription : RmwQosProfile) : Prop :=
  publisher.liveliness ≠ subscription.liveliness ∧ subscription.liveliness > publisher.liveliness

instance (publisher subscription : RmwQosProfile) :
    Decidable (reliabilityDiffers publisher subscription) := inferInstanceAs (Decidable (_ ∧ _))

instance (publisher subscription : RmwQosProfile) :
    Decidable (durabilityDiffers publisher subscription) := inferInstanceAs (Decidable (_ ∧ _))

instance (publisher subscription : RmwQosProfile) :
    Decidable (livelinessDiffers publisher subscription) := inferInstanceAs (Decidable (_ ∧ _))

/-- Check QoS compatibility and return the incompatible policy kind; none is an overflow.  The
lease duration is reported as part of the liveliness policy. -/
def checkQosCompatibilityWithPolicy (publisher subscription : RmwQosProfile) :
    Option (Bool × UInt32) :=
  if reliabilityDiffers publisher subscription then some (false, policyReliability)
  else if durabilityDiffers publisher subscription then some (false, policyDurability)
  else do
    if ← exceeds publisher.deadline subscription.deadline then return (false, policyDeadline)
    else if livelinessDiffers publisher subscription then return (false, policyLiveliness)
    else if ← exceeds publisher.livelinessLeaseDuration subscription.livelinessLeaseDuration then
      return (false, policyLiveliness)
    else return (true, 0)

/-! ## The exact check -/

namespace RmwTime

/-- The whole duration. -/
def exact (t : RmwTime) : ℕ := t.sec.toNat * 1000000000 + t.nsec.toNat

/-- The nanoseconds as they are read, before anything overflows. -/
def reading (t : RmwTime) : ℤ := asI64 t.sec * 1000000000 + asI64 t.nsec

/-- The product or the sum leaves the range of `i64`. -/
def Overflows (t : RmwTime) : Prop :=
  ¬ (-2 ^ 63 ≤ asI64 t.sec * 1000000000 ∧ asI64 t.sec * 1000000000 < 2 ^ 63 ∧
    -2 ^ 63 ≤ t.reading ∧ t.reading < 2 ^ 63)

/-- The duration is a number of nanoseconds in `i64`. -/
def Fits (t : RmwTime) : Prop := t.exact < 2 ^ 63

end RmwTime

/-- Both durations are given, and that of the publisher is longer. -/
def exceedsExactly (publisher subscription : RmwTime) : Bool :=
  decide (publisher.exact ≠ 0 ∧ subscription.exact ≠ 0 ∧ subscription.exact < publisher.exact)

/-- The check with exact durations. -/
def checkExactly (publisher subscription : RmwQosProfile) : Bool × UInt32 :=
  if reliabilityDiffers publisher subscription then (false, policyReliability)
  else if durabilityDiffers publisher subscription then (false, policyDurability)
  else if exceedsExactly publisher.deadline subscription.deadline then (false, policyDeadline)
  else if livelinessDiffers publisher subscription then (false, policyLiveliness)
  else if exceedsExactly publisher.livelinessLeaseDuration subscription.livelinessLeaseDuration then
    (false, policyLiveliness)
  else (true, 0)

/-- **Durations that are compared exactly**: both fit, or none of them overflows and the negative
number that is read does not change the outcome. -/
inductive Comparable (offered requested : RmwTime) : Prop
  | fit (publisher : offered.Fits) (subscription : requested.Fits)
  /-- No publisher that fits exceeds a subscription that does not. -/
  | longSubscription (publisher : offered.Fits) (subscription : ¬ requested.Fits)
      (read : ¬ requested.Overflows)
      (kept : requested.reading ≤ 0 ∨ offered.exact ≤ requested.reading)
  /-- A publisher that does not fit exceeds every subscription that fits and is given. -/
  | longPublisher (publisher : ¬ offered.Fits) (subscription : requested.Fits)
      (read : ¬ offered.Overflows)
      (kept : requested.exact = 0 ∨ requested.exact < offered.reading)
  | long (publisher : ¬ offered.Fits) (subscription : ¬ requested.Fits)
      (readPublisher : ¬ offered.Overflows) (readSubscription : ¬ requested.Overflows)
      (kept : requested.exact < offered.exact ↔
        0 < requested.reading ∧ requested.reading < offered.reading)

/-! ## Durations -/

theorem asI64_eq (n : UInt64) :
    asI64 n = if n.toNat < 2 ^ 63 then (n.toNat : ℤ) else n.toNat - 2 ^ 64 := by
  have lt := n.toNat_lt
  rw [asI64, show n.toInt64.toInt = n.toBitVec.toInt from rfl, BitVec.toInt]
  simp only [UInt64.toNat_toBitVec]
  split_ifs <;> omega

theorem checkedI64_eq_some {n m : ℤ} :
    checkedI64 n = some m ↔ (-2 ^ 63 ≤ n ∧ n < 2 ^ 63) ∧ n = m := by
  rw [checkedI64, Option.ite_none_right_eq_some, Option.some.injEq]

/-- The nanoseconds are what is read, if nothing overflows. -/
theorem nanoseconds_eq_some {t : RmwTime} {n : ℤ} :
    nanoseconds t = some n ↔ ¬ t.Overflows ∧ t.reading = n := by
  unfold nanoseconds RmwTime.Overflows RmwTime.reading
  simp only [Option.bind_eq_bind, Option.bind_eq_some_iff, checkedI64_eq_some, not_not]
  constructor
  · rintro ⟨sec, ⟨bounds, rfl⟩, sum, rfl⟩
    exact ⟨⟨bounds.1, bounds.2, sum⟩, rfl⟩
  · rintro ⟨⟨lower, upper, sum⟩, rfl⟩
    exact ⟨_, ⟨⟨lower, upper⟩, rfl⟩, sum, rfl⟩

/-- A duration that fits is read as it is. -/
theorem RmwTime.Fits.read {t : RmwTime} (fits : t.Fits) : ¬ t.Overflows ∧ t.reading = t.exact := by
  unfold Fits exact at fits
  unfold Overflows reading exact
  have sec := asI64_eq t.sec
  have nsec := asI64_eq t.nsec
  rw [if_pos (by omega)] at sec nsec
  rw [sec, nsec, not_not]
  omega

theorem exceeds_eq_some {offered requested : RmwTime} {b : Bool} :
    exceeds offered requested = some b ↔ ¬ offered.Overflows ∧ ¬ requested.Overflows ∧
      (b = true ↔ requested.reading > 0 ∧ offered.reading > 0 ∧
        offered.reading > requested.reading) := by
  unfold exceeds
  simp only [Option.bind_eq_bind, Option.bind_eq_some_iff, nanoseconds_eq_some, Option.pure_def,
    Option.some.injEq]
  constructor
  · rintro ⟨_, ⟨first, rfl⟩, _, ⟨second, rfl⟩, rfl⟩
    exact ⟨first, second, decide_eq_true_iff⟩
  · rintro ⟨first, second, outcome⟩
    exact ⟨_, ⟨first, rfl⟩, _, ⟨second, rfl⟩, by rw [Bool.eq_iff_iff, outcome, decide_eq_true_iff]⟩

/-- The test is the exact one just for the durations that are comparable. -/
theorem exceeds_exact_iff {offered requested : RmwTime} :
    exceeds offered requested = some (exceedsExactly offered requested) ↔
      Comparable offered requested := by
  rw [exceeds_eq_some, exceedsExactly, decide_eq_true_iff]
  constructor
  · rintro ⟨first, second, same⟩
    by_cases publisher : offered.Fits
    · have read := publisher.read.2
      by_cases subscription : requested.Fits
      · exact .fit publisher subscription
      · refine .longSubscription publisher subscription second ?_
        unfold RmwTime.Fits at publisher subscription
        omega
    · by_cases subscription : requested.Fits
      · have read := subscription.read.2
        refine .longPublisher publisher subscription first ?_
        unfold RmwTime.Fits at publisher subscription
        omega
      · refine .long publisher subscription first second ?_
        unfold RmwTime.Fits at publisher subscription
        omega
  · rintro (⟨publisher, subscription⟩ | ⟨publisher, long, read, kept⟩ |
      ⟨long, subscription, read, kept⟩ |
      ⟨publisher, subscription, first, second, kept⟩)
    · refine ⟨publisher.read.1, subscription.read.1, ?_⟩
      rw [publisher.read.2, subscription.read.2]
      omega
    · refine ⟨publisher.read.1, read, ?_⟩
      rw [publisher.read.2]
      unfold RmwTime.Fits at publisher long
      omega
    · refine ⟨read, subscription.read.1, ?_⟩
      rw [subscription.read.2]
      unfold RmwTime.Fits at subscription long
      omega
    · refine ⟨first, second, ?_⟩
      unfold RmwTime.Fits at publisher subscription
      omega

/-! ## The check -/

/-- A test that settles an outcome which nothing else has. -/
theorem test_eq_iff {α : Type} {test : Option Bool} {exact : Bool} {yes yes' : α}
    {no : Option α} {no' : α} (same : yes = yes') (apart : no ≠ some yes') (apart' : yes ≠ no') :
    (test.bind fun b => if b = true then some yes else no) =
        some (if exact = true then yes' else no') ↔
      test = some exact ∧ (exact = true ∨ no = some no') := by
  subst same
  rcases test with _ | _ | _ <;> cases exact <;> simp_all

/-- **The check is the exact one** just for profiles that differ in reliability or durability, and
those with comparable deadlines where the deadlines or the liveliness settle the outcome or the
leases are comparable as well. -/
theorem checksExactly_iff (publisher subscription : RmwQosProfile) :
    checkQosCompatibilityWithPolicy publisher subscription =
        some (checkExactly publisher subscription) ↔
      reliabilityDiffers publisher subscription ∨ durabilityDiffers publisher subscription ∨
      Comparable publisher.deadline subscription.deadline ∧
        (exceedsExactly publisher.deadline subscription.deadline = true ∨
          livelinessDiffers publisher subscription ∨
          Comparable publisher.livelinessLeaseDuration subscription.livelinessLeaseDuration) := by
  rw [← exceeds_exact_iff, ← exceeds_exact_iff]
  unfold checkQosCompatibilityWithPolicy checkExactly
  by_cases reliability : reliabilityDiffers publisher subscription
  · rw [if_pos reliability, if_pos reliability]
    exact iff_of_true rfl (.inl reliability)
  by_cases durability : durabilityDiffers publisher subscription
  · rw [if_neg reliability, if_neg reliability, if_pos durability, if_pos durability]
    exact iff_of_true rfl (.inr (.inl durability))
  rw [if_neg reliability, if_neg reliability, if_neg durability, if_neg durability,
    or_iff_right reliability, or_iff_right durability]
  refine (test_eq_iff rfl ?_ ?_).trans ?_
  · split_ifs with liveliness
    · decide
    · generalize exceeds publisher.livelinessLeaseDuration _ = test
      rcases test with _ | _ | _ <;> decide
  · split_ifs <;> decide
  · refine and_congr_right fun _ => or_congr_right ?_
    by_cases liveliness : livelinessDiffers publisher subscription
    · rw [if_pos liveliness, if_pos liveliness]
      exact iff_of_true rfl (.inl liveliness)
    · rw [if_neg liveliness, if_neg liveliness, or_iff_right liveliness]
      refine (test_eq_iff rfl (by decide) (by decide)).trans ?_
      exact and_iff_left (.inr rfl)

/-- The infinite duration of ROS. -/
def RmwTime.infinite : RmwTime := { sec := 9223372036, nsec := 854775807 }

/-- The longest duration that fits is the infinite one. -/
example : RmwTime.infinite.exact = 2 ^ 63 - 1 := by decide

/-- A profile with a deadline and no other requirement. -/
def deadlineOnly (deadline : RmwTime) : RmwQosProfile where
  reliability := reliabilityReliable
  durability := durabilityVolatile
  deadline := deadline
  liveliness := 1
  livelinessLeaseDuration := ⟨0, 0⟩

/-- A deadline of a second more than the infinite one overflows.  One of `u64::MAX` seconds is
read as a negative number, and passes for shorter than a second. -/
theorem longDeadline_not_checked :
    checkQosCompatibilityWithPolicy (deadlineOnly ⟨9223372037, 0⟩) (deadlineOnly ⟨1, 0⟩) = none ∧
    checkQosCompatibilityWithPolicy (deadlineOnly ⟨18446744073709551615, 0⟩)
      (deadlineOnly ⟨1, 0⟩) = some (true, 0) ∧
    checkExactly (deadlineOnly ⟨18446744073709551615, 0⟩) (deadlineOnly ⟨1, 0⟩) =
      (false, policyDeadline) ∧
    ¬ ∀ publisher subscription, checkQosCompatibilityWithPolicy publisher subscription =
      some (checkExactly publisher subscription) := by
  refine ⟨by decide, by decide, by decide, fun claim => ?_⟩
  have overflow := claim (deadlineOnly ⟨9223372037, 0⟩) (deadlineOnly ⟨1, 0⟩)
  exact absurd overflow (by decide)

end RosZ.Rmw
