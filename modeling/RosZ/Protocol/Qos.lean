import RosZ.Lib.Text

/-!
# QoS profiles in liveliness tokens

The QoS profile of the protocol crate and its text form,

    [reliability]:[durability]:[history],[depth]:[deadline]:[lifespan]:[liveliness]

in which the first two fields are empty when they have their default value.  Decoding
reads the first three fields and ignores the rest; it inverts the encoding
(`decode_encode`), and an encoded profile is a single field of a key (`without_encode`).
-/

namespace RosZ.Protocol

open Text

/-- QoS reliability policy. -/
inductive QosReliability where
  | bestEffort
  | reliable
  deriving DecidableEq

/-- QoS durability policy. -/
inductive QosDurability where
  | volatile
  | transientLocal
  deriving DecidableEq

/-- QoS history policy. -/
inductive QosHistory where
  | keepLast (depth : UInt64)
  | keepAll
  deriving DecidableEq

/-- QoS profile for ROS 2 entities. -/
structure QosProfile where
  reliability : QosReliability := .reliable
  durability : QosDurability := .volatile
  history : QosHistory := .keepLast 10
  deriving DecidableEq

/-- QoS decode errors. -/
inductive QosDecodeError where
  | invalidFormat
  | invalidReliability
  | invalidDurability
  | invalidHistory
  deriving DecidableEq

/-- `Display` of a `usize`. -/
def displayUsize (n : UInt64) : String := String.ofList (Nat.toDigits 10 n.toNat)

/-- `usize::from_str`. -/
def parseUsize (s : String) : Option UInt64 := (fromStrRadix 10 (2 ^ 64) s).map UInt64.ofNat

@[simp] theorem parseUsize_displayUsize (n : UInt64) : parseUsize (displayUsize n) = some n := by
  rw [parseUsize, displayUsize, fromStrRadix_ofDigits (by decide) (by decide) n.toNat_lt,
    Option.map_some, UInt64.ofNat_toNat]

theorem without_displayUsize (n : UInt64) {sep : Char}
    (separator : sep = '/' ∨ sep = ':' ∨ sep = ',') : Without sep (displayUsize n) :=
  without_ofDigits (by decide) (by decide) n.toNat separator

namespace QosProfile

/-- The default profile, against which the encoding leaves fields empty. -/
def default : QosProfile := {}

/-- Encode QoS to string for liveliness token. -/
def encode (q : QosProfile) : String :=
  let reliability :=
    if q.reliability ≠ default.reliability then
      match q.reliability with
      | .reliable => "1"
      | .bestEffort => "2"
    else ""
  let durability :=
    if q.durability ≠ default.durability then
      match q.durability with
      | .transientLocal => "1"
      | .volatile => "2"
    else ""
  let history :=
    match q.history with
    | .keepLast depth =>
        if q.history ≠ default.history then ",".intercalate ["1", displayUsize depth]
        else ",".intercalate ["", displayUsize depth]
    | .keepAll => ",".intercalate ["2", ""]
  let deadline := ","
  let lifespan := ","
  let liveliness := ",,"
  ":".intercalate [reliability, durability, history, deadline, lifespan, liveliness]

def decodeReliability : String → Except QosDecodeError QosReliability
  | "" => .ok default.reliability
  | "1" => .ok .reliable
  | "2" => .ok .bestEffort
  | _ => .error .invalidReliability

def decodeDurability : String → Except QosDecodeError QosDurability
  | "" => .ok default.durability
  | "1" => .ok .transientLocal
  | "2" => .ok .volatile
  | _ => .error .invalidDurability

/-- The field `<kind>,<depth>`; the depth is read for `KeepLast` only. -/
def decodeHistory (field : String) : Except QosDecodeError QosHistory :=
  match fields ',' field with
  | kind :: depth :: _ =>
      if kind = "" ∨ kind = "1" then
        match parseUsize depth with
        | some depth => .ok (.keepLast depth)
        | none => .error .invalidHistory
      else if kind = "2" then .ok .keepAll
      else .error .invalidHistory
  | _ => .error .invalidHistory

/-- Decode QoS from liveliness token string. -/
def decode (s : String) : Except QosDecodeError QosProfile :=
  match fields ':' s with
  | reliability :: durability :: history :: _ => do
      let reliability ← decodeReliability reliability
      let durability ← decodeDurability durability
      let history ← decodeHistory history
      .ok { reliability, durability, history }
  | _ => .error .invalidFormat

/-! ## Round trip -/

/-- The first three fields of the encoding. -/
def reliabilityField (q : QosProfile) : String :=
  match q.reliability with
  | .reliable => ""
  | .bestEffort => "2"

def durabilityField (q : QosProfile) : String :=
  match q.durability with
  | .volatile => ""
  | .transientLocal => "1"

def historyParts (q : QosProfile) : List String :=
  match q.history with
  | .keepLast depth => [if depth = 10 then "" else "1", displayUsize depth]
  | .keepAll => ["2", ""]

theorem encode_eq (q : QosProfile) :
    q.encode = ":".intercalate [q.reliabilityField, q.durabilityField,
      ",".intercalate q.historyParts, ",", ",", ",,"] := by
  obtain ⟨reliability, durability, history⟩ := q
  cases history with
  | keepAll => cases reliability <;> cases durability <;> rfl
  | keepLast depth =>
      by_cases ten : depth = 10
      · subst ten
        cases reliability <;> cases durability <;> rfl
      · cases reliability <;> cases durability <;>
          simp [encode, default, reliabilityField, durabilityField, historyParts, ten]

theorem without_historyParts (q : QosProfile) {sep : Char}
    (separator : sep = '/' ∨ sep = ':' ∨ sep = ',') :
    ∀ part ∈ q.historyParts, Without sep part := by
  intro part member
  unfold historyParts at member
  split at member
  · next depth _ =>
      rcases List.mem_pair.mp member with rfl | rfl
      · rcases separator with rfl | rfl | rfl
        all_goals split <;> decide
      · exact without_displayUsize depth separator
  · rcases List.mem_pair.mp member with rfl | rfl
    all_goals rcases separator with rfl | rfl | rfl <;> decide

/-- The fields of an encoded profile hold no separator of a larger text. -/
theorem without_encodeFields (q : QosProfile) {sep : Char} (separator : sep = '/' ∨ sep = ':') :
    ∀ part ∈ [q.reliabilityField, q.durabilityField, ",".intercalate q.historyParts, ",", ",",
      ",,"], Without sep part := by
  have constant : ∀ text ∈ ["", "1", "2", ",", ",,"], Without sep text := by
    rcases separator with rfl | rfl <;> decide
  intro part member
  simp only [List.mem_cons, List.not_mem_nil, or_false] at member
  rcases member with rfl | rfl | rfl | rfl | rfl | rfl
  · unfold reliabilityField
    split
    · exact constant _ (by simp)
    · exact constant _ (by simp)
  · unfold durabilityField
    split
    · exact constant _ (by simp)
    · exact constant _ (by simp)
  · refine Without.intercalate (constant "," (by simp)) (without_historyParts q ?_)
    exact separator.imp_right .inl
  · exact constant _ (by simp)
  · exact constant _ (by simp)
  · exact constant _ (by simp)

theorem decodeReliability_field (q : QosProfile) :
    decodeReliability q.reliabilityField = .ok q.reliability := by
  unfold reliabilityField
  cases q.reliability <;> rfl

theorem decodeDurability_field (q : QosProfile) :
    decodeDurability q.durabilityField = .ok q.durability := by
  unfold durabilityField
  cases q.durability <;> rfl

theorem decodeHistory_field (q : QosProfile) :
    decodeHistory (",".intercalate q.historyParts) = .ok q.history := by
  have parts : fields ',' (",".intercalate q.historyParts) = q.historyParts := by
    refine fields_intercalate ?_ (without_historyParts q (.inr (.inr rfl)))
    unfold historyParts
    split <;> simp
  rw [decodeHistory, parts, historyParts]
  cases q.history with
  | keepAll => rfl
  | keepLast depth =>
      by_cases ten : depth = 10
      · simp [ten]
      · simp [ten]

/-- **Decoding inverts encoding.** -/
theorem decode_encode (q : QosProfile) : decode q.encode = .ok q := by
  have split : fields ':' q.encode = [q.reliabilityField, q.durabilityField,
      ",".intercalate q.historyParts, ",", ",", ",,"] := by
    rw [encode_eq]
    exact fields_intercalate (List.cons_ne_nil _ _) (without_encodeFields q (.inr rfl))
  simp only [decode, split, decodeReliability_field, decodeDurability_field, decodeHistory_field]
  rfl

/-- An encoded profile stays within its field of a key. -/
theorem without_encode (q : QosProfile) : Without '/' q.encode := by
  rw [encode_eq]
  exact Without.intercalate (by decide) (without_encodeFields q (.inl rfl))

end QosProfile

end RosZ.Protocol
