import RosZ.Cdr.Primitives
import RosZ.Lib.Names
import RosZ.Protocol.Qos

/-!
# Entities of the protocol

Nodes and endpoints as liveliness tokens announce them, with the text forms of their
parts.

## Design notes

The session ids and key expressions of zenoh are parameters: `ZenohId` has what
`Display` and `FromStr` do, `KeyExpr` has the conversion from a string, which may refuse
it, and the string of a key expression.  The lawful classes state what the code relies
on: an id is read back from its text, which is made of hexadecimal digits, and a key
expression keeps its string.

The hash of a type is printed as 64 hexadecimal digits.  `from_rihs_string` reads them
from the octets of the text, two at a time, so it also accepts other texts;
`fromRihsString_toRihsString` is about what `to_rihs_string` prints.
-/

namespace RosZ.Protocol

open Text

/-! ## Zenoh -/

/-- The text form of a session id. -/
class ZenohId (ζ : Type) where
  display : ζ → String
  fromStr : String → Option ζ

class LawfulZenohId (ζ : Type) [ZenohId ζ] : Prop where
  fromStr_display (z : ζ) : ZenohId.fromStr (ZenohId.display z) = some z
  without_display (z : ζ) : Without '/' (ZenohId.display z)

/-- Key expressions: `try_from` a string, and `as_str`. -/
class KeyExpr (κ : Type) where
  tryFrom : String → Option κ
  asStr : κ → String

class LawfulKeyExpr (κ : Type) [KeyExpr κ] : Prop where
  asStr_of_tryFrom {s : String} {key : κ} : KeyExpr.tryFrom s = some key → KeyExpr.asStr key = s

/-! ## Type hashes -/

/-- Type hash (RIHS format). -/
structure TypeHash where
  version : UInt8
  value : Vector UInt8 32
  deriving DecidableEq

/-- The format `{:02x}` of an octet. -/
def hexByte (b : UInt8) : String :=
  String.ofList [(b.toNat / 16).digitChar, (b.toNat % 16).digitChar]

/-- `chunks(2)` of a slice. -/
def chunks2 {α : Type*} : List α → List (List α)
  | a :: b :: rest => [a, b] :: chunks2 rest
  | [a] => [[a]]
  | [] => []

namespace TypeHash

def zero : TypeHash := { version := 1, value := .replicate 32 0 }

/-- One chunk of the digits; a chunk that is no text counts as `00`. -/
def parseChunk (chunk : List UInt8) : Option UInt8 :=
  (fromStrRadix 16 (2 ^ 8) ((String.fromUTF8? ⟨chunk.toArray⟩).getD "00")).map UInt8.ofNat

/-- The octets that the digits stand for. -/
def parseChunks : List (List UInt8) → Option (List UInt8)
  | [] => some []
  | chunk :: rest => (parseChunk chunk).bind fun b => (parseChunks rest).map (b :: ·)

/-- What stands behind `RIHS01_`. -/
def stripPrefix (rihs : String) : Option String :=
  if "RIHS01_".toList.isPrefixOf rihs.toList then some (String.ofList (rihs.toList.drop 7))
  else none

def fromRihsString (rihs : String) : Option TypeHash :=
  if rihs = "TypeHashNotSupported" then some zero
  else do
    let hexPart ← stripPrefix rihs
    let octets := Cdr.utf8Bytes hexPart
    if octets.length = 64 then
      let value ← parseChunks (chunks2 octets)
      if sized : value.toArray.size = 32 then some { version := 1, value := ⟨value.toArray, sized⟩ }
      else none
    else none

/-- The digits of the hash. -/
def hexString (value : List UInt8) : String := String.join (value.map hexByte)

/-- `noTypeHash` is the feature for ROS 2 Humble. -/
def toRihsString (noTypeHash : Bool) (h : TypeHash) : String :=
  if noTypeHash then "TypeHashNotSupported"
  else if h.version = 1 then "RIHS01_" ++ hexString h.value.toList
  else "RIHS" ++ hexByte h.version ++ "_" ++ hexString h.value.toList

end TypeHash

/-- Type information (name + hash). -/
structure TypeInfo where
  name : String
  hash : TypeHash
  deriving DecidableEq

/-! ## Entities -/

/-- ROS 2 node entity. -/
structure NodeEntity (ζ : Type) where
  domainId : UInt64
  zId : ζ
  id : UInt64
  name : String
  (namespace' : String)
  enclave : String
  deriving DecidableEq

/-- ROS 2 entity kind. -/
inductive EntityKind where
  | node
  | publisher
  | subscription
  | service
  | client
  deriving DecidableEq

namespace EntityKind

def display : EntityKind → String
  | node => "NN"
  | publisher => "MP"
  | subscription => "MS"
  | service => "SS"
  | client => "SC"

def fromStr : String → Option EntityKind
  | "NN" => some node
  | "MP" => some publisher
  | "MS" => some subscription
  | "SS" => some service
  | "SC" => some client
  | _ => none

@[simp] theorem fromStr_display (kind : EntityKind) : fromStr kind.display = some kind := by
  cases kind <;> rfl

theorem without_display (kind : EntityKind) : Without '/' kind.display := by
  cases kind <;> decide

end EntityKind

/-- ROS 2 endpoint entity (publisher, subscription, service, client). -/
structure EndpointEntity (ζ : Type) where
  id : UInt64
  node : NodeEntity ζ
  kind : EntityKind
  topic : String
  typeInfo : Option TypeInfo
  qos : QosProfile
  deriving DecidableEq

/-- Generic ROS 2 entity (node or endpoint). -/
inductive Entity (ζ : Type) where
  | node (entity : NodeEntity ζ)
  | endpoint (entity : EndpointEntity ζ)
  deriving DecidableEq

/-- Errors during entity conversion. -/
inductive EntityConversionError where
  | missingAdminSpace
  | missingDomainId
  | missingZId
  | missingNodeId
  | missingEntityId
  | missingEntityKind
  | missingEnclave
  | missingNamespace
  | missingNodeName
  | missingTopicName
  | missingTopicType
  | missingTopicHash
  | missingTopicQoS
  | parsingError
  | qosDecodeError (error : QosDecodeError)
  deriving DecidableEq

/-! ## Type hashes round trip -/

section Hashes

open TypeHash Cdr

/-- The digits of an octet are letters or digits. -/
theorem without_hexByte (b : UInt8) {sep : Char} (mark : sep.isAlphanum = false) :
    Without sep (hexByte b) := by
  have digits : ∀ digit < 16, digit.digitChar.isAlphanum = true := by decide
  have bound := b.toNat_lt
  intro member
  rw [hexByte, String.toList_ofList] at member
  rcases List.mem_pair.mp member with rfl | rfl
  · exact Bool.false_ne_true (mark.symm.trans (digits _ (by omega)))
  · exact Bool.false_ne_true (mark.symm.trans (digits _ (by omega)))

theorem fromStrRadix_hexByte (b : UInt8) : fromStrRadix 16 (2 ^ 8) (hexByte b) = some b.toNat := by
  have bound : b.toNat < 256 := b.toNat_lt
  have high : b.toNat / 16 < 16 := by omega
  have low : b.toNat % 16 < 16 := by omega
  have unsigned := (digitChar_ne high).1
  simp only [fromStrRadix, hexByte, String.toList_ofList]
  split
  · next rest shape => exact absurd (List.cons.inj shape).1 unsigned
  · simp only [fromDigits, digitValue_digitChar le_rfl high, digitValue_digitChar le_rfl low,
      Option.bind_some, List.isEmpty_cons, Bool.false_eq_true, if_false, Option.filter]
    rw [show (0 * 16 + b.toNat / 16) * 16 + b.toNat % 16 = b.toNat by omega]
    simp [bound]

/-- A digit takes one octet, so an octet is printed in two. -/
theorem utf8Bytes_hexByte (b : UInt8) : ∃ high low, utf8Bytes (hexByte b) = [high, low] := by
  have bound : b.toNat < 256 := b.toNat_lt
  have single : ∀ digit < 16, ∃ octet, String.utf8EncodeChar digit.digitChar = [octet] := by
    intro digit small
    interval_cases digit <;> exact ⟨_, rfl⟩
  obtain ⟨high, first⟩ := single (b.toNat / 16) (by omega)
  obtain ⟨low, second⟩ := single (b.toNat % 16) (by omega)
  refine ⟨high, low, ?_⟩
  simp only [utf8Bytes, hexByte, String.toByteArray_ofList]
  rw [List.utf8Encode_cons, List.utf8Encode_singleton, List.utf8Encode_singleton, first, second]
  rfl

theorem utf8Bytes_hexString (b : UInt8) (rest : List UInt8) :
    utf8Bytes (hexString (b :: rest)) = utf8Bytes (hexByte b) ++ utf8Bytes (hexString rest) := by
  simp [utf8Bytes, hexString]

theorem length_utf8Bytes_hexString (value : List UInt8) :
    (utf8Bytes (hexString value)).length = 2 * value.length := by
  induction value with
  | nil => rfl
  | cons b rest ih =>
      obtain ⟨high, low, printed⟩ := utf8Bytes_hexByte b
      rw [utf8Bytes_hexString, List.length_append, ih, printed]
      simp only [List.length_cons, List.length_nil]
      omega

/-- Each octet is read back from its own chunk. -/
theorem parseChunks_hexString (value : List UInt8) :
    parseChunks (chunks2 (utf8Bytes (hexString value))) = some value := by
  induction value with
  | nil => rfl
  | cons b rest ih =>
      obtain ⟨high, low, printed⟩ := utf8Bytes_hexByte b
      have chunk : parseChunk [high, low] = some b := by
        rw [← printed, parseChunk, fromUTF8_utf8Bytes, Option.getD_some, fromStrRadix_hexByte,
          Option.map_some, UInt8.ofNat_toNat]
      rw [utf8Bytes_hexString, printed]
      simp only [List.cons_append, List.nil_append, chunks2, parseChunks, chunk, ih]
      rfl

theorem stripPrefix_append (hex : String) : stripPrefix ("RIHS01_" ++ hex) = some hex := by
  have shape : ("RIHS01_" ++ hex).toList = ['R', 'I', 'H', 'S', '0', '1', '_'] ++ hex.toList := by
    rw [String.toList_append]
    rfl
  simp only [stripPrefix, shape]
  rw [if_pos (by simp [List.isPrefixOf])]
  simp

/-- **A hash of version 1 is read back from its text.** -/
theorem fromRihsString_toRihsString {h : TypeHash} (version : h.version = 1) :
    fromRihsString (h.toRihsString false) = some h := by
  have printed : h.toRihsString false = "RIHS01_" ++ hexString h.value.toList := by
    simp [toRihsString, version]
  have supported : "RIHS01_" ++ hexString h.value.toList ≠ "TypeHashNotSupported" := by
    intro same
    have texts := congrArg String.toList same
    rw [String.toList_append] at texts
    cases texts
  have length := length_utf8Bytes_hexString h.value.toList
  rw [Vector.length_toList] at length
  rw [printed, fromRihsString, if_neg supported, stripPrefix_append]
  obtain ⟨number, value⟩ := h
  obtain rfl : number = 1 := version
  simp only [Option.bind_eq_bind, Option.bind_some, length, parseChunks_hexString]
  simp [Vector.toList]

theorem hexByte_injective : Function.Injective hexByte := by
  intro b b' same
  have read := fromStrRadix_hexByte b
  rw [same, fromStrRadix_hexByte, Option.some.injEq] at read
  exact UInt8.toNat_inj.mp read.symm

theorem hexString_injective : Function.Injective hexString := by
  intro value value' same
  have read := parseChunks_hexString value
  rw [same, parseChunks_hexString, Option.some.injEq] at read
  exact read.symm

/-- Both forms of a hash have the number of the version in two digits. -/
theorem toRihsString_eq (h : TypeHash) :
    h.toRihsString false = "RIHS" ++ (hexByte h.version ++ ("_" ++ hexString h.value.toList)) := by
  rw [toRihsString, if_neg Bool.false_ne_true]
  split
  · next version =>
      rw [version, ← String.append_assoc, ← String.append_assoc]
      rfl
  · rw [String.append_assoc, String.append_assoc]

theorem without_toRihsString (h : TypeHash) {sep : Char} (mark : sep.isAlphanum = false)
    (other : sep ≠ '_') : Without sep (h.toRihsString false) := by
  have digits : Without sep (hexString h.value.toList) := by
    unfold hexString
    induction h.value.toList with
    | nil => simp [Without]
    | cons b rest ih =>
        rw [List.map_cons, String.join_cons]
        exact (without_hexByte b mark).append ih
  have head : Without sep "RIHS" := by
    intro member
    have letters : "RIHS".toList.all (·.isAlphanum) = true := by decide
    exact Bool.false_ne_true (mark.symm.trans (List.all_eq_true.mp letters sep member))
  have dash : Without sep "_" := fun member => other (List.mem_singleton.mp member)
  rw [toRihsString_eq]
  exact head.append ((without_hexByte _ mark).append (dash.append digits))

/-- **Different hashes are printed differently.** -/
theorem toRihsString_injective : Function.Injective (toRihsString false) := by
  intro h h' same
  have length (b : UInt8) : (hexByte b).toList.length = 2 := by
    rw [hexByte, String.toList_ofList]
    rfl
  rw [toRihsString_eq, toRihsString_eq, String.append_right_inj] at same
  have texts := congrArg String.toList same
  rw [String.toList_append, String.toList_append (s := hexByte h'.version)] at texts
  obtain ⟨version, rest⟩ := List.append_inj texts ((length _).trans (length _).symm)
  rw [String.toList_inj, String.append_right_inj] at rest
  obtain ⟨number, value⟩ := h
  obtain ⟨number', value'⟩ := h'
  have numbers : number = number' := hexByte_injective (String.toList_inj.mp version)
  have values : value = value' := Vector.toList_inj.mp (hexString_injective rest)
  rw [numbers, values]

/-- No hash is printed as the placeholder for a missing one. -/
theorem toRihsString_ne_empty (h : TypeHash) : h.toRihsString false ≠ "EMPTY_TOPIC_HASH" := by
  intro same
  have texts := congrArg String.toList same
  rw [toRihsString_eq, String.toList_append] at texts
  cases texts

end Hashes

end RosZ.Protocol
