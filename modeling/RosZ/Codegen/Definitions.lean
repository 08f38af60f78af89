import RosZ.Codegen.Closure
import RosZ.Codegen.Services

/-!
# What the resolver has seen

`Definitions` are the definitions a resolver has seen, under the keys of their messages, each
with the path of the kind of file that defines it.  They are what its stored descriptions
describe (`Knows`), in every state that resolving messages and then any services and actions
reaches (`Reached.knows`).  With them, the lookup of a nested type name finds the definition of
a type that is no action component (`Knows.lookup_iff`).

The description that is hashed for a service or for a part of the action protocol is closed
when every type name in it names one of its entries, when the types nested in the request,
response, goal, result or feedback are all among them, and when every type has the path of
the kind of file that defines it (`ClosedAs`).
-/

namespace RosZ.Codegen

open RosZ.Schema Relation

variable {H : Type}

/-! ## Definitions -/

/-- The name of a message that is defined by a message file. -/
def ParsedMessage.msgTypeName (msg : ParsedMessage) : String :=
  Names.join msg.package ("msg/" ++ msg.name)

/-- A definition that the resolver has seen. -/
structure Definition where
  message : ParsedMessage
  /-- The name of the type, with the path of the kind of file that defines it. -/
  typeName : String
deriving DecidableEq

/-- The definitions under the keys of their messages. -/
abbrev Definitions : Type := String → Option Definition

namespace Definitions

/-- A definition that is stored over whatever was stored under its key. -/
def add (known : Definitions) (definition : Definition) : Definitions :=
  Function.update known definition.message.messageKey (some definition)

/-- The messages that have been resolved. -/
def ofResolved (self : Resolver H) : Definitions := fun key =>
  (self.resolvedMessages[key]?).map fun resolved =>
    ⟨resolved.parsed, resolved.parsed.msgTypeName⟩

/-- The parts of a service file. -/
def addService (known : Definitions) (srv : ParsedService) : Definitions :=
  (known.add ⟨srv.request, Names.join srv.package ("srv/" ++ srv.name ++ "_Request")⟩).add
    ⟨srv.response, Names.join srv.package ("srv/" ++ srv.name ++ "_Response")⟩

/-- An optional part of an action file. -/
def addPart (known : Definitions) (typeName : String) : Option ParsedMessage → Definitions
  | none => known
  | some part => known.add ⟨part, typeName⟩

/-- The parts of an action file. -/
def addAction (known : Definitions) (action : ParsedAction) : Definitions :=
  ((known.add ⟨action.goal, action.typeName "_Goal"⟩).addPart (action.typeName "_Result")
    action.result).addPart (action.typeName "_Feedback") action.feedback

/-- The name of a field's type: that of its definition, or that of a message where there is
none. -/
def fieldTypeName (known : Definitions) (package : String) (fieldType : FieldType) : String :=
  match known (fieldType.depKey package) with
  | some definition => definition.typeName
  | none => getNestedTypeNameWithContext fieldType package

/-- A field of the message has the other one as its type. -/
def Nests (known : Definitions) (m d : ParsedMessage) : Prop :=
  ∃ field ∈ m.fields, field.fieldType.isNested = true ∧
    ∃ definition, known (field.fieldType.depKey m.package) = some definition ∧
      definition.message = d

/-- A type name in the transitive closure of the fields of a message. -/
def InClosure (known : Definitions) (root : ParsedMessage) (n : String) : Prop :=
  ∃ m, ReflTransGen known.Nests root m ∧ ∃ field ∈ m.fields, field.fieldType.isNested = true ∧
    n = known.fieldTypeName m.package field.fieldType

/-- The type of a field is defined by a message file, and is not named like a primitive or like
an action component. -/
def FindsMessage (known : Definitions) (package : String) (fieldType : FieldType) : Prop :=
  isPrimitiveType fieldType.baseType = false ∧ ¬ IsActionComponent fieldType.baseType ∧
    ∃ definition, known (fieldType.depKey package) = some definition ∧
      definition.typeName = definition.message.msgTypeName

end Definitions

/-- The type names of the entries of a description. -/
def entryNames (desc : TypeDescriptionMsg) : List String :=
  desc.referencedTypeDescriptions.map (·.typeName)

/-- The description of `typeName` is closed: every type name in it is that of one entry, the
types in the closure of the `roots` are entries, it has its own path and so have its `parts`,
and no type that is defined by a service or action file has the path of messages. -/
structure ClosedAs (known : Definitions) (typeName : String) (parts : List String)
    (roots : List ParsedMessage) (desc : TypeDescriptionMsg) : Prop where
  named : ∀ n ∈ desc.nestedTypeNames, (entryNames desc).count n = 1
  contains : ∀ root ∈ roots, ∀ n, known.InClosure root n → n ∈ entryNames desc
  path : desc.typeDescription.typeName = typeName
  parts : ∀ part ∈ parts, part ∈ desc.typeDescription.nestedTypeNames
  own : ∀ key definition, known key = some definition →
    definition.typeName ≠ definition.message.msgTypeName →
    definition.message.msgTypeName ∉ entryNames desc

/-- The names of the three types that a service adds. -/
def servicePartNames (typeName : String) : List String :=
  ["_Request", "_Response", "_Event"].map (typeName ++ ·)

/-- The description of a service is closed. -/
def ClosedService (known : Definitions) (srv : ParsedService) (desc : TypeDescriptionMsg) : Prop :=
  ClosedAs known (Names.join srv.package ("srv/" ++ srv.name))
    (servicePartNames (Names.join srv.package ("srv/" ++ srv.name)))
    [srv.request, srv.response] desc

/-- The descriptions that are hashed for an action are closed. -/
structure ClosedAction (known : Definitions) (action : ParsedAction)
    (resolved : ResolvedAction TypeDescriptionMsg) : Prop where
  sendGoal : ClosedAs known (action.typeName "_SendGoal")
    (servicePartNames (action.typeName "_SendGoal")) [action.goal] resolved.sendGoalHash
  getResult : ∀ result ∈ action.result, ClosedAs known (action.typeName "_GetResult")
    (servicePartNames (action.typeName "_GetResult")) [result] resolved.getResultHash
  feedbackMessage : ∀ feedback ∈ action.feedback,
    ClosedAs known (action.typeName "_FeedbackMessage") [action.typeName "_Feedback"]
      [feedback] resolved.feedbackMessageHash
  cancelGoal : ClosedAs known "action_msgs/srv/CancelGoal"
    (servicePartNames "action_msgs/srv/CancelGoal") [] resolved.cancelGoalHash
  status : ClosedAs known "action_msgs/msg/GoalStatusArray" ["action_msgs/msg/GoalStatus"]
    [] resolved.statusHash

/-! ## What the stored descriptions describe -/

/-- The name of a part of a service or an action. -/
def IsPart (name : String) : Prop :=
  ∃ base, ∃ suffix ∈ ["Request", "Response", "Goal", "Result", "Feedback"], name = base ++ suffix

/-- The stored descriptions are those of the definitions. -/
structure Knows (deps : TypeDescriptions) (known : Definitions) : Prop where
  stored : ∀ key : String, deps[key]? = (known key).map fun definition =>
    storedDescription definition.message
  keyed : ∀ key definition, known key = some definition → key = definition.message.messageKey
  plain : ∀ key definition, known key = some definition →
    Names.Plain definition.message.package ∧ Names.Plain definition.message.name
  origin : ∀ key definition, known key = some definition →
    definition.typeName = definition.message.msgTypeName ∨ IsPart definition.message.name

/-- The type names in a stored description are the stored names of the types of its fields. -/
theorem mem_nested_storedDescription {m : ParsedMessage} {n : String} :
    n ∈ (storedDescription m).nestedTypeNames ↔
      ∃ field ∈ m.fields, isPrimitiveType field.fieldType.baseType = false ∧
        n = componentTypeName (field.fieldType.packageIn m.package) field.fieldType.baseType := by
  rw [mem_nestedTypeNames]
  unfold storedDescription
  constructor
  · rintro ⟨hne, fieldDesc, hfieldDesc, rfl⟩
    dsimp only at hfieldDesc
    split at hfieldDesc
    · rw [List.mem_singleton.mp hfieldDesc] at hne
      exact absurd rfl hne
    · obtain ⟨field, hfield, rfl⟩ := List.mem_map.mp hfieldDesc
      rw [storedField_fieldType] at hne ⊢
      cases hprim : isPrimitiveType field.fieldType.baseType with
      | true => simp [hprim] at hne
      | false => exact ⟨field, hfield, hprim, by simp⟩
  · rintro ⟨field, hfield, hprim, rfl⟩
    have hne : componentTypeName (field.fieldType.packageIn m.package) field.fieldType.baseType ≠
        "" := by
      obtain ⟨rest, hrest, -⟩ := componentTypeName_eq_join
        (field.fieldType.packageIn m.package) field.fieldType.baseType
      rw [hrest]
      exact Names.join_ne_empty _ _
    refine ⟨hne, storedField m.package field, ?_, ?_⟩
    · rw [if_neg (List.ne_nil_of_mem hfield)]
      exact List.mem_map_of_mem hfield
    · rw [storedField_fieldType]
      simp [hprim]

/-- The key under which a stored type name is looked up has half its separators at least. -/
theorem slashes_nestedKey (n : String) : Names.slashes n ≤ 2 * Names.slashes (nestedKey n) := by
  unfold nestedKey
  split
  · exact @Names.slashes_replace "msg" (by decide) n
  · split
    · exact @Names.slashes_replace "srv" (by decide) n
    · omega

theorem nestedKey_msg {p b : String} (hp : Names.Plain p) (hb : Names.Plain b) :
    nestedKey (Names.join p ("msg/" ++ b)) = Names.join p b := by
  have hkind : "msg/" ++ b = Names.join "msg" b := rfl
  have hmsg : Names.Plain "msg" := by decide
  unfold nestedKey
  rw [hkind, show "/msg/" = Names.segment "msg" by decide,
    if_pos ((Names.contains_segment hp hmsg hb hmsg).mpr rfl), Names.replace_segment hp hb]

/-- An action component is looked up under its stored name. -/
theorem nestedKey_action {p rest : String} (hp : Names.Plain p) (hrest : Names.Plain rest) :
    nestedKey (Names.join p ("action/" ++ rest)) = Names.join p ("action/" ++ rest) := by
  have hkind : "action/" ++ rest = Names.join "action" rest := rfl
  have hother : ∀ other : String, Names.Plain other → other ≠ "action" →
      ¬ Names.contains (Names.segment other) (Names.join p (Names.join "action" rest)) = true :=
    fun other hplain hne h =>
      hne ((Names.contains_segment hp (by decide) hrest hplain).mp h)
  unfold nestedKey
  rw [hkind, show "/msg/" = Names.segment "msg" by decide,
    show "/srv/" = Names.segment "srv" by decide,
    if_neg (hother "msg" (by decide) (by decide)), if_neg (hother "srv" (by decide) (by decide))]

section Known

variable {deps : TypeDescriptions} {known : Definitions} (hknows : Knows deps known)

include hknows

theorem Knows.slashes_key {key : String} {definition : Definition}
    (h : known key = some definition) : Names.slashes key = 1 := by
  obtain ⟨hpackage, hname⟩ := hknows.plain key definition h
  rw [hknows.keyed key definition h, ParsedMessage.messageKey, Names.slashes_join,
    Names.plain_iff_slashes.mp hpackage, Names.plain_iff_slashes.mp hname]

/-- A definition under a joined key has the two segments as its package and name. -/
theorem Knows.of_join {p b : String} {definition : Definition}
    (h : known (Names.join p b) = some definition) :
    definition.message.package = p ∧ definition.message.name = b := by
  obtain ⟨hp, hb⟩ := Names.plain_of_slashes_join (hknows.slashes_key h).le
  have hkey := hknows.keyed _ definition h
  unfold ParsedMessage.messageKey at hkey
  rw [Names.join_inj hp (hknows.plain _ definition h).1] at hkey
  exact ⟨hkey.1.symm, hkey.2.symm⟩

/-- **What the lookup of a nested type name finds**: the definition of a type that is no action
component. -/
theorem Knows.lookup_iff {p b : String} {desc : TypeDescription} :
    deps[nestedKey (componentTypeName p b)]? = some desc ↔
      ¬ IsActionComponent b ∧ ∃ definition, known (Names.join p b) = some definition ∧
        storedDescription definition.message = desc := by
  rw [hknows.stored, Option.map_eq_some_iff]
  constructor
  · rintro ⟨definition, hfound, hdesc⟩
    -- a key has one separator, so that the type name has two and its segments none
    have hslashes := hknows.slashes_key hfound
    have hbound := slashes_nestedKey (componentTypeName p b)
    rw [hslashes, slashes_componentTypeName] at hbound
    have hp : Names.Plain p := Names.plain_iff_slashes.mpr (by omega)
    have hb : Names.Plain b := Names.plain_iff_slashes.mpr (by omega)
    by_cases hcomponent : IsActionComponent b
    · obtain ⟨rest, hrest, hsame⟩ := componentTypeName_of_isActionComponent hcomponent p
      have hplain : Names.Plain rest := by
        rw [Names.plain_iff_slashes, hsame]
        exact Names.plain_iff_slashes.mp hb
      have htwo := slashes_componentTypeName p b
      rw [hrest] at htwo
      rw [hrest, nestedKey_action hp hplain] at hslashes
      omega
    · rw [componentTypeName_of_not hcomponent, nestedKey_msg hp hb] at hfound
      exact ⟨hcomponent, definition, hfound, hdesc⟩
  · rintro ⟨hcomponent, definition, hfound, hdesc⟩
    obtain ⟨hp, hb⟩ := Names.plain_of_slashes_join (hknows.slashes_key hfound).le
    refine ⟨definition, ?_, hdesc⟩
    rwa [componentTypeName_of_not hcomponent, nestedKey_msg hp hb]

/-- Storing a definition over the old ones. -/
theorem Knows.add {definition : Definition}
    (hplain : Names.Plain definition.message.package ∧ Names.Plain definition.message.name)
    (horigin : definition.typeName = definition.message.msgTypeName ∨
      IsPart definition.message.name) :
    Knows (deps.insert definition.message.messageKey (storedDescription definition.message))
      (known.add definition) := by
  have hget : ∀ key other, known.add definition key = some other →
      (key = definition.message.messageKey ∧ other = definition) ∨ known key = some other := by
    intro key other h
    unfold Definitions.add at h
    by_cases hkey : key = definition.message.messageKey
    · rw [hkey, Function.update_self, Option.some.injEq] at h
      exact .inl ⟨hkey, h.symm⟩
    · rw [Function.update_of_ne hkey] at h
      exact .inr h
  refine ⟨fun key => ?_, fun key other h => ?_, fun key other h => ?_, fun key other h => ?_⟩
  · unfold Definitions.add
    rw [KeyedMap.getElem?_insert]
    by_cases hkey : definition.message.messageKey = key
    · rw [if_pos hkey, ← hkey, Function.update_self, Option.map_some]
    · rw [if_neg hkey, Function.update_of_ne (Ne.symm hkey)]
      exact hknows.stored key
  · rcases hget key other h with ⟨hkey, rfl⟩ | h
    · exact hkey
    · exact hknows.keyed key other h
  · rcases hget key other h with ⟨-, rfl⟩ | h
    · exact hplain
    · exact hknows.plain key other h
  · rcases hget key other h with ⟨-, rfl⟩ | h
    · exact horigin
    · exact hknows.origin key other h

end Known

/-! ## Runs -/

/-- A service as the parser reads it from a file. -/
structure ParsedService.FromFile (srv : ParsedService) : Prop where
  plainPackage : Names.Plain srv.package
  plainName : Names.Plain srv.name
  request : srv.request.package = srv.package ∧ srv.request.name = srv.name ++ "Request"
  response : srv.response.package = srv.package ∧ srv.response.name = srv.name ++ "Response"

/-- An action as the parser reads it from a file. -/
structure ParsedAction.FromFile (action : ParsedAction) : Prop where
  plainPackage : Names.Plain action.package
  plainName : Names.Plain action.name
  goal : action.goal.package = action.package ∧ action.goal.name = action.name ++ "Goal"
  result : ∀ result ∈ action.result,
    result.package = action.package ∧ result.name = action.name ++ "Result"
  feedback : ∀ feedback ∈ action.feedback,
    feedback.package = action.package ∧ feedback.name = action.name ++ "Feedback"

/-- The states of a resolver, without Humble mode and external packages, that has resolved the
messages and then any services and actions. -/
inductive Reached (messages : List ParsedMessage) (zeroHash : TypeDescriptionMsg) :
    Resolver TypeDescriptionMsg → Definitions → Prop
  | messages {self : Resolver TypeDescriptionMsg}
      {resolved : List (ResolvedMessage TypeDescriptionMsg)}
      (h : (Resolver.new false).resolveMessages id messages = .ok (self, resolved)) :
      Reached messages zeroHash self (Definitions.ofResolved self)
  | service {self self' : Resolver TypeDescriptionMsg} {known : Definitions}
      {srv : ParsedService} {resolved : ResolvedService TypeDescriptionMsg}
      (before : Reached messages zeroHash self known) (file : srv.FromFile)
      (h : self.resolveService id zeroHash srv = .ok (self', resolved)) :
      Reached messages zeroHash self' (known.addService srv)
  | action {self self' : Resolver TypeDescriptionMsg} {known : Definitions}
      {action : ParsedAction} {resolved : ResolvedAction TypeDescriptionMsg}
      (before : Reached messages zeroHash self known) (file : action.FromFile)
      (h : self.resolveAction id zeroHash action = .ok (self', resolved)) :
      Reached messages zeroHash self' (known.addAction action)

namespace Resolver

/-- What the loop over messages keeps: the stored descriptions are those of the resolved
messages, which are under their own keys and from the set. -/
structure Stored (messages : List ParsedMessage) (resolver : Resolver H)
    (queue : List ParsedMessage) : Prop where
  plain : resolver.isHumble = false ∧ resolver.externalPackages = []
  paired : ∀ key : String,
    resolver.typeDescriptions[key]? =
      (resolver.resolvedMessages[key]?).map ResolvedMessage.typeDescription
  keyed : ∀ (key : String) (resolved : ResolvedMessage H),
    resolver.resolvedMessages[key]? = some resolved →
      key = resolved.parsed.messageKey ∧ resolved.parsed ∈ messages
  queued : ∀ m ∈ queue, m ∈ messages

theorem visit_stored {messages : List ParsedMessage} {calculateHash : TypeDescriptionMsg → H}
    {self self' : Resolver H} {msg : ParsedMessage} {queue queue' : List ParsedMessage}
    {stagnant stagnant' : ℕ} (hinv : Stored messages self (msg :: queue))
    (h : self.visit calculateHash msg queue stagnant = .ok (self', queue', stagnant')) :
    Stored messages self' queue' := by
  have hmsg : msg ∈ messages := hinv.queued msg List.mem_cons_self
  have hqueue : ∀ m ∈ queue, m ∈ messages := fun m hm =>
    hinv.queued m (List.mem_cons_of_mem _ hm)
  rcases visit_cases h with ⟨resolved, desc, -, rfl, -, -, rfl, rfl⟩ | ⟨rfl, rfl⟩
  · refine ⟨hinv.plain, fun key => ?_, fun key other hother => ?_, hqueue⟩
    · simp only [store, KeyedMap.getElem?_insert]
      split
      · rfl
      · exact hinv.paired key
    · simp only [store, KeyedMap.getElem?_insert] at hother
      split at hother
      · next hkey =>
        cases hother
        exact ⟨hkey.symm, hmsg⟩
      · exact hinv.keyed key other hother
  · refine ⟨hinv.plain, hinv.paired, hinv.keyed, fun m hm => ?_⟩
    rcases List.mem_append.mp hm with hm | hm
    · exact hqueue m hm
    · rwa [List.mem_singleton.mp hm]

theorem resolveMessages_stored {messages : List ParsedMessage}
    {calculateHash : TypeDescriptionMsg → H} {self : Resolver H}
    {resolved : List (ResolvedMessage H)}
    (h : (new false).resolveMessages calculateHash messages = .ok (self, resolved)) :
    Stored messages self [] := by
  obtain ⟨final, hloop, h⟩ := Fallible.bind_eq_ok_iff.mp h
  simp only [Except.ok.injEq, Prod.mk.injEq] at h
  obtain ⟨rfl, rfl⟩ := h
  refine resolveLoop_induct (P := Stored messages) visit_stored ?_ hloop
  refine ⟨⟨rfl, rfl⟩, fun key => ?_, fun key r hr => ?_, fun m hm => hm⟩
  · simp [new, withExternalPackages]
  · simp [new, withExternalPackages] at hr

section Steps

variable {calculateHash : TypeDescriptionMsg → H} {zeroHash : H} {self self' : Resolver H}

theorem parsed_of_resolvePart {msg : ParsedMessage} {resolved : ResolvedMessage H}
    (h : self.resolvePart calculateHash msg = .ok resolved) : resolved.parsed = msg := by
  unfold resolvePart resolveMessage at h
  cases hhash : calculateTypeHash calculateHash msg self.typeDescriptions with
  | error e =>
    rw [hhash] at h
    cases h
  | ok typeHash =>
    rw [hhash] at h
    cases h
    rfl

theorem parsed_of_resolveOptionalPart {msg : Option ParsedMessage}
    {resolved : Option (ResolvedMessage H)}
    (h : self.resolveOptionalPart calculateHash msg = .ok resolved) :
    resolved.map ResolvedMessage.parsed = msg := by
  cases msg with
  | none =>
    cases h
    rfl
  | some msg =>
    obtain ⟨part, hpart, h⟩ := Fallible.bind_eq_ok_iff.mp h
    cases h
    rw [Option.map_some, parsed_of_resolvePart hpart]

/-- What resolving a service does: its parts are stored, and its description is hashed. -/
theorem resolveService_cases {srv : ParsedService} {resolved : ResolvedService H}
    (h : self.resolveService calculateHash zeroHash srv = .ok (self', resolved)) :
    ∃ request response, request.parsed = srv.request ∧ response.parsed = srv.response ∧
      self' = (self.storePart request).storePart response ∧
      (self.isHumble = false → self.externalPackages = [] →
        ∃ desc, self'.describeService srv request response = .ok desc ∧
          resolved.typeHash = calculateHash desc) := by
  unfold resolveService at h
  obtain ⟨request, hrequest, h⟩ := Fallible.bind_eq_ok_iff.mp h
  obtain ⟨response, hresponse, h⟩ := Fallible.bind_eq_ok_iff.mp h
  obtain ⟨typeHash, hhash, h⟩ := Fallible.bind_eq_ok_iff.mp h
  cases h
  refine ⟨request, response, parsed_of_resolvePart hrequest, parsed_of_resolvePart hresponse,
    rfl, fun hhumble hexternal => ?_⟩
  have hplain : (((self.storePart request).storePart response).isHumble ||
      !((self.storePart request).storePart response).externalPackages.isEmpty) = false := by
    simp [storePart, hhumble, hexternal]
  unfold serviceTypeHash at hhash
  rw [hplain, if_neg Bool.false_ne_true] at hhash
  obtain ⟨desc, hdesc, hhash⟩ := Fallible.bind_eq_ok_iff.mp hhash
  exact ⟨desc, hdesc, (Except.ok.inj hhash).symm⟩

/-- What resolving an action does: its parts are stored, and CancelGoal is hashed with them. -/
theorem resolveAction_cases {action : ParsedAction} {resolved : ResolvedAction H}
    (h : self.resolveAction calculateHash zeroHash action = .ok (self', resolved)) :
    ∃ goal result feedback, goal.parsed = action.goal ∧
      result.map ResolvedMessage.parsed = action.result ∧
      feedback.map ResolvedMessage.parsed = action.feedback ∧
      self' = ((self.storePart goal).storeOptionalPart result).storeOptionalPart feedback ∧
      self'.calculateCancelGoalHash calculateHash zeroHash = .ok resolved.cancelGoalHash := by
  unfold resolveAction at h
  obtain ⟨goal, hgoal, h⟩ := Fallible.bind_eq_ok_iff.mp h
  obtain ⟨result, hresult, h⟩ := Fallible.bind_eq_ok_iff.mp h
  obtain ⟨feedback, hfeedback, h⟩ := Fallible.bind_eq_ok_iff.mp h
  obtain ⟨sendGoalHash, -, h⟩ := Fallible.bind_eq_ok_iff.mp h
  obtain ⟨getResultHash, -, h⟩ := Fallible.bind_eq_ok_iff.mp h
  obtain ⟨cancelGoalHash, hcancel, h⟩ := Fallible.bind_eq_ok_iff.mp h
  cases h
  exact ⟨goal, result, feedback, parsed_of_resolvePart hgoal,
    parsed_of_resolveOptionalPart hresult, parsed_of_resolveOptionalPart hfeedback, rfl, hcancel⟩

end Steps

end Resolver

theorem isPart_append (base : String) {suffix : String}
    (h : suffix ∈ ["Request", "Response", "Goal", "Result", "Feedback"]) :
    IsPart (base ++ suffix) :=
  ⟨base, suffix, h, rfl⟩

theorem plain_append {s t : String} (hs : Names.Plain s) (ht : Names.Plain t) :
    Names.Plain (s ++ t) := by
  rw [Names.plain_iff_slashes] at hs ht ⊢
  rw [Names.slashes_append, hs, ht]

section Store

variable {self : Resolver H} {known : Definitions} (hknows : Knows self.typeDescriptions known)
  {package name : String} (hpackage : Names.Plain package) (hname : Names.Plain name)
  (suffix : String) (hsuffix : suffix ∈ ["Request", "Response", "Goal", "Result", "Feedback"])
  (typeName : String)

include hknows hpackage hname hsuffix

/-- Storing a part of a service or an action. -/
theorem Knows.storePart {part : ResolvedMessage H}
    (hpart : part.parsed.package = package ∧ part.parsed.name = name ++ suffix) :
    Knows (self.storePart part).typeDescriptions (known.add ⟨part.parsed, typeName⟩) := by
  have hplain : Names.Plain suffix := by
    have hall : ∀ s ∈ ["Request", "Response", "Goal", "Result", "Feedback"], Names.Plain s := by
      decide
    exact hall suffix hsuffix
  refine @Knows.add _ _ hknows ⟨part.parsed, typeName⟩ ?_ (.inr ?_)
  · dsimp only
    rw [hpart.1, hpart.2]
    exact ⟨hpackage, plain_append hname hplain⟩
  · dsimp only
    rw [hpart.2]
    exact isPart_append name hsuffix

theorem Knows.storeOptionalPart {part : Option (ResolvedMessage H)}
    {msg : Option ParsedMessage} (hmsg : part.map ResolvedMessage.parsed = msg)
    (hpart : ∀ m ∈ msg, m.package = package ∧ m.name = name ++ suffix) :
    Knows (self.storeOptionalPart part).typeDescriptions (known.addPart typeName msg) := by
  cases part with
  | none =>
    subst hmsg
    exact hknows
  | some part =>
    subst hmsg
    exact hknows.storePart hpackage hname suffix hsuffix typeName (hpart part.parsed rfl)

end Store

/-- **In every state that is reached, the stored descriptions are those of the definitions.** -/
theorem Reached.knows {messages : List ParsedMessage}
    (hplain : ∀ m ∈ messages, Names.Plain m.package ∧ Names.Plain m.name)
    {zeroHash : TypeDescriptionMsg} {self : Resolver TypeDescriptionMsg} {known : Definitions}
    (hreached : Reached messages zeroHash self known) :
    (self.isHumble = false ∧ self.externalPackages = []) ∧ Knows self.typeDescriptions known := by
  induction hreached with
  | @messages self resolved h =>
    have hstored := Resolver.resolveMessages_stored h
    have hget : ∀ key definition, Definitions.ofResolved self key = some definition →
        ∃ r, self.resolvedMessages[key]? = some r ∧ definition.message = r.parsed ∧
          definition.typeName = r.parsed.msgTypeName := by
      intro key definition hdefinition
      obtain ⟨r, hr, rfl⟩ := Option.map_eq_some_iff.mp hdefinition
      exact ⟨r, hr, rfl, rfl⟩
    refine ⟨hstored.plain, fun key => ?_, fun key definition hd => ?_,
      fun key definition hd => ?_, fun key definition hd => ?_⟩
    · rw [hstored.paired, Definitions.ofResolved, Option.map_map]
      rfl
    · obtain ⟨r, hr, hmessage, -⟩ := hget key definition hd
      rw [hmessage]
      exact (hstored.keyed key r hr).1
    · obtain ⟨r, hr, hmessage, -⟩ := hget key definition hd
      rw [hmessage]
      exact hplain r.parsed (hstored.keyed key r hr).2
    · obtain ⟨r, -, hmessage, hname⟩ := hget key definition hd
      rw [hmessage, hname]
      exact .inl rfl
  | @service self self' known srv resolved before file h ih =>
    obtain ⟨request, response, hrequest, hresponse, rfl, -⟩ := Resolver.resolveService_cases h
    refine ⟨ih.1, ?_⟩
    unfold Definitions.addService
    rw [← hrequest, ← hresponse]
    have hrequestFile := file.request
    have hresponseFile := file.response
    rw [← hrequest] at hrequestFile
    rw [← hresponse] at hresponseFile
    have hfirst := ih.2.storePart file.plainPackage file.plainName "Request" (by simp)
      (Names.join srv.package ("srv/" ++ srv.name ++ "_Request")) hrequestFile
    exact hfirst.storePart file.plainPackage file.plainName "Response" (by simp)
      (Names.join srv.package ("srv/" ++ srv.name ++ "_Response")) hresponseFile
  | @action self self' known action resolved before file h ih =>
    obtain ⟨goal, result, feedback, hgoal, hresult, hfeedback, rfl, -⟩ :=
      Resolver.resolveAction_cases h
    refine ⟨?_, ?_⟩
    · cases result <;> cases feedback <;> exact ih.1
    · unfold Definitions.addAction
      rw [← hgoal]
      have hgoalFile := file.goal
      rw [← hgoal] at hgoalFile
      have hfirst := ih.2.storePart file.plainPackage file.plainName "Goal" (by simp)
        (action.typeName "_Goal") hgoalFile
      have hsecond := hfirst.storeOptionalPart file.plainPackage file.plainName "Result"
        (by simp) (action.typeName "_Result") hresult file.result
      exact hsecond.storeOptionalPart file.plainPackage file.plainName "Feedback" (by simp)
        (action.typeName "_Feedback") hfeedback file.feedback

end RosZ.Codegen
