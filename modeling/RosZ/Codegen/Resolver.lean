import RosZ.Codegen.Hashing

/-!
# The message resolver

`ros-z-codegen/src/resolver.rs`: the work queue that hashes a message once all the types
of its fields are resolved, and the description it stores for later messages to refer to.

The digest is the parameter `calculateHash`.  `resolved_messages` is a `HashMap` in the
source; here it is an ordered map, whose key order is one of the orders its values may be
returned in.

## Runs

`visit` is one iteration of the loop and `resolveLoop` the loop, which makes at most
`maxIterations` of them.  `Resolved` is what an iteration preserves (`visit_resolved`) and
what a run that succeeds therefore ends with (`resolveMessages_resolved`): every message is
in the result, hashed with descriptions of messages of the set among which those of all its
nested types are.
-/

namespace RosZ.Codegen

open RosZ.Schema

variable {H : Type}

/-! ## Stored descriptions -/

/-- The type name stored for a message, by the suffix of its name.  Action components need an
underscore before the suffix: Fibonacci_Goal, Fibonacci_Result, Fibonacci_Feedback. -/
def componentTypeName (package name : String) : String :=
  match Names.stripEnd "Goal" name with
  | some base => Names.join package ("action/" ++ base ++ "_Goal")
  | none =>
    match Names.stripEnd "Result" name with
    | some base => Names.join package ("action/" ++ base ++ "_Result")
    | none =>
      match Names.stripEnd "Feedback" name with
      | some base => Names.join package ("action/" ++ base ++ "_Feedback")
      | none => Names.join package ("msg/" ++ name)

/-- The description of a field that is stored for other messages to refer to. -/
def storedField (package : String) (field : Field) : FieldDescription where
  name := field.name
  fieldType :=
    { typeId := typeIdOf field.fieldType
      capacity :=
        match field.fieldType.array with
        | .fixed n | .bounded n => n
        | _ => 0
      stringCapacity := field.fieldType.stringBound.getD 0
      nestedTypeName :=
        if isPrimitiveType field.fieldType.baseType then ""
        else componentTypeName (field.fieldType.packageIn package) field.fieldType.baseType }
  defaultValue := ""

/-- The description of a message that is stored for other messages to refer to. -/
def storedDescription (msg : ParsedMessage) : TypeDescription where
  typeName := componentTypeName msg.package msg.name
  fields :=
    if msg.fields = [] then [placeholderField] else msg.fields.map (storedField msg.package)

/-- Resolved message with type hash (after dependency resolution). -/
structure ResolvedMessage (H : Type) where
  parsed : ParsedMessage
  typeHash : H
  definition : String

def ResolvedMessage.typeDescription (self : ResolvedMessage H) : TypeDescription :=
  storedDescription self.parsed

/-! ## The resolver -/

structure Resolver (H : Type) where
  /-- Map of package/name -> TypeDescription for resolved types -/
  typeDescriptions : TypeDescriptions
  /-- Map of package/name -> ResolvedMessage for fully resolved messages -/
  resolvedMessages : Std.TreeMap String (ResolvedMessage H)
  /-- Humble compatibility mode -/
  isHumble : Bool
  /-- External packages whose types are assumed resolved -/
  externalPackages : List String

/-- What `resolve_messages` fails with, with the data its messages show. -/
inductive ResolveError where
  /-- Exceeded maximum iterations - possible circular dependency or missing type. -/
  | exceededIterations (unresolved : ℕ) (stuckMessages : List String)
  /-- Dependency resolution stalled. -/
  | stalled (iterations unresolved : ℕ) (stuckMessages : List (String × List FieldType))
  | hash (error : HashError)
deriving DecidableEq

namespace Resolver

/-- Create a resolver with external packages. -/
def withExternalPackages (isHumble : Bool) (externalPackages : List String) : Resolver H where
  typeDescriptions := ∅
  resolvedMessages := ∅
  isHumble := isHumble
  externalPackages := externalPackages

/-- Create a new resolver. -/
def new (isHumble : Bool) : Resolver H := withExternalPackages isHumble []

/-- Check if a package is external (types come from another crate). -/
def isExternalPackage (self : Resolver H) (package : String) : Bool :=
  package ∈ self.externalPackages

/-- Check if a type is already resolved. -/
def isTypeResolved (self : Resolver H) (package : Option String) (baseType : String) : Bool :=
  match package with
  | some pkg => self.typeDescriptions.contains (Names.join pkg baseType)
  | none => false

/-- Check if a type is resolved, considering same-package references and external packages. -/
def isTypeResolvedInContext (self : Resolver H) (package : Option String) (baseType : String)
    (sourcePackage : String) : Bool :=
  match package with
  | some pkg =>
    self.isExternalPackage pkg || self.typeDescriptions.contains (Names.join pkg baseType)
  | none => self.typeDescriptions.contains (Names.join sourcePackage baseType)

/-- Check if all dependencies for a message are resolved. -/
def allDepsResolved (self : Resolver H) (msg : ParsedMessage) : Bool :=
  msg.fields.all fun field =>
    isPrimitiveType field.fieldType.baseType ||
      self.isTypeResolvedInContext field.fieldType.package field.fieldType.baseType msg.package

/-- The keys of the explicitly packaged types of a message, each once. -/
def packagedTypes (msg : ParsedMessage) : List String :=
  msg.fields.foldl (fun nestedTypes field =>
    match field.fieldType.package with
    | some pkg =>
      let key := Names.join pkg field.fieldType.baseType
      if key ∈ nestedTypes then nestedTypes else nestedTypes ++ [key]
    | none => nestedTypes) []

/-- Expand message definition to include all nested types. -/
def expandDefinition (self : Resolver H) (msg : ParsedMessage) : String :=
  (packagedTypes msg).foldl (fun definition nestedKey =>
    match self.resolvedMessages[nestedKey]? with
    | some resolved =>
      definition ++ "\n\n" ++
        "================================================================================\n" ++
        ("MSG: " ++ nestedKey ++ "\n") ++ resolved.definition
    | none => definition) msg.source

/-- Resolve a single message. -/
def resolveMessage (self : Resolver H) (calculateHash : TypeDescriptionMsg → H)
    (msg : ParsedMessage) : Except HashError (ResolvedMessage H) := do
  let typeHash ← calculateTypeHash calculateHash msg self.typeDescriptions
  .ok { parsed := msg, typeHash, definition := self.expandDefinition msg }

/-- Store a resolved message and the type description other messages can depend on. -/
def store (self : Resolver H) (resolved : ResolvedMessage H) : Resolver H :=
  let key := resolved.parsed.messageKey
  { self with
    typeDescriptions := self.typeDescriptions.insert key resolved.typeDescription
    resolvedMessages := self.resolvedMessages.insert key resolved }

/-- The iteration for the message popped from the front of the queue: the resolver, the queue
and the stagnation counter after it. -/
def visit (self : Resolver H) (calculateHash : TypeDescriptionMsg → H) (msg : ParsedMessage)
    (queue : List ParsedMessage) (stagnantIterations : ℕ) :
    Except ResolveError (Resolver H × List ParsedMessage × ℕ) :=
  if self.allDepsResolved msg then
    match self.resolveMessage calculateHash msg with
    | .ok resolved => .ok (self.store resolved, queue, 0)
    | .error e => .error (.hash e)
  else .ok (self, queue ++ [msg], stagnantIterations)

def maxIterations : ℕ := 10000

/-- The dependencies the error of a stalled resolution lists as missing. -/
def unresolvedDeps (self : Resolver H) (msg : ParsedMessage) : List FieldType :=
  (msg.fields.map (·.fieldType)).filter fun fieldType =>
    !isPrimitiveType fieldType.baseType &&
      !self.isTypeResolved fieldType.package fieldType.baseType

/-- The loop over the queue; `remaining` counts down from `maxIterations`. -/
def resolveLoop (calculateHash : TypeDescriptionMsg → H) :
    (remaining : ℕ) → Resolver H → (queue : List ParsedMessage) →
      (lastQueueSize stagnantIterations : ℕ) → Except ResolveError (Resolver H)
  | _, self, [], _, _ => .ok self
  | 0, _, _ :: queue, _, _ =>
    .error (.exceededIterations (queue.length + 1) ((queue.take 10).map (·.messageKey)))
  | remaining + 1, self, msg :: queue, lastQueueSize, stagnantIterations => do
    let (self, queue, stagnantIterations) ← self.visit calculateHash msg queue stagnantIterations
    -- detect stagnation (no progress being made)
    if queue.length = lastQueueSize then
      if stagnantIterations + 1 > 100 then
        .error (.stalled (maxIterations - remaining) queue.length
          ((queue.take 10).map fun m => (m.messageKey, self.unresolvedDeps m)))
      else resolveLoop calculateHash remaining self queue lastQueueSize (stagnantIterations + 1)
    else resolveLoop calculateHash remaining self queue queue.length 0

/-- Resolve a list of messages, calculating their type hashes and dependencies. -/
def resolveMessages (self : Resolver H) (calculateHash : TypeDescriptionMsg → H)
    (messages : List ParsedMessage) :
    Except ResolveError (Resolver H × List (ResolvedMessage H)) := do
  let self ← resolveLoop calculateHash maxIterations self messages messages.length 0
  .ok (self, KeyedMap.valuesOf self.resolvedMessages)

/-! ## Runs -/

/-- A map that holds stored descriptions of messages of the set under their keys. -/
def DescribesSome (messages : List ParsedMessage) (deps : TypeDescriptions) : Prop :=
  ∀ (k : String) (desc : TypeDescription), deps[k]? = some desc →
    ∃ m ∈ messages, k = m.messageKey ∧ desc = storedDescription m

/-- The type of every field of the message is a primitive, external or in the map. -/
def HasDeps (externalPackages : List String) (msg : ParsedMessage) (deps : TypeDescriptions) :
    Prop :=
  ∀ field ∈ msg.fields, isPrimitiveType field.fieldType.baseType = false →
    field.fieldType.packageIn msg.package ∈ externalPackages ∨
      field.fieldType.depKey msg.package ∈ deps

/-- A message was hashed with the descriptions of its dependencies at hand. -/
def HashedWithDeps (messages : List ParsedMessage) (externalPackages : List String)
    (calculateHash : TypeDescriptionMsg → H) (resolved : ResolvedMessage H) : Prop :=
  ∃ deps desc, DescribesSome messages deps ∧ HasDeps externalPackages resolved.parsed deps ∧
    buildTypeDescriptionMsg resolved.parsed deps = .ok desc ∧
    resolved.typeHash = calculateHash desc

/-- What holds between two iterations of the loop over a set of messages. -/
structure Resolved (messages : List ParsedMessage) (externalPackages : List String)
    (calculateHash : TypeDescriptionMsg → H) (resolver : Resolver H)
    (queue : List ParsedMessage) : Prop where
  external : resolver.externalPackages = externalPackages
  descriptions : DescribesSome messages resolver.typeDescriptions
  keyed : KeyedMap.Keyed (fun resolved => resolved.parsed.messageKey) resolver.resolvedMessages
  hashed : ∀ (k : String) (resolved : ResolvedMessage H),
    resolver.resolvedMessages[k]? = some resolved →
      resolved.parsed ∈ messages ∧
        HashedWithDeps messages externalPackages calculateHash resolved
  queued : ∀ m ∈ queue, m ∈ messages
  accounted : ∀ m ∈ messages, m ∈ queue ∨
    ∃ resolved, resolver.resolvedMessages[m.messageKey]? = some resolved ∧ resolved.parsed = m

/-- A message is hashed only when the types of its fields are external or stored. -/
theorem hasDeps_of_allDepsResolved {self : Resolver H} {msg : ParsedMessage}
    (h : self.allDepsResolved msg = true) :
    HasDeps self.externalPackages msg self.typeDescriptions := by
  intro field hfield hprim
  have hall := List.all_eq_true.mp h field hfield
  rw [hprim, Bool.false_or] at hall
  unfold FieldType.depKey FieldType.packageIn
  unfold isTypeResolvedInContext isExternalPackage at hall
  cases hpkg : field.fieldType.package with
  | none =>
    rw [hpkg] at hall
    exact .inr (Std.TreeMap.contains_iff_mem.mp hall)
  | some pkg =>
    rw [hpkg] at hall
    simp only [Bool.or_eq_true, decide_eq_true_eq] at hall
    exact hall.imp id Std.TreeMap.contains_iff_mem.mp

/-- What one iteration can do: hash and store the message with its dependencies at hand, or
move it to the back of the queue. -/
theorem visit_cases {self self' : Resolver H} {calculateHash : TypeDescriptionMsg → H}
    {msg : ParsedMessage} {queue queue' : List ParsedMessage} {stagnant stagnant' : ℕ}
    (h : self.visit calculateHash msg queue stagnant = .ok (self', queue', stagnant')) :
    (∃ resolved desc, HasDeps self.externalPackages msg self.typeDescriptions ∧
      resolved.parsed = msg ∧ buildTypeDescriptionMsg msg self.typeDescriptions = .ok desc ∧
      resolved.typeHash = calculateHash desc ∧
      self' = self.store resolved ∧ queue' = queue) ∨
    (self' = self ∧ queue' = queue ++ [msg]) := by
  unfold visit at h
  split at h
  · next hdeps =>
    left
    cases hresolve : self.resolveMessage calculateHash msg with
    | error e =>
      rw [hresolve] at h
      cases h
    | ok resolved =>
      rw [hresolve] at h
      obtain ⟨typeHash, hhash, hresolved⟩ := Fallible.bind_eq_ok_iff.mp hresolve
      obtain ⟨desc, hbuild, htypeHash⟩ := Fallible.bind_eq_ok_iff.mp hhash
      simp only [Except.ok.injEq, Prod.mk.injEq] at h hresolved htypeHash
      subst hresolved htypeHash
      exact ⟨_, desc, hasDeps_of_allDepsResolved hdeps, rfl, hbuild, rfl, h.1.symm, h.2.1.symm⟩
  · right
    simp only [Except.ok.injEq, Prod.mk.injEq] at h
    exact ⟨h.1.symm, h.2.1.symm⟩

section Run

variable {messages : List ParsedMessage} {externalPackages : List String}
  {calculateHash : TypeDescriptionMsg → H}

/-- Storing a message keeps the descriptions those of messages of the set. -/
theorem DescribesSome.insert {deps : TypeDescriptions} (h : DescribesSome messages deps)
    {msg : ParsedMessage} (hmsg : msg ∈ messages) :
    DescribesSome messages (deps.insert msg.messageKey (storedDescription msg)) := by
  intro k desc hk
  rw [KeyedMap.getElem?_insert] at hk
  split at hk
  · next hkey =>
    simp only [Option.some.injEq] at hk
    exact ⟨msg, hmsg, hkey.symm, hk.symm⟩
  · exact h k desc hk

theorem visit_resolved (hdistinct : (messages.map (·.messageKey)).Nodup)
    {self self' : Resolver H} {msg : ParsedMessage} {queue queue' : List ParsedMessage}
    {stagnant stagnant' : ℕ}
    (hinv : Resolved messages externalPackages calculateHash self (msg :: queue))
    (h : self.visit calculateHash msg queue stagnant = .ok (self', queue', stagnant')) :
    Resolved messages externalPackages calculateHash self' queue' := by
  have hmsg : msg ∈ messages := hinv.queued msg List.mem_cons_self
  have hqueue : ∀ m ∈ queue, m ∈ messages := fun m hm =>
    hinv.queued m (List.mem_cons_of_mem _ hm)
  rcases visit_cases h with ⟨resolved, desc, hdeps, rfl, hbuild, hhash, rfl, rfl⟩ | ⟨rfl, rfl⟩
  · exact {
      external := hinv.external
      descriptions := hinv.descriptions.insert hmsg
      keyed := hinv.keyed.insert resolved
      hashed := by
        intro k r hr
        simp only [store, KeyedMap.getElem?_insert] at hr
        split at hr
        · simp only [Option.some.injEq] at hr
          subst hr
          rw [hinv.external] at hdeps
          exact ⟨hmsg, _, desc, hinv.descriptions, hdeps, hbuild, hhash⟩
        · exact hinv.hashed k r hr
      queued := hqueue
      accounted := by
        intro m hm
        simp only [store, KeyedMap.getElem?_insert]
        -- the key that is written belongs to the popped message alone
        by_cases hkey : resolved.parsed.messageKey = m.messageKey
        · have hsame := List.inj_on_of_nodup_map hdistinct hmsg hm hkey
          rw [if_pos hkey]
          exact .inr ⟨resolved, rfl, hsame⟩
        · rw [if_neg hkey]
          refine (hinv.accounted m hm).imp_left fun hq => ?_
          rcases List.mem_cons.mp hq with rfl | hq
          · exact absurd rfl hkey
          · exact hq }
  · refine { hinv with queued := ?_, accounted := ?_ }
    · intro m hm
      rcases List.mem_append.mp hm with hm | hm
      · exact hqueue m hm
      · rwa [List.mem_singleton.mp hm]
    · intro m hm
      refine (hinv.accounted m hm).imp_left fun hq => ?_
      rcases List.mem_cons.mp hq with rfl | hq
      · exact List.mem_append_right _ List.mem_cons_self
      · exact List.mem_append_left _ hq

/-- What an iteration preserves holds at the end of a run, where the queue is empty. -/
theorem resolveLoop_induct {P : Resolver H → List ParsedMessage → Prop}
    (hstep : ∀ {self self' : Resolver H} {msg : ParsedMessage} {queue queue' : List ParsedMessage}
      {stagnant stagnant' : ℕ}, P self (msg :: queue) →
      self.visit calculateHash msg queue stagnant = .ok (self', queue', stagnant') →
      P self' queue')
    {remaining : ℕ} {self self' : Resolver H} {queue : List ParsedMessage} {last stagnant : ℕ}
    (hstart : P self queue)
    (h : resolveLoop calculateHash remaining self queue last stagnant = .ok self') :
    P self' [] := by
  induction remaining generalizing self queue last stagnant with
  | zero =>
    cases queue with
    | nil =>
      simp only [resolveLoop, Except.ok.injEq] at h
      rwa [← h]
    | cons msg queue => cases h
  | succ remaining ih =>
    cases queue with
    | nil =>
      simp only [resolveLoop, Except.ok.injEq] at h
      rwa [← h]
    | cons msg queue =>
      unfold resolveLoop at h
      obtain ⟨⟨next, queue', stagnant'⟩, hvisit, h⟩ := Fallible.bind_eq_ok_iff.mp h
      have hnext := hstep hstart hvisit
      dsimp only at h
      split at h
      · split at h
        · cases h
        · exact ih hnext h
      · exact ih hnext h

/-- The invariant of the loop carries to the end of a run. -/
theorem resolveLoop_resolved (hdistinct : (messages.map (·.messageKey)).Nodup) {remaining : ℕ}
    {self self' : Resolver H} {queue : List ParsedMessage} {last stagnant : ℕ}
    (hinv : Resolved messages externalPackages calculateHash self queue)
    (h : resolveLoop calculateHash remaining self queue last stagnant = .ok self') :
    Resolved messages externalPackages calculateHash self' [] :=
  resolveLoop_induct (P := Resolved messages externalPackages calculateHash)
    (visit_resolved hdistinct) hinv h

/-- Every message of a set that is resolved is in the result, hashed with the stored
descriptions of its dependencies at hand, and nothing else is in the result. -/
theorem resolveMessages_resolved (hdistinct : (messages.map (·.messageKey)).Nodup)
    {isHumble : Bool} {self : Resolver H} {resolved : List (ResolvedMessage H)}
    (h : (withExternalPackages isHumble externalPackages).resolveMessages calculateHash messages =
      .ok (self, resolved)) :
    (∀ m ∈ messages, ∃ r ∈ resolved, r.parsed = m) ∧
      (resolved.map (·.parsed.messageKey)).Nodup ∧
      ∀ r ∈ resolved, r.parsed ∈ messages ∧
        HashedWithDeps messages externalPackages calculateHash r := by
  obtain ⟨final, hloop, h⟩ := Fallible.bind_eq_ok_iff.mp h
  simp only [Except.ok.injEq, Prod.mk.injEq] at h
  obtain ⟨rfl, rfl⟩ := h
  have hstart : Resolved messages externalPackages calculateHash
      (withExternalPackages isHumble externalPackages) messages :=
    { external := rfl
      descriptions := by intro k desc hk; simp [withExternalPackages] at hk
      keyed := KeyedMap.keyed_empty _
      hashed := by intro k r hk; simp [withExternalPackages] at hk
      queued := fun m hm => hm
      accounted := fun m hm => .inl hm }
  have hend := resolveLoop_resolved hdistinct hstart hloop
  refine ⟨fun m hm => ?_, hend.keyed.nodup_valuesOf, fun r hr => ?_⟩
  · obtain ⟨r, hr, hparsed⟩ := (hend.accounted m hm).resolve_left List.not_mem_nil
    exact ⟨r, KeyedMap.mem_valuesOf.mpr ⟨_, hr⟩, hparsed⟩
  · obtain ⟨k, hk⟩ := KeyedMap.mem_valuesOf.mp hr
    exact hend.hashed k r hk

end Run

end Resolver

end RosZ.Codegen
