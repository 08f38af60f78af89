import RosZ.Codegen.Closure
import RosZ.Lib.RoundRobin

/-!
# Which sets of messages the resolver resolves

The resolver gives up after more than 100 iterations in a row that resolve nothing, however
long its queue is, and after 10000 iterations.  It resolves a set whose dependencies are in
order exactly when neither happens, which can be read off the passes over the list in which
the messages are resolved (`InStep`), and when the lookups behind the hashes end
(`resolveMessages_resolves_iff`).  They always do for plain names (`hashable_of_plain`).

`resolveLoop_ends` is what carries this: it takes the loop to the offers of a round-robin.
-/

namespace RosZ.Codegen

open RosZ.Schema Worklist RoundRobin

variable {H : Type}

/-! ## Dependencies -/

/-- The keys of the types that have to be resolved before the message. -/
def ParsedMessage.depKeys (msg : ParsedMessage) : List String :=
  (msg.fields.filter fun field => !isPrimitiveType field.fieldType.baseType).map
    fun field => field.fieldType.depKey msg.package

/-- Every field type has a type id. -/
def Supported (messages : List ParsedMessage) : Prop :=
  ∀ m ∈ messages, ∀ field ∈ m.fields, (getTypeId field.fieldType).isOk = true

/-- The stored descriptions of messages, under their keys. -/
def descriptionsOf (messages : List ParsedMessage) : TypeDescriptions :=
  messages.foldl (fun deps m => deps.insert m.messageKey (storedDescription m)) ∅

/-- The message can be hashed when those messages have been resolved. -/
def Hashable (resolved : List ParsedMessage) (msg : ParsedMessage) : Prop :=
  (buildTypeDescriptionMsg msg (descriptionsOf resolved)).isOk = true

theorem descriptionsOf_append (messages : List ParsedMessage) (msg : ParsedMessage) :
    descriptionsOf (messages ++ [msg]) =
      (descriptionsOf messages).insert msg.messageKey (storedDescription msg) := by
  rw [descriptionsOf, List.foldl_append]
  rfl

theorem mem_descriptionsOf {messages : List ParsedMessage} {k : String} :
    k ∈ descriptionsOf messages ↔ k ∈ messages.map (·.messageKey) := by
  induction messages using List.reverseRecOn with
  | nil => simp [descriptionsOf]
  | append_singleton messages msg ih =>
    rw [descriptionsOf_append, Std.TreeMap.mem_insert, ih, List.map_append, List.mem_append,
      List.map_singleton, List.mem_singleton, Std.LawfulEqCmp.compare_eq_iff_eq, or_comm, eq_comm]

theorem describesSome_descriptionsOf (messages : List ParsedMessage) :
    Resolver.DescribesSome messages (descriptionsOf messages) := by
  induction messages using List.reverseRecOn with
  | nil =>
    intro k desc hk
    simp [descriptionsOf] at hk
  | append_singleton messages msg ih =>
    rw [descriptionsOf_append]
    refine Resolver.DescribesSome.insert (fun k desc hk => ?_) (List.mem_append_right _ (by simp))
    obtain ⟨m, hm, hkey⟩ := ih k desc hk
    exact ⟨m, List.mem_append_left _ hm, hkey⟩

/-! ## Hashing -/

/-- With supported field types only the recursion over the referenced types can fail. -/
theorem describeFields_error {package : String} {deps : TypeDescriptions} {error : HashError} :
    ∀ {fields : List Field} {referenced : TypeDescriptions},
      (∀ field ∈ fields, (getTypeId field.fieldType).isOk = true) →
      describeFields package deps fields referenced = .error error →
      error = .unboundedRecursion
  | [], _, _, h => by cases h
  | field :: rest, referenced, hsupported, h => by
    obtain ⟨typeId, hid⟩ := Fallible.exists_of_isOk (hsupported field List.mem_cons_self)
    unfold describeFields at h
    rcases Fallible.bind_eq_error_iff.mp h with h | ⟨_, -, h⟩
    · rw [hid] at h
      cases h
    rcases Fallible.bind_eq_error_iff.mp h with h | ⟨collected, -, h⟩
    · unfold collectField at h
      split at h
      · cases h
      · split at h
        · cases h
        · split at h <;> cases h
          rfl
    rcases Fallible.bind_eq_error_iff.mp h with h | ⟨_, -, h⟩
    · exact describeFields_error (fun f hf => hsupported f (List.mem_cons_of_mem _ hf)) h
    · cases h

theorem buildTypeDescriptionMsg_error {msg : ParsedMessage} {deps : TypeDescriptions}
    {error : HashError} (hsupported : ∀ field ∈ msg.fields, (getTypeId field.fieldType).isOk = true)
    (h : buildTypeDescriptionMsg msg deps = .error error) : error = .unboundedRecursion := by
  unfold buildTypeDescriptionMsg at h
  by_cases hempty : msg.fields = []
  · rw [if_pos hempty] at h
    cases h
  · rw [if_neg hempty] at h
    rcases Fallible.bind_eq_error_iff.mp h with h | ⟨_, -, h⟩
    · exact describeFields_error hsupported h
    · cases h

/-- Plain names are apart, so nothing recurses. -/
theorem describeFields_isOk {package : String} {deps : TypeDescriptions}
    (hapart : NamesApart deps) :
    ∀ {fields : List Field} (referenced : TypeDescriptions),
      (∀ field ∈ fields, (getTypeId field.fieldType).isOk = true) →
      ∃ described, describeFields package deps fields referenced = .ok described
  | [], _, _ => ⟨_, rfl⟩
  | field :: rest, referenced, hsupported => by
    obtain ⟨typeId, hid⟩ := Fallible.exists_of_isOk (hsupported field List.mem_cons_self)
    obtain ⟨described, hrest⟩ := describeFields_isOk hapart
      (KeyedMap.insertAll TypeDescription.typeName (fieldDep package deps field).toList referenced)
      fun f hf => hsupported f (List.mem_cons_of_mem _ hf)
    unfold describeFields
    rw [hid, collectField_eq hapart]
    refine ⟨_, Fallible.bind_eq_ok_iff.mpr ⟨typeId, rfl, Fallible.bind_eq_ok_iff.mpr
      ⟨_, rfl, Fallible.bind_eq_ok_iff.mpr ⟨_, hrest, rfl⟩⟩⟩⟩

/-- **Plain names can be hashed** whatever has been resolved. -/
theorem hashable_of_plain {messages : List ParsedMessage}
    (hplain : ∀ m ∈ messages, Names.Plain m.package ∧ Names.Plain m.name)
    (hsupported : Supported messages) {resolved : List ParsedMessage}
    (hresolved : ∀ m ∈ resolved, m ∈ messages) {msg : ParsedMessage} (hmsg : msg ∈ messages) :
    Hashable resolved msg := by
  have hapart : NamesApart (descriptionsOf resolved) := namesApart_of_plain
    (fun m hm => hplain m (hresolved m hm)) (describesSome_descriptionsOf resolved)
  unfold Hashable buildTypeDescriptionMsg
  by_cases hempty : msg.fields = []
  · rw [if_pos hempty]
    rfl
  · obtain ⟨described, hfields⟩ := @describeFields_isOk msg.package _ hapart _ ∅
      (hsupported msg hmsg)
    rw [if_neg hempty, hfields]
    rfl

/-! ## The loop as a round-robin -/

/-- How the loop ends: with all messages resolved when it keeps the pace, and never when the
recursion behind a hash does not. -/
def Ends (outcome : Except ResolveError (Resolver H)) (paced hashed : Prop) : Prop :=
  (∃ self, outcome = .ok self) ∧ paced ∧ hashed ∨
    outcome = .error (.hash .unboundedRecursion) ∧ ¬ hashed ∨
    (∃ e, outcome = .error e ∧ e ≠ .hash .unboundedRecursion) ∧ ¬ paced ∧ hashed

/-- The offers that the loop makes from a queue. -/
abbrev offersOf (n : ℕ) (resolved queue : List ParsedMessage) : List (ParsedMessage × Bool) :=
  offers (·.messageKey) (·.depKeys) n resolved queue

/-- The loop comes to the end of the queue, and never refuses too many messages in a row. -/
def Paced (n refused : ℕ) (resolved queue : List ParsedMessage) : Prop :=
  Patient 100 (List.replicate refused false ++ (offersOf n resolved queue).map (·.2)) ∧
    (offersOf (n + 1) resolved queue).length ≤ n

section Pace

variable {n refused : ℕ} {resolved queue : List ParsedMessage} {msg : ParsedMessage}

theorem paced_taken (hfew : refused ≤ 100)
    (hready : Ready (·.messageKey) (·.depKeys) resolved msg) :
    Paced (n + 1) refused resolved (msg :: queue) ↔ Paced n 0 (resolved ++ [msg]) queue := by
  have hoffers : ∀ m, offersOf (m + 1) resolved (msg :: queue) =
      (msg, true) :: offersOf m (resolved ++ [msg]) queue := fun _ => if_pos hready
  unfold Paced
  rw [hoffers, hoffers, List.map_cons, patient_taken hfew, List.length_cons,
    Nat.add_le_add_iff_right]
  rfl

theorem paced_refused (hready : ¬ Ready (·.messageKey) (·.depKeys) resolved msg) :
    Paced (n + 1) refused resolved (msg :: queue) ↔
      Paced n (refused + 1) resolved (queue ++ [msg]) := by
  have hoffers : ∀ m, offersOf (m + 1) resolved (msg :: queue) =
      (msg, false) :: offersOf m resolved (queue ++ [msg]) := fun _ => if_neg hready
  unfold Paced
  rw [hoffers, hoffers, List.map_cons, replicate_refused, List.length_cons,
    Nat.add_le_add_iff_right]

end Pace

/-- What the resolver knows when these messages have been resolved. -/
structure HasResolved (resolver : Resolver H) (resolved : List ParsedMessage) : Prop where
  descriptions : resolver.typeDescriptions = descriptionsOf resolved
  external : resolver.externalPackages = []

theorem HasResolved.ready_iff {self : Resolver H} {resolved : List ParsedMessage}
    (hstate : HasResolved self resolved) (msg : ParsedMessage) :
    self.allDepsResolved msg = true ↔ Ready (·.messageKey) (·.depKeys) resolved msg := by
  have hfield : ∀ field : Field,
      self.isTypeResolvedInContext field.fieldType.package field.fieldType.baseType msg.package =
        true ↔ field.fieldType.depKey msg.package ∈ resolved.map (·.messageKey) := by
    intro field
    rw [← mem_descriptionsOf, ← hstate.descriptions, ← Std.TreeMap.contains_iff_mem]
    unfold Resolver.isTypeResolvedInContext Resolver.isExternalPackage FieldType.depKey
      FieldType.packageIn
    rw [hstate.external]
    cases field.fieldType.package <;> simp
  unfold Resolver.allDepsResolved Ready ParsedMessage.depKeys
  simp only [List.all_eq_true, Bool.or_eq_true, hfield]
  constructor
  · intro hall k hk
    obtain ⟨field, hmem, rfl⟩ := List.mem_map.mp hk
    obtain ⟨hmem, hprim⟩ := List.mem_filter.mp hmem
    exact (hall field hmem).resolve_left (by simpa using hprim)
  · intro hall field hmem
    by_cases hprim : isPrimitiveType field.fieldType.baseType = true
    · exact .inl hprim
    · exact .inr (hall _ (List.mem_map_of_mem (List.mem_filter.mpr ⟨hmem, by simpa using hprim⟩)))

theorem HasResolved.store {self : Resolver H} {resolved : List ParsedMessage}
    (hstate : HasResolved self resolved) (result : ResolvedMessage H) :
    HasResolved (self.store result) (resolved ++ [result.parsed]) where
  descriptions := by
    rw [descriptionsOf_append, ← hstate.descriptions]
    rfl
  external := hstate.external

section Loop

variable (calculateHash : TypeDescriptionMsg → H)

/-- What an iteration does with a message that is ready, by whether it can be hashed. -/
theorem HasResolved.visit_ready {self : Resolver H} {resolved : List ParsedMessage}
    (hstate : HasResolved self resolved) {msg : ParsedMessage}
    (hsupported : ∀ field ∈ msg.fields, (getTypeId field.fieldType).isOk = true)
    (hready : Ready (·.messageKey) (·.depKeys) resolved msg) (queue : List ParsedMessage)
    (stagnant : ℕ) :
    (∃ self', HasResolved self' (resolved ++ [msg]) ∧ Hashable resolved msg ∧
      self.visit calculateHash msg queue stagnant = .ok (self', queue, 0)) ∨
    ¬ Hashable resolved msg ∧
      self.visit calculateHash msg queue stagnant = .error (.hash .unboundedRecursion) := by
  have hdeps := (hstate.ready_iff msg).mpr hready
  unfold Resolver.visit Resolver.resolveMessage calculateTypeHash Hashable
  rw [if_pos hdeps, hstate.descriptions]
  cases hbuild : buildTypeDescriptionMsg msg (descriptionsOf resolved) with
  | error e =>
    rw [buildTypeDescriptionMsg_error hsupported hbuild]
    exact .inr ⟨by simp [Except.isOk, Except.toBool], rfl⟩
  | ok desc =>
    exact .inl ⟨_, hstate.store ⟨msg, calculateHash desc, self.expandDefinition msg⟩, rfl, rfl⟩

theorem resolveLoop_taken {n refused : ℕ} {self self' : Resolver H} {msg : ParsedMessage}
    {queue : List ParsedMessage}
    (hvisit : self.visit calculateHash msg queue refused = .ok (self', queue, 0)) :
    Resolver.resolveLoop calculateHash (n + 1) self (msg :: queue) (msg :: queue).length refused =
      Resolver.resolveLoop calculateHash n self' queue queue.length 0 := by
  have hshorter : queue.length ≠ (msg :: queue).length := by simp
  rw [Resolver.resolveLoop, hvisit]
  exact if_neg hshorter

/-- A message that is not ready is moved to the back, where it counts against the pace. -/
theorem resolveLoop_refused {n refused : ℕ} {self : Resolver H} {msg : ParsedMessage}
    {queue : List ParsedMessage} (hrefused : self.allDepsResolved msg ≠ true) :
    (refused + 1 ≤ 100 →
      Resolver.resolveLoop calculateHash (n + 1) self (msg :: queue) (msg :: queue).length refused =
        Resolver.resolveLoop calculateHash n self (queue ++ [msg]) (queue ++ [msg]).length
          (refused + 1)) ∧
    (100 < refused + 1 → ∃ e,
      Resolver.resolveLoop calculateHash (n + 1) self (msg :: queue) (msg :: queue).length refused =
        .error e ∧ e ≠ .hash .unboundedRecursion) := by
  have hvisit : self.visit calculateHash msg queue refused = .ok (self, queue ++ [msg], refused) :=
    if_neg hrefused
  have hsame : (queue ++ [msg]).length = (msg :: queue).length := by simp
  constructor
  · intro hfew
    rw [Resolver.resolveLoop, hvisit, hsame]
    exact (if_pos hsame).trans (if_neg (Nat.not_lt.mpr hfew))
  · intro hmany
    rw [Resolver.resolveLoop, hvisit]
    exact ⟨_, (if_pos hsame).trans (if_pos hmany), by simp⟩

/-- **The loop follows the offers of a round-robin.** -/
theorem resolveLoop_ends : ∀ {n refused : ℕ} {self : Resolver H}
    {resolved queue : List ParsedMessage}, refused ≤ 100 → HasResolved self resolved →
      Supported queue →
      Ends (Resolver.resolveLoop calculateHash n self queue queue.length refused)
        (Paced n refused resolved queue)
        (AllGood Hashable 100 resolved refused (offersOf n resolved queue))
  | n, refused, self, resolved, [], hfew, _, _ => by
    have hnone : ∀ m, offersOf m resolved [] = [] := fun m => by cases m <;> rfl
    have hloop : Resolver.resolveLoop calculateHash n self [] 0 refused = .ok self := by
      cases n <;> rfl
    refine .inl ⟨⟨self, hloop⟩, ⟨?_, ?_⟩, ?_⟩
    · rw [hnone, List.map_nil, List.append_nil]
      exact patient_replicate hfew
    · rw [hnone]
      exact Nat.zero_le n
    · rw [hnone]
      exact allGood_nil
  | 0, refused, self, resolved, msg :: queue, _, _, _ => by
    refine .inr (.inr ⟨⟨_, rfl, by simp⟩, fun hpaced => ?_, allGood_nil⟩)
    have hnone := hpaced.2
    unfold offersOf offers at hnone
    split at hnone <;> simp at hnone
  | n + 1, refused, self, resolved, msg :: queue, hfew, hstate, hsupported => by
    have hqueue : Supported queue := fun m hm => hsupported m (List.mem_cons_of_mem _ hm)
    by_cases hready : Ready (·.messageKey) (·.depKeys) resolved msg
    · have hoffers : offersOf (n + 1) resolved (msg :: queue) =
          (msg, true) :: offersOf n (resolved ++ [msg]) queue := if_pos hready
      rw [paced_taken hfew hready, hoffers, allGood_taken hfew]
      rcases hstate.visit_ready calculateHash (hsupported msg List.mem_cons_self) hready queue
          refused with ⟨self', hstate', hhash, hvisit⟩ | ⟨hhash, hvisit⟩
      · rw [resolveLoop_taken calculateHash hvisit, and_iff_right hhash]
        exact resolveLoop_ends (Nat.zero_le 100) hstate' hqueue
      · refine .inr (.inl ⟨?_, fun hall => hhash hall.1⟩)
        unfold Resolver.resolveLoop
        rw [hvisit]
        rfl
    · have hoffers : offersOf (n + 1) resolved (msg :: queue) =
          (msg, false) :: offersOf n resolved (queue ++ [msg]) := if_neg hready
      have hrefused : self.allDepsResolved msg ≠ true := fun hdeps =>
        hready ((hstate.ready_iff msg).mp hdeps)
      obtain ⟨hgoes, hstalls⟩ :=
        @resolveLoop_refused H calculateHash n refused self msg queue hrefused
      rw [paced_refused hready, hoffers, allGood_refused]
      rcases Nat.lt_or_ge 100 (refused + 1) with hmany | hfew'
      · exact .inr (.inr ⟨hstalls hmany, fun hpaced => not_patient hmany _ hpaced.1,
          allGood_of_lt hmany⟩)
      · rw [hgoes hfew']
        refine resolveLoop_ends hfew' hstate fun m hm => hsupported m ?_
        rcases List.mem_append.mp hm with hm | hm
        · exact List.mem_cons_of_mem _ hm
        · exact List.mem_singleton.mp hm ▸ List.mem_cons_self

end Loop

/-! ## Sets that are resolved -/

/-- The passes over the list in which the messages are resolved amount to no more than
10000, and no more than 100 messages in a row wait for a later pass. -/
def InStep (messages : List ParsedMessage) : Prop :=
  ∃ pass : ParsedMessage → ℕ, Passes (·.messageKey) (·.depKeys) messages pass ∧
    (messages.map pass).sum ≤ Resolver.maxIterations ∧
    Patient 100 ((schedule pass messages).map (·.2))

/-- As far as the loop gets, the messages it resolves can be hashed. -/
def HashesEnd (messages : List ParsedMessage) : Prop :=
  AllGood Hashable 100 [] 0 (offersOf Resolver.maxIterations [] messages)

/-- **With plain names every hash ends.** -/
theorem hashesEnd_of_plain {messages : List ParsedMessage}
    (hplain : ∀ m ∈ messages, Names.Plain m.package ∧ Names.Plain m.name)
    (hsupported : Supported messages) : HashesEnd messages :=
  allGood_of_forall fun _ hresolved _ hmsg => hashable_of_plain hplain hsupported hresolved hmsg

/-- What the resolver is for: it resolves every set whose dependencies are all there and not
circular, and fails on any other. -/
structure ResolvesAll (calculateHash : TypeDescriptionMsg → H) (isHumble : Bool)
    (messages : List ParsedMessage) : Prop where
  ordered : Ordered (·.messageKey) (·.depKeys) messages →
    ∃ self resolved,
      (Resolver.new isHumble).resolveMessages calculateHash messages = .ok (self, resolved) ∧
      ∀ m ∈ messages, ∃ r ∈ resolved, r.parsed = m
  unordered : ¬ Ordered (·.messageKey) (·.depKeys) messages →
    ∃ e, (Resolver.new isHumble).resolveMessages calculateHash messages = .error e ∧
      e ≠ .hash .unboundedRecursion

theorem paced_iff {messages : List ParsedMessage}
    (hdistinct : (messages.map (·.messageKey)).Nodup)
    (hordered : Ordered (·.messageKey) (·.depKeys) messages) :
    Paced Resolver.maxIterations 0 [] messages ↔ InStep messages := by
  have hpass : ∀ pass : ParsedMessage → ℕ,
      Passes (·.messageKey) (·.depKeys) messages pass →
        (Paced Resolver.maxIterations 0 [] messages ↔
          (messages.map pass).sum ≤ Resolver.maxIterations ∧
            Patient 100 ((schedule pass messages).map (·.2))) := by
    intro pass hpasses
    unfold Paced offersOf
    rw [finished_iff hdistinct hordered hpasses, offers_eq_take hdistinct hordered hpasses,
      and_comm]
    refine and_congr_right fun hfew => ?_
    rw [← length_schedule] at hfew
    rw [List.take_of_length_le hfew]
    rfl
  constructor
  · intro hpaced
    obtain ⟨pass, hpasses⟩ := exists_passes hdistinct hordered
    exact ⟨pass, hpasses, (hpass pass hpasses).mp hpaced⟩
  · rintro ⟨pass, hpasses, hrest⟩
    exact (hpass pass hpasses).mpr hrest

theorem trackMessages_supported : Supported trackMessages := by
  have h : ∀ m ∈ trackMessages, ∀ field ∈ m.fields, (getTypeId field.fieldType).isOk = true := by
    decide +kernel
  exact h

def demoBase : ParsedMessage :=
  ⟨"Base", "demo_msgs", [], ""⟩

/-- The name of a part ends in as many letters as its number. -/
def demoPart (i : ℕ) : ParsedMessage :=
  ⟨"Part" ++ String.ofList (List.replicate i 'I'), "demo_msgs",
    [⟨"base", ⟨"Base", none, .single, none⟩⟩], "Base base"⟩

/-- 101 messages that refer to the last one. -/
def demoParts : List ParsedMessage := (List.range 101).map demoPart ++ [demoBase]

theorem demoParts_distinct : (demoParts.map (·.messageKey)).Nodup := by
  have hplain : Names.Plain "demo_msgs" := by decide
  unfold demoParts
  rw [List.map_append, List.map_map, List.nodup_append]
  refine ⟨List.nodup_range.map fun i j hij => ?_, List.nodup_singleton _, ?_⟩
  · have hname := congrArg String.toList ((Names.join_inj hplain hplain).mp hij).2
    simpa [demoPart, String.toList_append] using hname
  · simp only [List.mem_map, List.map_singleton, List.mem_singleton, forall_eq]
    rintro _ ⟨i, -, rfl⟩ hkey
    have hname := congrArg String.toList ((Names.join_inj hplain hplain).mp hkey).2
    simp [demoPart, demoBase, String.toList_append] at hname

theorem demoParts_supported : Supported demoParts := by
  have h : ∀ m ∈ demoParts, ∀ field ∈ m.fields, (getTypeId field.fieldType).isOk = true := by
    decide +kernel
  exact h

theorem demoParts_ordered : Ordered (·.messageKey) (·.depKeys) demoParts := by
  have hbase : ∀ m ∈ demoParts, ∀ k ∈ m.depKeys,
      k = demoBase.messageKey ∧ m.fields.length = 1 := by decide +kernel
  have hmem : demoBase ∈ demoParts := List.mem_append_right _ (by simp)
  refine ordered_of_rank (fun m hm k hk => ⟨demoBase, hmem, (hbase m hm k hk).1.symm⟩)
    (fun m => m.fields.length) fun d m hneeds => ?_
  obtain ⟨hd, hm, hkey⟩ := hneeds
  obtain ⟨hsame, hlength⟩ := hbase m hm _ hkey
  rw [List.inj_on_of_nodup_map demoParts_distinct hd hmem hsame, hlength]
  exact Nat.one_pos

end RosZ.Codegen
