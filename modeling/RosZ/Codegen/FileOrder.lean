import RosZ.Codegen.Closure

/-!
# The order of the messages

The resolver hashes a message in the middle of its loop, against whatever has been resolved
by then.  What the hash reads of that are the descriptions of the message's own fields, which
are all there when it is hashed and do not change afterwards, so that two runs over the same
messages in different orders agree (`resolveMessages_perm`).
-/

namespace RosZ.Codegen

open RosZ.Schema

variable {H : Type} {messages messages' : List ParsedMessage}

namespace Resolver

theorem DescribesSome.mono {deps : TypeDescriptions} (h : DescribesSome messages' deps)
    (hsub : ∀ m ∈ messages', m ∈ messages) : DescribesSome messages deps := by
  intro k desc hk
  obtain ⟨m, hm, hkey⟩ := h k desc hk
  exact ⟨m, hsub m hm, hkey⟩

/-- Messages with all their dependencies at hand find the same descriptions, whatever else has
been resolved. -/
theorem fieldDep_eq (hdistinct : (messages.map (·.messageKey)).Nodup)
    {deps deps' : TypeDescriptions} (hsome : DescribesSome messages deps)
    (hsome' : DescribesSome messages deps') {msg : ParsedMessage} (hdeps : HasDeps [] msg deps)
    (hdeps' : HasDeps [] msg deps') {field : Field} (hfield : field ∈ msg.fields) :
    fieldDep msg.package deps field = fieldDep msg.package deps' field := by
  unfold fieldDep
  cases hprim : isPrimitiveType field.fieldType.baseType with
  | true => rfl
  | false =>
    obtain ⟨desc, hdesc⟩ := KeyedMap.mem_iff.mp
      ((hdeps field hfield hprim).resolve_left List.not_mem_nil)
    obtain ⟨desc', hdesc'⟩ := KeyedMap.mem_iff.mp
      ((hdeps' field hfield hprim).resolve_left List.not_mem_nil)
    obtain ⟨d, hd, hkey, rfl⟩ := hsome _ _ hdesc
    obtain ⟨d', hd', hkey', rfl⟩ := hsome' _ _ hdesc'
    have hsame : d = d' := List.inj_on_of_nodup_map hdistinct hd hd' (hkey.symm.trans hkey')
    simp only [Bool.false_eq_true, if_false]
    rw [hdesc, hdesc', hsame]

/-- The hash of a message depends on the set of messages alone. -/
theorem HashedWithDeps.unique (hdistinct : (messages.map (·.messageKey)).Nodup)
    (hplain : ∀ m ∈ messages, Names.Plain m.package ∧ Names.Plain m.name)
    {calculateHash : TypeDescriptionMsg → H} {r r' : ResolvedMessage H}
    (hhashed : HashedWithDeps messages [] calculateHash r)
    (hhashed' : HashedWithDeps messages [] calculateHash r') (hparsed : r.parsed = r'.parsed) :
    r.typeHash = r'.typeHash := by
  obtain ⟨deps, desc, hsome, hdeps, hbuild, hhash⟩ := hhashed
  obtain ⟨deps', desc', hsome', hdeps', hbuild', hhash'⟩ := hhashed'
  rw [← hparsed] at hdeps' hbuild'
  have hdesc := buildTypeDescriptionMsg_eq_ok (namesApart_of_plain hplain hsome) hbuild
  have hdesc' := buildTypeDescriptionMsg_eq_ok (namesApart_of_plain hplain hsome') hbuild'
  have hfound : r.parsed.fields.filterMap (fieldDep r.parsed.package deps) =
      r.parsed.fields.filterMap (fieldDep r.parsed.package deps') :=
    List.filterMap_congr fun field hfield =>
      fieldDep_eq hdistinct hsome hsome' hdeps hdeps' hfield
  rw [hhash, hhash', hdesc, hdesc', hfound]

/-- Whatever has been resolved is described under its key. -/
def Described (resolver : Resolver H) : Prop :=
  ∀ (k : String) (r : ResolvedMessage H), resolver.resolvedMessages[k]? = some r →
    k = r.parsed.messageKey ∧ resolver.typeDescriptions[k]? = some r.typeDescription

theorem visit_described {calculateHash : TypeDescriptionMsg → H} {self self' : Resolver H}
    {msg : ParsedMessage} {queue queue' : List ParsedMessage} {stagnant stagnant' : ℕ}
    (hbefore : Described self)
    (h : self.visit calculateHash msg queue stagnant = .ok (self', queue', stagnant')) :
    Described self' := by
  rcases visit_cases h with ⟨resolved, -, -, -, -, -, rfl, -⟩ | ⟨rfl, -⟩
  · intro k r hr
    simp only [store, KeyedMap.getElem?_insert] at hr ⊢
    split at hr
    · next hkey =>
      obtain rfl := Option.some.inj hr
      rw [if_pos hkey]
      exact ⟨hkey.symm, rfl⟩
    · next hkey =>
      rw [if_neg hkey]
      exact hbefore k r hr
  · exact hbefore

/-- A message that is in the result is described as what it is stored as. -/
theorem resolveMessages_described {calculateHash : TypeDescriptionMsg → H} {isHumble : Bool}
    {self : Resolver H} {resolved : List (ResolvedMessage H)}
    (h : (new isHumble).resolveMessages calculateHash messages = .ok (self, resolved))
    {r : ResolvedMessage H} (hr : r ∈ resolved) :
    self.typeDescriptions[r.parsed.messageKey]? = some (storedDescription r.parsed) := by
  obtain ⟨final, hloop, h⟩ := Fallible.bind_eq_ok_iff.mp h
  simp only [Except.ok.injEq, Prod.mk.injEq] at h
  obtain ⟨rfl, rfl⟩ := h
  have hstart : Described (new isHumble : Resolver H) := by
    intro k r hk
    simp [new, withExternalPackages] at hk
  have hend : Described final :=
    resolveLoop_induct (P := fun self _ => Described self) visit_described hstart hloop
  obtain ⟨k, hk⟩ := KeyedMap.mem_valuesOf.mp hr
  obtain ⟨rfl, hdesc⟩ := hend k r hk
  exact hdesc

end Resolver

/-- **Neither hashes nor stored descriptions depend on the order of the messages.** -/
theorem resolveMessages_perm (calculateHash : TypeDescriptionMsg → H) (isHumble isHumble' : Bool)
    (hperm : messages'.Perm messages) (hdistinct : (messages.map (·.messageKey)).Nodup)
    (hplain : ∀ m ∈ messages, Names.Plain m.package ∧ Names.Plain m.name)
    {self self' : Resolver H} {resolved resolved' : List (ResolvedMessage H)}
    (h : (Resolver.new isHumble).resolveMessages calculateHash messages = .ok (self, resolved))
    (h' : (Resolver.new isHumble').resolveMessages calculateHash messages' =
      .ok (self', resolved')) :
    (∀ r ∈ resolved, ∀ r' ∈ resolved', r.parsed = r'.parsed → r.typeHash = r'.typeHash) ∧
      ∀ m ∈ messages, (∃ r ∈ resolved, r.parsed = m) ∧ (∃ r' ∈ resolved', r'.parsed = m) ∧
        self.typeDescriptions[m.messageKey]? = some (storedDescription m) ∧
        self'.typeDescriptions[m.messageKey]? = some (storedDescription m) := by
  have hdistinct' : (messages'.map (·.messageKey)).Nodup :=
    (hperm.map _).nodup_iff.mpr hdistinct
  obtain ⟨hall, -, hhashed⟩ := Resolver.resolveMessages_resolved hdistinct h
  obtain ⟨hall', -, hhashed'⟩ := Resolver.resolveMessages_resolved hdistinct' h'
  constructor
  · intro r hr r' hr' hparsed
    obtain ⟨deps, desc, hsome, hrest⟩ := (hhashed' r' hr').2
    have hsame : Resolver.HashedWithDeps messages [] calculateHash r' :=
      ⟨deps, desc, hsome.mono fun m hm => hperm.mem_iff.mp hm, hrest⟩
    exact (hhashed r hr).2.unique hdistinct hplain hsame hparsed
  · intro m hm
    obtain ⟨r, hr, rfl⟩ := hall m hm
    obtain ⟨r', hr', hparsed⟩ := hall' r.parsed (hperm.mem_iff.mpr hm)
    refine ⟨⟨r, hr, rfl⟩, ⟨r', hr', hparsed⟩, Resolver.resolveMessages_described h hr, ?_⟩
    rw [← hparsed]
    exact Resolver.resolveMessages_described h' hr'

/-- The messages of a track may be read in the reverse order. -/
theorem resolveMessages_perm_track :
    ∃ self resolved self' resolved',
      (Resolver.new false).resolveMessages id trackMessages = .ok (self, resolved) ∧
      (Resolver.new true).resolveMessages id trackMessages.reverse = .ok (self', resolved') ∧
      ∀ r ∈ resolved, ∀ r' ∈ resolved', r.parsed = r'.parsed → r.typeHash = r'.typeHash := by
  obtain ⟨⟨self, resolved⟩, h⟩ := Fallible.exists_of_isOk
    (show ((Resolver.new false).resolveMessages id trackMessages).isOk = true by decide +kernel)
  obtain ⟨⟨self', resolved'⟩, h'⟩ := Fallible.exists_of_isOk
    (show ((Resolver.new true).resolveMessages id trackMessages.reverse).isOk = true by
      decide +kernel)
  refine ⟨self, resolved, self', resolved', h, h', ?_⟩
  exact (resolveMessages_perm id false true (List.reverse_perm _) demoTrack_messageSet.distinct
    demoTrack_messageSet.plain h h').1

end RosZ.Codegen
