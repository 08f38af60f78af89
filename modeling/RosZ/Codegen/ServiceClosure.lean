import RosZ.Codegen.Definitions

/-!
# Closed descriptions of services and actions

`describesClosed_iff` says which services are described by closed descriptions: those that are
not named like an action service, whose nested types are all messages that are not named like
an action component, and that collect what ServiceEventInfo and Time refer to.  No action is:
CancelGoal, which is defined by a service file, is always hashed under the path of actions.

The search of a service starts with ServiceEventInfo and Time collected, and does not look
below them.  `Collected` is what it has collected in the end: these two, and the messages that can
be reached from the request and the response past them (`Knows.collected`).
-/

namespace RosZ.Codegen

open RosZ.Schema Relation

/-! ## What a service collects -/

/-- The keys of the types that are collected without a search. -/
def serviceSeeds : List String := ["service_msgs/ServiceEventInfo", "builtin_interfaces/Time"]

/-- Nesting past the types under the keys to avoid. -/
def Definitions.NestsPast (known : Definitions) (avoid : List String) (m d : ParsedMessage) :
    Prop :=
  known.Nests m d ∧ d.messageKey ∉ avoid

/-- The name of a type that a stored description may refer to. -/
def StoredName (n : String) : Prop :=
  ∃ p b, isPrimitiveType b = false ∧ n = componentTypeName p b

/-- The lookup of `collect_nested_deps`. -/
abbrev nestedLookup (deps : TypeDescriptions) (n : String) : Option TypeDescription :=
  deps[nestedKey n]?

theorem storedName_of_nested {m : ParsedMessage} {n : String}
    (hn : n ∈ (storedDescription m).nestedTypeNames) : StoredName n := by
  obtain ⟨field, -, hprim, rfl⟩ := mem_nested_storedDescription.mp hn
  exact ⟨_, _, hprim, rfl⟩

/-- The definition is that of the entry with the name, under its own key. -/
structure EntryOf (known : Definitions) (definition : Definition) (n : String) : Prop where
  known : known definition.message.messageKey = some definition
  custom : isPrimitiveType definition.message.name = false
  noComponent : ¬ IsActionComponent definition.message.name
  name : n = definition.message.msgTypeName

theorem getElem?_insertFound_iff {deps : TypeDescriptions} {found : Option TypeDescription}
    {n : String} {desc : TypeDescription} :
    (insertFound deps found)[n]? = some desc ↔
      (found = some desc ∧ desc.typeName = n) ∨
        (∀ other, found = some other → other.typeName ≠ n) ∧ deps[n]? = some desc := by
  rcases found with _ | other
  · simp [insertFound]
  · rw [insertFound, insertDesc, KeyedMap.getElem?_insert]
    simp only [Option.some.injEq, forall_eq']
    by_cases hn : other.typeName = n
    · rw [if_pos hn, Option.some.injEq]
      constructor
      · rintro rfl
        exact .inl ⟨rfl, hn⟩
      · rintro (⟨rfl, -⟩ | ⟨hother, -⟩)
        · rfl
        · exact absurd hn hother
    · rw [if_neg hn]
      constructor
      · exact fun h => .inr ⟨hn, h⟩
      · rintro (⟨rfl, hsame⟩ | ⟨-, h⟩)
        · exact absurd hsame hn
        · exact h

section Known

variable {deps : TypeDescriptions} {known : Definitions} (hknows : Knows deps known)

include hknows

theorem Knows.nestedLookup_keyed {n : String} {desc : TypeDescription} (hn : StoredName n)
    (h : nestedLookup deps n = some desc) :
    desc.typeName = n ∧ ∀ child ∈ desc.nestedTypeNames, StoredName child := by
  obtain ⟨p, b, -, rfl⟩ := hn
  obtain ⟨-, definition, hfound, rfl⟩ := hknows.lookup_iff.mp h
  obtain ⟨rfl, rfl⟩ := hknows.of_join hfound
  exact ⟨rfl, fun child hchild => storedName_of_nested hchild⟩

/-- What a field's type name finds is the definition of the field's type. -/
theorem Knows.entryOf_lookup {p b : String} (hprim : isPrimitiveType b = false)
    {desc : TypeDescription} (h : nestedLookup deps (componentTypeName p b) = some desc) :
    ∃ definition, EntryOf known definition (componentTypeName p b) ∧
      known (Names.join p b) = some definition ∧ desc = storedDescription definition.message := by
  obtain ⟨hcomponent, definition, hfound, rfl⟩ := hknows.lookup_iff.mp h
  obtain ⟨rfl, rfl⟩ := hknows.of_join hfound
  exact ⟨definition, ⟨hfound, hprim, hcomponent, componentTypeName_of_not hcomponent _⟩, hfound,
    rfl⟩

/-- An entry is found under its name. -/
theorem Knows.lookup_entry {definition : Definition} {n : String}
    (hentry : EntryOf known definition n) :
    nestedLookup deps n = some (storedDescription definition.message) := by
  rw [hentry.name, ParsedMessage.msgTypeName, ← componentTypeName_of_not hentry.noComponent]
  exact hknows.lookup_iff.mpr ⟨hentry.noComponent, definition, hentry.known, rfl⟩

/-- Definitions are told apart by the names they have as messages. -/
theorem Knows.eq_of_msgTypeName {key key' : String} {definition other : Definition}
    (h : known key = some definition) (hother : known key' = some other)
    (hname : definition.message.msgTypeName = other.message.msgTypeName) : definition = other := by
  unfold ParsedMessage.msgTypeName at hname
  rw [Names.join_inj (hknows.plain _ _ h).1 (hknows.plain _ _ hother).1,
    String.append_right_inj] at hname
  have hkey : key = key' := by
    rw [hknows.keyed _ _ h, hknows.keyed _ _ hother, ParsedMessage.messageKey,
      ParsedMessage.messageKey, hname.1, hname.2]
  rw [hkey, hother, Option.some.injEq] at h
  exact h.symm

/-- Entries with one name have one definition. -/
theorem EntryOf.unique {definition other : Definition} {n : String}
    (hentry : EntryOf known definition n) (hother : EntryOf known other n) :
    definition = other :=
  hknows.eq_of_msgTypeName hentry.known hother.known (hentry.name.symm.trans hother.name)

/-- A stored type name that names an entry is that of its definition. -/
theorem EntryOf.of_componentTypeName {p b : String} {definition : Definition}
    (hentry : EntryOf known definition (componentTypeName p b)) :
    definition.message.package = p ∧ definition.message.name = b := by
  obtain ⟨hpackage, hname⟩ := hknows.plain _ _ hentry.known
  -- the name has two separators, so that its segments have none
  have hslashes := slashes_componentTypeName p b
  rw [hentry.name, ParsedMessage.msgTypeName, Names.slashes_join, Names.slashes_append,
    Names.plain_iff_slashes.mp hpackage, Names.plain_iff_slashes.mp hname,
    show Names.slashes "msg/" = 1 by decide] at hslashes
  have hp : Names.Plain p := Names.plain_iff_slashes.mpr (by omega)
  obtain ⟨rfl, rfl, -⟩ := componentTypeName_eq_msg hp hpackage hentry.name
  exact ⟨rfl, rfl⟩

/-- ServiceEventInfo and Time are entries where they are known. -/
theorem Knows.entryOf_seed {key : String} (hkey : key ∈ serviceSeeds) {definition : Definition}
    (h : known key = some definition) :
    EntryOf known definition definition.message.msgTypeName := by
  have hown := h
  rw [hknows.keyed key definition h] at hown
  have hnames : ∀ p b, known (Names.join p b) = some definition →
      isPrimitiveType b = false → ¬ IsActionComponent b →
      EntryOf known definition definition.message.msgTypeName := by
    intro p b hjoin hprim hcomponent
    obtain ⟨-, rfl⟩ := hknows.of_join hjoin
    exact ⟨hown, hprim, hcomponent, rfl⟩
  simp only [serviceSeeds, List.mem_cons, List.not_mem_nil, or_false] at hkey
  rcases hkey with rfl | rfl
  · exact hnames "service_msgs" "ServiceEventInfo" h (by decide) (by decide)
  · exact hnames "builtin_interfaces" "Time" h (by decide) (by decide)

/-- What is known under a key that is collected without a search. -/
theorem Knows.stored_seed {key : String} (hkey : key ∈ serviceSeeds) {n : String}
    {desc : TypeDescription} :
    deps[key]? = some desc ∧ desc.typeName = n ↔
      ∃ definition, known key = some definition ∧ EntryOf known definition n ∧
        desc = storedDescription definition.message := by
  have hname : ∀ definition, known key = some definition →
      (storedDescription definition.message).typeName = definition.message.msgTypeName :=
    fun definition h => componentTypeName_of_not (hknows.entryOf_seed hkey h).noComponent _
  rw [hknows.stored, Option.map_eq_some_iff]
  constructor
  · rintro ⟨⟨definition, hknown, rfl⟩, rfl⟩
    rw [hname definition hknown]
    exact ⟨definition, hknown, hknows.entryOf_seed hkey hknown, rfl⟩
  · rintro ⟨definition, hknown, hentry, rfl⟩
    rw [hname definition hknown]
    exact ⟨⟨definition, hknown, rfl⟩, hentry.name.symm⟩

/-- The types that are collected without a search, under their names. -/
theorem Knows.seeds_iff {info : TypeDescription}
    (hinfo : deps["service_msgs/ServiceEventInfo"]? = some info) {n : String}
    {desc : TypeDescription} :
    (insertFound (insertDesc ∅ info) deps["builtin_interfaces/Time"]?)[n]? = some desc ↔
      ∃ key ∈ serviceSeeds, ∃ definition, known key = some definition ∧
        EntryOf known definition n ∧ desc = storedDescription definition.message := by
  have htime := @Knows.stored_seed _ _ hknows "builtin_interfaces/Time" (by decide) n
  have hevent := @Knows.stored_seed _ _ hknows "service_msgs/ServiceEventInfo" (by decide) n
  rw [hinfo] at hevent
  rw [getElem?_insertFound_iff, insertDesc, KeyedMap.getElem?_insert]
  simp only [serviceSeeds, List.mem_cons, List.not_mem_nil, or_false, exists_eq_or_imp,
    exists_eq_left, ← htime, ← hevent, Option.some.injEq]
  constructor
  · rintro (hlater | ⟨-, hfirst⟩)
    · exact .inr hlater
    · split at hfirst
      · next hn =>
        cases hfirst
        exact .inl ⟨rfl, hn⟩
      · simp at hfirst
  · rintro (⟨rfl, hn⟩ | hlater)
    · by_cases hsame : ∃ other, deps["builtin_interfaces/Time"]? = some other ∧ other.typeName = n
      · -- two entries with one name are one
        obtain ⟨other, hfound⟩ := hsame
        obtain ⟨time, -, hentryTime, rfl⟩ := htime.mp hfound
        obtain ⟨event, -, hentry, rfl⟩ := hevent.mp ⟨rfl, hn⟩
        rw [EntryOf.unique hknows hentry hentryTime]
        exact .inl hfound
      · rw [if_pos hn]
        exact .inr ⟨fun other hother hothern => hsame ⟨other, hother, hothern⟩, rfl⟩
    · exact .inl hlater

end Known

/-- What the search over the parts of a service has collected: entries that are collected
without a search or can be reached past these, and all that its entries refer to. -/
structure Collected (known : Definitions) (roots : List ParsedMessage)
    (collected : TypeDescriptions) : Prop where
  sound : ∀ (n : String) (desc : TypeDescription), collected[n]? = some desc →
    ∃ definition, EntryOf known definition n ∧ desc = storedDescription definition.message ∧
      (definition.message.messageKey ∈ serviceSeeds ∨ ∃ root ∈ roots,
        TransGen (known.NestsPast serviceSeeds) root definition.message)
  seeds : ∀ key ∈ serviceSeeds, ∀ definition, known key = some definition →
    definition.message.msgTypeName ∈ collected
  roots : ∀ root ∈ roots, ∀ n ∈ (storedDescription root).nestedTypeNames,
    ∀ definition, EntryOf known definition n → n ∈ collected
  closed : ∀ m n, EntryOf known m n → n ∈ collected → m.message.messageKey ∉ serviceSeeds →
    ∀ n' ∈ (storedDescription m.message).nestedTypeNames,
      ∀ definition, EntryOf known definition n' → n' ∈ collected

/-- One step of the search, from a message to a type that its stored description names. -/
theorem Knows.nestsPast {deps : TypeDescriptions} {known : Definitions}
    (hknows : Knows deps known) {info : TypeDescription}
    (hinfo : deps["service_msgs/ServiceEventInfo"]? = some info) {m : ParsedMessage} {n : String}
    (hn : n ∈ (storedDescription m).nestedTypeNames) {desc : TypeDescription}
    (hfound : nestedLookup deps n = some desc)
    (hfree : n ∉ insertFound (insertDesc ∅ info) deps["builtin_interfaces/Time"]?) :
    ∃ definition, EntryOf known definition n ∧ desc = storedDescription definition.message ∧
      known.NestsPast serviceSeeds m definition.message := by
  obtain ⟨field, hfield, hprim, rfl⟩ := mem_nested_storedDescription.mp hn
  obtain ⟨definition, hentry, hknown, hdesc⟩ := hknows.entryOf_lookup hprim hfound
  refine ⟨definition, hentry, hdesc, ⟨field, hfield, isNested_of_not_primitive hprim,
    definition, hknown, rfl⟩, fun hseed => hfree ?_⟩
  rw [KeyedMap.mem_iff]
  exact ⟨_, (hknows.seeds_iff hinfo).mpr ⟨_, hseed, definition, hentry.known, hentry, rfl⟩⟩

/-- What the search reaches from its roots: along a path, every name is that of a message
below a root. -/
theorem Knows.transGen_of_reached {deps : TypeDescriptions} {known : Definitions}
    (hknows : Knows deps known) {info : TypeDescription}
    (hinfo : deps["service_msgs/ServiceEventInfo"]? = some info) {roots : List ParsedMessage}
    {n : String} {desc : TypeDescription} (hfound : nestedLookup deps n = some desc)
    (hreached : Search.Reached (nestedLookup deps) TypeDescription.nestedTypeNames
      (insertFound (insertDesc ∅ info) deps["builtin_interfaces/Time"]?)
      (roots.flatMap fun root => (storedDescription root).nestedTypeNames) n) :
    ∃ definition, EntryOf known definition n ∧ desc = storedDescription definition.message ∧
      ∃ root ∈ roots, TransGen (known.NestsPast serviceSeeds) root definition.message := by
  obtain ⟨start, hstart, hfreeStart, -, path⟩ := hreached
  obtain ⟨root, hroot, hnested⟩ := List.mem_flatMap.mp hstart
  induction path generalizing desc with
  | refl =>
    obtain ⟨definition, hentry, hstored, hstep⟩ :=
      hknows.nestsPast hinfo hnested hfound hfreeStart
    exact ⟨definition, hentry, hstored, root, hroot, .single hstep⟩
  | tail _ hstep ih =>
    obtain ⟨node, hnode, hchild, hfreeChild, -⟩ := hstep
    obtain ⟨above, -, rfl, root, hroot, hpath⟩ := ih hnode
    obtain ⟨definition, hentry, hstored, hstep⟩ :=
      hknows.nestsPast hinfo hchild hfound hfreeChild
    exact ⟨definition, hentry, hstored, root, hroot, hpath.tail hstep⟩

/-- The search is not over for a name whose message is none of those it starts with. -/
theorem Knows.not_mem_seeds {deps : TypeDescriptions} {known : Definitions}
    (hknows : Knows deps known) {info : TypeDescription}
    (hinfo : deps["service_msgs/ServiceEventInfo"]? = some info) {m : Definition} {n : String}
    (hentry : EntryOf known m n) (hfree : m.message.messageKey ∉ serviceSeeds) :
    n ∉ insertFound (insertDesc ∅ info) deps["builtin_interfaces/Time"]? := by
  intro hseed
  obtain ⟨desc, hget⟩ := KeyedMap.mem_iff.mp hseed
  obtain ⟨key, hkey, other, hknown, hother, -⟩ := (hknows.seeds_iff hinfo).mp hget
  rw [hknows.keyed key other hknown, ← hentry.unique hknows hother] at hkey
  exact hfree hkey

/-- **What the search of a service collects.** -/
theorem Knows.collected {deps : TypeDescriptions} {known : Definitions}
    (hknows : Knows deps known) {info : TypeDescription}
    (hinfo : deps["service_msgs/ServiceEventInfo"]? = some info) {roots : List ParsedMessage}
    {collected : TypeDescriptions}
    (hcollects : Search.Collects (nestedLookup deps) TypeDescription.nestedTypeNames
      (roots.flatMap fun root => (storedDescription root).nestedTypeNames)
      (insertFound (insertDesc ∅ info) deps["builtin_interfaces/Time"]?) collected) :
    Collected known roots collected := by
  refine ⟨fun n desc hget => ?_, fun key hkey definition hknown => ?_,
    fun root hroot n hn definition hentry => ?_, fun m n hentry hmem hfree n' hn' d hd => ?_⟩
  · by_cases hseed : n ∈ insertFound (insertDesc ∅ info) deps["builtin_interfaces/Time"]?
    · obtain ⟨desc', hget'⟩ := KeyedMap.mem_iff.mp hseed
      have hsame : desc' = desc :=
        Option.some.inj ((hcollects.kept n desc' hget').symm.trans hget)
      obtain ⟨key, hkey, definition, hknown, hentry, hdesc⟩ :=
        (hknows.seeds_iff hinfo).mp hget'
      rw [hsame] at hdesc
      rw [hknows.keyed key definition hknown] at hkey
      exact ⟨definition, hentry, hdesc, .inl hkey⟩
    · obtain ⟨hfound, hreached⟩ := hcollects.found n desc hget hseed
      obtain ⟨definition, hentry, hdesc, hpath⟩ :=
        hknows.transGen_of_reached hinfo hfound hreached
      exact ⟨definition, hentry, hdesc, .inr hpath⟩
  · have hentry := hknows.entryOf_seed hkey hknown
    have hseed := (hknows.seeds_iff hinfo).mpr ⟨key, hkey, definition, hknown, hentry, rfl⟩
    exact hcollects.kept_mem (KeyedMap.mem_iff.mpr ⟨_, hseed⟩)
  · exact hcollects.covered n (List.mem_flatMap.mpr ⟨root, hroot, hn⟩) _
      (hknows.lookup_entry hentry)
  · obtain ⟨desc, hget⟩ := KeyedMap.mem_iff.mp hmem
    have hnotSeed := hknows.not_mem_seeds hinfo hentry hfree
    have hfound := (hcollects.found n desc hget hnotSeed).1
    rw [hknows.lookup_entry hentry, Option.some.injEq] at hfound
    rw [hfound] at hn'
    exact hcollects.closed n desc hget hnotSeed n' hn' _ (hknows.lookup_entry hd)

theorem Resolver.collects_of_collectNestedDeps {H : Type} {self : Resolver H}
    {known : Definitions} (hknows : Knows self.typeDescriptions known) {m : ParsedMessage}
    {before after : TypeDescriptions}
    (h : self.collectNestedDeps (storedDescription m) before = .ok after) :
    Search.Collects (nestedLookup self.typeDescriptions) TypeDescription.nestedTypeNames
      (storedDescription m).nestedTypeNames before after := by
  unfold Resolver.collectNestedDeps at h
  split at h
  · next hcollect =>
    cases h
    exact Search.collects_of_collect (fun _ _ hn hfound => hknows.nestedLookup_keyed hn hfound)
      (fun _ hn => storedName_of_nested hn) hcollect
  · cases h

/-- The search over a stored description ends: its fuel is enough. -/
theorem Resolver.exists_collectNestedDeps {H : Type} {self : Resolver H} {known : Definitions}
    (hknows : Knows self.typeDescriptions known) (m : ParsedMessage)
    (before : TypeDescriptions) :
    ∃ after, self.collectNestedDeps (storedDescription m) before = .ok after := by
  -- all names that can be found are those of stored descriptions
  have hcomplete : ∀ n desc, StoredName n → nestedLookup self.typeDescriptions n = some desc →
      n ∈ (KeyedMap.valuesOf self.typeDescriptions).map (·.typeName) := by
    intro n desc hn hfound
    rw [← (hknows.nestedLookup_keyed hn hfound).1]
    exact List.mem_map_of_mem (KeyedMap.mem_valuesOf.mpr ⟨_, hfound⟩)
  have henough : Search.unseen ((KeyedMap.valuesOf self.typeDescriptions).map (·.typeName)) before <
      self.typeDescriptions.size + 1 := by
    refine Nat.lt_succ_of_le ((List.length_filter_le _ _).trans ?_)
    rw [List.length_map, KeyedMap.valuesOf, List.length_map, Std.TreeMap.length_toList]
  obtain ⟨after, hcollect⟩ := Search.exists_collect
    (fun _ _ hn hfound => hknows.nestedLookup_keyed hn hfound) hcomplete
    (fun _ hn => storedName_of_nested hn) henough
  refine ⟨after, ?_⟩
  unfold Resolver.collectNestedDeps
  rw [hcollect]

/-- What is described for a service: its parts, with what the search over them collects. -/
theorem Resolver.describeService_cases {H : Type} {self : Resolver H} {known : Definitions}
    (hknows : Knows self.typeDescriptions known) {srv : ParsedService}
    {request response : ResolvedMessage H} {desc : TypeDescriptionMsg}
    (h : self.describeService srv request response = .ok desc) :
    ∃ event collected, known "service_msgs/ServiceEventInfo" = some event ∧
      Collected known [request.parsed, response.parsed] collected ∧
      desc = serviceDescription srv.package srv.name (storedDescription request.parsed)
        (storedDescription response.parsed) (storedDescription event.message) collected := by
  unfold Resolver.describeService at h
  split at h
  · cases h
  · next info hinfo =>
    obtain ⟨afterRequest, hrequest, h⟩ := Fallible.bind_eq_ok_iff.mp h
    obtain ⟨afterResponse, hresponse, h⟩ := Fallible.bind_eq_ok_iff.mp h
    cases h
    have hboth := (collects_of_collectNestedDeps hknows hrequest).append
      (collects_of_collectNestedDeps hknows hresponse)
    have hcollected := @Knows.collected _ _ hknows _ hinfo [request.parsed, response.parsed] _
      (by simpa using hboth)
    rw [hknows.stored, Option.map_eq_some_iff] at hinfo
    obtain ⟨event, hevent, rfl⟩ := hinfo
    exact ⟨event, afterResponse, hevent, hcollected, rfl⟩

/-! ## The entries of a service's description -/

theorem join_append (p q s : String) : Names.join p q ++ s = Names.join p (q ++ s) := by
  unfold Names.join
  rw [String.append_assoc]

/-- A stored type name never has the path of services. -/
theorem componentTypeName_ne_srv {p b package name : String} (hpackage : Names.Plain package)
    (hname : Names.Plain name) : componentTypeName p b ≠ Names.join package ("srv/" ++ name) := by
  intro h
  have hslashes := slashes_componentTypeName p b
  rw [h, Names.slashes_join, Names.slashes_append, Names.plain_iff_slashes.mp hpackage,
    Names.plain_iff_slashes.mp hname, show Names.slashes "srv/" = 1 by decide] at hslashes
  have hp : Names.Plain p := Names.plain_iff_slashes.mpr (by omega)
  by_cases hcomponent : IsActionComponent b
  · obtain ⟨rest, hrest, -⟩ := componentTypeName_of_isActionComponent hcomponent p
    rw [hrest, Names.join_inj hp hpackage] at h
    have hlist := congrArg String.toList h.2
    simp [String.toList_append] at hlist
  · rw [componentTypeName_of_not hcomponent, Names.join_inj hp hpackage] at h
    have hlist := congrArg String.toList h.2
    simp [String.toList_append] at hlist

theorem not_mem_servicePartNames {p b package name : String} (hpackage : Names.Plain package)
    (hname : Names.Plain name) :
    componentTypeName p b ∉ servicePartNames (Names.join package ("srv/" ++ name)) := by
  intro h
  obtain ⟨suffix, hsuffix, hsame⟩ := List.mem_map.mp h
  have hplain : Names.Plain (name ++ suffix) := by
    refine plain_append hname ?_
    have hall : ∀ s ∈ ["_Request", "_Response", "_Event"], Names.Plain s := by decide
    exact hall suffix hsuffix
  rw [join_append, String.append_assoc] at hsame
  exact componentTypeName_ne_srv hpackage hplain hsame.symm

/-- The parts of a service have the names of its parts. -/
theorem mem_map_serviceParts {typeName n : String} {request response info : TypeDescription} :
    n ∈ (serviceParts typeName request response info).map (·.typeName) ↔
      n ∈ servicePartNames typeName := by
  simp only [serviceParts, eventDescription, servicePartNames, List.map_cons, List.map_nil,
    List.mem_cons, List.not_mem_nil, or_false]
  constructor
  · rintro (h | h | h)
    · exact .inr (.inr h)
    · exact .inl h
    · exact .inr (.inl h)
  · rintro (h | h | h)
    · exact .inr (.inl h)
    · exact .inr (.inr h)
    · exact .inl h

theorem nodup_serviceParts {typeName : String} {request response info : TypeDescription} :
    ((serviceParts typeName request response info).map (·.typeName)).Nodup := by
  simp only [serviceParts, eventDescription, List.map_cons, List.map_nil, List.nodup_cons,
    List.mem_cons, List.not_mem_nil, or_false, String.append_right_inj, List.nodup_nil]
  decide

theorem nodup_entryNames (package name : String) (request response info : TypeDescription)
    (collected : TypeDescriptions) :
    (entryNames (serviceDescription package name request response info collected)).Nodup := by
  unfold entryNames serviceDescription sortedValues
  dsimp only
  rw [((List.perm_insertionSort _ _).map _).nodup_iff]
  exact (KeyedMap.keyed_insertAll _ (KeyedMap.keyed_empty _)).nodup_valuesOf

/-- The names in the main description of a service are those of its parts. -/
theorem nested_serviceDescription {package name : String} (hservice : isActionService name = false)
    (request response info : TypeDescription) (collected : TypeDescriptions) :
    (serviceDescription package name request response info
        collected).typeDescription.nestedTypeNames =
      servicePartNames (Names.join package ("srv/" ++ name)) := by
  unfold serviceDescription
  rw [hservice]
  simp [TypeDescription.nestedTypeNames, plainField, FieldTypeDescription.nested,
    servicePartNames, join_append, Names.join_ne_empty]

/-- The names in the event of a service. -/
theorem nested_eventDescription {typeName info request response : String} {n : String}
    (hn : n ∈ (eventDescription typeName info request response).nestedTypeNames) :
    n = info ∨ n = request ∨ n = response := by
  obtain ⟨-, field, hfield, rfl⟩ := mem_nestedTypeNames.mp hn
  simp only [eventDescription, List.mem_cons, List.not_mem_nil, or_false] at hfield
  rcases hfield with rfl | rfl | rfl
  · exact .inl rfl
  · exact .inr (.inl rfl)
  · exact .inr (.inr rfl)

section Entries

variable {known : Definitions} {roots : List ParsedMessage} {collected : TypeDescriptions}
  (hcollected : Collected known roots collected)

include hcollected

/-- What is collected stands under its own type name. -/
theorem Collected.keyed : KeyedMap.Keyed TypeDescription.typeName collected := by
  intro n desc h
  obtain ⟨definition, hentry, rfl, -⟩ := hcollected.sound n desc h
  rw [hentry.name]
  exact (componentTypeName_of_not hentry.noComponent _).symm

variable {package name : String} (hpackage : Names.Plain package) (hname : Names.Plain name)
  (hservice : isActionService name = false) {request response info : TypeDescription}

include hpackage hname

theorem Collected.not_part {n : String} (hn : n ∈ collected) :
    n ∉ servicePartNames (Names.join package ("srv/" ++ name)) := by
  obtain ⟨desc, hget⟩ := KeyedMap.mem_iff.mp hn
  obtain ⟨definition, hentry, -, -⟩ := hcollected.sound n desc hget
  rw [hentry.name, ParsedMessage.msgTypeName, ← componentTypeName_of_not hentry.noComponent]
  exact not_mem_servicePartNames hpackage hname

theorem Collected.nodup :
    ((KeyedMap.valuesOf collected ++ serviceParts (Names.join package ("srv/" ++ name)) request
      response info).map (·.typeName)).Nodup := by
  rw [List.map_append, List.nodup_append]
  refine ⟨hcollected.keyed.nodup_valuesOf, nodup_serviceParts, fun n hn n' hn' hsame => ?_⟩
  obtain ⟨desc, hdesc, rfl⟩ := List.mem_map.mp hn
  obtain ⟨k, hget⟩ := KeyedMap.mem_valuesOf.mp hdesc
  have hk := hcollected.keyed k desc hget
  refine hcollected.not_part hpackage hname (KeyedMap.mem_iff.mpr ⟨desc, hget⟩) ?_
  rw [hk, hsame]
  exact mem_map_serviceParts.mp hn'

include hservice

/-- The entries of a service's description are what was collected, and its three parts. -/
theorem Collected.mem_referenced {desc : TypeDescription} :
    desc ∈ (serviceDescription package name request response info
        collected).referencedTypeDescriptions ↔
      (∃ n : String, collected[n]? = some desc) ∨
        desc ∈ serviceParts (Names.join package ("srv/" ++ name)) request response info := by
  unfold serviceDescription sortedValues
  rw [hservice]
  simp only [Bool.false_eq_true, if_false, List.mem_insertionSort]
  rw [KeyedMap.mem_valuesOf_insertAll_iff (hcollected.nodup hpackage hname), List.mem_append,
    KeyedMap.mem_valuesOf]

/-- Their names. -/
theorem Collected.mem_entryNames {n : String} :
    n ∈ entryNames (serviceDescription package name request response info collected) ↔
      n ∈ collected ∨ n ∈ servicePartNames (Names.join package ("srv/" ++ name)) := by
  unfold entryNames
  rw [List.mem_map, ← @mem_map_serviceParts _ n request response info, List.mem_map]
  constructor
  · rintro ⟨desc, hdesc, rfl⟩
    rcases (hcollected.mem_referenced hpackage hname hservice).mp hdesc with ⟨k, hget⟩ | hpart
    · rw [← hcollected.keyed k desc hget]
      exact .inl (KeyedMap.mem_iff.mpr ⟨desc, hget⟩)
    · exact .inr ⟨desc, hpart, rfl⟩
  · rintro (hn | ⟨desc, hpart, rfl⟩)
    · obtain ⟨desc, hget⟩ := KeyedMap.mem_iff.mp hn
      exact ⟨desc, (hcollected.mem_referenced hpackage hname hservice).mpr (.inl ⟨n, hget⟩),
        (hcollected.keyed n desc hget).symm⟩
    · exact ⟨desc, (hcollected.mem_referenced hpackage hname hservice).mpr (.inr hpart), rfl⟩

/-- No entry stands twice. -/
theorem Collected.count_entryNames {n : String} :
    (entryNames (serviceDescription package name request response info collected)).count n = 1 ↔
      n ∈ collected ∨ n ∈ servicePartNames (Names.join package ("srv/" ++ name)) := by
  rw [← @Collected.mem_entryNames _ _ _ hcollected _ _ hpackage hname hservice request response
    info n]
  constructor
  · intro h
    rw [← List.count_pos_iff, h]
    exact Nat.one_pos
  · exact fun h => List.count_eq_one_of_mem (nodup_entryNames _ _ _ _ _ _) h

/-- Every type name in the description of a service names an entry exactly when what it has
collected is closed. -/
theorem Collected.named_iff {m d : ParsedMessage} (hinfo : info.typeName ∈ collected) :
    (∀ n ∈ (serviceDescription package name (storedDescription m) (storedDescription d) info
        collected).nestedTypeNames,
      (entryNames (serviceDescription package name (storedDescription m) (storedDescription d)
        info collected)).count n = 1) ↔
      (∀ root ∈ [m, d], ∀ n ∈ (storedDescription root).nestedTypeNames, n ∈ collected) ∧
        ∀ (n : String) (desc : TypeDescription), collected[n]? = some desc →
          ∀ n' ∈ desc.nestedTypeNames, n' ∈ collected := by
  have hcount := fun n => @Collected.count_entryNames _ _ _ hcollected _ _ hpackage hname hservice
    (storedDescription m) (storedDescription d) info n
  have hmem := fun desc => @Collected.mem_referenced _ _ _ hcollected _ _ hpackage hname hservice
    (storedDescription m) (storedDescription d) info desc
  simp only [hcount, TypeDescriptionMsg.nestedTypeNames, nested_serviceDescription hservice]
  constructor
  · intro h
    -- a name in an entry is that of a stored type, and so not that of a part
    have hentry : ∀ desc ∈ (serviceDescription package name (storedDescription m)
        (storedDescription d) info collected).referencedTypeDescriptions,
        ∀ n ∈ desc.nestedTypeNames, StoredName n → n ∈ collected := by
      rintro desc hdesc n hn ⟨p, b, -, rfl⟩
      have hoccurs := List.mem_flatMap.mpr ⟨desc, hdesc, hn⟩
      refine (h _ (List.mem_append_right _ hoccurs)).resolve_right ?_
      exact not_mem_servicePartNames hpackage hname
    refine ⟨fun root hroot n hn => ?_, fun n desc hget n' hn' => ?_⟩
    · simp only [List.mem_cons, List.not_mem_nil, or_false] at hroot
      rcases hroot with rfl | rfl
      · exact hentry _ ((hmem _).mpr (.inr (List.mem_cons_of_mem _ List.mem_cons_self))) n hn
          (storedName_of_nested hn)
      · exact hentry _ ((hmem _).mpr (.inr (List.mem_cons_of_mem _
          (List.mem_cons_of_mem _ List.mem_cons_self)))) n hn (storedName_of_nested hn)
    · obtain ⟨definition, -, rfl, -⟩ := hcollected.sound n desc hget
      exact hentry _ ((hmem _).mpr (.inl ⟨n, hget⟩)) n' hn' (storedName_of_nested hn')
  · rintro ⟨hroots, hclosed⟩ n hn
    rcases List.mem_append.mp hn with hpart | hn
    · exact .inr hpart
    · obtain ⟨desc, hdesc, hn⟩ := List.mem_flatMap.mp hn
      rcases (hmem desc).mp hdesc with ⟨k, hget⟩ | hpart
      · exact .inl (hclosed k desc hget n hn)
      · simp only [serviceParts, List.mem_cons, List.not_mem_nil, or_false] at hpart
        rcases hpart with rfl | rfl | rfl
        · rcases nested_eventDescription hn with rfl | rfl | rfl
          · exact .inl hinfo
          · exact .inr List.mem_cons_self
          · exact .inr (List.mem_cons_of_mem _ List.mem_cons_self)
        · exact .inl (hroots m List.mem_cons_self n hn)
        · exact .inl (hroots d (List.mem_cons_of_mem _ List.mem_cons_self) n hn)

end Entries

/-! ## Services -/

/-- The services whose description is closed.  It is not named like an action service, the types
nested in its parts are all messages, and what ServiceEventInfo and Time refer to is collected:
it is one of the two, or nested in the parts past them. -/
structure ClosesService (known : Definitions) (srv : ParsedService) : Prop where
  path : isActionService srv.name = false
  fields : ∀ root ∈ [srv.request, srv.response], ∀ m, ReflTransGen known.Nests root m →
    ∀ field ∈ m.fields, field.fieldType.isNested = true →
      known.FindsMessage m.package field.fieldType
  seeds : ∀ key ∈ serviceSeeds, ∀ seed, known key = some seed →
    ∀ field ∈ seed.message.fields, isPrimitiveType field.fieldType.baseType = false →
      ¬ IsActionComponent field.fieldType.baseType ∧
        ∃ definition, known (field.fieldType.depKey seed.message.package) = some definition ∧
          (definition.message.messageKey ∈ serviceSeeds ∨
            ∃ root ∈ [srv.request, srv.response],
              TransGen (known.NestsPast serviceSeeds) root definition.message)

/-- No part of a service or an action is named like a primitive. -/
theorem isPart_custom {name : String} (h : IsPart name) : isPrimitiveType name = false := by
  obtain ⟨base, suffix, hsuffix, rfl⟩ := h
  -- primitives have no capital letters, and all suffixes have
  have hlower : ∀ s, isPrimitiveType s = true → s.toList.any Char.isUpper = false := by
    intro s hs
    unfold isPrimitiveType at hs
    rw [decide_eq_true_eq] at hs
    revert s
    decide
  have hupper : ∀ s ∈ ["Request", "Response", "Goal", "Result", "Feedback"],
      s.toList.any Char.isUpper = true := by decide
  rw [Bool.eq_false_iff]
  intro hprim
  have hsmall := hlower _ hprim
  rw [String.toList_append, List.any_append, hupper suffix hsuffix, Bool.or_true] at hsmall
  cases hsmall

/-- ServiceEventInfo and Time are defined by message files. -/
theorem Knows.seed_msgTypeName {known : Definitions} {deps : TypeDescriptions}
    (hknows : Knows deps known) {key : String} (hkey : key ∈ serviceSeeds)
    {definition : Definition} (h : known key = some definition) :
    definition.typeName = definition.message.msgTypeName := by
  have hname : definition.message.name ∈ ["ServiceEventInfo", "Time"] := by
    simp only [serviceSeeds, List.mem_cons, List.not_mem_nil, or_false] at hkey
    rcases hkey with rfl | rfl
    · rw [(@Knows.of_join _ _ hknows "service_msgs" "ServiceEventInfo" definition h).2]
      decide
    · rw [(@Knows.of_join _ _ hknows "builtin_interfaces" "Time" definition h).2]
      decide
  refine (hknows.origin key definition h).resolve_right ?_
  rintro ⟨base, suffix, hsuffix, hpart⟩
  have hends : ∀ name ∈ ["ServiceEventInfo", "Time"],
      ∀ s ∈ ["Request", "Response", "Goal", "Result", "Feedback"],
        ¬ s.toList <:+ name.toList := by decide
  refine hends _ hname suffix hsuffix ?_
  rw [hpart, String.toList_append]
  exact List.suffix_append _ _

/-- A type that is named like a primitive has the name of a message. -/
theorem Definitions.fieldTypeName_of_primitive {deps : TypeDescriptions} (known : Definitions)
    (hknows : Knows deps known) (package : String) {fieldType : FieldType}
    (hprim : isPrimitiveType fieldType.baseType = true) :
    known.fieldTypeName package fieldType =
      componentTypeName (fieldType.packageIn package) fieldType.baseType := by
  have hcomponent : ¬ IsActionComponent fieldType.baseType := by
    have hall : ∀ s ∈ ["bool", "byte", "char", "uint8", "int8", "uint16", "int16", "uint32",
        "int32", "uint64", "int64", "float32", "float64", "string"], ¬ IsActionComponent s := by
      decide
    exact hall _ (of_decide_eq_true hprim)
  rw [componentTypeName_of_not hcomponent]
  unfold Definitions.fieldTypeName
  rcases hknown : known (fieldType.depKey package) with _ | definition
  · rfl
  · obtain ⟨hpackage, hname⟩ := hknows.of_join hknown
    rcases hknows.origin _ definition hknown with horigin | hpart
    · dsimp only
      rw [horigin, ParsedMessage.msgTypeName, hpackage, hname]
    · have hcustom := isPart_custom hpart
      rw [hname, hprim] at hcustom
      cases hcustom

section Service

variable {deps : TypeDescriptions} {known : Definitions} (hknows : Knows deps known)
  {srv : ParsedService} (hfile : srv.FromFile) {event : Definition}
  (hevent : known "service_msgs/ServiceEventInfo" = some event)
  {collected : TypeDescriptions}
  (hcollected : Collected known [srv.request, srv.response] collected)

include hknows hfile hcollected

/-- Where the description is closed, a message in it refers to messages in it only. -/
theorem ClosedService.finds (hservice : isActionService srv.name = false)
    (hclosed : ClosedService known srv (serviceDescription srv.package srv.name
      (storedDescription srv.request) (storedDescription srv.response)
      (storedDescription event.message) collected))
    {root m : ParsedMessage} (hroot : root ∈ [srv.request, srv.response])
    (hpath : ReflTransGen known.Nests root m)
    (hin : ∀ n ∈ (storedDescription m).nestedTypeNames, n ∈ collected) {field : Field}
    (hfield : field ∈ m.fields) (hnested : field.fieldType.isNested = true) :
    known.FindsMessage m.package field.fieldType ∧
      ∀ definition, known (field.fieldType.depKey m.package) = some definition →
        definition.message.msgTypeName ∈ collected := by
  have hmem := fun n => @Collected.mem_entryNames _ _ _ hcollected _ _ hfile.plainPackage
    hfile.plainName hservice (storedDescription srv.request) (storedDescription srv.response)
    (storedDescription event.message) n
  have hcontains := (hmem _).mp (hclosed.contains root hroot _
    ⟨m, hpath, field, hfield, hnested, rfl⟩)
  have hprim : isPrimitiveType field.fieldType.baseType = false := by
    rw [Bool.eq_false_iff]
    intro hprim
    -- a type that is named like a primitive has no entry
    have hname := known.fieldTypeName_of_primitive hknows m.package hprim
    rw [hname] at hcontains
    rcases hcontains with hn | hpart
    · obtain ⟨desc, hget⟩ := KeyedMap.mem_iff.mp hn
      obtain ⟨definition, hentry, -, -⟩ := hcollected.sound _ desc hget
      have hcustom := hentry.custom
      rw [(hentry.of_componentTypeName hknows).2, hprim] at hcustom
      cases hcustom
    · exact not_mem_servicePartNames hfile.plainPackage hfile.plainName hpart
  have hn := hin _ (mem_nested_storedDescription.mpr ⟨field, hfield, hprim, rfl⟩)
  obtain ⟨desc, hget⟩ := KeyedMap.mem_iff.mp hn
  obtain ⟨definition, hentry, -, -⟩ := hcollected.sound _ desc hget
  obtain ⟨hpackage, hname⟩ := hentry.of_componentTypeName hknows
  have hknown : known (field.fieldType.depKey m.package) = some definition := by
    have hkey := hentry.known
    rwa [ParsedMessage.messageKey, hpackage, hname] at hkey
  have hcomponent := hentry.noComponent
  rw [hname] at hcomponent
  rw [hentry.name] at hn
  refine ⟨⟨hprim, hcomponent, definition, hknown, ?_⟩, fun other hother => ?_⟩
  · by_contra hforeign
    exact hclosed.own _ definition hknown hforeign ((hmem _).mpr (.inl hn))
  · rw [hknown, Option.some.injEq] at hother
    rwa [← hother]

omit hfile in
/-- What is collected under the name of a definition is its stored description. -/
theorem Collected.get_definition {key : String} {definition : Definition}
    (hknown : known key = some definition)
    (hn : definition.message.msgTypeName ∈ collected) :
    collected[definition.message.msgTypeName]? = some (storedDescription definition.message) := by
  obtain ⟨desc, hget⟩ := KeyedMap.mem_iff.mp hn
  obtain ⟨other, hentry, hdesc, -⟩ := hcollected.sound _ desc hget
  have hsame := hknows.eq_of_msgTypeName hknown hentry.known hentry.name
  rw [hget, hdesc, hsame]

include hevent

omit hfile in
theorem Collected.mem_event : (storedDescription event.message).typeName ∈ collected := by
  have hseed := hcollected.seeds _ (by decide) event hevent
  have hentry := hknows.entryOf_seed (by decide) hevent
  rwa [ParsedMessage.msgTypeName, ← componentTypeName_of_not hentry.noComponent] at hseed

/-- A closed description forces the conditions of `ClosesService`. -/
theorem closesService_of_closed
    (hclosed : ClosedService known srv (serviceDescription srv.package srv.name
      (storedDescription srv.request) (storedDescription srv.response)
      (storedDescription event.message) collected)) :
    ClosesService known srv := by
  have hservice : isActionService srv.name = false := by
    rw [Bool.eq_false_iff]
    intro haction
    have hpath := hclosed.path
    unfold serviceDescription at hpath
    dsimp only at hpath
    rw [haction, if_pos rfl, Names.join_inj hfile.plainPackage hfile.plainPackage] at hpath
    have hlist := congrArg String.toList hpath.2
    simp [String.toList_append] at hlist
  obtain ⟨hroots, hentries⟩ := (hcollected.named_iff hfile.plainPackage hfile.plainName hservice
    (hcollected.mem_event hknows hevent)).mp hclosed.named
  -- by induction on the path, the types that a nested message refers to are collected
  have hall : ∀ root ∈ [srv.request, srv.response], ∀ m, ReflTransGen known.Nests root m →
      ∀ n ∈ (storedDescription m).nestedTypeNames, n ∈ collected := by
    intro root hroot m hpath
    induction hpath with
    | refl => exact hroots root hroot
    | @tail x m hpath hstep ih =>
      obtain ⟨field, hfield, hnested, definition, hknown, rfl⟩ := hstep
      have hn := (hclosed.finds hknows hfile hcollected hservice hroot hpath ih hfield
        hnested).2 definition hknown
      exact hentries _ _ (hcollected.get_definition hknows hknown hn)
  refine ⟨hservice, fun root hroot m hpath field hfield hnested => ?_,
    fun key hkey seed hseed field hfield hprim => ?_⟩
  · exact (hclosed.finds hknows hfile hcollected hservice hroot hpath (hall root hroot m hpath)
      hfield hnested).1
  · have hget := hcollected.get_definition hknows hseed (hcollected.seeds key hkey seed hseed)
    have hn := hentries _ _ hget _ (mem_nested_storedDescription.mpr ⟨field, hfield, hprim, rfl⟩)
    obtain ⟨desc, hgetField⟩ := KeyedMap.mem_iff.mp hn
    obtain ⟨definition, hentry, -, hreached⟩ := hcollected.sound _ desc hgetField
    obtain ⟨hpackage, hname⟩ := hentry.of_componentTypeName hknows
    have hcomponent := hentry.noComponent
    have hknown := hentry.known
    rw [hname] at hcomponent
    rw [ParsedMessage.messageKey, hpackage, hname] at hknown
    exact ⟨hcomponent, definition, hknown, hreached⟩

end Service

/-- A message that a field finds is the entry with the stored name of the field's type. -/
theorem Definitions.FindsMessage.entryOf {deps : TypeDescriptions} {known : Definitions}
    (hknows : Knows deps known) {package : String} {fieldType : FieldType}
    (hfinds : known.FindsMessage package fieldType) {definition : Definition}
    (hknown : known (fieldType.depKey package) = some definition) :
    EntryOf known definition (componentTypeName (fieldType.packageIn package) fieldType.baseType) ∧
      definition.typeName = definition.message.msgTypeName := by
  obtain ⟨hprim, hcomponent, other, hother, horigin⟩ := hfinds
  rw [hknown, Option.some.injEq] at hother
  obtain ⟨hpackage, hname⟩ := hknows.of_join hknown
  have hkey := hknown
  rw [hknows.keyed _ definition hknown] at hkey
  rw [← hpackage, ← hname]
  rw [← hname] at hprim hcomponent
  rw [← hother] at horigin
  exact ⟨⟨hkey, hprim, hcomponent, componentTypeName_of_not hcomponent _⟩, horigin⟩

section Closes

variable {deps : TypeDescriptions} {known : Definitions} (hknows : Knows deps known)
  {srv : ParsedService} {collected : TypeDescriptions}
  (hcollected : Collected known [srv.request, srv.response] collected)
  (hcloses : ClosesService known srv)

include hknows hcollected hcloses

/-- Every message that can be reached past ServiceEventInfo and Time is collected. -/
theorem ClosesService.mem_of_nestsPast {root m : ParsedMessage}
    (hroot : root ∈ [srv.request, srv.response])
    (hpath : TransGen (known.NestsPast serviceSeeds) root m) :
    ∃ definition, known m.messageKey = some definition ∧ definition.message = m ∧
      definition.typeName = m.msgTypeName ∧ m.msgTypeName ∈ collected := by
  have hmono : ∀ x y, TransGen (known.NestsPast serviceSeeds) x y →
      ReflTransGen known.Nests x y := fun x y h =>
    (TransGen.mono (fun _ _ hstep => hstep.1) x y h).to_reflTransGen
  -- the message that a step leads to, with the name under which it is looked for
  have hstep : ∀ x y, ReflTransGen known.Nests root x → known.Nests x y →
      ∃ definition, known y.messageKey = some definition ∧ definition.message = y ∧
        definition.typeName = y.msgTypeName ∧
        EntryOf known definition y.msgTypeName ∧
        y.msgTypeName ∈ (storedDescription x).nestedTypeNames := by
    rintro x y hx ⟨field, hfield, hnested, definition, hknown, rfl⟩
    have hfinds := hcloses.fields root hroot x hx field hfield hnested
    obtain ⟨hentry, horigin⟩ := hfinds.entryOf hknows hknown
    have hname := hentry.name
    refine ⟨definition, hentry.known, rfl, horigin, hname ▸ hentry, ?_⟩
    rw [← hname]
    exact mem_nested_storedDescription.mpr ⟨field, hfield, hfinds.1, rfl⟩
  induction hpath with
  | single hfirst =>
    obtain ⟨definition, hknown, hmessage, horigin, hentry, hnested⟩ := hstep _ _ .refl hfirst.1
    exact ⟨definition, hknown, hmessage, horigin,
      hcollected.roots root hroot _ hnested definition hentry⟩
  | @tail x y hx hlast ih =>
    obtain ⟨above, hknownAbove, rfl, -, hmem⟩ := ih
    obtain ⟨definition, hknown, hmessage, horigin, hentry, hnested⟩ :=
      hstep _ _ (hmono _ _ hx) hlast.1
    have hfree : above.message.messageKey ∉ serviceSeeds := by
      cases hx with
      | single h => exact h.2
      | tail _ h => exact h.2
    obtain ⟨desc, hget⟩ := KeyedMap.mem_iff.mp hmem
    obtain ⟨other, hentryAbove, -, -⟩ := hcollected.sound _ desc hget
    obtain rfl := hknows.eq_of_msgTypeName hknownAbove hentryAbove.known hentryAbove.name
    exact ⟨definition, hknown, hmessage, horigin,
      hcollected.closed above _ hentryAbove hmem hfree _ hnested definition hentry⟩

/-- What is collected refers to what is collected only. -/
theorem ClosesService.collected_closed {n : String} {desc : TypeDescription}
    (hget : collected[n]? = some desc) : ∀ n' ∈ desc.nestedTypeNames, n' ∈ collected := by
  intro n' hn'
  obtain ⟨definition, hentry, rfl, hreached⟩ := hcollected.sound n desc hget
  obtain ⟨field, hfield, hprim, rfl⟩ := mem_nested_storedDescription.mp hn'
  by_cases hseed : definition.message.messageKey ∈ serviceSeeds
  · obtain ⟨hcomponent, other, hknown, hother⟩ :=
      hcloses.seeds _ hseed definition hentry.known field hfield hprim
    obtain ⟨hpackage, hname⟩ := hknows.of_join hknown
    rw [componentTypeName_of_not hcomponent, ← hpackage, ← hname]
    rcases hother with hotherSeed | ⟨root, hroot, hpath⟩
    · rw [hknows.keyed _ other hknown] at hknown
      exact hcollected.seeds _ hotherSeed other hknown
    · obtain ⟨-, -, -, -, hmem⟩ := hcloses.mem_of_nestsPast hknows hcollected hroot hpath
      exact hmem
  · obtain ⟨root, hroot, hpath⟩ := hreached.resolve_left hseed
    have hfinds := hcloses.fields root hroot definition.message
      (TransGen.mono (fun _ _ hstep => hstep.1) _ _ hpath).to_reflTransGen field hfield
      (isNested_of_not_primitive hprim)
    obtain ⟨-, -, other, hknown, -⟩ := id hfinds
    obtain ⟨hother, -⟩ := hfinds.entryOf hknows hknown
    exact hcollected.closed definition n hentry (KeyedMap.mem_iff.mpr ⟨_, hget⟩) hseed _ hn' other
      hother

theorem ClosesService.roots_closed {root : ParsedMessage}
    (hroot : root ∈ [srv.request, srv.response]) :
    ∀ n ∈ (storedDescription root).nestedTypeNames, n ∈ collected := by
  intro n hn
  obtain ⟨field, hfield, hprim, rfl⟩ := mem_nested_storedDescription.mp hn
  have hfinds := hcloses.fields root hroot root .refl field hfield
    (isNested_of_not_primitive hprim)
  obtain ⟨-, -, definition, hknown, -⟩ := id hfinds
  exact hcollected.roots root hroot _ hn definition (hfinds.entryOf hknows hknown).1

/-- Every type in the closure of the parts is collected. -/
theorem ClosesService.mem_of_inClosure {root : ParsedMessage}
    (hroot : root ∈ [srv.request, srv.response]) {n : String} (hn : known.InClosure root n) :
    n ∈ collected := by
  have hall : ∀ m, ReflTransGen known.Nests root m →
      ∀ n ∈ (storedDescription m).nestedTypeNames, n ∈ collected := by
    intro m hpath
    induction hpath with
    | refl => exact hcloses.roots_closed hknows hcollected hroot
    | @tail x m hpath hstep ih =>
      obtain ⟨field, hfield, hnested, definition, hknown, rfl⟩ := hstep
      have hfinds := hcloses.fields root hroot x hpath field hfield hnested
      have hmem := ih _ (mem_nested_storedDescription.mpr ⟨field, hfield, hfinds.1, rfl⟩)
      rw [(hfinds.entryOf hknows hknown).1.name] at hmem
      exact hcloses.collected_closed hknows hcollected
        (hcollected.get_definition hknows hknown hmem)
  obtain ⟨m, hpath, field, hfield, hnested, rfl⟩ := hn
  have hfinds := hcloses.fields root hroot m hpath field hfield hnested
  obtain ⟨hprim, -, definition, hknown, horigin⟩ := id hfinds
  have hmem := hall m hpath _ (mem_nested_storedDescription.mpr ⟨field, hfield, hprim, rfl⟩)
  rw [(hfinds.entryOf hknows hknown).1.name] at hmem
  unfold Definitions.fieldTypeName
  rw [hknown]
  dsimp only
  rwa [horigin]

/-- A definition whose name as a message is collected is defined by a message file. -/
theorem ClosesService.msgTypeName_of_mem {key : String} {definition : Definition}
    (hknown : known key = some definition) (hmem : definition.message.msgTypeName ∈ collected) :
    definition.typeName = definition.message.msgTypeName := by
  obtain ⟨desc, hget⟩ := KeyedMap.mem_iff.mp hmem
  obtain ⟨other, hentry, -, hreached⟩ := hcollected.sound _ desc hget
  obtain rfl := hknows.eq_of_msgTypeName hknown hentry.known hentry.name
  rcases hreached with hseed | ⟨root, hroot, hpath⟩
  · exact hknows.seed_msgTypeName hseed hentry.known
  · obtain ⟨other, hother, -, horigin, -⟩ :=
      hcloses.mem_of_nestsPast hknows hcollected hroot hpath
    rw [hentry.known, Option.some.injEq] at hother
    rwa [← hother] at horigin

/-- The conditions of `ClosesService` make the description closed. -/
theorem closed_of_closesService (hfile : srv.FromFile) {event : Definition}
    (hevent : known "service_msgs/ServiceEventInfo" = some event) :
    ClosedService known srv (serviceDescription srv.package srv.name
      (storedDescription srv.request) (storedDescription srv.response)
      (storedDescription event.message) collected) := by
  have hmem := fun n => @Collected.mem_entryNames _ _ _ hcollected _ _ hfile.plainPackage
    hfile.plainName hcloses.path (storedDescription srv.request)
    (storedDescription srv.response) (storedDescription event.message) n
  refine ⟨?_, ?_, ?_, ?_, ?_⟩
  · refine (hcollected.named_iff hfile.plainPackage hfile.plainName hcloses.path
      (hcollected.mem_event hknows hevent)).mpr ⟨fun root hroot => ?_, fun n desc hget => ?_⟩
    · exact hcloses.roots_closed hknows hcollected hroot
    · exact hcloses.collected_closed hknows hcollected hget
  · intro root hroot n hn
    exact (hmem n).mpr (.inl (hcloses.mem_of_inClosure hknows hcollected hroot hn))
  · unfold serviceDescription
    dsimp only
    rw [hcloses.path, if_neg Bool.false_ne_true]
  · intro part hpart
    rwa [nested_serviceDescription hcloses.path]
  · intro key definition hknown hforeign hentry
    rcases (hmem _).mp hentry with hn | hpart
    · exact hforeign (hcloses.msgTypeName_of_mem hknows hcollected hknown hn)
    · obtain ⟨suffix, -, hsame⟩ := List.mem_map.mp hpart
      rw [join_append, ParsedMessage.msgTypeName, Names.join_inj hfile.plainPackage
        (hknows.plain _ _ hknown).1] at hsame
      have hlist := congrArg String.toList hsame.2
      simp [String.toList_append] at hlist

end Closes

/-! ## Actions -/

/-- CancelGoal is hashed under the path of actions. -/
theorem Resolver.path_of_cancelGoal {self : Resolver TypeDescriptionMsg}
    {zeroHash desc : TypeDescriptionMsg} (hhumble : self.isHumble = false)
    (h : self.calculateCancelGoalHash id zeroHash = .ok desc) :
    desc.typeDescription.typeName = "action_msgs/action/CancelGoal" := by
  unfold Resolver.calculateCancelGoalHash Resolver.calculateProtocolHash at h
  rw [hhumble, if_neg Bool.false_ne_true] at h
  dsimp only at h
  split at h
  · cases h
  · cases h
    rfl

/-- **Which services and actions are described by closed descriptions**, in every state that a
resolver reaches: the services that meet `ClosesService`, and no action. -/
theorem describesClosed_iff {messages : List ParsedMessage}
    (hplain : ∀ m ∈ messages, Names.Plain m.package ∧ Names.Plain m.name)
    {zeroHash : TypeDescriptionMsg} {self : Resolver TypeDescriptionMsg} {known : Definitions}
    (hreached : Reached messages zeroHash self known) :
    (∀ srv self' resolved, srv.FromFile →
      self.resolveService id zeroHash srv = .ok (self', resolved) →
      (ClosedService (known.addService srv) srv resolved.typeHash ↔
        ClosesService (known.addService srv) srv)) ∧
    (∀ action self' resolved, action.FromFile →
      self.resolveAction id zeroHash action = .ok (self', resolved) →
      ¬ ClosedAction (known.addAction action) action resolved) := by
  obtain ⟨⟨hhumble, hexternal⟩, -⟩ := hreached.knows hplain
  constructor
  · intro srv self' resolved hfile h
    have hknows := ((hreached.service hfile h).knows hplain).2
    obtain ⟨request, response, hrequest, hresponse, -, hdescribe⟩ :=
      Resolver.resolveService_cases h
    obtain ⟨desc, hdesc, hhash⟩ := hdescribe hhumble hexternal
    obtain ⟨event, collected, hevent, hcollected, rfl⟩ :=
      Resolver.describeService_cases hknows hdesc
    rw [hrequest, hresponse] at hcollected hhash
    rw [hhash, id_eq]
    constructor
    · exact closesService_of_closed hknows hfile hevent hcollected
    · exact fun hcloses => closed_of_closesService hknows hcollected hcloses hfile hevent
  · intro action self' resolved hfile h hclosed
    have hstate := ((hreached.action hfile h).knows hplain).1
    obtain ⟨-, -, -, -, -, -, -, hcancel⟩ := Resolver.resolveAction_cases h
    have hpath := hclosed.cancelGoal.path
    rw [Resolver.path_of_cancelGoal hstate.1 hcancel] at hpath
    exact absurd hpath (by decide)

/-! ### Locating a pose -/

/-- A service closes when its parts are among messages that all refer to each other, and
ServiceEventInfo and Time refer to these two only. -/
theorem closesService_of_list {known : Definitions} {srv : ParsedService}
    (listed : List ParsedMessage) (hpath : isActionService srv.name = false)
    (hroots : ∀ root ∈ [srv.request, srv.response], root ∈ listed)
    (hfields : ∀ m ∈ listed, ∀ field ∈ m.fields, field.fieldType.isNested = true →
      isPrimitiveType field.fieldType.baseType = false ∧
        ¬ IsActionComponent field.fieldType.baseType ∧
        ∃ d ∈ listed, known (field.fieldType.depKey m.package) = some ⟨d, d.msgTypeName⟩)
    (hseeds : ∀ key ∈ serviceSeeds, ∀ seed ∈ known key, ∀ field ∈ seed.message.fields,
      isPrimitiveType field.fieldType.baseType = false →
        ¬ IsActionComponent field.fieldType.baseType ∧
          ∃ definition ∈ known (field.fieldType.depKey seed.message.package),
            definition.message.messageKey ∈ serviceSeeds) :
    ClosesService known srv := by
  have hlisted : ∀ root ∈ [srv.request, srv.response], ∀ m, ReflTransGen known.Nests root m →
      m ∈ listed := by
    intro root hroot m hpath
    induction hpath with
    | refl => exact hroots root hroot
    | @tail x m _ hstep ih =>
      obtain ⟨field, hfield, hnested, definition, hknown, rfl⟩ := hstep
      obtain ⟨-, -, d, hd, hfound⟩ := hfields x ih field hfield hnested
      rw [hknown, Option.some.injEq] at hfound
      rwa [hfound]
  refine ⟨hpath, fun root hroot m hpath field hfield hnested => ?_,
    fun key hkey seed hseed field hfield hprim => ?_⟩
  · obtain ⟨hprim, hcomponent, d, -, hfound⟩ :=
      hfields m (hlisted root hroot m hpath) field hfield hnested
    exact ⟨hprim, hcomponent, _, hfound, rfl⟩
  · obtain ⟨hcomponent, definition, hknown, hother⟩ := hseeds key hkey seed hseed field hfield hprim
    exact ⟨hcomponent, definition, hknown, .inl hother⟩

private def locateField (name baseType : String) (package : Option String) (array : ArrayType) :
    Field :=
  ⟨name, ⟨baseType, package, array, none⟩⟩

/-- `builtin_interfaces/msg/Time` -/
def timeMessage : ParsedMessage :=
  ⟨"Time", "builtin_interfaces", [locateField "sec" "int32" none .single,
    locateField "nanosec" "uint32" none .single], "int32 sec\nuint32 nanosec"⟩

/-- `service_msgs/msg/ServiceEventInfo` -/
def serviceEventInfoMessage : ParsedMessage :=
  ⟨"ServiceEventInfo", "service_msgs", [locateField "event_type" "uint8" none .single,
    locateField "stamp" "Time" (some "builtin_interfaces") .single,
    locateField "client_gid" "char" none (.fixed 16),
    locateField "sequence_number" "int64" none .single],
    "uint8 event_type\nbuiltin_interfaces/Time stamp\nchar[16] client_gid\nint64 sequence_number"⟩

abbrev locateMessages : List ParsedMessage :=
  [timeMessage, serviceEventInfoMessage, demoPoint, demoPose]

/-- A service that nests points two levels deep. -/
def locatePose : ParsedService where
  name := "LocatePose"
  package := "demo_msgs"
  request := ⟨"LocatePoseRequest", "demo_msgs",
    [locateField "stamp" "Time" (some "builtin_interfaces") .single],
    "builtin_interfaces/Time stamp"⟩
  response := ⟨"LocatePoseResponse", "demo_msgs", [locateField "poses" "Pose" none .unbounded],
    "Pose[] poses"⟩

abbrev noHash : TypeDescriptionMsg := ⟨⟨"", []⟩, []⟩

def locateState : Resolver TypeDescriptionMsg :=
  (((Resolver.new false).resolveMessages id locateMessages).toOption.map Prod.fst).getD
    (Resolver.new false)

theorem locateState_reached :
    Reached locateMessages noHash locateState (Definitions.ofResolved locateState) := by
  obtain ⟨⟨self, resolved⟩, h⟩ := Fallible.exists_of_isOk
    (show ((Resolver.new false : Resolver TypeDescriptionMsg).resolveMessages id
      locateMessages).isOk = true by decide +kernel)
  have hstate : locateState = self := by
    unfold locateState
    rw [h]
    rfl
  rw [hstate]
  exact Reached.messages h

theorem locatePose_closes :
    ClosesService ((Definitions.ofResolved locateState).addService locatePose) locatePose :=
  closesService_of_list (locatePose.request :: locatePose.response :: locateMessages)
    (by decide +kernel) (by decide +kernel) (by decide +kernel) (by decide +kernel)

/-- The service is described by a closed description. -/
theorem describesClosed_iff_locatePose :
    ∃ self' resolved, locateState.resolveService id noHash locatePose = .ok (self', resolved) ∧
      ClosedService ((Definitions.ofResolved locateState).addService locatePose) locatePose
        resolved.typeHash := by
  obtain ⟨⟨self', resolved⟩, h⟩ := Fallible.exists_of_isOk
    (show (locateState.resolveService id noHash locatePose).isOk = true by decide +kernel)
  have hfile : locatePose.FromFile :=
    ⟨by decide +kernel, by decide +kernel, ⟨rfl, rfl⟩, ⟨rfl, rfl⟩⟩
  refine ⟨self', resolved, h, ?_⟩
  exact ((describesClosed_iff (by decide +kernel) locateState_reached).1 locatePose self' resolved
    hfile h).mpr locatePose_closes

/-- An action without nested types. -/
def countUp : ParsedAction where
  name := "CountUp"
  package := "demo_msgs"
  goal := ⟨"CountUpGoal", "demo_msgs", [locateField "target" "int32" none .single], "int32 target"⟩
  result := some ⟨"CountUpResult", "demo_msgs", [locateField "last" "int32" none .single],
    "int32 last"⟩
  feedback := some ⟨"CountUpFeedback", "demo_msgs", [locateField "current" "int32" none .single],
    "int32 current"⟩

/-- Its description of CancelGoal has the path of actions. -/
theorem countUp_not_closed :
    Reached locateMessages noHash locateState (Definitions.ofResolved locateState) ∧
    countUp.FromFile ∧
    ∃ self' resolved, locateState.resolveAction id noHash countUp = .ok (self', resolved) ∧
      ¬ ClosedAction ((Definitions.ofResolved locateState).addAction countUp) countUp resolved := by
  have hfile : countUp.FromFile := by
    refine ⟨by decide +kernel, by decide +kernel, ⟨rfl, rfl⟩, ?_, ?_⟩
    · rintro result ⟨⟩
      exact ⟨rfl, rfl⟩
    · rintro feedback ⟨⟩
      exact ⟨rfl, rfl⟩
  obtain ⟨⟨self', resolved⟩, h⟩ := Fallible.exists_of_isOk
    (show (locateState.resolveAction id noHash countUp).isOk = true by decide +kernel)
  refine ⟨locateState_reached, hfile, self', resolved, h, fun hclosed => ?_⟩
  have hstate := ((locateState_reached.action hfile h).knows (by decide +kernel)).1
  obtain ⟨-, -, -, -, -, -, -, hcancel⟩ := Resolver.resolveAction_cases h
  have hpath := hclosed.cancelGoal.path
  rw [Resolver.path_of_cancelGoal hstate.1 hcancel] at hpath
  exact absurd hpath (by decide)

end RosZ.Codegen
