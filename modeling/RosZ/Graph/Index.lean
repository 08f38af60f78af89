import RosZ.Graph.Data

/-!
# The index of the graph

What ties the map of owned entities to the slabs of weak references.  `Indexed` says
that every owned `Arc` stands once in the slab of each place of its entity, and that
every reference in a slab that can be upgraded is to an owned `Arc`.

## Design notes

Operations differ in what they do to the slabs, but only in two ways: they drop entries
(`Indexed.shrink`), or they put a new `Arc` into the slabs of its entity
(`Indexed.extend`).  Either may drop entries that do not upgrade, so both speak of the
entries that are kept.

An entry that upgrades without being owned is what an `Arc` in the hands of a caller can
leave behind.  `Undisturbed` is the condition on the steps under which that does not
happen.
-/

namespace RosZ.Graph

open Protocol Transition

variable {κ ζ : Type} [DecidableEq κ]

namespace GraphData

/-! ## Slabs and references -/

/-- The weak references in the slab of a place. -/
def entriesAt (s : GraphData κ ζ) (p : Place) : List (Arc κ ζ) :=
  ((s.index.lookup p).map Slab.entries).getD []

/-- The key has this `Arc` in the map. -/
def Owns (s : GraphData κ ζ) (ke : κ) (a : Arc κ ζ) : Prop := s.parsed.lookup ke = some a

theorem upgrades_iff {s : GraphData κ ζ} {a : Arc κ ζ} :
    s.upgrades a = true ↔
      (∃ ke b, s.Owns ke b ∧ b.id = a.id) ∨ ∃ b ∈ s.held, b.id = a.id := by
  simp only [upgrades, Bool.or_eq_true, List.any_eq_true, beq_iff_eq]
  constructor
  · rintro (⟨entry, member, same⟩ | held)
    · exact .inl ⟨entry.1, entry.2, AList.mem_lookup_iff.mpr member, same⟩
    · exact .inr held
  · rintro (⟨ke, b, owned, same⟩ | held)
    · exact .inl ⟨⟨ke, b⟩, AList.mem_lookup_iff.mp owned, same⟩
    · exact .inr held

theorem Owns.upgrades {s : GraphData κ ζ} {ke : κ} {a : Arc κ ζ} (owned : s.Owns ke a) :
    s.upgrades a = true :=
  upgrades_iff.mpr (.inl ⟨ke, a, owned, rfl⟩)

omit [DecidableEq κ] in
theorem entriesAt_insert (s : GraphData κ ζ) (p q : Place) (slab : Slab κ ζ) :
    entriesAt { s with index := s.index.insert p slab } q =
      if q = p then slab.entries else s.entriesAt q := by
  unfold entriesAt
  split
  · next same =>
      subst same
      rw [AList.lookup_insert]
      rfl
  · next other => rw [AList.lookup_insert_ne other]

/-! ## Filling slabs -/

/-- Entries that are kept: all that upgrade, and perhaps others. -/
def Kept (s : GraphData κ ζ) (entries kept : List (Arc κ ζ)) : Prop :=
  kept.Sublist entries ∧ ∀ b ∈ entries, s.upgrades b = true → b ∈ kept

omit [DecidableEq κ] in
theorem kept_self (s : GraphData κ ζ) (entries : List (Arc κ ζ)) : s.Kept entries entries :=
  ⟨List.Sublist.refl _, fun _ member _ => member⟩

omit [DecidableEq κ] in
theorem kept_filter (s : GraphData κ ζ) (entries : List (Arc κ ζ)) :
    s.Kept entries (entries.filter s.upgrades) :=
  ⟨List.filter_sublist, fun _ member alive => List.mem_filter.mpr ⟨member, alive⟩⟩

omit [DecidableEq κ] in
theorem entriesAt_indexAt_self (a : Arc κ ζ) (s : GraphData κ ζ) (p : Place) :
    ∃ kept, s.Kept (s.entriesAt p) kept ∧ (indexAt a s p).entriesAt p = kept ++ [a] := by
  have stored : ((s.index.lookup p).getD Slab.empty).entries = s.entriesAt p := by
    unfold entriesAt
    cases s.index.lookup p <;> rfl
  unfold indexAt
  simp only [entriesAt_insert, if_true]
  rw [← stored]
  split
  · exact ⟨_, kept_filter s _, rfl⟩
  · exact ⟨_, kept_self s _, rfl⟩

omit [DecidableEq κ] in
theorem entriesAt_indexAt_ne (a : Arc κ ζ) (s : GraphData κ ζ) {p q : Place} (other : q ≠ p) :
    (indexAt a s p).entriesAt q = s.entriesAt q := by
  simp only [indexAt, entriesAt_insert, if_neg other]

omit [DecidableEq κ] in
/-- Filling several slabs leaves the others, the owners and the callers as they are. -/
theorem foldl_indexAt (a : Arc κ ζ) {ps : List Place} (distinct : ps.Nodup) :
    ∀ s : GraphData κ ζ, (∃ index, ps.foldl (indexAt a) s = { s with index }) ∧
      (∀ q ∉ ps, (ps.foldl (indexAt a) s).entriesAt q = s.entriesAt q) ∧
      ∀ q ∈ ps, ∃ kept, s.Kept (s.entriesAt q) kept ∧
        (ps.foldl (indexAt a) s).entriesAt q = kept ++ [a] := by
  induction ps with
  | nil => exact fun s => ⟨⟨s.index, rfl⟩, fun _ _ => rfl, fun _ member => by cases member⟩
  | cons p ps ih =>
      intro s
      obtain ⟨fresh, distinct⟩ := List.nodup_cons.mp distinct
      obtain ⟨shape, others, filled⟩ := ih distinct (indexAt a s p)
      refine ⟨shape, fun q absent => ?_, fun q member => ?_⟩
      · rw [List.foldl_cons, others q (List.not_mem_of_not_mem_cons absent),
          entriesAt_indexAt_ne a s (List.ne_of_not_mem_cons absent)]
      · rw [List.foldl_cons]
        rcases List.mem_cons.mp member with rfl | later
        · rw [others q fresh]
          exact entriesAt_indexAt_self a s q
        · have here : q ≠ p := by
            rintro rfl
            exact fresh later
          obtain ⟨kept, keeps, entries⟩ := filled q later
          rw [entriesAt_indexAt_ne a s here] at keeps
          exact ⟨kept, keeps, entries⟩

omit [DecidableEq κ] in
theorem nodup_places (entity : Entity ζ) : (places entity).Nodup := by
  cases entity with
  | node n => simp [places]
  | endpoint e =>
      obtain ⟨id, node, kind, topic, typeInfo, qos⟩ := e
      cases kind <;> simp [places]

omit [DecidableEq κ] in
theorem entriesAt_indexAll (s : GraphData κ ζ) (a : Arc κ ζ) (q : Place) :
    ∃ kept, s.Kept (s.entriesAt q) kept ∧
      (s.indexAll a).entriesAt q = kept ++ if q ∈ places a.entity then [a] else [] := by
  obtain ⟨-, others, filled⟩ := foldl_indexAt a (nodup_places a.entity) s
  by_cases member : q ∈ places a.entity
  · rw [if_pos member]
    exact filled q member
  · refine ⟨_, kept_self s _, ?_⟩
    rw [if_neg member, List.append_nil]
    exact others q member

omit [DecidableEq κ] in
theorem indexAll_eq (s : GraphData κ ζ) (a : Arc κ ζ) :
    ∃ index, s.indexAll a = { s with index } :=
  (foldl_indexAt a (nodup_places a.entity) s).1

/-! ## The invariant -/

/-- A reference that somebody has. -/
def Known (s : GraphData κ ζ) (a : Arc κ ζ) : Prop :=
  (∃ ke, s.Owns ke a) ∨ (∃ p, a ∈ s.entriesAt p) ∨ a ∈ s.held

/-- Every owned `Arc` is indexed once wherever its entity belongs, and nothing else can be
found. -/
structure Indexed (s : GraphData κ ζ) : Prop where
  fresh : ∀ a, s.Known a → a.id < s.nextArc
  unique : ∀ a b, s.Known a → s.Known b → a.id = b.id → a = b
  keyed : ∀ ke a, s.Owns ke a → a.key = ke
  once : ∀ p, (s.entriesAt p).Nodup
  complete : ∀ ke a, s.Owns ke a → ∀ p ∈ places a.entity, a ∈ s.entriesAt p
  sound : ∀ p, ∀ a ∈ s.entriesAt p, s.upgrades a = true → s.Owns a.key a ∧ p ∈ places a.entity

theorem indexed_new : Indexed (new : GraphData κ ζ) where
  fresh a known := by
    rcases known with ⟨ke, owned⟩ | ⟨p, member⟩ | held
    · cases owned
    · cases member
    · cases held
  unique a b known := by
    rcases known with ⟨ke, owned⟩ | ⟨p, member⟩ | held
    · cases owned
    · cases member
    · cases held
  keyed ke a owned := by cases owned
  once p := List.nodup_nil
  complete ke a owned := by cases owned
  sound p a member := by cases member

section Changes

variable {s s' : GraphData κ ζ}

/-- Operations that drop entries of slabs, and owners. -/
theorem Indexed.shrink (inv : s.Indexed)
    (sub : ∀ p, (s'.entriesAt p).Sublist (s.entriesAt p))
    (owners : ∀ ke a, s'.Owns ke a → s.Owns ke a) (callers : ∀ a ∈ s'.held, s.Known a)
    (counter : s'.nextArc = s.nextArc)
    (keeps : ∀ p, ∀ a ∈ s.entriesAt p, s'.Owns a.key a → a ∈ s'.entriesAt p)
    (clear : ∀ p, ∀ a ∈ s'.entriesAt p, s'.upgrades a = true → s'.Owns a.key a) :
    s'.Indexed := by
  have known : ∀ a, s'.Known a → s.Known a := by
    rintro a (⟨ke, owned⟩ | ⟨p, member⟩ | held)
    · exact .inl ⟨ke, owners ke a owned⟩
    · exact .inr (.inl ⟨p, (sub p).subset member⟩)
    · exact callers a held
  refine ⟨?_, ?_, ?_, ?_, ?_, ?_⟩
  · intro a has
    rw [counter]
    exact inv.fresh a (known a has)
  · exact fun a b ha hb => inv.unique a b (known a ha) (known b hb)
  · exact fun ke a owned => inv.keyed ke a (owners ke a owned)
  · exact fun p => (inv.once p).sublist (sub p)
  · intro ke a owned p place
    have own : s'.Owns a.key a := by rwa [inv.keyed ke a (owners ke a owned)]
    exact keeps p a (inv.complete ke a (owners ke a owned) p place) own
  · intro p a member alive
    have owned := clear p a member alive
    have before := owners _ _ owned
    exact ⟨owned, (inv.sound p a ((sub p).subset member) before.upgrades).2⟩

/-- What storing a new `Arc` under a key that has none does to the graph. -/
structure Stores (s s' : GraphData κ ζ) (ke : κ) (a : Arc κ ζ) : Prop where
  absent : s.parsed.lookup ke = none
  newborn : a.id = s.nextArc
  named : a.key = ke
  entries : ∀ p, ∃ kept, s.Kept (s.entriesAt p) kept ∧
    s'.entriesAt p = kept ++ if p ∈ places a.entity then [a] else []
  owners : s'.parsed = s.parsed.insert ke a
  callers : s'.held = s.held
  counter : s'.nextArc = s.nextArc + 1

namespace Stores

variable {ke : κ} {a : Arc κ ζ}

theorem owns (stores : s.Stores s' ke a) : s'.Owns ke a := by
  rw [Owns, stores.owners, AList.lookup_insert]

theorem owns_iff (stores : s.Stores s' ke a) {k : κ} {b : Arc κ ζ} (other : k ≠ ke) :
    s'.Owns k b ↔ s.Owns k b := by
  rw [Owns, stores.owners, AList.lookup_insert_ne other, Owns]

theorem ne_of_owns (stores : s.Stores s' ke a) {k : κ} {b : Arc κ ζ} (owned : s.Owns k b) :
    k ≠ ke := by
  rintro rfl
  rw [Owns, stores.absent] at owned
  cases owned

/-- Whoever owns something afterwards owned it before, or is the new key. -/
theorem owns_cases (stores : s.Stores s' ke a) {k : κ} {b : Arc κ ζ} (owned : s'.Owns k b) :
    s.Owns k b ∨ k = ke ∧ b = a := by
  by_cases same : k = ke
  · subst same
    exact .inr ⟨rfl, Option.some.inj (owned.symm.trans stores.owns)⟩
  · exact .inl ((stores.owns_iff same).mp owned)

theorem mem_cases (stores : s.Stores s' ke a) {p : Place} {b : Arc κ ζ}
    (member : b ∈ s'.entriesAt p) : b ∈ s.entriesAt p ∨ (b = a ∧ p ∈ places a.entity) := by
  obtain ⟨kept, ⟨sub, -⟩, shape⟩ := stores.entries p
  rw [shape] at member
  rcases List.mem_append.mp member with old | new
  · exact .inl (sub.subset old)
  · split at new
    · next place => exact .inr ⟨List.mem_singleton.mp new, place⟩
    · cases new

theorem known_cases (stores : s.Stores s' ke a) {b : Arc κ ζ} (known : s'.Known b) :
    s.Known b ∨ b = a := by
  rcases known with ⟨k, owned⟩ | ⟨p, member⟩ | held
  · rcases stores.owns_cases owned with old | ⟨-, new⟩
    · exact .inl (.inl ⟨k, old⟩)
    · exact .inr new
  · rcases stores.mem_cases member with old | ⟨new, -⟩
    · exact .inl (.inr (.inl ⟨p, old⟩))
    · exact .inr new
  · rw [stores.callers] at held
    exact .inl (.inr (.inr held))

theorem id_ne (stores : s.Stores s' ke a) (inv : s.Indexed) {b : Arc κ ζ} (known : s.Known b) :
    b.id ≠ a.id := by
  have bound := inv.fresh b known
  have newborn := stores.newborn
  omega

/-- What was known before upgrades through the same holder as before. -/
theorem upgrades_before (stores : s.Stores s' ke a) (inv : s.Indexed) {b : Arc κ ζ}
    (known : s.Known b) (alive : s'.upgrades b = true) : s.upgrades b = true := by
  rcases upgrades_iff.mp alive with ⟨k, c, owned, same⟩ | ⟨c, held, same⟩
  · rcases stores.owns_cases owned with old | ⟨-, rfl⟩
    · exact upgrades_iff.mpr (.inl ⟨k, c, old, same⟩)
    · exact absurd same.symm (stores.id_ne inv known)
  · rw [stores.callers] at held
    exact upgrades_iff.mpr (.inr ⟨c, held, same⟩)

theorem nodup (stores : s.Stores s' ke a) (inv : s.Indexed) (p : Place) :
    (s'.entriesAt p).Nodup := by
  obtain ⟨kept, ⟨sub, -⟩, shape⟩ := stores.entries p
  have distinct := (inv.once p).sublist sub
  rw [shape]
  split
  · refine List.Nodup.append distinct (List.nodup_singleton a) ?_
    intro b old new
    rw [List.mem_singleton.mp new] at old
    exact stores.id_ne inv (.inr (.inl ⟨p, sub.subset old⟩)) rfl
  · rwa [List.append_nil]

theorem mem_of_owns (stores : s.Stores s' ke a) (inv : s.Indexed) {k : κ} {b : Arc κ ζ}
    (owned : s'.Owns k b) {p : Place} (place : p ∈ places b.entity) : b ∈ s'.entriesAt p := by
  obtain ⟨kept, ⟨-, all⟩, shape⟩ := stores.entries p
  rw [shape]
  rcases stores.owns_cases owned with old | ⟨-, rfl⟩
  · exact List.mem_append_left _ (all b (inv.complete k b old p place) old.upgrades)
  · rw [if_pos place]
    exact List.mem_append_right _ (List.mem_singleton_self _)

end Stores

/-- Operations that store a new `Arc` under a key that has none. -/
theorem Indexed.extend (inv : s.Indexed) {ke : κ} {a : Arc κ ζ} (stores : s.Stores s' ke a) :
    s'.Indexed := by
  have newborn := stores.newborn
  have counter := stores.counter
  refine ⟨?_, ?_, ?_, stores.nodup inv, fun k b owned p => stores.mem_of_owns inv owned, ?_⟩
  · intro b known
    rcases stores.known_cases known with old | rfl
    · have bound := inv.fresh b old
      omega
    · omega
  · intro b c hb hc same
    rcases stores.known_cases hb with oldB | rfl
    · rcases stores.known_cases hc with oldC | rfl
      · exact inv.unique b c oldB oldC same
      · exact absurd same (stores.id_ne inv oldB)
    · rcases stores.known_cases hc with oldC | rfl
      · exact absurd same.symm (stores.id_ne inv oldC)
      · rfl
  · intro k b owned
    rcases stores.owns_cases owned with old | ⟨rfl, rfl⟩
    · exact inv.keyed k b old
    · exact stores.named
  · intro p b member alive
    rcases stores.mem_cases member with old | ⟨rfl, place⟩
    · have before := stores.upgrades_before inv (.inr (.inl ⟨p, old⟩)) alive
      obtain ⟨owned, place⟩ := inv.sound p b old before
      exact ⟨(stores.owns_iff (stores.ne_of_owns owned)).mpr owned, place⟩
    · rw [stores.named]
      exact ⟨stores.owns, place⟩

end Changes

/-! ## What the operations do to the index -/

section Operations

variable {s : GraphData κ ζ}

/-- The cached keys play no part in the index. -/
theorem Indexed.withCached (inv : s.Indexed) (cached : List κ) :
    Indexed { s with cached } :=
  ⟨inv.fresh, inv.unique, inv.keyed, inv.once, inv.complete, inv.sound⟩

theorem owns_remove {ke k : κ} {a : Arc κ ζ} :
    (s.remove ke).Owns k a ↔ k ≠ ke ∧ s.Owns k a := by
  unfold Owns remove
  by_cases same : k = ke
  · subst same
    simp [AList.lookup_erase]
  · simp [AList.lookup_erase_ne same, same]

/-- What still upgrades without its key did so before. -/
theorem upgrades_of_remove {ke : κ} {a : Arc κ ζ} (alive : (s.remove ke).upgrades a = true) :
    s.upgrades a = true := by
  rcases upgrades_iff.mp alive with ⟨k, b, owned, same⟩ | held
  · exact upgrades_iff.mpr (.inl ⟨k, b, (owns_remove.mp owned).2, same⟩)
  · exact upgrades_iff.mpr (.inr held)

/-- An entry that still upgrades after its own key was removed is held by a caller. -/
theorem Indexed.held_of_remove (inv : s.Indexed) {p : Place} {a : Arc κ ζ}
    (member : a ∈ s.entriesAt p) (alive : (s.remove a.key).upgrades a = true) : a ∈ s.held := by
  have known : s.Known a := .inr (.inl ⟨p, member⟩)
  rcases upgrades_iff.mp alive with ⟨k, b, owned, same⟩ | ⟨b, held, same⟩
  · obtain ⟨other, before⟩ := owns_remove.mp owned
    have equal := inv.unique b a (.inl ⟨k, before⟩) known same
    subst equal
    exact absurd (inv.keyed k b before).symm other
  · rwa [← inv.unique b a (.inr (.inr held)) known same]

theorem Indexed.remove (inv : s.Indexed) {ke : κ}
    (unheld : ∀ a, s.Owns ke a → a ∉ s.held) : (s.remove ke).Indexed := by
  refine inv.shrink (fun p => List.Sublist.refl _) ?_ ?_ rfl ?_ ?_
  · exact fun k a owned => (owns_remove.mp owned).2
  · exact fun a held => .inr (.inr held)
  · exact fun p a member _ => member
  · intro p a member alive
    obtain ⟨owned, -⟩ := inv.sound p a member (upgrades_of_remove alive)
    refine owns_remove.mpr ⟨?_, owned⟩
    rintro rfl
    exact unheld a owned (inv.held_of_remove member alive)

/-- Callers may hold less. -/
theorem Indexed.unhold (inv : s.Indexed) {held : List (Arc κ ζ)} (fewer : held ⊆ s.held) :
    Indexed { s with held } := by
  refine inv.shrink (fun p => List.Sublist.refl _) (fun _ _ owned => owned) ?_ rfl
    (fun _ _ member _ => member) ?_
  · exact fun a has => .inr (.inr (fewer has))
  · intro p a member alive
    refine (inv.sound p a member (upgrades_iff.mpr ?_)).1
    rcases upgrades_iff.mp alive with owned | ⟨b, has, same⟩
    · exact .inl owned
    · exact .inr ⟨b, fewer has, same⟩

/-- An `Arc` is dropped by a caller. -/
theorem Indexed.release (inv : s.Indexed) (i : ℕ) :
    Indexed { s with held := s.held.eraseIdx i } :=
  inv.unhold (List.eraseIdx_sublist _ _).subset

/-- Callers may take what is owned. -/
theorem Indexed.handOut (inv : s.Indexed) {arcs : List (Arc κ ζ)}
    (owned : ∀ a ∈ arcs, s.Owns a.key a) : Indexed { s with held := s.held ++ arcs } := by
  refine inv.shrink (fun p => List.Sublist.refl _) (fun _ _ own => own) ?_ rfl
    (fun _ _ member _ => member) ?_
  · intro a held
    rcases List.mem_append.mp held with old | new
    · exact .inr (.inr old)
    · exact .inl ⟨a.key, owned a new⟩
  · intro p a member alive
    refine (inv.sound p a member (upgrades_iff.mpr ?_)).1
    rcases upgrades_iff.mp alive with own | ⟨b, held, same⟩
    · exact .inl own
    · rcases List.mem_append.mp held with old | new
      · exact .inr ⟨b, old, same⟩
      · exact .inl ⟨b.key, b, owned b new, same⟩

theorem Indexed.retain (inv : s.Indexed) {p : Place} {slab : Slab κ ζ}
    (stored : s.index.lookup p = some slab) :
    Indexed { s with index := s.index.insert p (s.retainAlive slab) } := by
  have entries : slab.entries = s.entriesAt p := by rw [entriesAt, stored]; rfl
  have sub : ∀ q, (entriesAt { s with index := s.index.insert p (s.retainAlive slab) } q).Sublist
      (s.entriesAt q) := by
    intro q
    rw [entriesAt_insert]
    split
    · next same =>
        rw [same, ← entries]
        exact List.filter_sublist
    · exact List.Sublist.refl _
  refine inv.shrink sub (fun _ _ owned => owned) (fun a held => .inr (.inr held)) rfl ?_ ?_
  · intro q a member owned
    rw [entriesAt_insert]
    split
    · next same =>
        subst same
        refine List.mem_filter.mpr ⟨?_, (show GraphData.Owns _ a.key a from owned).upgrades⟩
        rwa [entries]
    · exact member
  · exact fun q a member alive => (inv.sound q a ((sub q).subset member) alive).1

/-! ### Removing a local entity -/

theorem entriesAt_dropKey_self (fmt : Format κ ζ) (ke : κ) (s : GraphData κ ζ) (p : Place) :
    (dropKey fmt ke s p).entriesAt p = (s.entriesAt p).filter
      fun a => s.upgrades a && decide (fmt.toKe a.entity ≠ some ke) := by
  unfold dropKey
  cases stored : s.index.lookup p with
  | none => simp [entriesAt, stored]
  | some slab =>
      simp only [entriesAt_insert, if_true]
      rw [entriesAt, stored]
      rfl

theorem entriesAt_dropKey_ne (fmt : Format κ ζ) (ke : κ) (s : GraphData κ ζ) {p q : Place}
    (other : q ≠ p) : (dropKey fmt ke s p).entriesAt q = s.entriesAt q := by
  unfold dropKey
  cases s.index.lookup p with
  | none => rfl
  | some slab => simp only [entriesAt_insert, if_neg other]

theorem dropKey_eq (fmt : Format κ ζ) (ke : κ) (s : GraphData κ ζ) (p : Place) :
    ∃ index, dropKey fmt ke s p = { s with index } := by
  unfold dropKey
  cases s.index.lookup p with
  | none => exact ⟨s.index, rfl⟩
  | some slab => exact ⟨_, rfl⟩

/-- The slabs of the given places lose the entries of the key. -/
theorem foldl_dropKey (fmt : Format κ ζ) (ke : κ) {ps : List Place} (distinct : ps.Nodup) :
    ∀ s : GraphData κ ζ, (∃ index, ps.foldl (dropKey fmt ke) s = { s with index }) ∧
      ∀ q, (ps.foldl (dropKey fmt ke) s).entriesAt q =
        if q ∈ ps then (s.entriesAt q).filter
          fun a => s.upgrades a && decide (fmt.toKe a.entity ≠ some ke)
        else s.entriesAt q := by
  induction ps with
  | nil => exact fun s => ⟨⟨s.index, rfl⟩, fun q => by simp⟩
  | cons p ps ih =>
      intro s
      obtain ⟨fresh, distinct⟩ := List.nodup_cons.mp distinct
      obtain ⟨first, shape⟩ := dropKey_eq fmt ke s p
      obtain ⟨⟨index, rest⟩, entries⟩ := ih distinct (dropKey fmt ke s p)
      have alive : (dropKey fmt ke s p).upgrades = s.upgrades := by rw [shape]; rfl
      refine ⟨⟨index, by rw [List.foldl_cons, rest, shape]⟩, fun q => ?_⟩
      rw [List.foldl_cons, entries q, alive]
      by_cases here : q = p
      · subst here
        rw [if_neg fresh, if_pos List.mem_cons_self, entriesAt_dropKey_self]
      · rw [entriesAt_dropKey_ne fmt ke s here]
        simp [here]

/-- The condition of `Undisturbed` for the removal of a local entity. -/
theorem Indexed.removeLocalEntity (inv : s.Indexed) {fmt : Format κ ζ} {entity : Entity ζ}
    {ke : κ}
    (own : ∀ a, s.Owns ke a → a ∉ s.held ∨
      (fmt.toKe a.entity = some ke ∧ ∀ p ∈ places a.entity, p ∈ places entity))
    (foreign : ∀ k a, k ≠ ke → s.Owns k a → fmt.toKe a.entity = some ke →
      ∀ p ∈ places entity, p ∉ places a.entity) :
    ((places entity).foldl (dropKey fmt ke) (s.remove ke)).Indexed := by
  obtain ⟨⟨index, shape⟩, entries⟩ := foldl_dropKey fmt ke (nodup_places entity) (s.remove ke)
  have owns : ∀ k a, ((places entity).foldl (dropKey fmt ke) (s.remove ke)).Owns k a ↔
      k ≠ ke ∧ s.Owns k a := by
    intro k a
    rw [shape]
    exact owns_remove
  have alive : ((places entity).foldl (dropKey fmt ke) (s.remove ke)).upgrades =
      (s.remove ke).upgrades := by rw [shape]; rfl
  have slabs : ∀ p, (s.remove ke).entriesAt p = s.entriesAt p := fun _ => rfl
  have sub : ∀ p, (((places entity).foldl (dropKey fmt ke) (s.remove ke)).entriesAt p).Sublist
      (s.entriesAt p) := by
    intro p
    rw [entries p]
    split
    · exact List.filter_sublist
    · exact List.Sublist.refl _
  refine inv.shrink sub (fun k a owned => ((owns k a).mp owned).2) ?_ (by rw [shape]; rfl) ?_ ?_
  · intro a held
    rw [shape] at held
    exact .inr (.inr held)
  · intro p a member owned
    obtain ⟨other, before⟩ := (owns a.key a).mp owned
    rw [entries p]
    split
    · next place =>
        refine List.mem_filter.mpr ⟨member, ?_⟩
        have upgraded : (s.remove ke).upgrades a = true := by
          rw [← alive]
          exact (show GraphData.Owns _ a.key a from owned).upgrades
        have keyed : fmt.toKe a.entity ≠ some ke := by
          intro same
          exact foreign a.key a other before same p place (inv.sound p a member before.upgrades).2
        simp [upgraded, keyed]
    · exact member
  · intro p a member upgraded
    rw [alive] at upgraded
    have before := (sub p).subset member
    obtain ⟨owned, place⟩ := inv.sound p a before (upgrades_of_remove upgraded)
    refine (owns a.key a).mpr ⟨?_, owned⟩
    rintro rfl
    -- a caller holds the entity, so the slabs had to be cleaned of it
    rcases own a owned with unheld | ⟨keyed, within⟩
    · exact unheld (inv.held_of_remove before upgraded)
    · rw [entries p, if_pos (within p place)] at member
      have dropped := (List.mem_filter.mp member).2
      simp [keyed] at dropped

/-! ### Storing an entity -/

theorem Indexed.parseKey (inv : s.Indexed) (fmt : Format κ ζ) (ke : κ) :
    (s.parseKey fmt ke).Indexed := by
  unfold GraphData.parseKey
  split
  · exact inv
  · next absent =>
      cases parses : fmt.parser ke with
      | none => exact inv
      | some entity =>
          let arc : Arc κ ζ := { id := s.nextArc, key := ke, entity }
          obtain ⟨index, shape⟩ := indexAll_eq { s with nextArc := s.nextArc + 1 } arc
          refine inv.extend (a := arc) ⟨AList.lookup_eq_none.mpr absent, rfl, rfl,
            entriesAt_indexAll { s with nextArc := s.nextArc + 1 } arc, ?_, ?_, ?_⟩
          · show AList.insert ke arc (indexAll { s with nextArc := s.nextArc + 1 } arc).parsed = _
            rw [shape]
          · show (indexAll { s with nextArc := s.nextArc + 1 } arc).held = _
            rw [shape]
          · show (indexAll { s with nextArc := s.nextArc + 1 } arc).nextArc = _
            rw [shape]

theorem insert_erase {β : κ → Type} (m : AList β) (ke : κ) (b : β ke) :
    (m.erase ke).insert ke b = m.insert ke b := by
  refine AList.ext ?_
  rw [AList.entries_insert, AList.entries_insert]
  congr 1
  exact List.kerase_of_notMem_keys (List.notMem_keys_kerase ke m.nodupKeys)

/-- The new entity takes the place of the one that was stored under the key. -/
theorem Indexed.addLocalEntity (inv : s.Indexed) {entity : Entity ζ} {ke : κ}
    (unheld : ∀ a, s.Owns ke a → a ∉ s.held) :
    (indexAll { s with
      parsed := s.parsed.insert ke ⟨s.nextArc, ke, entity⟩, nextArc := s.nextArc + 1 }
        ⟨s.nextArc, ke, entity⟩).Indexed := by
  let arc : Arc κ ζ := ⟨s.nextArc, ke, entity⟩
  let stored : GraphData κ ζ :=
    { s with parsed := s.parsed.insert ke arc, nextArc := s.nextArc + 1 }
  have without := inv.remove unheld
  obtain ⟨index, shape⟩ := indexAll_eq stored arc
  have upgrades : ∀ b, (s.remove ke).upgrades b = true → stored.upgrades b = true := by
    intro b alive
    rcases upgrades_iff.mp alive with ⟨k, c, owned, same⟩ | held
    · obtain ⟨other, before⟩ := owns_remove.mp owned
      refine upgrades_iff.mpr (.inl ⟨k, c, ?_, same⟩)
      exact (AList.lookup_insert_ne other).trans before
    · exact upgrades_iff.mpr (.inr held)
  refine without.extend (a := arc) ⟨AList.lookup_erase ke s.parsed, rfl, rfl, ?_, ?_, ?_, ?_⟩
  · intro p
    obtain ⟨kept, ⟨sub, all⟩, entries⟩ := entriesAt_indexAll stored arc p
    exact ⟨kept, ⟨sub, fun b member alive => all b member (upgrades b alive)⟩, entries⟩
  · show (stored.indexAll arc).parsed = (s.parsed.erase ke).insert ke arc
    rw [shape, insert_erase]
  · show (stored.indexAll arc).held = _
    rw [shape]
    rfl
  · show (stored.indexAll arc).nextArc = _
    rw [shape]
    rfl

end Operations

end GraphData

end RosZ.Graph
