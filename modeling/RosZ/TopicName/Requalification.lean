import RosZ.TopicName

/-!
# Names that are qualified twice

The builders of actions qualify the name of the action, append the name of one of its services and
pass it to the builder of the service, which qualifies it again.

A qualified name is an absolute topic, of which the second pass removes a slash at the end.  So it
comes back as it is unless the first pass left a slash there: it removes one of them from an
absolute or a relative topic and none from a private one (`leavesSlash`).  With a name behind it,
it always comes back (`qualifyTopicName_append`).
-/

namespace RosZ.TopicName

open Text

/-- The slash at the end of a topic that is not removed from it. -/
def leavesSlash (topic : String) : Bool :=
  endsWith '/' (if startsWith '~' topic then privateSuffix topic else withoutTrailingSlash topic)

/-- **A name comes back as it is when it is qualified again**, by any node, and so it does with
the name of a service of an action behind it. -/
def Requalifies (q : String) : Prop :=
  ∀ ns nodeName, validateNamespace ns = .ok () → validateNodeName nodeName = .ok () →
    qualifyTopicName q ns nodeName = .ok q ∧
      ∀ x, x ≠ "" → endsWith '/' x = false →
        qualifyTopicName (q ++ "/_action/" ++ x) ns nodeName = .ok (q ++ "/_action/" ++ x)

/-! ## The ends of a text -/

theorem startsWith_append {c : Char} {s : String} (some : s ≠ "") (t : String) :
    startsWith c (s ++ t) = startsWith c s := by
  unfold startsWith
  rw [String.toList_append, List.head?_append_of_ne_nil _ (by simpa using some)]

theorem endsWith_append {c : Char} (s : String) {t : String} (some : t ≠ "") :
    endsWith c (s ++ t) = endsWith c t := by
  unfold endsWith
  rw [String.toList_append, List.getLast?_append_of_ne_nil _ (by simpa using some)]

theorem ne_empty_of_startsWith {c : Char} {s : String} (starts : startsWith c s = true) :
    s ≠ "" := by
  rintro rfl
  cases starts

/-- A text without a slash at the end keeps its end. -/
theorem withoutTrailingSlash_of_not_endsWith {s : String} (ends : endsWith '/' s = false) :
    withoutTrailingSlash s = s := by
  unfold withoutTrailingSlash
  cases stripped : Names.stripEnd "/" s with
  | none => rfl
  | some base =>
      rw [Names.append_of_stripEnd stripped, endsWith_append _ (by decide)] at ends
      cases ends

/-- A text with a slash at the end loses it. -/
theorem withoutTrailingSlash_ne {s : String} (ends : endsWith '/' s = true) :
    withoutTrailingSlash s ≠ s := by
  unfold withoutTrailingSlash
  cases stripped : Names.stripEnd "/" s with
  | none =>
      obtain ⟨front, shape⟩ := List.getLast?_eq_some_iff.mp (beq_iff_eq.mp ends)
      exact absurd ⟨front, shape.symm⟩ (Names.stripEnd_eq_none.mp stripped)
  | some base =>
      intro same
      have longer := congrArg String.length (Names.append_of_stripEnd stripped)
      rw [← show base = s from same, String.length_append] at longer
      exact absurd longer (by simp)

/-! ## The second pass -/

section Again

variable {q ns nodeName : String}

/-- An absolute topic is the name itself, unless it has a slash at the end. -/
theorem qualifyAbsolute_self_iff (absolute : startsWith '/' q = true) :
    qualifyAbsolute q = .ok q ↔ endsWith '/' q = false := by
  constructor
  · intro same
    rw [← Bool.not_eq_true]
    exact fun ends => withoutTrailingSlash_ne ends (qualifyAbsolute_eq_ok same).symm
  · intro ends
    simp only [qualifyAbsolute, withoutTrailingSlash_of_not_endsWith ends]
    rw [if_neg]
    rintro (rfl | rfl)
    · cases absolute
    · cases ends

theorem qualifyTopicName_self_iff (absolute : startsWith '/' q = true)
    (namespaced : validateNamespace ns = .ok ()) (named : validateNodeName nodeName = .ok ()) :
    qualifyTopicName q ns nodeName = .ok q ↔ endsWith '/' q = false := by
  rw [← qualifyAbsolute_self_iff absolute, qualifyTopicName,
    if_neg (ne_empty_of_startsWith absolute), namespaced, named]
  simp only [if_pos absolute]
  rfl

/-- The name of a service of an action comes back. -/
theorem qualifyTopicName_append (absolute : startsWith '/' q = true)
    (namespaced : validateNamespace ns = .ok ()) (named : validateNodeName nodeName = .ok ())
    {x : String} (some : x ≠ "") (ends : endsWith '/' x = false) :
    qualifyTopicName (q ++ "/_action/" ++ x) ns nodeName = .ok (q ++ "/_action/" ++ x) := by
  refine (qualifyTopicName_self_iff ?_ namespaced named).mpr ?_
  · rw [String.append_assoc, startsWith_append (ne_empty_of_startsWith absolute), absolute]
  · rw [endsWith_append _ some, ends]

end Again

/-! ## The first pass -/

section First

variable {topic ns nodeName q : String}

theorem not_endsWith_of_valid {component : String}
    (valid : isValidTopicComponent component = true) : endsWith '/' component = false := by
  rw [← Bool.not_eq_true]
  intro ends
  obtain ⟨front, shape⟩ := List.getLast?_eq_some_iff.mp (beq_iff_eq.mp ends)
  have uncut : component ∈ fields '/' component := by
    rw [fields_of_valid valid]
    exact List.mem_singleton_self _
  refine without_of_mem_fields uncut ?_
  rw [shape]
  exact List.mem_append_right _ (List.mem_singleton_self _)

/-- The namespace in front of a relative or private name. -/
theorem startsWith_normalizeNamespace (some : normalizeNamespace ns ≠ "") :
    startsWith '/' (normalizeNamespace ns) = true := by
  unfold normalizeNamespace at some ⊢
  split_ifs at some ⊢ with missing starts
  · exact absurd rfl some
  · exact starts
  · rw [startsWith_append (by decide)]
    decide

/-- A name behind a namespace starts with a slash and ends as the name does. -/
theorem expanded_ends (ns : String) {name : String} (some : name ≠ "")
    (expanded : q = (if normalizeNamespace ns = "" ∨ normalizeNamespace ns = "/" then "/" ++ name
      else normalizeNamespace ns ++ "/" ++ name)) :
    startsWith '/' q = true ∧ endsWith '/' q = endsWith '/' name := by
  subst expanded
  split_ifs with root
  · exact ⟨by rw [startsWith_append (by decide)]; decide, endsWith_append _ some⟩
  · rw [not_or] at root
    refine ⟨?_, endsWith_append _ some⟩
    rw [String.append_assoc, startsWith_append root.1]
    exact startsWith_normalizeNamespace root.1

theorem withoutTrailingSlash_ne_empty (given : topic ≠ "")
    (relative : startsWith '/' topic = false) : withoutTrailingSlash topic ≠ "" := by
  unfold withoutTrailingSlash
  cases stripped : Names.stripEnd "/" topic with
  | none => exact given
  | some base =>
      rintro rfl
      rw [Names.append_of_stripEnd stripped] at relative
      exact absurd relative (by decide)

theorem qualifyRelative_ends (given : topic ≠ "") (relative : startsWith '/' topic = false)
    (accepted : qualifyRelative topic (normalizeNamespace ns) = .ok q) :
    startsWith '/' q = true ∧ endsWith '/' q = endsWith '/' (withoutTrailingSlash topic) := by
  refine expanded_ends ns (withoutTrailingSlash_ne_empty given relative) ?_
  unfold qualifyRelative at accepted
  obtain ⟨⟨⟩, -, accepted⟩ := Fallible.bind_eq_ok_iff.mp accepted
  split_ifs at accepted ⊢
  · exact (Except.ok.inj accepted).symm
  · exact (Except.ok.inj accepted).symm

theorem qualifyPrivate_ends (named : isValidTopicComponent nodeName = true)
    (accepted : qualifyPrivate topic (normalizeNamespace ns) nodeName = .ok q) :
    startsWith '/' q = true ∧ endsWith '/' q = endsWith '/' (privateSuffix topic) := by
  have some : nodeName ≠ "" := by
    rintro rfl
    cases named
  unfold qualifyPrivate at accepted
  obtain ⟨⟨⟩, -, accepted⟩ := Fallible.bind_eq_ok_iff.mp accepted
  by_cases alone : privateSuffix topic = ""
  · simp only [if_pos alone] at accepted
    rw [alone, show endsWith '/' "" = endsWith '/' nodeName from (not_endsWith_of_valid named).symm]
    refine expanded_ends ns some ?_
    split_ifs at accepted ⊢
    · exact (Except.ok.inj accepted).symm
    · exact (Except.ok.inj accepted).symm
  · simp only [if_neg alone] at accepted
    have some : nodeName ++ "/" ++ privateSuffix topic ≠ "" := by
      intro empty
      exact absurd (congrArg String.toList empty) (by simp)
    rw [← endsWith_append (nodeName ++ "/") alone]
    refine expanded_ends ns some ?_
    split_ifs at accepted ⊢
    · rw [← Except.ok.inj accepted]
      simp only [String.append_assoc]
    · rw [← Except.ok.inj accepted]
      simp only [String.append_assoc]

theorem startsWith_withoutTrailingSlash (absolute : startsWith '/' topic = true)
    (some : withoutTrailingSlash topic ≠ "") :
    startsWith '/' (withoutTrailingSlash topic) = true := by
  unfold withoutTrailingSlash at some ⊢
  cases stripped : Names.stripEnd "/" topic with
  | none => exact absolute
  | some base =>
      have kept : base ≠ "" := by simpa [stripped] using some
      rw [Names.append_of_stripEnd stripped, startsWith_append kept] at absolute
      exact absolute

/-- A qualified name starts with a slash and has one at the end if its topic leaves one. -/
theorem qualifyTopicName_ends (accepted : qualifyTopicName topic ns nodeName = .ok q) :
    startsWith '/' q = true ∧ endsWith '/' q = leavesSlash topic := by
  obtain ⟨-, named, branch⟩ := validated_of_qualified accepted
  have given : topic ≠ "" := by
    rintro rfl
    cases accepted
  unfold leavesSlash
  rcases absolute : startsWith '/' topic with _ | _
  · rw [absolute, if_neg Bool.false_ne_true] at branch
    rcases tilde : startsWith '~' topic with _ | _
    · rw [tilde, if_neg Bool.false_ne_true] at branch
      exact qualifyRelative_ends given absolute branch
    · rw [tilde, if_pos rfl] at branch
      exact qualifyPrivate_ends named branch
  · rw [absolute, if_pos rfl] at branch
    obtain rfl := qualifyAbsolute_eq_ok branch
    have tilde : startsWith '~' topic = false := by
      unfold startsWith at absolute ⊢
      rw [beq_iff_eq.mp absolute]
      decide
    rw [tilde, if_neg Bool.false_ne_true]
    refine ⟨startsWith_withoutTrailingSlash absolute ?_, rfl⟩
    intro empty
    simp only [qualifyAbsolute, if_pos (Or.inl empty)] at branch
    cases branch

end First

/-- **A name is qualified once and for all exactly when its topic leaves no slash at the end**:
no absolute or relative topic with two of them, and no private topic with one. -/
theorem requalifies_iff {topic ns nodeName q : String}
    (accepted : qualifyTopicName topic ns nodeName = .ok q) :
    Requalifies q ↔ leavesSlash topic = false := by
  obtain ⟨absolute, ends⟩ := qualifyTopicName_ends accepted
  rw [← ends]
  constructor
  · intro again
    have same := (again "" "n" (by decide) (by decide)).1
    exact (qualifyTopicName_self_iff absolute (by decide) (by decide)).mp same
  · intro closed ns nodeName namespaced named
    refine ⟨(qualifyTopicName_self_iff absolute namespaced named).mpr closed, ?_⟩
    exact fun x some ends => qualifyTopicName_append absolute namespaced named some ends

theorem requalifies_iff_nested : Requalifies "/ns/node/pose" ↔ leavesSlash "~/pose" = false :=
  @requalifies_iff "~/pose" "/ns" "node" "/ns/node/pose" (by decide)

/-- A private topic keeps the slash at its end, and loses it when it is qualified again. -/
theorem trailingSlash_not_requalified :
    qualifyTopicName "~pose/" "" "node" = .ok "/node/pose/" ∧
      qualifyTopicName "/node/pose/" "" "node" = .ok "/node/pose" ∧
      ¬ ∀ topic ns nodeName q, qualifyTopicName topic ns nodeName = .ok q → Requalifies q := by
  refine ⟨by decide, by decide, fun claim => ?_⟩
  have again := claim "~pose/" "" "node" "/node/pose/" (by decide) "" "node" (by decide) (by decide)
  exact absurd again.1 (by decide)

end RosZ.TopicName
