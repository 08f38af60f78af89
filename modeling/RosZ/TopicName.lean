import RosZ.Lib.Fallible
import RosZ.Lib.Names
import RosZ.Lib.Text

/-!
# Qualified topic names

`topic_name.rs`: a topic is qualified by the namespace and the name of a node.  Absolute
topics stay as they are, relative ones follow the namespace, private ones the name of the
node.

A well-formed name is a text of components with a slash in front of each, so it is read off
its fields.  Those of a relative or private name are the parts of the namespace, then those of
the topic (`fields_qualifyTopicName`).  Both have been validated, but empty parts are passed
over, and an absolute topic is not looked at: `qualifyTopicName_wellFormed` says what is left.

The bytes that `is_valid_topic_component` looks at are characters here: a character outside
ASCII has only bytes outside ASCII, which are no letters.
-/

namespace RosZ.TopicName

open Text

/-- Errors that can occur during topic name qualification. -/
inductive TopicNameError where
  /-- Topic name is empty -/
  | empty
  /-- Topic name ends with a forward slash -/
  | endsWithSlash
  /-- Topic name contains invalid characters -/
  | invalidCharacters (reason : String)
  /-- Namespace is invalid -/
  | invalidNamespace (reason : String)
  /-- Node name is invalid -/
  | invalidNodeName (reason : String)
deriving DecidableEq

/-- Components must start with a letter or underscore, followed by alphanumeric or underscores. -/
def isValidTopicComponent (component : String) : Bool :=
  match component.toList with
  | [] => false
  | c :: rest => (c.isAlpha || c == '_') && rest.all fun b => b.isAlphanum || b == '_'

/-- The loops over the components of a name; empty ones are passed over. -/
def validateParts (error : String → TopicNameError) : List String → Except TopicNameError Unit
  | [] => .ok ()
  | part :: parts =>
      if part ≠ "" ∧ isValidTopicComponent part = false then .error (error part)
      else validateParts error parts

def startsWith (c : Char) (s : String) : Bool := s.toList.head? == some c

def endsWith (c : Char) (s : String) : Bool := s.toList.getLast? == some c

/-- Namespaces can be empty, "/", or a series of valid components separated by "/". -/
def validateNamespace (ns : String) : Except TopicNameError Unit :=
  if ns = "" ∨ ns = "/" then .ok ()
  else if endsWith '/' ns then .error (.invalidNamespace "namespace cannot end with '/'")
  else
    validateParts (fun part => .invalidNamespace s!"invalid component '{part}'") (fields '/' ns)

/-- Validate a node name. -/
def validateNodeName (nodeName : String) : Except TopicNameError Unit :=
  if nodeName = "" then .error (.invalidNodeName "node name is empty")
  else if isValidTopicComponent nodeName = false then
    .error (.invalidNodeName s!"invalid node name '{nodeName}'")
  else .ok ()

/-- `strip_suffix('/').unwrap_or(topic)`. -/
def withoutTrailingSlash (topic : String) : String := (Names.stripEnd "/" topic).getD topic

/-- What stands behind `~` or `~/`. -/
def privateSuffix (topic : String) : String :=
  let topicSuffix := (Names.stripStart "~" topic).getD topic
  (Names.stripStart "/" topicSuffix).getD topicSuffix

/-- Normalize namespace: ensure it starts with "/" if not empty. -/
def normalizeNamespace (ns : String) : String :=
  if ns = "" then ""
  else if startsWith '/' ns then ns
  else "/" ++ ns

/-- Absolute topics are returned as they are, with a trailing slash removed. -/
def qualifyAbsolute (topic : String) : Except TopicNameError String :=
  let topic := withoutTrailingSlash topic
  if topic = "" ∨ topic = "/" then .error (.invalidCharacters "topic cannot be just '/'")
  else .ok topic

/-- Validate the topic suffix. -/
def validateSuffix (topicSuffix : String) : Except TopicNameError Unit :=
  if topicSuffix = "" then .ok ()
  else
    validateParts (fun part => .invalidCharacters s!"invalid component '{part}' in private topic")
      (fields '/' topicSuffix)

/-- Private topics are expanded with namespace and node name. -/
def qualifyPrivate (topic ns nodeName : String) : Except TopicNameError String := do
  let topicSuffix := privateSuffix topic
  validateSuffix topicSuffix
  if ns = "" ∨ ns = "/" then
    if topicSuffix = "" then return "/" ++ nodeName
    else return "/" ++ nodeName ++ "/" ++ topicSuffix
  else if topicSuffix = "" then return ns ++ "/" ++ nodeName
  else return ns ++ "/" ++ nodeName ++ "/" ++ topicSuffix

/-- Relative topics are expanded with the namespace only. -/
def qualifyRelative (topic ns : String) : Except TopicNameError String := do
  let topic := withoutTrailingSlash topic
  validateParts (fun part => .invalidCharacters s!"invalid component '{part}'") (fields '/' topic)
  if ns = "" ∨ ns = "/" then return "/" ++ topic
  else return ns ++ "/" ++ topic

/-- Qualify a topic name according to ROS 2 naming rules. -/
def qualifyTopicName (topic ns nodeName : String) : Except TopicNameError String :=
  if topic = "" then .error .empty
  else do
    validateNamespace ns
    validateNodeName nodeName
    let ns := normalizeNamespace ns
    if startsWith '/' topic then qualifyAbsolute topic
    else if startsWith '~' topic then qualifyPrivate topic ns nodeName
    else qualifyRelative topic ns

/-- Service names follow the same rules as topic names. -/
def qualifyServiceName (service ns nodeName : String) : Except TopicNameError String :=
  qualifyTopicName service ns nodeName

/-! ## Well-formed names -/

/-- One or more groups, each a slash and a valid component. -/
def Qualified (q : String) : Prop :=
  ∃ parts ≠ [], (∀ part ∈ parts, isValidTopicComponent part = true) ∧
    q = String.join (parts.map ("/" ++ ·))

/-- The slashes of a text in front of its chunks. -/
theorem slash_intercalate (part : String) (parts : List String) :
    "/" ++ "/".intercalate (part :: parts) = String.join ((part :: parts).map ("/" ++ ·)) := by
  induction parts generalizing part with
  | nil => simp [String.join_cons]
  | cons next parts ih =>
      rw [String.intercalate_cons_of_ne_nil (List.cons_ne_nil _ _), List.map_cons,
        String.join_cons, ← ih next]
      simp only [String.append_assoc]

theorem intercalate_fields (s : String) : "/".intercalate (fields '/' s) = s := by
  rw [← String.toList_inj, String.toList_intercalate, fields, List.map_map]
  have same :
      (s.toList.splitOn '/').map (String.toList ∘ String.ofList) = s.toList.splitOn '/' := by
    simp [Function.comp_def]
  rw [same]
  exact List.intercalate_splitOn '/'

/-- A name whose fields are valid components behind an empty one. -/
theorem qualified_of_fields {q : String} {parts : List String} (some : parts ≠ [])
    (valid : ∀ part ∈ parts, isValidTopicComponent part = true)
    (split : fields '/' q = "" :: parts) : Qualified q := by
  refine ⟨parts, some, valid, ?_⟩
  obtain ⟨part, others, rfl⟩ := List.exists_cons_of_ne_nil some
  rw [← intercalate_fields q, split, String.intercalate_cons_of_ne_nil (List.cons_ne_nil _ _),
    ← slash_intercalate, String.empty_append]

/-! ## The parts of a qualified name -/

/-- The parts of a namespace behind its first slash. -/
def namespaceParts (ns : String) : List String :=
  if ns = "" ∨ ns = "/" then [] else fields '/' ((Names.stripStart "/" ns).getD ns)

/-- The parts that a topic adds to those of the namespace, unless it is absolute. -/
def topicParts (topic nodeName : String) : List String :=
  if startsWith '~' topic then
    nodeName :: if privateSuffix topic = "" then [] else fields '/' (privateSuffix topic)
  else fields '/' (withoutTrailingSlash topic)

/-- What the validation of a text leaves open about each of its parts. -/
def Validated (part : String) : Prop := part = "" ∨ isValidTopicComponent part = true

theorem validateParts_eq_ok_iff {error : String → TopicNameError} {parts : List String} :
    validateParts error parts = .ok () ↔ ∀ part ∈ parts, Validated part := by
  induction parts with
  | nil => simp [validateParts]
  | cons part parts ih =>
      rw [validateParts, List.forall_mem_cons, ← ih, Validated]
      split_ifs with refused
      · have neither : ¬ (part = "" ∨ isValidTopicComponent part = true) := by
          rw [not_or, Bool.not_eq_true]
          exact refused
        exact iff_of_false nofun fun both => neither both.1
      · have either : part = "" ∨ isValidTopicComponent part = true := by
          rw [not_and_or, not_not, Bool.not_eq_false] at refused
          exact refused
        exact (and_iff_right either).symm

theorem validateNodeName_eq_ok_iff {nodeName : String} :
    validateNodeName nodeName = .ok () ↔ isValidTopicComponent nodeName = true := by
  unfold validateNodeName
  split_ifs with missing refused
  · subst missing
    exact iff_of_false nofun (by decide)
  · exact iff_of_false nofun (by simp [refused])
  · exact iff_of_true rfl (by simpa using refused)

/-- A slash in front of a text is an empty field. -/
theorem fields_slash_append (s : String) : fields '/' ("/" ++ s) = "" :: fields '/' s := by
  have first : fields '/' "" = [""] := by decide
  have split := fields_append '/' "" s
  rw [String.empty_append, first, List.singleton_append] at split
  exact split

/-- A text that starts with a slash is that slash and the rest. -/
theorem exists_of_startsWith {ns : String} (starts : startsWith '/' ns = true) :
    ∃ rest, Names.stripStart "/" ns = some rest ∧ ns = "/" ++ rest := by
  obtain ⟨tail, shape⟩ : ∃ tail, ns.toList = '/' :: tail := by
    unfold startsWith at starts
    rw [beq_iff_eq] at starts
    exact List.head?_eq_some_iff.mp starts
  obtain ⟨rest, stripped⟩ := @Names.exists_stripStart "/" ns (by
    rw [shape]
    exact ⟨tail, rfl⟩)
  exact ⟨rest, stripped, Names.append_of_stripStart stripped⟩

theorem stripStart_of_startsWith_false {ns : String} (starts : startsWith '/' ns = false) :
    Names.stripStart "/" ns = none := by
  unfold Names.stripStart
  rw [if_neg]
  intro found
  obtain ⟨tail, shape⟩ := List.isPrefixOf_iff_prefix.mp found
  rw [startsWith, ← shape] at starts
  cases starts

/-- A namespace that is not the root is a slash in front of its parts. -/
theorem fields_normalizeNamespace {ns : String} (proper : ¬ (ns = "" ∨ ns = "/")) :
    fields '/' (normalizeNamespace ns) = "" :: namespaceParts ns := by
  rw [not_or] at proper
  rw [normalizeNamespace, if_neg proper.1, namespaceParts, if_neg (not_or.mpr proper)]
  rcases starts : startsWith '/' ns with _ | _
  · rw [stripStart_of_startsWith_false starts]
    exact fields_slash_append ns
  · obtain ⟨rest, stripped, shape⟩ := exists_of_startsWith starts
    rw [stripped, if_pos rfl]
    nth_rewrite 1 [shape]
    exact fields_slash_append rest

theorem normalizeNamespace_root_iff {ns : String} :
    normalizeNamespace ns = "" ∨ normalizeNamespace ns = "/" ↔ ns = "" ∨ ns = "/" := by
  constructor
  · intro root
    by_contra proper
    have split := fields_normalizeNamespace proper
    obtain ⟨first, others, some⟩ : ∃ first others, namespaceParts ns = first :: others := by
      rw [namespaceParts, if_neg proper]
      exact exists_cons_fields '/' _
    rcases root with root | root
    · rw [root, some] at split
      exact absurd (congrArg List.length split) (by simp [fields])
    · rw [not_or] at proper
      rw [normalizeNamespace, if_neg proper.1] at root
      split_ifs at root with starts
      · exact proper.2 root
      · have none : ns = "" := by
          rw [← String.toList_inj] at root ⊢
          simpa [String.toList_append] using root
        exact proper.1 none
  · rintro (rfl | rfl)
    · exact .inl rfl
    · exact .inr (by decide)

/-- The namespace of a node in front of a name. -/
theorem fields_qualify (ns name : String) :
    fields '/' (if normalizeNamespace ns = "" ∨ normalizeNamespace ns = "/" then "/" ++ name
        else normalizeNamespace ns ++ "/" ++ name) =
      "" :: (namespaceParts ns ++ fields '/' name) := by
  by_cases root : ns = "" ∨ ns = "/"
  · rw [if_pos (normalizeNamespace_root_iff.mpr root), namespaceParts, if_pos root,
      fields_slash_append, List.nil_append]
  · rw [if_neg (mt normalizeNamespace_root_iff.mp root)]
    show fields '/' (normalizeNamespace ns ++ String.singleton '/' ++ name) = _
    rw [fields_append, fields_normalizeNamespace root, List.cons_append]

/-- The parts of an accepted namespace have been validated. -/
theorem validated_namespaceParts {ns : String} (accepted : validateNamespace ns = .ok ()) :
    ∀ part ∈ namespaceParts ns, Validated part := by
  unfold validateNamespace at accepted
  unfold namespaceParts
  split_ifs at accepted ⊢ with root slash
  · exact fun part member => absurd member List.not_mem_nil
  · have each := validateParts_eq_ok_iff.mp accepted
    rcases starts : startsWith '/' ns with _ | _
    · rw [stripStart_of_startsWith_false starts]
      exact each
    · obtain ⟨rest, stripped, shape⟩ := exists_of_startsWith starts
      rw [stripped]
      rw [shape, fields_slash_append, List.forall_mem_cons] at each
      exact each.2

/-- A valid component is not cut anywhere. -/
theorem fields_of_valid {component : String} (valid : isValidTopicComponent component = true) :
    fields '/' component = [component] := by
  refine fields_of_without fun slash => ?_
  unfold isValidTopicComponent at valid
  split at valid
  · cases valid
  · next c rest shape =>
    rw [Bool.and_eq_true, List.all_eq_true] at valid
    rw [shape] at slash
    rcases List.mem_cons.mp slash with rfl | slash
    · exact absurd valid.1 (by decide)
    · exact absurd (valid.2 '/' slash) (by decide)

/-- What a call that returns a name has checked before it looks at the topic. -/
theorem validated_of_qualified {topic ns nodeName q : String}
    (accepted : qualifyTopicName topic ns nodeName = .ok q) :
    validateNamespace ns = .ok () ∧ isValidTopicComponent nodeName = true ∧
      (if startsWith '/' topic then qualifyAbsolute topic
        else if startsWith '~' topic then qualifyPrivate topic (normalizeNamespace ns) nodeName
        else qualifyRelative topic (normalizeNamespace ns)) = .ok q := by
  unfold qualifyTopicName at accepted
  rcases eq_or_ne topic "" with missing | some
  · rw [if_pos missing] at accepted
    cases accepted
  rw [if_neg some] at accepted
  obtain ⟨⟨⟩, namespaced, accepted⟩ := Fallible.bind_eq_ok_iff.mp accepted
  obtain ⟨⟨⟩, named, accepted⟩ := Fallible.bind_eq_ok_iff.mp accepted
  exact ⟨namespaced, validateNodeName_eq_ok_iff.mp named, accepted⟩

theorem qualifyAbsolute_eq_ok {topic q : String} (accepted : qualifyAbsolute topic = .ok q) :
    q = withoutTrailingSlash topic := by
  simp only [qualifyAbsolute] at accepted
  split_ifs at accepted
  exact (Except.ok.inj accepted).symm

theorem qualifyRelative_eq_ok {topic ns q : String}
    (accepted : qualifyRelative topic (normalizeNamespace ns) = .ok q) :
    fields '/' q = "" :: (namespaceParts ns ++ fields '/' (withoutTrailingSlash topic)) ∧
      ∀ part ∈ fields '/' (withoutTrailingSlash topic), Validated part := by
  unfold qualifyRelative at accepted
  obtain ⟨⟨⟩, validated, accepted⟩ := Fallible.bind_eq_ok_iff.mp accepted
  refine ⟨?_, validateParts_eq_ok_iff.mp validated⟩
  have expanded := fields_qualify ns (withoutTrailingSlash topic)
  rw [← expanded]
  split_ifs at accepted ⊢
  · rw [← Except.ok.inj accepted]
  · rw [← Except.ok.inj accepted]

theorem qualifyPrivate_eq_ok {topic ns nodeName q : String}
    (named : isValidTopicComponent nodeName = true)
    (accepted : qualifyPrivate topic (normalizeNamespace ns) nodeName = .ok q) :
    fields '/' q = "" :: (namespaceParts ns ++ (nodeName ::
        if privateSuffix topic = "" then [] else fields '/' (privateSuffix topic))) ∧
      ∀ part ∈ if privateSuffix topic = "" then [] else fields '/' (privateSuffix topic),
        Validated part := by
  unfold qualifyPrivate at accepted
  obtain ⟨⟨⟩, validated, accepted⟩ := Fallible.bind_eq_ok_iff.mp accepted
  unfold validateSuffix at validated
  by_cases alone : privateSuffix topic = ""
  · have expanded := fields_qualify ns nodeName
    rw [fields_of_valid named] at expanded
    simp only [if_pos alone] at accepted ⊢
    refine ⟨?_, fun part member => absurd member List.not_mem_nil⟩
    rw [← expanded]
    split_ifs at accepted ⊢
    · rw [← Except.ok.inj accepted]
    · rw [← Except.ok.inj accepted]
  · have name : fields '/' (nodeName ++ "/" ++ privateSuffix topic) =
        nodeName :: fields '/' (privateSuffix topic) := by
      show fields '/' (nodeName ++ String.singleton '/' ++ privateSuffix topic) = _
      rw [fields_append, fields_of_valid named, List.singleton_append]
    have expanded := fields_qualify ns (nodeName ++ "/" ++ privateSuffix topic)
    rw [name] at expanded
    simp only [if_neg alone] at accepted validated ⊢
    refine ⟨?_, validateParts_eq_ok_iff.mp validated⟩
    rw [← expanded]
    split_ifs at accepted ⊢
    · rw [← Except.ok.inj accepted]
      simp only [String.append_assoc]
    · rw [← Except.ok.inj accepted]
      simp only [String.append_assoc]

/-- **A relative or private name** is made of the parts of the namespace and those of the
topic, and all of them have been validated. -/
theorem fields_qualifyTopicName {topic ns nodeName q : String}
    (accepted : qualifyTopicName topic ns nodeName = .ok q)
    (expanded : startsWith '/' topic = false) :
    fields '/' q = "" :: (namespaceParts ns ++ topicParts topic nodeName) ∧
      ∀ part ∈ namespaceParts ns ++ topicParts topic nodeName, Validated part := by
  obtain ⟨namespaced, named, accepted⟩ := validated_of_qualified accepted
  have front := validated_namespaceParts namespaced
  rw [expanded, if_neg Bool.false_ne_true] at accepted
  rw [List.forall_mem_append, topicParts]
  rcases tilde : startsWith '~' topic with _ | _
  · rw [tilde, if_neg Bool.false_ne_true] at accepted
    obtain ⟨split, back⟩ := qualifyRelative_eq_ok accepted
    exact ⟨split, front, back⟩
  · rw [tilde, if_pos rfl] at accepted
    obtain ⟨split, back⟩ := qualifyPrivate_eq_ok named accepted
    exact ⟨split, front, List.forall_mem_cons.mpr ⟨.inr named, back⟩⟩

/-- **What is left of the form of a name**: an absolute topic is returned as it is.  Every
other name is a slash in front of chunks that are empty or valid components, and it is well
formed when no part of the namespace and of the topic is empty. -/
theorem qualifyTopicName_wellFormed {topic ns nodeName q : String}
    (accepted : qualifyTopicName topic ns nodeName = .ok q) :
    (startsWith '/' topic = true → q = withoutTrailingSlash topic) ∧
      (startsWith '/' topic = false →
        (∃ parts, fields '/' q = "" :: parts ∧
          ∀ part ∈ parts, part = "" ∨ isValidTopicComponent part = true) ∧
        ("" ∉ namespaceParts ns → "" ∉ topicParts topic nodeName → Qualified q)) := by
  constructor
  · intro absolute
    obtain ⟨_, _, accepted⟩ := validated_of_qualified accepted
    rw [absolute, if_pos rfl] at accepted
    exact qualifyAbsolute_eq_ok accepted
  · intro expanded
    obtain ⟨split, validated⟩ := fields_qualifyTopicName accepted expanded
    refine ⟨⟨_, split, validated⟩, fun namespaced named => ?_⟩
    refine qualified_of_fields ?_ (fun part member => ?_) split
    · apply List.append_ne_nil_of_right_ne_nil
      unfold topicParts
      split_ifs
      · exact List.cons_ne_nil _ _
      · exact List.cons_ne_nil _ _
      · obtain ⟨first, others, some⟩ := exists_cons_fields '/' (withoutTrailingSlash topic)
        rw [some]
        exact List.cons_ne_nil _ _
    · refine (validated part member).resolve_left ?_
      rintro rfl
      exact (List.mem_append.mp member).elim namespaced named

theorem qualifyTopicName_wellFormed_private :
    (startsWith '/' "~pose" = true → "/ns/node/pose" = withoutTrailingSlash "~pose") ∧
      (startsWith '/' "~pose" = false →
        (∃ parts, fields '/' "/ns/node/pose" = "" :: parts ∧
          ∀ part ∈ parts, part = "" ∨ isValidTopicComponent part = true) ∧
        ("" ∉ namespaceParts "/ns" → "" ∉ topicParts "~pose" "node" →
          Qualified "/ns/node/pose")) :=
  qualifyTopicName_wellFormed (by decide)

/-- A well-formed name is made of slashes, letters, digits and underscores. -/
theorem Qualified.chars {q : String} (formed : Qualified q) :
    ∀ c ∈ q.toList, c = '/' ∨ c.isAlphanum = true ∨ c = '_' := by
  obtain ⟨parts, -, valid, rfl⟩ := formed
  induction parts with
  | nil => simp
  | cons part parts ih =>
      obtain ⟨first, others⟩ := List.forall_mem_cons.mp valid
      intro c member
      rw [List.map_cons, String.join_cons, String.toList_append, String.toList_append,
        List.mem_append, List.mem_append] at member
      rcases member with (slash | inside) | later
      · exact .inl (List.mem_singleton.mp slash)
      · right
        unfold isValidTopicComponent at first
        split at first
        · cases first
        · next head rest shape =>
          rw [Bool.and_eq_true, Bool.or_eq_true, beq_iff_eq, List.all_eq_true] at first
          rw [shape] at inside
          rcases List.mem_cons.mp inside with rfl | inside
          · refine first.1.imp_left fun letter => ?_
            rw [Char.isAlphanum, letter, Bool.true_or]
          · simpa using first.2 c inside
      · exact ih others c later

/-- An absolute topic that is no well-formed name comes back as it is. -/
theorem spacedTopic_not_qualified :
    ∃ q, qualifyTopicName "/foo bar" "/" "node" = .ok q ∧ ¬ Qualified q := by
  refine ⟨"/foo bar", by decide, fun formed => ?_⟩
  have space := formed.chars ' ' (by decide)
  exact absurd space (by decide)

end RosZ.TopicName
