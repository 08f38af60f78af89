import Mathlib.Data.List.Forall2

/-!
# Programs that may fail

What it means for a program in `Except` to succeed: every step of it has succeeded.
-/

namespace Fallible

universe u v

variable {ε : Type u} {α β : Type v}

/-- A sequence of two steps succeeds when both do. -/
theorem bind_eq_ok_iff {step : Except ε α} {next : α → Except ε β} {result : β} :
    step >>= next = .ok result ↔ ∃ value, step = .ok value ∧ next value = .ok result := by
  constructor
  · intro succeeded
    rcases step with e | value
    · cases succeeded
    · exact ⟨value, rfl, succeeded⟩
  · rintro ⟨value, rfl, succeeded⟩
    exact succeeded

/-- A sequence of two steps fails when one of them does. -/
theorem bind_eq_error_iff {step : Except ε α} {next : α → Except ε β} {error : ε} :
    step >>= next = .error error ↔
      step = .error error ∨ ∃ value, step = .ok value ∧ next value = .error error := by
  constructor
  · intro failed
    rcases step with e | value
    · exact .inl (congrArg Except.error (Except.error.inj failed))
    · exact .inr ⟨value, rfl, failed⟩
  · rintro (rfl | ⟨value, rfl, failed⟩)
    · rfl
    · exact failed

theorem exists_of_isOk {outcome : Except ε α} (succeeded : outcome.isOk = true) :
    ∃ value, outcome = .ok value := by
  rcases outcome with e | value
  · cases succeeded
  · exact ⟨value, rfl⟩

/-- An outcome without its error. -/
theorem toOption_eq_some_iff {outcome : Except ε α} {value : α} :
    outcome.toOption = some value ↔ outcome = .ok value := by
  rcases outcome with e | found
  · simp [Except.toOption]
  · simp [Except.toOption]

/-- A loop succeeds when every turn does. -/
theorem mapM_eq_ok_iff {turn : α → Except ε β} {items : List α} {results : List β} :
    items.mapM turn = .ok results ↔
      List.Forall₂ (fun item result => turn item = .ok result) items results := by
  induction items generalizing results with
  | nil =>
      rw [List.mapM_nil, List.forall₂_nil_left_iff]
      exact ⟨fun same => (Except.ok.inj same).symm, fun same => congrArg Except.ok same.symm⟩
  | cons item rest ih =>
      rw [List.mapM_cons, bind_eq_ok_iff, List.forall₂_cons_left_iff]
      constructor
      · rintro ⟨result, first, others⟩
        obtain ⟨results', loop, same⟩ := bind_eq_ok_iff.mp others
        exact ⟨result, results', first, ih.mp loop, (Except.ok.inj same).symm⟩
      · rintro ⟨result, results', first, loop, rfl⟩
        exact ⟨result, first, bind_eq_ok_iff.mpr ⟨results', ih.mpr loop, rfl⟩⟩

/-- A loop has a result of the wanted shape when every turn has. -/
theorem exists_mapM_iff {γ : Type v} {turn : α → Except ε β} {view : β → γ} {wanted : α → γ}
    {items : List α} :
    (∃ results, items.mapM turn = .ok results ∧ results.map view = items.map wanted) ↔
      ∀ item ∈ items, ∃ result, turn item = .ok result ∧ view result = wanted item := by
  induction items with
  | nil =>
      constructor
      · intro _ item impossible
        cases impossible
      · intro _
        exact ⟨[], rfl, rfl⟩
  | cons item rest ih =>
      rw [List.forall_mem_cons, ← ih]
      constructor
      · rintro ⟨results, loop, same⟩
        rw [mapM_eq_ok_iff, List.forall₂_cons_left_iff] at loop
        obtain ⟨result, results', first, others, rfl⟩ := loop
        rw [List.map_cons, List.map_cons, List.cons.injEq] at same
        exact ⟨⟨result, first, same.1⟩, results', mapM_eq_ok_iff.mpr others, same.2⟩
      · rintro ⟨⟨result, first, same⟩, results', others, sames⟩
        refine ⟨result :: results', mapM_eq_ok_iff.mpr ?_, ?_⟩
        · exact List.Forall₂.cons first (mapM_eq_ok_iff.mp others)
        · rw [List.map_cons, List.map_cons, same, sames]

/-- The results of a loop that has succeeded are those of its turns. -/
theorem mem_results_iff {turn : α → Except ε β} {items : List α} {results : List β}
    (loop : items.mapM turn = .ok results) {result : β} :
    result ∈ results ↔ ∃ item ∈ items, turn item = .ok result := by
  rw [mapM_eq_ok_iff] at loop
  induction loop with
  | nil => simp
  | @cons item found items results first _ ih =>
      rw [List.mem_cons, List.exists_mem_cons_iff, ih, first, Except.ok.injEq, eq_comm]

/-- Every turn of such a loop has a result. -/
theorem exists_result {turn : α → Except ε β} {items : List α} {results : List β}
    (loop : items.mapM turn = .ok results) {item : α} (member : item ∈ items) :
    ∃ result ∈ results, turn item = .ok result := by
  rw [mapM_eq_ok_iff] at loop
  induction loop with
  | nil => cases member
  | @cons head found items results first _ ih =>
      rcases List.mem_cons.mp member with rfl | later
      · exact ⟨found, List.mem_cons_self, first⟩
      · obtain ⟨result, among, succeeded⟩ := ih later
        exact ⟨result, List.mem_cons_of_mem _ among, succeeded⟩

/-- They have the wanted shape when every turn's result has. -/
theorem map_results_eq_iff {γ : Type v} {turn : α → Except ε β} {view : β → γ}
    {wanted : α → γ} {items : List α} {results : List β}
    (loop : items.mapM turn = .ok results) :
    results.map view = items.map wanted ↔
      ∀ item ∈ items, ∀ result, turn item = .ok result → view result = wanted item := by
  rw [mapM_eq_ok_iff] at loop
  induction loop with
  | nil => simp
  | @cons item found items results first _ ih =>
      rw [List.map_cons, List.map_cons, List.cons.injEq, ih, List.forall_mem_cons, first]
      simp

/-- A loop is determined by its turns. -/
theorem mapM_congr {turn turn' : α → Except ε β} {items : List α}
    (same : ∀ item ∈ items, turn item = turn' item) : items.mapM turn = items.mapM turn' := by
  induction items with
  | nil => rfl
  | cons item rest ih =>
      rw [List.mapM_cons, List.mapM_cons, same item List.mem_cons_self,
        ih fun other member => same other (List.mem_cons_of_mem _ member)]

/-- A loop succeeds when every turn can. -/
theorem exists_mapM_ok {turn : α → Except ε β} {items : List α}
    (turns : ∀ item ∈ items, ∃ result, turn item = .ok result) :
    ∃ results, items.mapM turn = .ok results := by
  have shapeless := @exists_mapM_iff ε α β PUnit turn (fun _ => ⟨⟩) (fun _ => ⟨⟩) items
  obtain ⟨results, loop, -⟩ := shapeless.mpr fun item member => by
    obtain ⟨result, succeeded⟩ := turns item member
    exact ⟨result, succeeded, rfl⟩
  exact ⟨results, loop⟩

/-- A loop fails when a turn does, behind turns that succeed. -/
theorem mapM_eq_error_iff {turn : α → Except ε β} {items : List α} {error : ε} :
    items.mapM turn = .error error ↔ ∃ front item back, items = front ++ item :: back ∧
      (∀ other ∈ front, ∃ result, turn other = .ok result) ∧ turn item = .error error := by
  induction items with
  | nil =>
      rw [List.mapM_nil]
      refine iff_of_false nofun ?_
      rintro ⟨front, item, back, same, -⟩
      exact absurd same.symm (List.append_ne_nil_of_right_ne_nil _ (List.cons_ne_nil _ _))
  | cons head rest ih =>
      rw [List.mapM_cons, bind_eq_error_iff]
      constructor
      · rintro (failed | ⟨result, first, failed⟩)
        · exact ⟨[], head, rest, rfl, fun _ member => absurd member List.not_mem_nil, failed⟩
        · rcases bind_eq_error_iff.mp failed with failed | ⟨results, _, impossible⟩
          · obtain ⟨front, item, back, rfl, turns, failed⟩ := ih.mp failed
            exact ⟨head :: front, item, back, rfl,
              List.forall_mem_cons.mpr ⟨⟨result, first⟩, turns⟩, failed⟩
          · cases impossible
      · rintro ⟨front, item, back, same, turns, failed⟩
        rcases front with _ | ⟨other, front⟩
        · obtain ⟨rfl, rfl⟩ := List.cons.inj same
          exact .inl failed
        · obtain ⟨rfl, rfl⟩ := List.cons.inj same
          obtain ⟨⟨result, first⟩, others⟩ := List.forall_mem_cons.mp turns
          refine .inr ⟨result, first, bind_eq_error_iff.mpr (.inl (ih.mpr ?_))⟩
          exact ⟨front, item, back, rfl, others, failed⟩

/-- A loop that passes some of its items over and pushes the results of the others. -/
theorem foldlM_eq_mapM {γ δ : Type v} {step : δ → γ → Except ε δ} {pick : γ → Option α}
    {turn : α → Except ε β} {push : δ → β → δ}
    (skips : ∀ acc item, pick item = none → step acc item = .ok acc)
    (pushes : ∀ acc item picked, pick item = some picked →
      step acc item = turn picked >>= fun result => .ok (push acc result))
    (acc : δ) (items : List γ) :
    items.foldlM step acc =
      (items.filterMap pick).mapM turn >>= fun results => .ok (results.foldl push acc) := by
  induction items generalizing acc with
  | nil => rfl
  | cons item rest ih =>
      rw [List.foldlM_cons, List.filterMap_cons]
      rcases picked : pick item with _ | value
      · rw [skips acc item picked]
        exact ih acc
      · rw [pushes acc item value picked]
        show (turn value >>= _) >>= _ = (value :: rest.filterMap pick).mapM turn >>= _
        rw [List.mapM_cons, bind_assoc, bind_assoc]
        congr 1
        funext result
        show rest.foldlM step (push acc result) = _
        rw [ih, bind_assoc]
        rfl

/-- A loop over optional results has none when a turn has none. -/
theorem mapM_eq_none {turn : α → Option β} {items : List α} {item : α} (member : item ∈ items)
    (missing : turn item = none) : items.mapM turn = none := by
  induction items with
  | nil => cases member
  | cons head rest ih =>
      rw [List.mapM_cons]
      rcases List.mem_cons.mp member with rfl | later
      · rw [missing]
        rfl
      · rw [ih later]
        rcases turn head with _ | result
        · rfl
        · rfl

end Fallible
