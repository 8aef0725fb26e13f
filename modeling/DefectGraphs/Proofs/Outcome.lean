import Mathlib.Data.List.Forall2

/-!
Computations that succeed: each of their parts succeeds. One that fails does so at its first part
that fails.
-/

namespace DefectGraphs

theorem ok_bind (value : α) (next : α → Except ε β) :
    ((.ok value : Except ε α) >>= next) = next value := rfl

theorem bind_eq_ok {computation : Except ε α} {next : α → Except ε β} {result : β} :
    computation >>= next = .ok result ↔
      ∃ value, computation = .ok value ∧ next value = .ok result := by
  cases computation <;> simp [bind, Except.bind]

theorem bind_eq_error {computation : Except ε α} {next : α → Except ε β} {failure : ε} :
    computation >>= next = .error failure ↔
      computation = .error failure ∨
        ∃ value, computation = .ok value ∧ next value = .error failure := by
  cases computation <;> simp [bind, Except.bind]

theorem map_eq_ok {computation : Except ε α} {f : α → β} {result : β} :
    computation.map f = .ok result ↔ ∃ value, computation = .ok value ∧ f value = result := by
  cases computation <;> simp [Except.map]

theorem exists_of_isOk {outcome : Except ε α} (succeeds : outcome.isOk = true) :
    ∃ value, outcome = .ok value := by
  cases outcome with
  | error failure => cases succeeds
  | ok value => exact ⟨value, rfl⟩

theorem toOption_eq_some {outcome : Except ε α} {value : α} :
    outcome.toOption = some value ↔ outcome = .ok value := by
  cases outcome <;> simp [Except.toOption]

theorem throw_ne_ok (failure : ε) (value : α) : throw failure ≠ (.ok value : Except ε α) := by
  intro same
  cases same

theorem guard_eq_ok {condition : Prop} [Decidable condition] {failure : ε}
    {next : α → Except ε β} {rest : Except ε β} {result : β} :
    (if condition then throw failure >>= next else rest) = .ok result ↔
      ¬condition ∧ rest = .ok result := by
  by_cases holds : condition
  · rw [if_pos holds, bind_eq_ok]
    simp [holds, throw_ne_ok]
  · simp [holds]

theorem guard_eq_error {condition : Prop} [Decidable condition] {failure other : ε}
    {next : α → Except ε β} {rest : Except ε β} :
    (if condition then throw failure >>= next else rest) = .error other ↔
      condition ∧ failure = other ∨ ¬condition ∧ rest = .error other := by
  by_cases holds : condition
  · rw [if_pos holds]
    constructor
    · intro same
      exact .inl ⟨holds, Except.error.inj same⟩
    · rintro (⟨-, rfl⟩ | ⟨fails, -⟩)
      · rfl
      · exact absurd holds fails
  · simp [holds]

theorem mapM_eq_ok {f : α → Except ε β} {elements : List α} {results : List β} :
    elements.mapM f = .ok results ↔
      List.Forall₂ (fun element result => f element = .ok result) elements results := by
  induction elements generalizing results with
  | nil =>
      rw [List.mapM_nil, List.forall₂_nil_left_iff]
      constructor
      · intro same
        cases same
        rfl
      · rintro rfl
        rfl
  | cons element rest induction =>
      simp only [List.mapM_cons, bind_eq_ok, List.forall₂_cons_left_iff, ← induction]
      constructor
      · rintro ⟨result, given, others, givenOthers, same⟩
        cases same
        exact ⟨result, others, given, givenOthers, rfl⟩
      · rintro ⟨result, others, given, givenOthers, rfl⟩
        exact ⟨result, given, others, givenOthers, rfl⟩

theorem mapM_congr [Monad m] [LawfulMonad m] {f g : α → m β} {elements : List α}
    (same : ∀ element ∈ elements, f element = g element) : elements.mapM f = elements.mapM g := by
  induction elements with
  | nil => rfl
  | cons element rest induction =>
      rw [List.forall_mem_cons] at same
      rw [List.mapM_cons, List.mapM_cons, same.1, induction same.2]

theorem mapM_eq_some {f : α → Option β} {elements : List α} {results : List β} :
    elements.mapM f = some results ↔
      List.Forall₂ (fun element result => f element = some result) elements results := by
  induction elements generalizing results with
  | nil => simp [eq_comm]
  | cons element rest induction =>
      simp only [List.mapM_cons, Option.bind_eq_bind, Option.bind_eq_some_iff, Option.pure_def,
        Option.some.injEq, List.forall₂_cons_left_iff, ← induction]
      constructor
      · rintro ⟨result, given, others, givenOthers, rfl⟩
        exact ⟨result, others, given, givenOthers, rfl⟩
      · rintro ⟨result, others, given, givenOthers, rfl⟩
        exact ⟨result, given, others, givenOthers, rfl⟩

theorem mapM_eq_some_map {f : α → Option β} {g : α → β} {elements : List α}
    (each : ∀ element ∈ elements, f element = some (g element)) :
    elements.mapM f = some (elements.map g) :=
  mapM_eq_some.mpr (List.forall₂_map_right_iff.mpr (List.forall₂_same.mpr each))

theorem exists_mapM_eq_some {f : α → Option β} {elements : List α}
    (each : ∀ element ∈ elements, ∃ result, f element = some result) :
    ∃ results, elements.mapM f = some results := by
  induction elements with
  | nil => exact ⟨[], rfl⟩
  | cons element rest induction =>
      rw [List.forall_mem_cons] at each
      obtain ⟨⟨result, first⟩, others⟩ := each
      obtain ⟨results, later⟩ := induction others
      exact ⟨result :: results, mapM_eq_some.mpr (.cons first (mapM_eq_some.mp later))⟩

/-- Steps that do not fail on the images of states go through the images of a run. -/
theorem foldlM_eq_some {step : β → α → Option β} {next : γ → α → γ} (image : γ → β)
    (holds : γ → Prop) {elements : List α} {state : γ} (start : holds state)
    (each : ∀ state, holds state → ∀ element ∈ elements,
      step (image state) element = some (image (next state element)) ∧ holds (next state element)) :
    elements.foldlM step (image state) = some (image (elements.foldl next state)) := by
  induction elements generalizing state with
  | nil => rfl
  | cons element rest induction =>
      obtain ⟨given, kept⟩ := each state start element List.mem_cons_self
      rw [List.foldlM_cons, given]
      apply induction kept
      intro reached holds other member
      exact each reached holds other (List.mem_cons_of_mem element member)

theorem mapM_pair_eq_ok {f : α → Except ε β} {elements : List α} {pairs : List (α × β)} :
    (elements.mapM fun element => (f element).map (Prod.mk element)) = .ok pairs ↔
      pairs.map Prod.fst = elements ∧ ∀ pair ∈ pairs, f pair.1 = .ok pair.2 := by
  rw [mapM_eq_ok]
  constructor
  · intro given
    induction given with
    | nil => simp
    | cons first _ induction =>
        obtain ⟨result, computed, rfl⟩ := map_eq_ok.mp first
        rw [List.map_cons, induction.1, List.forall_mem_cons]
        exact ⟨rfl, computed, induction.2⟩
  · rintro ⟨rfl, computed⟩
    rw [List.forall₂_map_left_iff, List.forall₂_same]
    intro pair member
    rw [computed pair member]
    rfl

theorem exists_of_mem_mapM {f : α → Except ε β} {elements : List α} {results : List β}
    (computed : elements.mapM f = .ok results) {result : β} (member : result ∈ results) :
    ∃ element ∈ elements, f element = .ok result := by
  have each := mapM_eq_ok.mp computed
  obtain ⟨place, within, rfl⟩ := List.mem_iff_getElem.mp member
  have within' : place < elements.length := each.length_eq ▸ within
  exact ⟨elements[place], List.getElem_mem within', each.get within' within⟩

theorem mem_mapM_iff {f : α → Except ε β} {elements : List α} {results : List β}
    (computed : elements.mapM f = .ok results) {result : β} :
    result ∈ results ↔ ∃ element ∈ elements, f element = .ok result := by
  constructor
  · exact exists_of_mem_mapM computed
  · rintro ⟨element, member, given⟩
    have each := mapM_eq_ok.mp computed
    obtain ⟨place, within, rfl⟩ := List.mem_iff_getElem.mp member
    have within' : place < results.length := each.length_eq ▸ within
    have same := (each.get within within').symm.trans given
    rw [← Except.ok.inj same]
    exact List.getElem_mem within'

/-- A failure is that of the first element that fails. -/
theorem exists_of_mapM_eq_error {f : α → Except ε β} {elements : List α} {failure : ε}
    (failed : elements.mapM f = .error failure) :
    ∃ before element after, elements = before ++ element :: after ∧
      (∀ earlier ∈ before, ∃ result, f earlier = .ok result) ∧ f element = .error failure := by
  induction elements with
  | nil => cases failed
  | cons element rest induction =>
      rw [List.mapM_cons] at failed
      cases computed : f element with
      | error first =>
          rw [computed] at failed
          cases failed
          exact ⟨[], element, rest, rfl, List.forall_mem_nil _, computed⟩
      | ok result =>
          cases others : rest.mapM f with
          | ok results =>
              rw [computed, others] at failed
              cases failed
          | error later =>
              rw [computed, others] at failed
              cases failed
              obtain ⟨before, second, after, rfl, succeeded, fails⟩ := induction others
              refine ⟨element :: before, second, after, rfl, ?_, fails⟩
              rw [List.forall_mem_cons]
              exact ⟨⟨result, computed⟩, succeeded⟩

theorem exists_mapM_eq_ok_iff {f : α → Except ε β} {elements : List α} :
    (∃ results, elements.mapM f = .ok results) ↔
      ∀ element ∈ elements, ∃ result, f element = .ok result := by
  constructor
  · rintro ⟨results, computed⟩ element member
    have each := mapM_eq_ok.mp computed
    obtain ⟨place, within, rfl⟩ := List.mem_iff_getElem.mp member
    have within' : place < results.length := each.length_eq ▸ within
    exact ⟨results[place], each.get within within'⟩
  · intro succeeds
    cases computed : elements.mapM f with
    | ok results => exact ⟨results, rfl⟩
    | error failure =>
        obtain ⟨before, element, after, rfl, -, fails⟩ := exists_of_mapM_eq_error computed
        obtain ⟨result, succeeded⟩ := succeeds element
          (List.mem_append_right before List.mem_cons_self)
        rw [fails] at succeeded
        cases succeeded

theorem exists_mapM_pair_eq_ok {f : α → Except ε β} {elements : List α}
    (succeeds : ∀ element ∈ elements, ∃ result, f element = .ok result) :
    ∃ pairs, (elements.mapM fun element => (f element).map (Prod.mk element)) = .ok pairs := by
  apply exists_mapM_eq_ok_iff.mpr
  intro element member
  obtain ⟨result, computed⟩ := succeeds element member
  exact ⟨(element, result), map_eq_ok.mpr ⟨result, computed, rfl⟩⟩

end DefectGraphs
