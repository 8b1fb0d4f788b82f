/-
Module: Metronome.Proofs.Checks
Purpose: When checks that are made one after the other all pass.
Trusted boundary: none
Main exports:
  Checks.bind_eq_ok, Checks.bind_eq_error, Checks.map_eq_ok, Checks.isOk_iff,
  Checks.toOption_eq_some_iff, Checks.eq_ok_iff,
  Checks.forM_eq_ok, Checks.forM_eq_error, Checks.foldlM_isOk_iff, Checks.foldlM_keeps,
  Checks.mapM_eq_ok, Checks.mapM_isOk_iff, Checks.mem_of_mapM, Checks.map_of_mapM,
  Checks.mapM_eq_ok_map, Checks.foldlM_eq_ok_foldl, Checks.foldlM_perm, Checks.FailsWith,
  Checks.FailsWith.bind, Checks.failsWith_forM, Checks.failsWith_foldlM
-/
import Mathlib.Data.List.Forall2

namespace Metronome.Checks

variable {ε α β γ : Type}

/-- A sequence succeeds exactly if its first part does and the rest succeeds on the result. -/
theorem bind_eq_ok {first : Except ε α} {rest : α → Except ε β} {result : β} :
    first >>= rest = .ok result ↔ ∃ value, first = .ok value ∧ rest value = .ok result := by
  cases first with
  | error fault => simp [bind, Except.bind]
  | ok value => simp [bind, Except.bind]

/-- A sequence fails if its first part does, or if the rest does on the result. -/
theorem bind_eq_error {first : Except ε α} {rest : α → Except ε β} {fault : ε} :
    first >>= rest = .error fault ↔
      first = .error fault ∨ ∃ value, first = .ok value ∧ rest value = .error fault := by
  cases first with
  | error other => simp [bind, Except.bind]
  | ok value => simp [bind, Except.bind]

/-- A converted result comes from a result. -/
theorem map_eq_ok {convert : α → β} {made : Except ε α} {result : β} :
    convert <$> made = .ok result ↔ ∃ value, made = .ok value ∧ convert value = result := by
  cases made with
  | error fault => simp [Functor.map, Except.map]
  | ok value => simp [Functor.map, Except.map]

theorem isOk_iff {made : Except ε α} : made.isOk = true ↔ ∃ value, made = .ok value := by
  cases made with
  | error fault => simp [Except.isOk, Except.toBool]
  | ok value => simp [Except.isOk, Except.toBool]

theorem toOption_eq_some_iff {made : Except ε α} {value : α} :
    made.toOption = some value ↔ made = .ok value := by
  cases made with
  | error fault => simp [Except.toOption]
  | ok value => simp [Except.toOption]

/-- What is made is known from whether anything is made. -/
theorem eq_ok_iff [Inhabited α] {made : Except ε α} {value : α} :
    made = .ok value ↔ (∃ result, made = .ok result) ∧ value = made.toOption.getD default := by
  cases made with
  | error fault => simp
  | ok result => simp [Except.toOption, eq_comm]

/-- A check of every item passes exactly if each item passes it. -/
theorem forM_eq_ok {check : α → Except ε Unit} {items : List α} :
    items.forM check = .ok () ↔ ∀ item ∈ items, check item = .ok () := by
  induction items with
  | nil => simp [List.forM_eq_forM, pure, Except.pure]
  | cons first rest ih =>
      rw [List.forM_eq_forM] at ih ⊢
      rw [List.forM_cons, bind_eq_ok, List.forall_mem_cons, ← ih]
      constructor
      · intro checked
        obtain ⟨_, passes, others⟩ := checked
        exact ⟨passes, others⟩
      · intro each
        obtain ⟨passes, others⟩ := each
        exact ⟨(), passes, others⟩

/-- A check of every item fails with the fault of the first item that does not pass it. -/
theorem forM_eq_error {check : α → Except ε Unit} {items : List α} {fault : ε} :
    items.forM check = .error fault ↔ ∃ before item after, items = before ++ item :: after ∧
      (∀ earlier ∈ before, check earlier = .ok ()) ∧ check item = .error fault := by
  induction items with
  | nil => simp [List.forM_eq_forM, pure, Except.pure]
  | cons first rest ih =>
      rw [List.forM_eq_forM] at ih ⊢
      rw [List.forM_cons]
      simp only [List.cons_eq_append_iff]
      cases checked : check first with
      | error other =>
          constructor
          · intro failed
            cases failed
            exact ⟨[], first, rest, Or.inl ⟨rfl, rfl⟩,
              fun _ member => absurd member List.not_mem_nil, checked⟩
          · rintro ⟨before, item, after, ⟨rfl, split⟩ | ⟨more, rfl, -⟩, passed, failed⟩
            · cases split
              rw [checked] at failed
              exact failed
            · have passes := passed first List.mem_cons_self
              rw [checked] at passes
              cases passes
      | ok result =>
          have skip : (Except.ok result >>= fun _ => forM rest check) = forM rest check := rfl
          rw [skip, ih]
          constructor
          · rintro ⟨before, item, after, rfl, passed, failed⟩
            refine ⟨first :: before, item, after, Or.inr ⟨before, rfl, rfl⟩, ?_, failed⟩
            exact List.forall_mem_cons.2 ⟨checked, passed⟩
          · rintro ⟨before, item, after, ⟨rfl, split⟩ | ⟨more, rfl, rfl⟩, passed, failed⟩
            · cases split
              rw [checked] at failed
              cases failed
            · exact ⟨more, item, after, rfl, (List.forall_mem_cons.1 passed).2, failed⟩

/-- Steps whose success does not depend on what was made before all succeed exactly if each of them
does. -/
theorem foldlM_isOk_iff {step : β → α → Except ε β} {passes : α → Prop}
    (each : ∀ state item, (∃ next, step state item = .ok next) ↔ passes item) (items : List α)
    (state : β) :
    (∃ final, items.foldlM step state = .ok final) ↔ ∀ item ∈ items, passes item := by
  induction items generalizing state with
  | nil => simp [pure, Except.pure]
  | cons item rest ih =>
      rw [List.forall_mem_cons, ← each state]
      simp only [List.foldlM_cons, bind_eq_ok]
      constructor
      · rintro ⟨final, next, taken, others⟩
        exact ⟨⟨next, taken⟩, (ih next).1 ⟨final, others⟩⟩
      · rintro ⟨⟨next, taken⟩, others⟩
        obtain ⟨final, made⟩ := (ih next).2 others
        exact ⟨final, next, taken, made⟩

/-- What every step keeps is kept by all of them. -/
theorem foldlM_keeps {step : β → α → Except ε β} {holds : β → Prop} {items : List α}
    (each : ∀ state item next,
      item ∈ items → holds state → step state item = .ok next → holds next)
    {state final : β} (start : holds state) (made : items.foldlM step state = .ok final) :
    holds final := by
  induction items generalizing state with
  | nil =>
      cases made
      exact start
  | cons item rest ih =>
      rw [List.foldlM_cons, bind_eq_ok] at made
      obtain ⟨next, taken, others⟩ := made
      have kept := each state item next List.mem_cons_self start taken
      exact ih (fun state other next member =>
        each state other next (List.mem_cons_of_mem _ member)) kept others

/-- Results are made one after the other exactly if each of them is. -/
theorem mapM_eq_ok {make : α → Except ε β} {items : List α} {results : List β} :
    items.mapM make = .ok results ↔
      List.Forall₂ (fun item result => make item = .ok result) items results := by
  induction items generalizing results with
  | nil => cases results <;> simp [pure, Except.pure]
  | cons item rest ih =>
      rw [List.mapM_cons, bind_eq_ok]
      constructor
      · rintro ⟨result, first, others⟩
        obtain ⟨tail, made, joined⟩ := bind_eq_ok.1 others
        cases joined
        exact .cons first (ih.1 made)
      · rintro (_ | ⟨first, others⟩)
        exact ⟨_, first, bind_eq_ok.2 ⟨_, ih.2 others, rfl⟩⟩

/-- All results are made exactly if each of them is. -/
theorem mapM_isOk_iff {make : α → Except ε β} {items : List α} :
    (∃ results, items.mapM make = .ok results) ↔ ∀ item ∈ items, ∃ result, make item = .ok result := by
  induction items with
  | nil => simp [pure, Except.pure]
  | cons item rest ih =>
      rw [List.forall_mem_cons, ← ih]
      simp only [mapM_eq_ok]
      constructor
      · rintro ⟨_, _ | ⟨first, others⟩⟩
        exact ⟨⟨_, first⟩, _, others⟩
      · rintro ⟨⟨result, first⟩, results, others⟩
        exact ⟨result :: results, .cons first others⟩

/-- The results are those that the items make. -/
theorem mem_of_mapM {make : α → Except ε β} {items : List α} {results : List β}
    (made : items.mapM make = .ok results) {result : β} :
    result ∈ results ↔ ∃ item ∈ items, make item = .ok result := by
  induction items generalizing results with
  | nil =>
      cases made
      simp
  | cons item rest ih =>
      rw [List.mapM_cons, bind_eq_ok] at made
      obtain ⟨first, found, others⟩ := made
      obtain ⟨tail, remaining, joined⟩ := bind_eq_ok.1 others
      cases joined
      have this : make item = .ok result ↔ result = first := by
        rw [found, Except.ok.injEq, eq_comm]
      simp only [List.mem_cons, ih remaining, or_and_right, exists_or, exists_eq_left, this]

/-- What is known of each result is known of all. -/
theorem map_of_mapM {make : α → Except ε β} {view : β → γ} {image : α → γ}
    (each : ∀ item result, make item = .ok result → view result = image item) {items : List α}
    {results : List β} (made : items.mapM make = .ok results) :
    results.map view = items.map image := by
  rw [mapM_eq_ok] at made
  induction made with
  | nil => rfl
  | cons first others ih => rw [List.map_cons, List.map_cons, each _ _ first, ih]

/-- Results that are known where they are made are the images of the items. -/
theorem mapM_eq_ok_map {make : α → Except ε β} {passes : α → Prop} {image : α → β}
    (exact : ∀ item result, make item = .ok result ↔ passes item ∧ result = image item)
    {items : List α} {results : List β} :
    items.mapM make = .ok results ↔ (∀ item ∈ items, passes item) ∧ results = items.map image := by
  have images : List.Forall₂ (fun item result => result = image item) items results ↔
      results = items.map image := by
    induction items generalizing results with
    | nil => simp
    | cons item rest ih => cases results <;> simp [ih]
  rw [mapM_eq_ok, ← images]
  simp only [exact, List.forall₂_and_left]

/-- Items that are read independently of what was made before can all be read first. -/
theorem foldlM_eq_ok_foldl {step : β → α → Except ε β} {read : α → Except ε γ} {add : β → γ → β}
    (each : ∀ state item, step state item = add state <$> read item) {items : List α}
    {state final : β} :
    items.foldlM step state = .ok final ↔
      ∃ results, items.mapM read = .ok results ∧ final = results.foldl add state := by
  induction items generalizing state with
  | nil => simp [pure, Except.pure, eq_comm]
  | cons item rest ih =>
      rw [List.foldlM_cons, List.mapM_cons, each, bind_eq_ok]
      simp only [map_eq_ok, ih, bind_eq_ok]
      constructor
      · rintro ⟨_, ⟨result, found, rfl⟩, results, others, rfl⟩
        exact ⟨result :: results, ⟨result, found, results, others, rfl⟩, rfl⟩
      · rintro ⟨_, ⟨result, found, results, others, joined⟩, rfl⟩
        cases joined
        exact ⟨_, ⟨result, found, rfl⟩, results, others, rfl⟩

/-- If two steps that succeed one after the other can be swapped, items can be taken in any order, as
long as the states keep what the swaps rely on. -/
theorem foldlM_perm (step : β → α → Except ε β) {holds : β → Prop}
    (kept : ∀ {state item next}, holds state → step state item = .ok next → holds next)
    (swap : ∀ {state first middle second final}, holds state → step state first = .ok middle →
      step middle second = .ok final →
      ∃ other, step state second = .ok other ∧ step other first = .ok final)
    {items reordered : List α} (perm : items.Perm reordered) {state final : β}
    (start : holds state) (made : items.foldlM step state = .ok final) :
    reordered.foldlM step state = .ok final := by
  induction perm generalizing state with
  | nil => exact made
  | cons item _ ih =>
      rw [List.foldlM_cons, bind_eq_ok] at made ⊢
      obtain ⟨next, taken, others⟩ := made
      exact ⟨next, taken, ih (kept start taken) others⟩
  | swap first second rest =>
      simp only [List.foldlM_cons, bind_eq_ok] at made ⊢
      obtain ⟨middle, secondTaken, next, firstTaken, others⟩ := made
      obtain ⟨other, firstEarly, secondLate⟩ := swap start secondTaken firstTaken
      exact ⟨other, firstEarly, next, secondLate, others⟩
  | trans _ _ earlier later => exact later start (earlier start made)

/-! ### Which faults are possible -/

/-- If something fails, its fault is an allowed one. -/
def FailsWith (allowed : ε → Prop) (made : Except ε α) : Prop :=
  ∀ fault, made = .error fault → allowed fault

variable {allowed : ε → Prop}

theorem failsWith_ok (value : α) : FailsWith allowed (.ok value : Except ε α) := nofun

theorem failsWith_error {fault : ε} (isAllowed : allowed fault) :
    FailsWith allowed (.error fault : Except ε α) := by
  rintro _ ⟨⟩
  exact isAllowed

theorem failsWith_ite {condition : Prop} [Decidable condition] {first second : Except ε α}
    (firstFails : FailsWith allowed first) (secondFails : FailsWith allowed second) :
    FailsWith allowed (if condition then first else second) := by
  split
  · exact firstFails
  · exact secondFails

/-- A sequence fails as its first part does, or as the rest does on the result. -/
theorem FailsWith.bind {first : Except ε α} {rest : α → Except ε β}
    (firstFails : FailsWith allowed first)
    (restFails : ∀ value, first = .ok value → FailsWith allowed (rest value)) :
    FailsWith allowed (first >>= rest) := by
  cases first with
  | error fault => exact failsWith_error (firstFails fault rfl)
  | ok value => exact restFails value rfl

/-- A check of every item fails as the check of one of them does. -/
theorem failsWith_forM {check : α → Except ε Unit} {items : List α}
    (each : ∀ item ∈ items, FailsWith allowed (check item)) :
    FailsWith allowed (items.forM check) := by
  intro fault failed
  obtain ⟨before, item, after, rfl, -, refused⟩ := forM_eq_error.1 failed
  exact each item (List.mem_append_right _ List.mem_cons_self) fault refused

/-- Steps fail as one of them does. -/
theorem failsWith_foldlM {step : β → α → Except ε β} {items : List α}
    (each : ∀ item ∈ items, ∀ state, FailsWith allowed (step state item)) (state : β) :
    FailsWith allowed (items.foldlM step state) := by
  induction items generalizing state with
  | nil => exact failsWith_ok state
  | cons item rest ih =>
      rw [List.foldlM_cons]
      exact (each item List.mem_cons_self state).bind fun next _ =>
        ih (fun other member => each other (List.mem_cons_of_mem _ member)) next

end Metronome.Checks
