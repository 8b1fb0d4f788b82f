/-
Module: Metronome.Proofs.Chronology
Purpose: In a chronological list what comes up to a position is what stands before the rest.
Trusted boundary: none
Main exports:
  Chronology.takeWhile_eq_filter, Chronology.dropWhile_eq_filter, Chronology.le_of_getLast?,
  Chronology.latest, Chronology.latest_eq_some_iff
-/

namespace Metronome.Chronology

variable {α : Type} {accepts : α → Bool} {items : List α}

/-- If every item before an accepted one is accepted, the accepted items stand first. -/
theorem takeWhile_eq_filter
    (closed : items.Pairwise fun first second => accepts second = true → accepts first = true) :
    items.takeWhile accepts = items.filter accepts := by
  induction items with
  | nil => rfl
  | cons first rest ih =>
      obtain ⟨firstClosed, restClosed⟩ := List.pairwise_cons.1 closed
      by_cases accepted : accepts first = true
      · rw [List.takeWhile_cons_of_pos accepted, List.filter_cons_of_pos accepted, ih restClosed]
      · rw [List.takeWhile_cons_of_neg accepted, List.filter_cons_of_neg accepted]
        refine (List.filter_eq_nil_iff.2 fun other inRest acceptedOther => ?_).symm
        exact accepted (firstClosed other inRest acceptedOther)

/-- If every item before an accepted one is accepted, the others stand last. -/
theorem dropWhile_eq_filter
    (closed : items.Pairwise fun first second => accepts second = true → accepts first = true) :
    items.dropWhile accepts = items.filter fun item => !accepts item := by
  induction items with
  | nil => rfl
  | cons first rest ih =>
      obtain ⟨firstClosed, restClosed⟩ := List.pairwise_cons.1 closed
      by_cases accepted : accepts first = true
      · rw [List.dropWhile_cons_of_pos accepted, ih restClosed]
        simp [accepted]
      · rw [List.dropWhile_cons_of_neg accepted]
        refine (List.filter_eq_self.2 fun other member => ?_).symm
        rcases List.mem_cons.1 member with rfl | inRest
        · simpa using accepted
        · cases acceptedOther : accepts other with
          | false => rfl
          | true => exact absurd (firstClosed other inRest acceptedOther) accepted

/-- In a chronological list no item is later than the last one. -/
theorem le_of_getLast? {position : α → Nat} {last item : α}
    (ordered : items.Pairwise fun first second => position first ≤ position second)
    (isLast : items.getLast? = some last) (member : item ∈ items) :
    position item ≤ position last := by
  obtain ⟨before, rfl⟩ := List.getLast?_eq_some_iff.1 isLast
  rcases List.mem_append.1 member with inBefore | here
  · exact (List.pairwise_append.1 ordered).2.2 item inBefore last (List.mem_singleton.2 rfl)
  · exact Nat.le_of_eq (congrArg position (List.mem_singleton.1 here))

/-- The last item up to a point. -/
def latest (position : α → Nat) (items : List α) (point : Nat) : Option α :=
  (items.filter fun item => position item ≤ point).getLast?

/-- In a list with increasing positions the last item up to a point is the one with the greatest
position up to it. -/
theorem latest_eq_some_iff {position : α → Nat} {point : Nat} {item : α}
    (increasing : items.Pairwise fun first second => position first < position second) :
    latest position items point = some item ↔
      item ∈ items ∧ position item ≤ point ∧
        ∀ other ∈ items, position other ≤ point → position other ≤ position item := by
  have early := increasing.filter fun item => decide (position item ≤ point)
  constructor
  · intro last
    obtain ⟨member, reached⟩ := List.mem_filter.1 (List.mem_of_getLast? last)
    refine ⟨member, of_decide_eq_true reached, fun other present bound => ?_⟩
    exact le_of_getLast? (early.imp Nat.le_of_lt) last
      (List.mem_filter.2 ⟨present, decide_eq_true bound⟩)
  · intro chosen
    obtain ⟨member, reached, greatest⟩ := chosen
    have itemIn : item ∈ items.filter fun item => decide (position item ≤ point) :=
      List.mem_filter.2 ⟨member, decide_eq_true reached⟩
    cases last : latest position items point with
    | none =>
        rw [List.getLast?_eq_none_iff.1 last] at itemIn
        exact absurd itemIn List.not_mem_nil
    | some found =>
        obtain ⟨before, split⟩ := List.getLast?_eq_some_iff.1 last
        obtain ⟨foundIn, bound⟩ := List.mem_filter.1 (List.mem_of_getLast? last)
        rw [split] at early itemIn
        rcases List.mem_append.1 itemIn with inBefore | isLast
        · have less := (List.pairwise_append.1 early).2.2 item inBefore found
            (List.mem_singleton.2 rfl)
          have least := greatest found foundIn (of_decide_eq_true bound)
          omega
        · rw [List.mem_singleton.1 isLast]

/-- There is no item up to a point exactly if all items are later. -/
theorem latest_eq_none_iff {position : α → Nat} {point : Nat} :
    latest position items point = none ↔ ∀ item ∈ items, point < position item := by
  rw [latest, List.getLast?_eq_none_iff, List.filter_eq_nil_iff]
  simp only [decide_eq_true_eq, Nat.not_le]

end Metronome.Chronology
