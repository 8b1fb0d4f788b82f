/-
Module: Metronome.Ordered
Purpose: Lists whose items stand at strictly increasing positions.
Trusted boundary: none
Main exports:
  Ordered, Ordered.insert, Ordered.find?, Ordered.next?, Ordered.previous?, Ordered.ofList,
  Ordered.eq_of_position_eq, Ordered.find?_eq_some_iff, Ordered.position_mem_ofList, Ordered.ext_mem
-/

/-!
Timelines, waits and boundaries are all of this kind: one item at most at each position, in the
order of positions.  An insertion at a taken position changes nothing, so the first item there
stays.
-/

namespace Metronome

/-- Items at strictly increasing positions. -/
structure Ordered {α : Type} (position : α → Nat) where
  items : List α
  increasing : items.Pairwise fun first second => position first < position second

namespace Ordered

variable {α : Type} {position : α → Nat}

/-- No items. -/
def empty : Ordered position := ⟨[], List.Pairwise.nil⟩

instance : Inhabited (Ordered position) := ⟨empty⟩

/-- Puts an item at its place, unless its position is taken. -/
def place (position : α → Nat) (item : α) : List α → List α
  | [] => [item]
  | first :: rest =>
      if position item < position first then item :: first :: rest
      else if position item = position first then first :: rest
      else first :: place position item rest

theorem mem_place {item other : α} {items : List α} (member : other ∈ place position item items) :
    other = item ∨ other ∈ items := by
  induction items with
  | nil => simpa [place] using member
  | cons first rest ih =>
    rw [place] at member
    split at member
    · simpa using member
    · split at member
      · exact Or.inr member
      · rcases List.mem_cons.1 member with rfl | inRest
        · exact Or.inr (List.mem_cons_self ..)
        · exact (ih inRest).imp_right (List.mem_cons_of_mem _)

theorem place_increasing {item : α} {items : List α}
    (increasing : items.Pairwise fun first second => position first < position second) :
    (place position item items).Pairwise fun first second => position first < position second := by
  induction items with
  | nil => simp [place]
  | cons first rest ih =>
    obtain ⟨firstLess, restIncreasing⟩ := List.pairwise_cons.1 increasing
    rw [place]
    split
    · rename_i less
      refine List.pairwise_cons.2 ⟨fun other member => ?_, increasing⟩
      rcases List.mem_cons.1 member with rfl | inRest
      · exact less
      · exact Nat.lt_trans less (firstLess other inRest)
    · split
      · exact increasing
      · rename_i notLess notEqual
        refine List.pairwise_cons.2 ⟨fun other member => ?_, ih restIncreasing⟩
        rcases mem_place member with rfl | inRest
        · omega
        · exact firstLess other inRest

/-- The items with one more, unless its position is taken. -/
def insert (ordered : Ordered position) (item : α) : Ordered position :=
  ⟨place position item ordered.items, place_increasing ordered.increasing⟩

theorem mem_place_self (item : α) (items : List α) :
    ∃ present ∈ place position item items, position present = position item := by
  induction items with
  | nil => exact ⟨item, List.mem_singleton.2 rfl, rfl⟩
  | cons first rest ih =>
    rw [place]
    split
    · exact ⟨item, List.mem_cons_self .., rfl⟩
    · split
      · rename_i equal
        exact ⟨first, List.mem_cons_self .., equal.symm⟩
      · obtain ⟨present, member, equal⟩ := ih
        exact ⟨present, List.mem_cons_of_mem _ member, equal⟩

theorem mem_place_of_mem {item other : α} {items : List α} (member : other ∈ items) :
    other ∈ place position item items := by
  induction items with
  | nil => exact absurd member List.not_mem_nil
  | cons first rest ih =>
    rw [place]
    split
    · exact List.mem_cons_of_mem _ member
    · split
      · exact member
      · rcases List.mem_cons.1 member with rfl | inRest
        · exact List.mem_cons_self ..
        · exact List.mem_cons_of_mem _ (ih inRest)

/-- An insertion keeps every item. -/
theorem mem_insert_of_mem {ordered : Ordered position} {item other : α}
    (member : other ∈ ordered.items) : other ∈ (ordered.insert item).items :=
  mem_place_of_mem member

/-- An insertion adds no other item than the inserted one. -/
theorem mem_insert {ordered : Ordered position} {item other : α}
    (member : other ∈ (ordered.insert item).items) : other = item ∨ other ∈ ordered.items :=
  mem_place member

/-- Two items of an ordered list at one position are the same. -/
theorem eq_of_position_eq {ordered : Ordered position} {first second : α}
    (firstIn : first ∈ ordered.items) (secondIn : second ∈ ordered.items)
    (equal : position first = position second) : first = second := by
  have increasing := ordered.increasing
  generalize ordered.items = items at *
  induction items with
  | nil => exact absurd firstIn List.not_mem_nil
  | cons head rest ih =>
    obtain ⟨headLess, restIncreasing⟩ := List.pairwise_cons.1 increasing
    rcases List.mem_cons.1 firstIn with firstHead | firstRest
    · rcases List.mem_cons.1 secondIn with secondHead | secondRest
      · rw [firstHead, secondHead]
      · have less := headLess second secondRest
        rw [← firstHead] at less
        omega
    · rcases List.mem_cons.1 secondIn with secondHead | secondRest
      · have less := headLess first firstRest
        rw [← secondHead] at less
        omega
      · exact ih firstRest secondRest restIncreasing

/-- The positions taken after an insertion: those taken before, and that of the inserted item. -/
theorem position_mem_insert {ordered : Ordered position} {item : α} {point : Nat} :
    (∃ present ∈ (ordered.insert item).items, position present = point) ↔
      position item = point ∨ ∃ present ∈ ordered.items, position present = point := by
  constructor
  · rintro ⟨present, member, rfl⟩
    rcases mem_insert member with rfl | old
    · exact Or.inl rfl
    · exact Or.inr ⟨present, old, rfl⟩
  · rintro (rfl | ⟨present, member, equal⟩)
    · exact mem_place_self item ordered.items
    · exact ⟨present, mem_insert_of_mem member, equal⟩

/-- The item at a position. -/
def find? (ordered : Ordered position) (point : Nat) : Option α :=
  ordered.items.find? fun item => position item = point

/-- What stands at a position is the one item that has it. -/
theorem find?_eq_some_iff {ordered : Ordered position} {point : Nat} {item : α} :
    ordered.find? point = some item ↔ item ∈ ordered.items ∧ position item = point := by
  constructor
  · intro found
    exact ⟨List.mem_of_find?_eq_some found, by simpa using List.find?_some found⟩
  · rintro ⟨member, rfl⟩
    cases found : ordered.find? (position item) with
    | none => exact absurd (List.find?_eq_none.1 found item member) (by simp)
    | some other =>
      have equal : position other = position item := by simpa using List.find?_some found
      rw [eq_of_position_eq (List.mem_of_find?_eq_some found) member equal]

/-- The first item after a position. -/
def next? (ordered : Ordered position) (point : Nat) : Option α :=
  ordered.items.find? fun item => point < position item

/-- The last item before a position. -/
def previous? (ordered : Ordered position) (point : Nat) : Option α :=
  (ordered.items.takeWhile fun item => position item < point).getLast?

/-- The items of a list, each inserted in turn. -/
def ofList (items : List α) : Ordered position :=
  items.foldl insert empty

/-- The positions taken by the items of a list, each inserted in turn. -/
theorem position_mem_ofList {items : List α} {point : Nat} :
    (∃ present ∈ (ofList items : Ordered position).items, position present = point) ↔
      ∃ item ∈ items, position item = point := by
  have gathered : ∀ ordered : Ordered position,
      (∃ present ∈ (items.foldl insert ordered).items, position present = point) ↔
        (∃ present ∈ ordered.items, position present = point) ∨
          ∃ item ∈ items, position item = point := by
    induction items with
    | nil => simp
    | cons first rest ih =>
      intro ordered
      rw [List.foldl_cons, ih, position_mem_insert]
      simp only [List.mem_cons, exists_eq_or_imp]
      rw [or_assoc, or_left_comm]
  rw [ofList, gathered]
  simp [empty]

/-- Lists at increasing positions with the same members are the same list. -/
theorem eq_of_mem_iff {first second : List α}
    (firstIncreasing : first.Pairwise fun one other => position one < position other)
    (secondIncreasing : second.Pairwise fun one other => position one < position other)
    (same : ∀ item, item ∈ first ↔ item ∈ second) : first = second := by
  induction first generalizing second with
  | nil =>
    cases second with
    | nil => rfl
    | cons head rest => exact absurd ((same head).2 (List.mem_cons_self ..)) List.not_mem_nil
  | cons head rest ih =>
    obtain ⟨headLess, restIncreasing⟩ := List.pairwise_cons.1 firstIncreasing
    cases second with
    | nil => exact absurd ((same head).1 (List.mem_cons_self ..)) List.not_mem_nil
    | cons lead tail =>
      obtain ⟨leadLess, tailIncreasing⟩ := List.pairwise_cons.1 secondIncreasing
      have heads : head = lead := by
        rcases List.mem_cons.1 ((same head).1 (List.mem_cons_self ..)) with equal | headLater
        · exact equal
        · rcases List.mem_cons.1 ((same lead).2 (List.mem_cons_self ..)) with equal | leadLater
          · exact equal.symm
          · exact absurd (headLess lead leadLater) (Nat.lt_asymm (leadLess head headLater))
      subst heads
      have tails : ∀ item, item ∈ rest ↔ item ∈ tail := by
        intro item
        constructor
        · intro member
          rcases List.mem_cons.1 ((same item).1 (List.mem_cons_of_mem _ member)) with rfl | later
          · exact absurd (headLess _ member) (Nat.lt_irrefl _)
          · exact later
        · intro member
          rcases List.mem_cons.1 ((same item).2 (List.mem_cons_of_mem _ member)) with rfl | later
          · exact absurd (leadLess _ member) (Nat.lt_irrefl _)
          · exact later
      rw [ih restIncreasing tailIncreasing tails]

/-- Ordered lists with the same members are equal. -/
theorem ext_mem {first second : Ordered position}
    (same : ∀ item, item ∈ first.items ↔ item ∈ second.items) : first = second := by
  obtain ⟨firstItems, firstIncreasing⟩ := first
  obtain ⟨secondItems, secondIncreasing⟩ := second
  have items : firstItems = secondItems := eq_of_mem_iff firstIncreasing secondIncreasing same
  subst items
  rfl

end Ordered

end Metronome
