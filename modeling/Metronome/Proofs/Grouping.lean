/-
Module: Metronome.Proofs.Grouping
Purpose: Items gathered one after the other are grouped by their numbers, in order and complete.
Trusted boundary: none
Main exports:
  Grouping.mem_update, Grouping.update_increasing, Grouping.gather, Grouping.share,
  Grouping.gather_increasing, Grouping.mem_gather
-/
import Mathlib.Data.List.Induction
import Metronome.Grouping

/-!
A change of one group leaves all others, so that the group of a number is made by the items of that
number alone, one after the other in their order.
-/

namespace Metronome.Grouping

variable {α β : Type} {number : Nat} {fresh : α} {change : α → α} {groups : List (Nat × α)}

/-! ### One change -/

/-- The groups after a change: those of the other numbers, and the changed one. -/
theorem mem_update {group : Nat × α} (member : group ∈ update number fresh change groups) :
    group ∈ groups ∨ group.1 = number ∧ (group.2 = change fresh ∨
      ∃ old, (number, old) ∈ groups ∧ group.2 = change old) := by
  induction groups with
  | nil =>
      rw [update, List.mem_singleton] at member
      exact Or.inr ⟨congrArg Prod.fst member, Or.inl (congrArg Prod.snd member)⟩
  | cons first rest ih =>
      obtain ⟨other, held⟩ := first
      rw [update] at member
      split at member
      · rcases List.mem_cons.1 member with rfl | old
        · exact Or.inr ⟨rfl, Or.inl rfl⟩
        · exact Or.inl old
      · split at member
        · rename_i same
          rcases List.mem_cons.1 member with rfl | inRest
          · exact Or.inr ⟨same.symm, Or.inr ⟨held, by rw [same]; exact List.mem_cons_self, rfl⟩⟩
          · exact Or.inl (List.mem_cons_of_mem _ inRest)
        · rcases List.mem_cons.1 member with rfl | inRest
          · exact Or.inl List.mem_cons_self
          · rcases ih inRest with old | ⟨named, changed | ⟨old, oldIn, changed⟩⟩
            · exact Or.inl (List.mem_cons_of_mem _ old)
            · exact Or.inr ⟨named, Or.inl changed⟩
            · exact Or.inr ⟨named, Or.inr ⟨old, List.mem_cons_of_mem _ oldIn, changed⟩⟩

/-- Groups stay in the order of their numbers. -/
theorem update_increasing
    (increasing : groups.Pairwise fun first second => first.1 < second.1) :
    (update number fresh change groups).Pairwise fun first second => first.1 < second.1 := by
  induction groups with
  | nil => simp [update]
  | cons first rest ih =>
      obtain ⟨other, held⟩ := first
      obtain ⟨firstLess, restIncreasing⟩ := List.pairwise_cons.1 increasing
      rw [update]
      split
      · rename_i less
        refine List.pairwise_cons.2 ⟨fun group member => ?_, increasing⟩
        rcases List.mem_cons.1 member with rfl | inRest
        · exact less
        · exact Nat.lt_trans less (firstLess group inRest)
      · split
        · exact List.pairwise_cons.2 ⟨firstLess, restIncreasing⟩
        · rename_i notLess notEqual
          refine List.pairwise_cons.2 ⟨fun group member => ?_, ih restIncreasing⟩
          rcases mem_update member with old | ⟨named, -⟩
          · exact firstLess group old
          · simp only
            omega

/-- The group of a number, found by the number. -/
theorem lookup_eq_some_iff (increasing : groups.Pairwise fun first second => first.1 < second.1)
    {group : α} : groups.lookup number = some group ↔ (number, group) ∈ groups := by
  induction groups with
  | nil => simp
  | cons first rest ih =>
      obtain ⟨other, held⟩ := first
      obtain ⟨firstLess, restIncreasing⟩ := List.pairwise_cons.1 increasing
      rw [List.lookup_cons, List.mem_cons, ← ih restIncreasing, Prod.mk.injEq]
      by_cases same : number = other
      · have absent : rest.lookup number ≠ some group := fun found =>
          absurd (firstLess _ ((ih restIncreasing).1 found)) (by simp [same])
        rw [beq_iff_eq.2 same]
        simp [same, eq_comm, same ▸ absent]
      · rw [beq_false_of_ne same]
        simp [same]

/-- A change is made to one group, which is fresh if the number had none. -/
theorem lookup_update (increasing : groups.Pairwise fun first second => first.1 < second.1)
    (other : Nat) : (update number fresh change groups).lookup other =
      if other = number then some (change ((groups.lookup number).getD fresh))
      else groups.lookup other := by
  induction groups with
  | nil =>
      by_cases same : other = number
      · simp [update, same]
      · simp [update, List.lookup_cons, same, beq_false_of_ne same]
  | cons first rest ih =>
      obtain ⟨held, group⟩ := first
      obtain ⟨firstLess, restIncreasing⟩ := List.pairwise_cons.1 increasing
      rw [update]
      split
      · rename_i less
        have none : ((held, group) :: rest).lookup number = none := by
          refine List.lookup_eq_none_iff.2 (List.forall_mem_cons.2 ⟨?_, fun next member => ?_⟩)
          · exact bne_iff_ne.2 (Nat.ne_of_lt less)
          · exact bne_iff_ne.2 (Nat.ne_of_lt (Nat.lt_trans less (firstLess next member)))
        rw [List.lookup_cons, none]
        by_cases same : other = number
        · simp [same]
        · simp [same, beq_false_of_ne same]
      · split
        · rename_i same
          subst same
          rw [List.lookup_cons, List.lookup_cons, List.lookup_cons]
          by_cases here : other = number
          · simp [here]
          · simp [here, beq_false_of_ne here]
        · rename_i notLess differs
          rw [List.lookup_cons, List.lookup_cons, List.lookup_cons, beq_false_of_ne differs,
            ih restIncreasing]
          by_cases here : other = held
          · simp [here, Ne.symm differs]
          · simp [beq_false_of_ne here]

/-! ### All items -/

variable {add : α → β → α} {items : List (Nat × β)}

/-- Items gathered under their numbers, one after the other. -/
def gather (fresh : α) (add : α → β → α) (items : List (Nat × β)) : List (Nat × α) :=
  items.foldl (fun groups item => update item.1 fresh (add · item.2) groups) []

/-- The items of one number, in order. -/
def share (number : Nat) (items : List (Nat × β)) : List β :=
  (items.filter fun item => item.1 = number).map Prod.snd

theorem mem_share {item : β} : item ∈ share number items ↔ (number, item) ∈ items := by
  simp [share]

theorem gather_append (item : Nat × β) :
    gather fresh add (items ++ [item]) =
      update item.1 fresh (add · item.2) (gather fresh add items) := by
  rw [gather, List.foldl_append]
  rfl

theorem gather_increasing :
    (gather fresh add items).Pairwise fun first second => first.1 < second.1 := by
  induction items using List.reverseRecOn with
  | nil => exact List.Pairwise.nil
  | append_singleton items item ih =>
      rw [gather_append]
      exact update_increasing ih

/-- The group of a number is made of the items with that number, in their order.  The induction is
on the items from the last, since each of them changes what the earlier ones have made. -/
theorem lookup_gather (number : Nat) :
    (gather fresh add items).lookup number =
      if share number items = [] then none else some ((share number items).foldl add fresh) := by
  induction items using List.reverseRecOn with
  | nil => rfl
  | append_singleton items item ih =>
      obtain ⟨other, value⟩ := item
      rw [gather_append, lookup_update gather_increasing]
      by_cases same : number = other
      · subst same
        have more : share number (items ++ [(number, value)]) = share number items ++ [value] := by
          simp [share]
        have some : share number items ++ [value] ≠ [] := by simp
        rw [if_pos rfl, ih, more, if_neg some, List.foldl_append]
        split
        · rename_i none
          rw [none]
          rfl
        · rfl
      · have others : share number (items ++ [(other, value)]) = share number items := by
          simp [share, Ne.symm same]
        rw [if_neg same, ih, others]

/-- There is a group for each number that an item has, made of the items with that number. -/
theorem mem_gather {group : α} :
    (number, group) ∈ gather fresh add items ↔
      number ∈ items.map Prod.fst ∧ group = (share number items).foldl add fresh := by
  have numbered : share number items = [] ↔ number ∉ items.map Prod.fst := by
    simp [List.eq_nil_iff_forall_not_mem, mem_share]
  rw [← lookup_eq_some_iff gather_increasing, lookup_gather]
  split
  · rename_i none
    simp [numbered.1 none]
  · rename_i some
    rw [numbered, not_not] at some
    simp [some, eq_comm]

end Metronome.Grouping
