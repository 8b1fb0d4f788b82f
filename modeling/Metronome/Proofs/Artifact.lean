/-
Module: Metronome.Proofs.Artifact
Purpose: The columns that an artifact has after more were added to it.
Trusted boundary: none
Main exports:
  Artifact.extend, Artifact.mem_extend, Artifact.entries_extend, Artifact.foldlM_extend
-/
import Metronome.Artifact
import Metronome.Proofs.Checks
import Metronome.Proofs.Registry

namespace Metronome.Artifact

variable {artifact : Artifact} {columns : List (String × Dataset)} {column : String × Dataset}

/-- The artifact with more columns. -/
def extend (artifact : Artifact) (columns : List (String × Dataset)) : Artifact :=
  columns.foldl (fun artifact column => artifact.insert column.1 column.2) artifact

theorem device_extend : (artifact.extend columns).device = artifact.device := by
  rw [extend]
  induction columns generalizing artifact with
  | nil => rfl
  | cons column rest ih => exact ih

/-- Columns under distinct names are all there afterwards. -/
theorem mem_extend (distinct : (columns.map Prod.fst).Nodup) (member : column ∈ columns) :
    column ∈ (artifact.extend columns).datasets.entries := by
  have stays : ∀ {columns : List (String × Dataset)} {artifact : Artifact},
      column ∈ artifact.datasets.entries → column.1 ∉ columns.map Prod.fst →
        column ∈ (artifact.extend columns).datasets.entries := by
    intro columns
    induction columns with
    | nil => exact fun present _ => present
    | cons first rest ih =>
        intro artifact present other
        rw [List.map_cons, List.mem_cons, not_or] at other
        exact ih (Registry.mem_insert_iff.2 (Or.inr ⟨present, other.1⟩)) other.2
  induction columns generalizing artifact with
  | nil => cases member
  | cons first rest ih =>
      obtain ⟨notInRest, distinctRest⟩ := List.nodup_cons.1 distinct
      rcases List.mem_cons.1 member with rfl | inRest
      · have first : column ∈ (artifact.insert column.1 column.2).datasets.entries :=
          Registry.mem_insert_iff.2 (Or.inl rfl)
        exact (stays first notInRest : column ∈
          ((artifact.insert column.1 column.2).extend rest).datasets.entries)
      · exact ih distinctRest inRest

/-- Columns under new and distinct names come after all others, which stay as they were. -/
theorem entries_extend (distinct : (columns.map Prod.fst).Nodup)
    (isNew : ∀ column ∈ columns, column.1 ∉ artifact.datasets.names) :
    (artifact.extend columns).datasets.entries = artifact.datasets.entries ++ columns := by
  induction columns generalizing artifact with
  | nil => exact (List.append_nil _).symm
  | cons first rest ih =>
      obtain ⟨notInRest, distinctRest⟩ := List.nodup_cons.1 distinct
      have added : (artifact.insert first.1 first.2).datasets.entries =
          artifact.datasets.entries ++ [first] :=
        Registry.entries_insert_new (isNew first List.mem_cons_self) first.2
      have others : ∀ column ∈ rest,
          column.1 ∉ (artifact.insert first.1 first.2).datasets.names := by
        intro column member
        rw [Registry.names, added, List.map_append, List.mem_append, not_or]
        refine ⟨isNew column (List.mem_cons_of_mem _ member), fun same => notInRest ?_⟩
        rw [List.map_cons, List.map_nil, List.mem_singleton] at same
        exact same ▸ List.mem_map_of_mem member
      have rest := ih distinctRest others
      rw [added, List.append_assoc] at rest
      exact rest

theorem extend_append (artifact : Artifact) (first second : List (String × Dataset)) :
    artifact.extend (first ++ second) = (artifact.extend first).extend second :=
  List.foldl_append

/-- Steps that each add columns, which do not depend on those that are there, add all of them. -/
theorem foldlM_extend {ε α : Type} {step : Artifact → α → Except ε Artifact}
    {make : α → Except ε (List (String × Dataset))}
    (each : ∀ artifact item, step artifact item = artifact.extend <$> make item) {items : List α}
    {final : Artifact} :
    items.foldlM step artifact = .ok final ↔
      ∃ blocks, items.mapM make = .ok blocks ∧ final = artifact.extend blocks.flatten := by
  have joined : ∀ (blocks : List (List (String × Dataset))) (artifact : Artifact),
      blocks.foldl Artifact.extend artifact = artifact.extend blocks.flatten := by
    intro blocks
    induction blocks with
    | nil => exact fun _ => rfl
    | cons block rest ih =>
        intro artifact
        rw [List.foldl_cons, ih, List.flatten_cons, extend_append]
  rw [Checks.foldlM_eq_ok_foldl each]
  simp only [joined]

end Metronome.Artifact
