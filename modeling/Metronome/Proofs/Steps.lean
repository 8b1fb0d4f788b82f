/-
Module: Metronome.Proofs.Steps
Purpose: How steps that may fail run one after the other on a state, and what a sequence of them
  keeps.
Trusted boundary: none
Main exports:
  Steps.run_bind, Steps.run_lift, Steps.run_forM_of_reads, Steps.run_mapM_lift, Steps.Keeps,
  Steps.keeps_bind, Steps.keeps_forM, Steps.Commutes, Steps.commutes_bind, Steps.commutes_forM,
  Recorder.run_atomic, Recorder.keeps_atomic, Recorder.commutes_atomic
-/
import Metronome.Experiment

/-!
Steps are run on a state and leave one behind, whether they fail or not.  A property that every step
keeps is therefore kept by the whole, wherever the whole stops, and a part of the state on which
every step depends alone is all that the whole depends on.
-/

namespace Metronome

namespace Steps

variable {σ ε α β : Type}

/-! ### Runs -/

/-- The rest runs on what the first part left behind, unless the first part failed. -/
theorem run_bind (first : ExceptT ε (StateM σ) α) (rest : α → ExceptT ε (StateM σ) β)
    (before : σ) :
    (first >>= rest).run before =
      match first.run before with
      | (.ok value, middle) => (rest value).run middle
      | (.error fault, middle) => (.error fault, middle) := by
  have unfolded : (first >>= rest).run before =
      (ExceptT.bindCont rest (first.run before).1 : StateM σ _) (first.run before).2 := rfl
  rw [unfolded]
  obtain ⟨result, middle⟩ := first.run before
  cases result <;> rfl

theorem run_get (before : σ) :
    (get : ExceptT ε (StateM σ) σ).run before = (.ok before, before) :=
  rfl

theorem run_lift (result : Except ε α) (before : σ) :
    (liftM result : ExceptT ε (StateM σ) α).run before = (result, before) := by
  cases result <;> rfl

/-- Steps on a list that only read the state leave it as it was. -/
theorem run_forM_of_reads {body : α → ExceptT ε (StateM σ) Unit} {check : α → Except ε Unit}
    {before : σ} (reads : ∀ item, (body item).run before = (check item, before))
    (items : List α) : (items.forM body).run before = (items.forM check, before) := by
  induction items with
  | nil => rfl
  | cons first rest ih =>
      simp only [List.forM_eq_forM] at ih ⊢
      rw [List.forM_cons, List.forM_cons, run_bind, reads]
      cases check first with
      | error fault => rfl
      | ok _ => exact ih

/-- Results that do not depend on the state are made one after the other, and leave it as it was. -/
theorem run_mapM_lift (make : α → Except ε β) (items : List α) (before : σ) :
    (items.mapM fun item => (liftM (make item) : ExceptT ε (StateM σ) β)).run before =
      (items.mapM make, before) := by
  induction items with
  | nil => rfl
  | cons first rest ih =>
      rw [List.mapM_cons, List.mapM_cons, run_bind, run_lift]
      cases make first with
      | error fault => rfl
      | ok made =>
          dsimp only
          rw [run_bind, ih]
          cases rest.mapM make <;> rfl

/-! ### What is kept -/

/-- Steps keep a property if they leave a state with the property behind, also where they fail. -/
def Keeps (holds : σ → Prop) (steps : ExceptT ε (StateM σ) α) : Prop :=
  ∀ before, holds before → holds (steps.run before).2

variable {holds : σ → Prop}

theorem keeps_bind {first : ExceptT ε (StateM σ) α} {rest : α → ExceptT ε (StateM σ) β}
    (firstKeeps : Keeps holds first) (restKeeps : ∀ value, Keeps holds (rest value)) :
    Keeps holds (first >>= rest) := by
  intro before start
  have middle := firstKeeps before start
  rw [run_bind]
  rcases ran : first.run before with ⟨result, reached⟩
  rw [ran] at middle
  cases result with
  | error fault => exact middle
  | ok value => exact restKeeps value reached middle

theorem keeps_get : Keeps holds (get : ExceptT ε (StateM σ) σ) := by
  intro before start
  exact start

theorem keeps_lift (result : Except ε α) :
    Keeps holds (liftM result : ExceptT ε (StateM σ) α) := by
  intro before start
  rw [run_lift]
  exact start

theorem keeps_pure (value : α) : Keeps holds (pure value : ExceptT ε (StateM σ) α) := by
  intro before start
  exact start

/-- Steps on a list keep what each of them keeps. -/
theorem keeps_forM {body : α → ExceptT ε (StateM σ) Unit} (items : List α)
    (each : ∀ item ∈ items, Keeps holds (body item)) : Keeps holds (items.forM body) := by
  rw [List.forM_eq_forM]
  induction items with
  | nil => exact keeps_pure ()
  | cons first rest ih =>
      rw [List.forM_cons]
      exact keeps_bind (each first List.mem_cons_self)
        fun _ => ih fun item member => each item (List.mem_cons_of_mem _ member)

/-! ### Steps under a view -/

variable {view : σ → σ}

/-- Steps commute with a view of the state if they give the same result on the view, and leave the
view of what they leave on the state. -/
def Commutes (view : σ → σ) (steps : ExceptT ε (StateM σ) α) : Prop :=
  ∀ before, steps.run (view before) = ((steps.run before).1, view (steps.run before).2)

theorem commutes_pure (value : α) : Commutes view (pure value : ExceptT ε (StateM σ) α) :=
  fun _ => rfl

theorem commutes_bind {first : ExceptT ε (StateM σ) α} {rest : α → ExceptT ε (StateM σ) β}
    (firstCommutes : Commutes view first) (restCommutes : ∀ value, Commutes view (rest value)) :
    Commutes view (first >>= rest) := by
  intro before
  rw [run_bind, run_bind, firstCommutes before]
  rcases first.run before with ⟨result, middle⟩
  cases result with
  | error fault => rfl
  | ok value => exact restCommutes value middle

/-- Steps on a list commute with a view if each of them does. -/
theorem commutes_forM {body : α → ExceptT ε (StateM σ) Unit} (items : List α)
    (each : ∀ item, Commutes view (body item)) : Commutes view (items.forM body) := by
  rw [List.forM_eq_forM]
  induction items with
  | nil => exact commutes_pure ()
  | cons first rest ih =>
      rw [List.forM_cons]
      exact commutes_bind (each first) fun _ => ih

end Steps

namespace Recorder

/-- A single change is made, or fails and is not made. -/
theorem run_atomic (change : Experiment → Except Fault Experiment) (before : Experiment) :
    (atomic change).run before =
      match change before with
      | .ok after => (.ok (), after)
      | .error fault => (.error fault, before) := by
  have unfolded : (atomic change).run before =
      ((match change before with
        | .ok experiment => set experiment
        | .error fault => throw fault : Recorder Unit)).run before := rfl
  rw [unfolded]
  cases change before <;> rfl

theorem keeps_atomic {holds : Experiment → Prop} {change : Experiment → Except Fault Experiment}
    (kept : ∀ before after, holds before → change before = .ok after → holds after) :
    Steps.Keeps holds (atomic change) := by
  intro before start
  rw [run_atomic]
  cases changed : change before with
  | error fault => exact start
  | ok after => exact kept before after start changed

/-- A change that gives on the view what it gives on the experiment is a step that commutes with the
view. -/
theorem commutes_atomic {view : Experiment → Experiment}
    {change : Experiment → Except Fault Experiment}
    (commutes : ∀ before, change (view before) = view <$> change before) :
    Steps.Commutes view (atomic change) := by
  intro before
  rw [run_atomic, run_atomic, commutes before]
  cases change before <;> rfl

end Recorder
end Metronome
