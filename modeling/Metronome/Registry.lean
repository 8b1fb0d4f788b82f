/-
Module: Metronome.Registry
Purpose: Values under distinct names, in the order in which the names were first registered.
Trusted boundary: none
Main exports:
  Registry, Registry.get?, Registry.insert, Registry.map, Registry.traverse, Registry.thread,
  Registry.names_insert, Registry.get?_insert
-/

/-!
Devices, channels, samples, datasets and artifacts are kept by name, and every report lists the
names in the order of their registration.
-/

namespace Metronome

/-- Values under distinct names, in the order of their registration. -/
structure Registry (α : Type) where
  entries : List (String × α)
  distinct : (entries.map Prod.fst).Nodup

namespace Registry

variable {α β : Type}

/-- No names. -/
def empty : Registry α := ⟨[], List.nodup_nil⟩

instance : Inhabited (Registry α) := ⟨empty⟩

/-- The names, in order. -/
def names (registry : Registry α) : List String :=
  registry.entries.map Prod.fst

/-- The values, in the order of their names. -/
def values (registry : Registry α) : List α :=
  registry.entries.map Prod.snd

/-- The value under a name. -/
def get? (registry : Registry α) (name : String) : Option α :=
  registry.entries.lookup name

/-- Whether a name is registered. -/
def contains (registry : Registry α) (name : String) : Bool :=
  registry.names.contains name

/-- Changes every value, under its name. -/
def map (change : String → α → β) (registry : Registry α) : Registry β where
  entries := registry.entries.map fun entry => (entry.1, change entry.1 entry.2)
  distinct := by
    have names : (registry.entries.map fun entry => (entry.1, change entry.1 entry.2)).map Prod.fst
        = registry.entries.map Prod.fst := by
      rw [List.map_map]
      exact List.map_congr_left fun entry _ => rfl
    rw [names]
    exact registry.distinct

/-- Changes the values of entries in order, under their names, until a change fails. -/
def traverseEntries {ε : Type} (change : String → α → Except ε β) :
    (entries : List (String × α)) →
      Except ε { changed : List (String × β) // changed.map Prod.fst = entries.map Prod.fst }
  | [] => .ok ⟨[], rfl⟩
  | (name, value) :: rest => do
      let value ← change name value
      let changed ← traverseEntries change rest
      return ⟨(name, value) :: changed.1, by rw [List.map_cons, List.map_cons, changed.2]⟩

/-- Changes every value in order, under its name, or reports the first failure. -/
def traverse {ε : Type} (change : String → α → Except ε β) (registry : Registry α) :
    Except ε (Registry β) := do
  let changed ← traverseEntries change registry.entries
  return ⟨changed.1, by rw [changed.2]; exact registry.distinct⟩

/-- Changes the values of entries in order, each change with the state that the one before it
left. -/
def threadEntries {σ : Type} (change : α → σ → β × σ) :
    List (String × α) → σ → List (String × β) × σ
  | [], state => ([], state)
  | (name, value) :: rest, state =>
      let changed := change value state
      let others := threadEntries change rest changed.2
      ((name, changed.1) :: others.1, others.2)

theorem names_threadEntries {σ : Type} (change : α → σ → β × σ) (entries : List (String × α))
    (state : σ) :
    (threadEntries change entries state).1.map Prod.fst = entries.map Prod.fst := by
  induction entries generalizing state with
  | nil => rfl
  | cons entry rest ih => rw [threadEntries, List.map_cons, List.map_cons, ih]

/-- Changes every value in order, each change with the state that the one before it left. -/
def thread {σ : Type} (change : α → σ → β × σ) (registry : Registry α) (state : σ) :
    Registry β × σ :=
  let changed := threadEntries change registry.entries state
  (⟨changed.1, by rw [names_threadEntries]; exact registry.distinct⟩, changed.2)

/-- Puts a value under a name: in place of the old value, or at the end under a new name. -/
def insert (registry : Registry α) (name : String) (value : α) : Registry α :=
  if known : name ∈ registry.names then
    registry.map fun other old => if other = name then value else old
  else
    { entries := registry.entries ++ [(name, value)]
      distinct := by
        rw [List.map_append, List.nodup_append]
        refine ⟨registry.distinct, by simp, fun first member second single => ?_⟩
        rintro rfl
        simp only [List.map_cons, List.map_nil, List.mem_singleton] at single
        exact known (single ▸ member) }

@[simp] theorem names_map (change : String → α → β) (registry : Registry α) :
    (registry.map change).names = registry.names := by
  simp only [names, map, List.map_map]
  exact List.map_congr_left fun entry _ => rfl

@[simp] theorem names_insert (registry : Registry α) (name : String) (value : α) :
    (registry.insert name value).names =
      if name ∈ registry.names then registry.names else registry.names ++ [name] := by
  unfold insert
  split
  · exact names_map ..
  · simp [names]

theorem lookup_map (change : String → α → β) (name : String) (entries : List (String × α)) :
    (entries.map fun entry => (entry.1, change entry.1 entry.2)).lookup name =
      (entries.lookup name).map (change name) := by
  induction entries with
  | nil => rfl
  | cons entry rest ih =>
    obtain ⟨other, value⟩ := entry
    by_cases same : name = other
    · subst same
      simp
    · have differs : (name == other) = false := by simpa using same
      simp [List.lookup_cons, differs, ih]

theorem lookup_append_of_not_mem {name : String} {entries : List (String × α)}
    (unknown : name ∉ entries.map Prod.fst) (other : String) (value : α) :
    (entries ++ [(name, value)]).lookup other =
      if other = name then some value else entries.lookup other := by
  induction entries with
  | nil =>
    by_cases same : other = name
    · simp [same]
    · have differs : (other == name) = false := by simpa using same
      simp [List.lookup_cons, differs, same]
  | cons entry rest ih =>
    obtain ⟨known, held⟩ := entry
    simp only [List.map_cons, List.mem_cons, not_or] at unknown
    rw [List.cons_append, List.lookup_cons, List.lookup_cons, ih unknown.2]
    by_cases same : other = known
    · have differs : ¬ other = name := fun equal => unknown.1 (equal ▸ same)
      simp [same, Ne.symm unknown.1]
    · have differs : (other == known) = false := by simpa using same
      simp [differs]

theorem lookup_isSome {name : String} {entries : List (String × α)} :
    (entries.lookup name).isSome ↔ name ∈ entries.map Prod.fst := by
  induction entries with
  | nil => simp
  | cons entry rest ih =>
    obtain ⟨other, value⟩ := entry
    by_cases same : name = other
    · simp [same]
    · have differs : (name == other) = false := by simpa using same
      simp only [List.lookup_cons, differs, List.map_cons, List.mem_cons, same, false_or]
      exact ih

/-- What a registry holds after an insertion. -/
theorem get?_insert (registry : Registry α) (name other : String) (value : α) :
    (registry.insert name value).get? other =
      if other = name then some value else registry.get? other := by
  unfold insert get?
  split
  · rename_i known
    simp only [map]
    rw [lookup_map fun held old => if held = name then value else old]
    by_cases same : other = name
    · subst same
      obtain ⟨old, found⟩ := Option.isSome_iff_exists.1 (lookup_isSome.2 known)
      simp [found]
    · cases registry.entries.lookup other <;> simp [same]
  · rename_i unknown
    exact lookup_append_of_not_mem unknown other value

/-- The registry of a list of named values; of a name that occurs twice the later value holds, at
the place of the first. -/
def ofList (entries : List (String × α)) : Registry α :=
  entries.foldl (fun registry entry => registry.insert entry.1 entry.2) empty

end Registry

end Metronome
