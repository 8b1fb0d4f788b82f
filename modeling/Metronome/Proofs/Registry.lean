/-
Module: Metronome.Proofs.Registry
Purpose: What a registry holds after an insertion, a change or a traversal.
Trusted boundary: none
Main exports:
  Registry.get?_eq_some_iff, Registry.mem_insert_iff, Registry.insert_eq_map,
  Registry.entries_insert_new, Registry.map_insert, Registry.traverse_eq_ok, Registry.mem_traverse,
  Registry.exists_mem_traverse, Registry.failsWith_traverse
-/
import Metronome.Registry
import Metronome.Proofs.Checks

/-!
A registry is known by its entries, and since its names are distinct, by what each name stands for.
An insertion under a known name is a change of one value, so that a change of any kind can be
stated as a map.
-/

namespace Metronome.Registry

variable {α β γ ε : Type} {registry : Registry α} {name : String} {value : α}

theorem ext_entries {first second : Registry α} (same : first.entries = second.entries) :
    first = second := by
  obtain ⟨firstEntries, firstDistinct⟩ := first
  obtain ⟨secondEntries, secondDistinct⟩ := second
  cases same
  rfl

theorem mem_names_iff : name ∈ registry.names ↔ ∃ value, (name, value) ∈ registry.entries := by
  simp [names]

theorem contains_iff : registry.contains name = true ↔ name ∈ registry.names :=
  List.contains_iff_mem

theorem mem_values_iff : value ∈ registry.values ↔ ∃ name, (name, value) ∈ registry.entries := by
  simp [values]

/-- A name stands for the value it is registered with. -/
theorem get?_eq_some_iff : registry.get? name = some value ↔ (name, value) ∈ registry.entries := by
  obtain ⟨entries, distinct⟩ := registry
  rw [get?]
  induction entries with
  | nil => simp
  | cons entry rest ih =>
      obtain ⟨first, held⟩ := entry
      obtain ⟨isNew, distinctRest⟩ := List.nodup_cons.1 distinct
      rw [List.lookup_cons, List.mem_cons, ← ih distinctRest, Prod.mk.injEq]
      by_cases same : name = first
      · have absent : rest.lookup first = none := by
          rw [← Option.not_isSome_iff_eq_none, lookup_isSome]
          exact isNew
        simp [same, absent, eq_comm]
      · have differs : (name == first) = false := by simpa using same
        simp [same, differs]

theorem get?_eq_none_iff : registry.get? name = none ↔ name ∉ registry.names := by
  rw [get?, ← Option.not_isSome_iff_eq_none, lookup_isSome]
  rfl

@[simp] theorem entries_map (change : String → α → β) (registry : Registry α) :
    (registry.map change).entries =
      registry.entries.map fun entry => (entry.1, change entry.1 entry.2) :=
  rfl

theorem get?_map (change : String → α → β) (registry : Registry α) (name : String) :
    (registry.map change).get? name = (registry.get? name).map (change name) :=
  lookup_map change name registry.entries

theorem map_map (first : String → α → β) (second : String → β → γ) (registry : Registry α) :
    (registry.map first).map second =
      registry.map fun name value => second name (first name value) := by
  apply ext_entries
  simp

/-- Changes that agree on the registered values make the same registry. -/
theorem map_congr {first second : String → α → β}
    (same : ∀ name value, (name, value) ∈ registry.entries → first name value = second name value) :
    registry.map first = registry.map second := by
  apply ext_entries
  exact List.map_congr_left fun entry member =>
    congrArg (Prod.mk entry.1) (same entry.1 entry.2 member)

/-- What is registered after an insertion: the inserted value, and under the other names what was
registered before. -/
theorem mem_insert_iff {entry : String × α} :
    entry ∈ (registry.insert name value).entries ↔
      entry = (name, value) ∨ entry ∈ registry.entries ∧ entry.1 ≠ name := by
  obtain ⟨other, held⟩ := entry
  rw [← get?_eq_some_iff, get?_insert, ← get?_eq_some_iff, Prod.mk.injEq]
  by_cases same : other = name
  · simp [same, eq_comm]
  · simp [same]

/-- An insertion under a known name changes one value. -/
theorem insert_eq_map (held : registry.get? name = some value) (change : α → α) :
    registry.insert name (change value) =
      registry.map fun other old => if other = name then change old else old := by
  have known : name ∈ registry.names :=
    mem_names_iff.2 ⟨value, get?_eq_some_iff.1 held⟩
  rw [insert, dif_pos known]
  refine map_congr fun other old member => ?_
  by_cases same : other = name
  · have equal : old = value := by
      rw [same, ← get?_eq_some_iff, held] at member
      exact (Option.some.inj member).symm
    rw [if_pos same, if_pos same, equal]
  · rw [if_neg same, if_neg same]

/-- A new name is registered after all others. -/
theorem entries_insert_new (isNew : name ∉ registry.names) (value : α) :
    (registry.insert name value).entries = registry.entries ++ [(name, value)] := by
  rw [insert, dif_neg isNew]

/-- A change of all values changes an inserted value as well. -/
theorem map_insert (change : String → α → β) (registry : Registry α)
    (name : String) (value : α) :
    (registry.insert name value).map change =
      (registry.map change).insert name (change name value) := by
  by_cases known : name ∈ registry.names
  · have stillKnown : name ∈ (registry.map change).names := by simpa using known
    rw [insert, insert, dif_pos known, dif_pos stillKnown, map_map, map_map]
    apply map_congr
    intro other old _
    by_cases same : other = name
    · simp [same]
    · simp [same]
  · have stillNew : name ∉ (registry.map change).names := by simpa using known
    apply ext_entries
    simp [entries_insert_new known, entries_insert_new stillNew]

/-- The values of a changed registry are the changed values. -/
theorem values_map (change : α → β) (registry : Registry α) :
    (registry.map fun _ => change).values = registry.values.map change := by
  simp [values, Function.comp_def]

/-- A change that may fail succeeds on the values it admits, with the value it makes of them. -/
def Exact (change : String → α → Except ε β) (admits : String → α → Prop)
    (made : String → α → β) : Prop :=
  ∀ name value result,
    change name value = .ok result ↔ admits name value ∧ result = made name value

/-- Every change that may fail is described by where it succeeds and by what it makes there. -/
theorem exact_of [Inhabited β] (change : String → α → Except ε β) :
    Exact change (fun name value => ∃ result, change name value = .ok result)
      (fun name value => (change name value).toOption.getD default) :=
  fun _ _ _ => Checks.eq_ok_iff

variable {change : String → α → Except ε β} {admits : String → α → Prop}
  {made : String → α → β}

/-- A traversal of entries succeeds exactly if every entry is admitted. -/
theorem traverseEntries_eq_ok (exact : Exact change admits made) {entries : List (String × α)}
    {changed : { list : List (String × β) // list.map Prod.fst = entries.map Prod.fst }} :
    traverseEntries change entries = .ok changed ↔
      (∀ entry ∈ entries, admits entry.1 entry.2) ∧
        changed.1 = entries.map fun entry => (entry.1, made entry.1 entry.2) := by
  induction entries with
  | nil =>
      obtain ⟨list, same⟩ := changed
      cases list with
      | nil => simp [traverseEntries]
      | cons entry rest => simp at same
  | cons entry rest ih =>
      obtain ⟨name, value⟩ := entry
      rw [traverseEntries, Checks.bind_eq_ok, List.forall_mem_cons]
      constructor
      · rintro ⟨result, changes, others⟩
        obtain ⟨admitted, rfl⟩ := (exact name value result).1 changes
        obtain ⟨tail, traversed, joined⟩ := Checks.bind_eq_ok.1 others
        obtain ⟨each, tailEq⟩ := ih.1 traversed
        cases joined
        exact ⟨⟨admitted, each⟩, congrArg ((name, made name value) :: ·) tailEq⟩
      · rintro ⟨⟨admitted, each⟩, all⟩
        have names : (rest.map fun entry => (entry.1, made entry.1 entry.2)).map Prod.fst =
            rest.map Prod.fst := by simp
        refine ⟨made name value, (exact name value _).2 ⟨admitted, rfl⟩, ?_⟩
        have traversed : traverseEntries change rest = .ok ⟨_, names⟩ := ih.2 ⟨each, rfl⟩
        rw [traversed]
        exact congrArg Except.ok (Subtype.ext all.symm)

/-- A traversal succeeds exactly if every value is admitted, and then it is a change of all
values. -/
theorem traverse_eq_ok (exact : Exact change admits made) {changed : Registry β} :
    registry.traverse change = .ok changed ↔
      (∀ entry ∈ registry.entries, admits entry.1 entry.2) ∧ changed = registry.map made := by
  rw [traverse, Checks.bind_eq_ok]
  constructor
  · rintro ⟨list, traversed, joined⟩
    obtain ⟨each, listEq⟩ := (traverseEntries_eq_ok exact).1 traversed
    cases joined
    exact ⟨each, ext_entries listEq⟩
  · rintro ⟨each, rfl⟩
    exact ⟨⟨_, by simp⟩, (traverseEntries_eq_ok exact).2 ⟨each, rfl⟩, rfl⟩

theorem names_traverse [Inhabited β] {changed : Registry β}
    (traversed : registry.traverse change = .ok changed) : changed.names = registry.names := by
  obtain ⟨-, rfl⟩ := (traverse_eq_ok (exact_of change)).1 traversed
  exact names_map ..

/-- Every value of a traversed registry is what the change made of the value with the same name. -/
theorem mem_traverse [Inhabited β] {changed : Registry β}
    (traversed : registry.traverse change = .ok changed) {result : β}
    (member : (name, result) ∈ changed.entries) :
    ∃ value, (name, value) ∈ registry.entries ∧ change name value = .ok result := by
  obtain ⟨each, rfl⟩ := (traverse_eq_ok (exact_of change)).1 traversed
  obtain ⟨⟨other, value⟩, registered, equal⟩ := List.mem_map.1 member
  obtain ⟨rfl, rfl⟩ := Prod.mk.inj equal
  exact ⟨value, registered, (exact_of change other value _).2 ⟨each (other, value) registered, rfl⟩⟩

/-- Of every value a traversed registry has what the change made of it. -/
theorem exists_mem_traverse [Inhabited β] {changed : Registry β}
    (traversed : registry.traverse change = .ok changed)
    (registered : (name, value) ∈ registry.entries) :
    ∃ result, (name, result) ∈ changed.entries ∧ change name value = .ok result := by
  obtain ⟨each, rfl⟩ := (traverse_eq_ok (exact_of change)).1 traversed
  exact ⟨_, List.mem_map.2 ⟨(name, value), registered, rfl⟩,
    (exact_of change name value _).2 ⟨each (name, value) registered, rfl⟩⟩

/-- If every value takes its own part off a list that begins with it, then all values take theirs off
the parts in order. -/
theorem threadEntries_flatMap {change : α → List γ → β × List γ} {part : α → List γ}
    {result : α → β} {entries : List (String × α)}
    (each : ∀ entry ∈ entries, ∀ rest,
      change entry.2 (part entry.2 ++ rest) = (result entry.2, rest)) {rest : List γ} :
    threadEntries change entries ((entries.map Prod.snd).flatMap part ++ rest) =
      (entries.map fun entry => (entry.1, result entry.2), rest) := by
  induction entries with
  | nil => rfl
  | cons entry others ih =>
      obtain ⟨first, remaining⟩ := List.forall_mem_cons.1 each
      rw [List.map_cons, List.flatMap_cons, List.append_assoc, threadEntries, first, ih remaining]
      rfl

theorem thread_flatMap {change : α → List γ → β × List γ} {part : α → List γ} {result : α → β}
    (each : ∀ value ∈ registry.values, ∀ rest,
      change value (part value ++ rest) = (result value, rest)) {rest : List γ} :
    registry.thread change (registry.values.flatMap part ++ rest) =
      (registry.map fun _ => result, rest) := by
  have entries : threadEntries change registry.entries
      (registry.values.flatMap part ++ rest) =
        (registry.entries.map fun entry => (entry.1, result entry.2), rest) :=
    threadEntries_flatMap fun entry member => each entry.2 (List.mem_map_of_mem member)
  refine Prod.ext (ext_entries ?_) ?_
  · exact (congrArg Prod.fst entries :)
  · exact (congrArg Prod.snd entries :)

/-- A traversal fails as the change of one of the values does. -/
theorem failsWith_traverse {allowed : ε → Prop}
    (each : ∀ entry ∈ registry.entries, Checks.FailsWith allowed (change entry.1 entry.2)) :
    Checks.FailsWith allowed (registry.traverse change) := by
  have entries : Checks.FailsWith allowed (traverseEntries change registry.entries) := by
    generalize registry.entries = entries at each
    induction entries with
    | nil => exact Checks.failsWith_ok _
    | cons entry rest ih =>
        refine Checks.FailsWith.bind (each entry List.mem_cons_self) fun value _ => ?_
        exact (ih fun other member => each other (List.mem_cons_of_mem _ member)).bind
          fun _ _ => Checks.failsWith_ok _
  exact entries.bind fun _ _ => Checks.failsWith_ok _

end Metronome.Registry
