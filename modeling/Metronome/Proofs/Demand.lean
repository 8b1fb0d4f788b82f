/-
Module: Metronome.Proofs.Demand
Purpose: What outputs and waits demand of a clock, said without segments, blocks or runs.
Trusted boundary: none
Main exports:
  Window.covers, Demand, Demand.of, Demand.latest, Demand.active, Demand.TicksAt,
  Demand.tickCount, Demand.Compatible, Demand.latest_eq
-/
import Metronome.Schedule

/-!
A clock has to tick on both lines at its boundaries: the start, every start of an instruction and
every wait.  Between two boundaries only the ramps that are active at the first of them matter.
They are sampled from that boundary on at their period, until the last of them ends, and the end
of the last one gets a tick of its own.  This is the whole demand; how many blocks or runs a
program takes to meet it is not part of it.
-/

namespace Metronome

/-- A position in the domain of a ramp: its start belongs to it, its stop does not. -/
def Window.covers (window : Window) (position : Nat) : Bool :=
  window.start ≤ position && position < window.stop

theorem Window.covers_iff {window : Window} {position : Nat} :
    window.covers position = true ↔ window.start ≤ position ∧ position < window.stop := by
  simp [Window.covers]

/-- What a clock is asked for: the boundaries and the ramps. -/
structure Demand where
  boundaries : List Nat
  windows : List Window
deriving Repr, Inhabited, DecidableEq

namespace Demand

/-- The demand of the waits of a clock and of its outputs. -/
def of (clock : Pseudoclock) (outputs : List Output) : Demand where
  boundaries := 0 :: (outputs.flatMap fun output => output.timeline.items.map Placement.start) ++
    clock.waits.items.map Wait.position
  windows := outputs.flatMap Output.windows

/-- The last boundary at or before a position. -/
def latest (demand : Demand) (position : Nat) : Nat :=
  ((demand.boundaries.filter fun boundary => boundary ≤ position).max?).getD 0

/-- The ramps that are active from the last boundary at or before a position on. -/
def active (demand : Demand) (position : Nat) : List Window :=
  demand.windows.filter fun window => window.covers (demand.latest position)

/-- The clock has to tick here: at a boundary, a whole number of sample periods after the last
one while a ramp goes on, or where the last of the active ramps ends. -/
def TicksAt (demand : Demand) (position : Nat) : Prop :=
  position ∈ demand.boundaries ∨
    ((∃ window ∈ demand.active position, window.period ∣ position - demand.latest position) ∧
      ∃ window ∈ demand.active position, position < window.stop) ∨
    ((∃ window ∈ demand.active position, window.stop = position) ∧
      ∀ window ∈ demand.active position, window.stop ≤ position)

instance (demand : Demand) (position : Nat) : Decidable (demand.TicksAt position) := by
  unfold TicksAt
  infer_instance

/-- The number of ticks before a stop position. -/
def tickCount (demand : Demand) (stop : Nat) : Nat :=
  (List.range stop).countP fun position => demand.TicksAt position

/-- Any two ramps that are active at one time need the same sample period. -/
def Compatible (demand : Demand) : Prop :=
  ∀ first ∈ demand.windows, ∀ second ∈ demand.windows,
    first.start < second.stop → second.start < first.stop → first.period = second.period

theorem mem_boundaries_of {clock : Pseudoclock} {outputs : List Output} {position : Nat} :
    position ∈ (of clock outputs).boundaries ↔
      position = 0 ∨
        (∃ output ∈ outputs, ∃ placement ∈ output.timeline.items,
          placement.start = position) ∨
        ∃ wait ∈ clock.waits.items, wait.position = position := by
  simp [of, List.mem_flatMap]

/-- Every wait of the clock is a boundary. -/
theorem wait_mem_boundaries {clock : Pseudoclock} (outputs : List Output) {wait : Wait}
    (member : wait ∈ clock.waits.items) : wait.position ∈ (of clock outputs).boundaries :=
  mem_boundaries_of.2 (Or.inr (Or.inr ⟨wait, member, rfl⟩))

/-- The ramps of a demand are the placements of the outputs that have a domain. -/
theorem mem_windows_of {clock : Pseudoclock} {outputs : List Output} {window : Window} :
    window ∈ (of clock outputs).windows ↔
      ∃ output ∈ outputs, ∃ placement ∈ output.timeline.items, ∃ span,
        placement.ramp = some span ∧
          window = ⟨output.name, placement.start, span.stop, span.period⟩ := by
  simp only [of, Output.windows, List.mem_flatMap, List.mem_filterMap, Option.map_eq_some_iff]
  constructor
  · intro present
    obtain ⟨output, member, placement, placed, span, ramp, rfl⟩ := present
    exact ⟨output, member, placement, placed, span, ramp, rfl⟩
  · intro placedRamp
    obtain ⟨output, member, placement, placed, span, ramp, rfl⟩ := placedRamp
    exact ⟨output, member, placement, placed, span, ramp, rfl⟩

/-- The last boundary is known by its three properties. -/
theorem latest_eq {demand : Demand} {position boundary : Nat}
    (member : boundary ∈ demand.boundaries) (before : boundary ≤ position)
    (last : ∀ other ∈ demand.boundaries, other ≤ position → other ≤ boundary) :
    demand.latest position = boundary := by
  have largest : (demand.boundaries.filter fun other => other ≤ position).max? =
      some boundary := by
    rw [List.max?_eq_some_iff]
    refine ⟨List.mem_filter.2 ⟨member, by simpa using before⟩, fun other candidate => ?_⟩
    obtain ⟨present, bound⟩ := List.mem_filter.1 candidate
    exact last other present (by simpa using bound)
  rw [latest, largest, Option.getD_some]

/-- If the start is a boundary, every position has a last boundary. -/
theorem latest_spec {demand : Demand} (zero : 0 ∈ demand.boundaries) (position : Nat) :
    demand.latest position ∈ demand.boundaries ∧ demand.latest position ≤ position ∧
      ∀ other ∈ demand.boundaries, other ≤ position → other ≤ demand.latest position := by
  have zeroIn : 0 ∈ demand.boundaries.filter fun boundary => boundary ≤ position :=
    List.mem_filter.2 ⟨zero, by simp⟩
  cases largest : (demand.boundaries.filter fun boundary => boundary ≤ position).max? with
  | none => simp [List.max?_eq_none_iff.1 largest] at zeroIn
  | some boundary =>
      obtain ⟨chosen, greatest⟩ := List.max?_eq_some_iff.1 largest
      obtain ⟨member, before⟩ := List.mem_filter.1 chosen
      rw [latest, largest, Option.getD_some]
      exact ⟨member, of_decide_eq_true before, fun other present reached =>
        greatest other (List.mem_filter.2 ⟨present, decide_eq_true reached⟩)⟩

/-- A boundary is the last boundary at itself. -/
theorem latest_self {demand : Demand} {boundary : Nat} (member : boundary ∈ demand.boundaries) :
    demand.latest boundary = boundary :=
  latest_eq member (Nat.le_refl _) fun _ _ before => before

theorem mem_active {demand : Demand} {position : Nat} {window : Window} :
    window ∈ demand.active position ↔
      window ∈ demand.windows ∧ window.start ≤ demand.latest position ∧
        demand.latest position < window.stop := by
  rw [active, List.mem_filter, Window.covers_iff]

end Demand

/-- A clock without waits on a grid of nanoseconds. -/
def Pseudoclock.bare : Pseudoclock := ⟨"pb0", 1e-7, 100, 1e9, .empty⟩

/-- The clock with two waits, the second of which ends by itself after a second. -/
def Pseudoclock.gated : Pseudoclock :=
  { bare with waits := .ofList [⟨25, "gate", 2.5e-8, none⟩, ⟨30, "resume", 3e-8, some 1⟩] }

/-- A ramp of two samples. -/
def Placement.twoSamples (start : Nat) : Placement :=
  ⟨start, some ⟨start + 20, 10⟩, .linear 0 1, rfl, Nat.lt_add_of_pos_right (Nat.succ_pos 19),
    Nat.succ_pos 9⟩

/-- An output with one ramp of two samples. -/
def Output.twoSamples (name : String) (start : Nat) : Output :=
  ⟨name, .analog, 0, .fast, .ofList [.twoSamples start]⟩

theorem Output.items_twoSamples (name : String) (start : Nat) :
    (twoSamples name start).timeline.items = [.twoSamples start] :=
  rfl

/-- Two overlapping ramps with the same sample period, the second half a period late. -/
def Output.staggered : List Output := [twoSamples "ao/ao0" 0, twoSamples "ao/ao1" 5]

example : (List.range 40).filter ((Demand.of .bare Output.staggered).TicksAt ·) =
    [0, 5, 15, 25] := by
  decide

end Metronome
