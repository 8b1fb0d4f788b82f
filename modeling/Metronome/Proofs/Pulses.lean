/-
Module: Metronome.Proofs.Pulses
Purpose: A pulse generator carries the whole program, entry by entry, or refuses it.
Trusted boundary: none
Main exports:
  PulseGenerator.Passes, PulseGenerator.carried, PulseGenerator.Carries,
  PulseGenerator.entriesInstructions_eq_ok, PulseGenerator.instructions_eq_ok,
  PulseGenerator.instructions_carry
-/
import Mathlib
import Metronome.Card.Pulse
import Metronome.Proofs.Checks

/-!
Entries are translated one after the other, and the translation stops as soon as the limit is
reached, with entries left that have not been looked at.  The stop instruction does not fit any more
then, so a list that was cut short is always refused, and a list that is returned is that of all
entries.
-/

namespace Metronome

/-! ### Parts of a program -/

theorem Program.mem_runs {program : Program} {run : Run} :
    run ∈ program.runs ↔ .tick run ∈ program.entries := by
  rw [runs, List.mem_filterMap]
  constructor
  · rintro ⟨entry, member, isRun⟩
    cases entry with
    | wait marker => cases isRun
    | tick other =>
        cases isRun
        exact member
  · exact fun member => ⟨_, member, rfl⟩

theorem Program.mem_markers {program : Program} {marker : Marker} :
    marker ∈ program.markers ↔ .wait marker ∈ program.entries := by
  rw [markers, List.mem_filterMap]
  constructor
  · rintro ⟨entry, member, isMarker⟩
    cases entry with
    | tick run => cases isMarker
    | wait other =>
        cases isMarker
        exact member
  · exact fun member => ⟨_, member, rfl⟩

namespace PulseGenerator

variable {generator : PulseGenerator} {program : Program}

/-! ### Repetitions -/

theorem fieldMax_pos : 0 < fieldMax := by decide

/-- The parts of split repetitions fit their field and none of them is zero. -/
theorem mem_split {repetitions part : Nat} (member : part ∈ split repetitions) :
    1 ≤ part ∧ part ≤ fieldMax := by
  rw [split, List.mem_append] at member
  rcases member with full | rest
  · rw [List.eq_of_mem_replicate full]
    exact ⟨fieldMax_pos, Nat.le_refl _⟩
  · have below := Nat.mod_lt repetitions fieldMax_pos
    split at rest
    · cases rest
    · rw [List.mem_singleton] at rest
      omega

theorem sum_split (repetitions : Nat) : (split repetitions).sum = repetitions := by
  have whole := Nat.div_add_mod repetitions fieldMax
  rw [split, List.sum_append, List.sum_replicate_nat, Nat.mul_comm]
  split
  · simp only [List.sum_nil]
    omega
  · simp only [List.sum_cons, List.sum_nil]
    omega

/-- Repetitions are split into as few parts as can be. -/
theorem length_split (repetitions : Nat) :
    (split repetitions).length = repetitions ⌈/⌉ fieldMax := by
  have whole := Nat.div_add_mod repetitions fieldMax
  have below := Nat.mod_lt repetitions fieldMax_pos
  rw [split, List.length_append, List.length_replicate, Nat.ceilDiv_eq_add_pred_div]
  symm
  split
  · rename_i exact
    rw [List.length_nil, Nat.add_zero]
    apply Nat.div_eq_of_lt_le
    · rw [Nat.mul_comm]
      have pos := fieldMax_pos
      omega
    · rw [Nat.add_mul, Nat.mul_comm (repetitions / fieldMax)]
      omega
  · rw [List.length_singleton]
    apply Nat.div_eq_of_lt_le
    · rw [Nat.add_mul, Nat.mul_comm (repetitions / fieldMax)]
      omega
    · rw [Nat.add_mul, Nat.add_mul, Nat.mul_comm (repetitions / fieldMax)]
      omega

/-! ### Single entries -/

/-- The whole number of reference cycles nearest to a period. -/
def cycles (generator : PulseGenerator) (period : Float) : Nat :=
  Number.toWord (Number.nearest (period * generator.clockFreq))

/-- A period is as good as a whole number of cycles: it differs from one by less than the tolerance,
which is a millionth of that number. -/
def Aligned (generator : PulseGenerator) (period : Float) : Prop :=
  let exact := period * generator.clockFreq
  ¬ 1e-6 * Number.atLeast 1 (Number.nearest exact) < (exact - Number.nearest exact).abs

/-- The instruction for repeated ticks has the halves of the cycles, rounded down and up, if the
period is aligned and the halves keep to their limits. -/
theorem tickInstruction_eq_ok {period : Float} {repetitions : Nat} {made : PulseInstruction} :
    generator.tickInstruction period repetitions = .ok made ↔
      (generator.Aligned period ∧ generator.minHalfPeriod ≤ generator.cycles period / 2 ∧
        generator.cycles period - generator.cycles period / 2 ≤ fieldMax) ∧
      made = ⟨.continue, repetitions, generator.cycles period / 2,
        generator.cycles period - generator.cycles period / 2⟩ := by
  unfold tickInstruction Aligned cycles
  dsimp only
  split
  · rename_i off
    exact iff_of_false nofun fun passes => passes.1.1 off
  · rename_i aligned
    split
    · rename_i short
      exact iff_of_false nofun fun passes => absurd passes.1.2.1 (Nat.not_le.2 short)
    · rename_i long
      split
      · exact iff_of_false nofun fun passes => by omega
      · constructor
        · intro ok
          exact ⟨⟨aligned, Nat.le_of_not_lt long, by omega⟩, (Except.ok.inj ok).symm⟩
        · intro passes
          exact congrArg Except.ok passes.2.symm

/-- An entry for which instructions can be made. -/
def Passes (generator : PulseGenerator) : Entry → Prop
  | .tick run => ∃ pulse, generator.tickInstruction run.period run.repetitions = .ok pulse
  | .wait marker => ∃ halt, generator.waitInstruction marker = .ok halt

/-- The instruction for a wait, with the milliseconds of its timeout, or zero. -/
def halt (marker : Marker) : PulseInstruction :=
  ⟨.wait, 1, (marker.timeout.map fun timeout =>
    Number.toWord (Number.nearest (timeout * 1000))).getD 0, 0⟩

theorem eq_halt_of_waitInstruction {marker : Marker} {made : PulseInstruction}
    (waits : generator.waitInstruction marker = .ok made) : made = halt marker := by
  obtain ⟨label, timeout, origin⟩ := marker
  cases timeout with
  | none => exact (Except.ok.inj waits).symm
  | some timeout =>
      rw [waitInstruction] at waits
      dsimp only at waits
      split at waits
      · cases waits
      · exact (Except.ok.inj waits).symm

/-- The instructions that an entry which passes is turned into. -/
def carried (generator : PulseGenerator) : Entry → List PulseInstruction
  | .tick run => (split run.repetitions).map fun part =>
      ⟨.continue, part, generator.cycles run.period / 2,
        generator.cycles run.period - generator.cycles run.period / 2⟩
  | .wait marker => [halt marker]

/-- An entry with ticks is turned into instructions exactly if it passes. -/
theorem entryInstructions_eq_ok {entry : Entry} {made : List PulseInstruction}
    (repeated : ∀ run, entry = .tick run → 1 ≤ run.repetitions) :
    generator.entryInstructions entry = .ok made ↔
      generator.Passes entry ∧ made = generator.carried entry := by
  cases entry with
  | wait marker =>
      rw [entryInstructions, Checks.map_eq_ok, Passes, carried]
      constructor
      · rintro ⟨made, waits, rfl⟩
        exact ⟨⟨made, waits⟩, congrArg List.singleton (eq_halt_of_waitInstruction waits)⟩
      · rintro ⟨⟨made, waits⟩, rfl⟩
        exact ⟨made, waits, congrArg List.singleton (eq_halt_of_waitInstruction waits)⟩
  | tick run =>
      obtain ⟨first, firstIn⟩ : ∃ part, part ∈ split run.repetitions := by
        apply List.exists_mem_of_ne_nil
        intro none
        have sum := sum_split run.repetitions
        have positive := repeated run rfl
        rw [none, List.sum_nil] at sum
        omega
      rw [entryInstructions, Checks.mapM_eq_ok_map fun part pulse => tickInstruction_eq_ok, Passes,
        carried]
      simp only [tickInstruction_eq_ok, exists_and_left, exists_eq, and_true]
      refine and_congr_left fun _ => ⟨fun each => each first firstIn, fun passes part _ => passes⟩

/-! ### The whole program -/

/-- If the limit is not reached, the entries have been translated to the last, and each of them
passed.  The induction is on the entries; the limit was not reached before any of them either. -/
theorem entriesInstructions_eq_ok {entries : List Entry} {made result : List PulseInstruction}
    {count total : Nat} (repeated : ∀ run, .tick run ∈ entries → 1 ≤ run.repetitions)
    (within : total < generator.maxInstructions) :
    generator.entriesInstructions made count entries = .ok (result, total) ↔
      (∀ entry ∈ entries, generator.Passes entry) ∧
        result = (entries.flatMap generator.carried).reverse ++ made ∧
        total = count + (entries.flatMap generator.carried).length := by
  induction entries generalizing made count with
  | nil =>
      rw [entriesInstructions]
      simp [eq_comm]
  | cons entry rest ih =>
      have step := @entryInstructions_eq_ok generator entry
      have later := @ih ((generator.carried entry).reverse ++ made)
        (count + (generator.carried entry).length)
        fun run member => repeated run (List.mem_cons_of_mem _ member)
      rw [entriesInstructions, Checks.bind_eq_ok]
      simp only [step fun run same => repeated run (same ▸ List.mem_cons_self),
        and_assoc, exists_and_left, exists_eq_left, List.forall_mem_cons, List.flatMap_cons,
        List.length_append, List.reverse_append]
      refine and_congr_right fun _ => ?_
      split
      · rename_i reached
        constructor
        · intro made
          cases made
          omega
        · rintro ⟨-, -, rfl⟩
          omega
      · rw [later, Nat.add_assoc, List.append_assoc]

/-- A program whose runs have ticks is translated exactly if every entry passes and all their
instructions and the stop are within the limit. -/
theorem instructions_eq_ok {list : List PulseInstruction}
    (repeated : ∀ run ∈ program.runs, 1 ≤ run.repetitions) :
    generator.instructions program = .ok list ↔
      (∀ entry ∈ program.entries, generator.Passes entry) ∧
        (program.entries.flatMap generator.carried).length + 1 ≤ generator.maxInstructions ∧
        list = program.entries.flatMap generator.carried ++ [⟨.stop, 0, 0, 0⟩] := by
  have entriesRepeated : ∀ run, .tick run ∈ program.entries → 1 ≤ run.repetitions :=
    fun run member => repeated run (Program.mem_runs.2 member)
  rw [instructions, Checks.bind_eq_ok]
  constructor
  · rintro ⟨⟨made, count⟩, translated, finished⟩
    dsimp only at finished
    split at finished
    · cases finished
    · rename_i within
      obtain ⟨passes, rfl, rfl⟩ :=
        (entriesInstructions_eq_ok entriesRepeated (by omega)).1 translated
      cases finished
      refine ⟨passes, by omega, by simp⟩
  · rintro ⟨passes, within, rfl⟩
    have translated : generator.entriesInstructions [] 0 program.entries =
        .ok ((program.entries.flatMap generator.carried).reverse ++ [],
          0 + (program.entries.flatMap generator.carried).length) :=
      (entriesInstructions_eq_ok entriesRepeated (by omega)).2 ⟨passes, rfl, rfl⟩
    refine ⟨_, translated, ?_⟩
    dsimp only
    rw [if_neg (by omega)]
    simp [pure, Except.pure]

/-- How instructions carry an entry.  Ticks are carried by pulses with halves that differ by one
cycle at most and are not too short, in as few instructions as their repetitions need, and a wait by
one instruction that halts. -/
inductive Carries (generator : PulseGenerator) : Entry → List PulseInstruction → Prop where
  | tick {run : Run} {high low : Nat} {parts : List Nat}
      (halves : low = high ∨ low = high + 1) (whole : high + low = generator.cycles run.period)
      (long : generator.minHalfPeriod ≤ high) (fits : low ≤ fieldMax)
      (fitting : ∀ part ∈ parts, 1 ≤ part ∧ part ≤ fieldMax)
      (total : parts.sum = run.repetitions)
      (fewest : parts.length = run.repetitions ⌈/⌉ fieldMax) :
      Carries generator (.tick run) (parts.map fun part => ⟨.continue, part, high, low⟩)
  | wait {marker : Marker} : Carries generator (.wait marker) [halt marker]

theorem carries_carried {entry : Entry} (passes : generator.Passes entry) :
    generator.Carries entry (generator.carried entry) := by
  cases entry with
  | wait marker => exact .wait
  | tick run =>
      obtain ⟨pulse, made⟩ := passes
      obtain ⟨⟨-, long, fits⟩, -⟩ := tickInstruction_eq_ok.1 made
      exact .tick (by omega) (by omega) long fits (fun _ => mem_split) (sum_split _)
        (length_split _)

/-- The repetitions of pulses. -/
def pulses (list : List PulseInstruction) : Nat :=
  ((list.filter fun instruction => instruction.opcode = .continue).map
    PulseInstruction.repetitions).sum

theorem pulses_append (first second : List PulseInstruction) :
    pulses (first ++ second) = pulses first + pulses second := by
  simp [pulses]

/-- The instructions for a run have its repetitions. -/
theorem repetitions_carried_tick (run : Run) :
    ((generator.carried (.tick run)).map PulseInstruction.repetitions).sum = run.repetitions := by
  rw [carried, List.map_map]
  exact (congrArg List.sum (List.map_id _)).trans (sum_split _)

/-- They are pulses without exception. -/
theorem pulses_carried_tick (run : Run) :
    pulses (generator.carried (.tick run)) = run.repetitions := by
  rw [pulses, List.filter_eq_self.2 (by simp [carried]), repetitions_carried_tick]

theorem pulses_flatMap_carried (entries : List Entry) :
    pulses (entries.flatMap generator.carried) =
      ((entries.filterMap Entry.run?).map Run.repetitions).sum := by
  induction entries with
  | nil => rfl
  | cons entry rest ih =>
      rw [List.flatMap_cons, pulses_append, ih]
      cases entry with
      | wait marker => exact Nat.zero_add _
      | tick run =>
          rw [pulses_carried_tick]
          rfl

/-- The instructions for entries are as few as the repetitions need, and one for each wait. -/
theorem length_flatMap_carried (entries : List Entry) :
    (entries.flatMap generator.carried).length =
      ((entries.filterMap Entry.run?).map fun run => run.repetitions ⌈/⌉ fieldMax).sum +
        (entries.filterMap Entry.marker?).length := by
  induction entries with
  | nil => rfl
  | cons entry rest ih =>
      rw [List.flatMap_cons, List.length_append, ih]
      cases entry with
      | wait marker =>
          simp only [carried, List.filterMap_cons, Entry.run?, Entry.marker?, List.length_cons,
            List.length_nil]
          omega
      | tick run =>
          simp only [carried, List.filterMap_cons, Entry.run?, Entry.marker?, List.length_map,
            List.map_cons, List.sum_cons, length_split]
          omega

/-- The waits and stops among instructions. -/
theorem filter_flatMap_carried (entries : List Entry) :
    ((entries.flatMap generator.carried).filter fun instruction =>
        instruction.opcode ≠ .continue) = (entries.filterMap Entry.marker?).map halt := by
  induction entries with
  | nil => rfl
  | cons entry rest ih =>
      rw [List.flatMap_cons, List.filter_append, ih]
      cases entry with
      | wait marker => rfl
      | tick run =>
          have none : ((generator.carried (.tick run)).filter fun instruction =>
              instruction.opcode ≠ .continue) = [] := by
            simp [carried]
          rw [none]
          rfl

/-- A generator translates a program exactly if it can translate every tick and every wait and all
instructions are within its limit: of each run as many as its repetitions need, one for each wait,
and the stop.  Then they are, entry by entry, the pulses of a run or the halt of a wait, and one stop
after all of them; the pulses are those that the fast line ticks. -/
theorem instructions_carry (repeated : ∀ run ∈ program.runs, 1 ≤ run.repetitions) :
    ((∃ list, generator.instructions program = .ok list) ↔
      (∀ run ∈ program.runs, ∃ pulse,
        generator.tickInstruction run.period run.repetitions = .ok pulse) ∧
      (∀ marker ∈ program.markers, ∃ halt, generator.waitInstruction marker = .ok halt) ∧
      (program.runs.map fun run => run.repetitions ⌈/⌉ fieldMax).sum + program.markers.length + 1 ≤
        generator.maxInstructions) ∧
    ∀ list, generator.instructions program = .ok list →
      (∃ blocks, List.Forall₂ generator.Carries program.entries blocks ∧
        list = blocks.flatten ++ [⟨.stop, 0, 0, 0⟩]) ∧
      ((list.filter fun instruction => instruction.opcode = .continue).map
        PulseInstruction.repetitions).sum = program.tickCount .fast ∧
      (list.filter fun instruction => instruction.opcode ≠ .continue) =
        program.markers.map halt ++ [⟨.stop, 0, 0, 0⟩] := by
  have passes_iff : (∀ entry ∈ program.entries, generator.Passes entry) ↔
      (∀ run ∈ program.runs, ∃ pulse,
        generator.tickInstruction run.period run.repetitions = .ok pulse) ∧
      ∀ marker ∈ program.markers, ∃ halt, generator.waitInstruction marker = .ok halt := by
    constructor
    · intro passes
      exact ⟨fun run member => passes _ (Program.mem_runs.1 member),
        fun marker member => passes _ (Program.mem_markers.1 member)⟩
    · rintro ⟨runs, markers⟩ entry member
      cases entry with
      | tick run => exact runs run (Program.mem_runs.2 member)
      | wait marker => exact markers marker (Program.mem_markers.2 member)
  have count : (program.entries.flatMap generator.carried).length =
      (program.runs.map fun run => run.repetitions ⌈/⌉ fieldMax).sum + program.markers.length :=
    length_flatMap_carried program.entries
  refine ⟨?_, fun list translated => ?_⟩
  · simp only [instructions_eq_ok repeated, exists_and_left, exists_eq, and_true]
    rw [passes_iff, count, and_assoc]
  · obtain ⟨passes, -, rfl⟩ := (instructions_eq_ok repeated).1 translated
    refine ⟨⟨program.entries.map generator.carried, ?_, ?_⟩, ?_, ?_⟩
    · rw [List.forall₂_map_right_iff, List.forall₂_same]
      exact fun entry member => carries_carried (passes entry member)
    · rw [List.flatMap_def]
    · have fast : program.tickCount .fast = (program.runs.map Run.repetitions).sum := by
        have all : program.runs.filter (Program.seenOn .fast) = program.runs :=
          List.filter_eq_self.2 fun _ _ => rfl
        rw [Program.tickCount, all]
        rfl
      rw [fast, ← pulses, pulses_append, pulses_flatMap_carried]
      exact Nat.add_zero _
    · rw [List.filter_append, filter_flatMap_carried]
      rfl

/-- A program with more repetitions in a run than one instruction holds, a wait, and a tick. -/
def longProgram : Program :=
  ⟨1e9, 5000, [.tick ⟨1e-6, 5000000000, true, none⟩, .wait ⟨"trigger", some 2.5, none⟩,
    .tick ⟨1e-6, 1, false, none⟩]⟩

/-- It takes five instructions, which are as many as the generator admits. -/
theorem longProgram_carried : ∃ list,
    (⟨"clock", 1e8, 5, 5⟩ : PulseGenerator).instructions longProgram = .ok list ∧
      ((list.filter fun instruction => instruction.opcode = .continue).map
        PulseInstruction.repetitions).sum = 5000000001 := by
  have repeated : ∀ run ∈ longProgram.runs, 1 ≤ run.repetitions := by decide +kernel
  have translates : ((⟨"clock", 1e8, 5, 5⟩ : PulseGenerator).instructions longProgram).isOk =
      true := by decide +kernel
  obtain ⟨list, translated⟩ := Checks.isOk_iff.1 translates
  exact ⟨list, translated, ((instructions_carry repeated).2 list translated).2.1⟩

end PulseGenerator

end Metronome
