/-
Module: Metronome.Proofs.Cycles
Purpose: Pulses keep time with the ticks of a compiled program exactly where a tick is a whole number
  of reference cycles, and nearly everywhere else.
Trusted boundary: none
Main exports:
  Entry.OnGrid, Pseudoclock.program_onGrid, PulseGenerator.InTime, PulseGenerator.tick_inTime,
  PulseGenerator.instructions_inTime
-/
import Mathlib
import Metronome.Proofs.Emission
import Metronome.Proofs.Pulses
import Metronome.Proofs.Tolerance

/-!
The runs of a program have distances on the grid for periods, in seconds.  A generator turns the
seconds back into cycles of its own clock.  Both steps are rounded, but by so little that a period
which is a whole number of cycles gets that number, as long as the number fits the fields of an
instruction.  A period which is none should be refused.  It is only if it is off by more than a
millionth of itself, which is several cycles for a period of several million.
-/

namespace Metronome

open Number (value)

/-! ### Periods on the grid -/

/-- Entries whose periods are distances on the grid, up to the last one. -/
def Entry.OnGrid (timeBase : Float) (last : Nat) (entries : List Entry) : Prop :=
  ∀ run, .tick run ∈ entries →
    ∃ distance, 1 ≤ distance ∧ distance ≤ last ∧ run.period = TimeGrid.seconds distance timeBase

variable {timeBase : Float} {last : Nat} {settings : Settings} {schedule : Schedule}

theorem Entry.OnGrid.pushRun {entries : List Entry} (onGrid : OnGrid timeBase last entries)
    {run : Run} {distance : Nat} (pos : 1 ≤ distance) (le : distance ≤ last)
    (period : run.period = TimeGrid.seconds distance timeBase) :
    OnGrid timeBase last (Entry.pushRun run entries) := by
  intro other member
  rcases pushRun_cases run entries with ⟨lastRun, rest, rfl, -, pushed⟩ | ⟨-, pushed⟩
  · rw [pushed] at member
    rcases List.mem_cons.1 member with same | inRest
    · cases same
      exact onGrid lastRun (List.mem_cons_self ..)
    · exact onGrid other (List.mem_cons_of_mem _ inRest)
  · rw [pushed] at member
    rcases List.mem_cons.1 member with same | inEntries
    · cases same
      exact ⟨distance, pos, le, period⟩
    · exact onGrid other inEntries

/-- A segment adds periods on the grid. -/
theorem ProgramDraft.extend_onGrid {draft : ProgramDraft}
    (onGrid : Entry.OnGrid settings.timeBase last draft.entries) {segment : Segment}
    (tile : Block.Tile segment.start (schedule.blocksOf segment) segment.next)
    (inside : segment.next ≤ last) :
    Entry.OnGrid settings.timeBase last (draft.extend settings schedule segment).entries := by
  have entered : Entry.OnGrid settings.timeBase last
      (draft.enter settings schedule segment).entries := by
    unfold enter
    split
    · intro run member
      rcases List.mem_cons.1 member with same | old
      · cases same
      · exact onGrid run old
    · exact onGrid
  refine List.foldlRecOn
    (motive := fun draft : ProgramDraft =>
      Entry.OnGrid settings.timeBase last draft.entries) _ _ entered ?_
  intro draft onGrid block member
  have reach := tile.period_le member
  exact onGrid.pushRun (tile.pos member).1 (by omega) rfl

/-- The periods of a program are distances on the grid. -/
theorem Pseudoclock.program_onGrid {clock : Pseudoclock} {outputs : List Output} {stop : Nat}
    {program : Program} (made : clock.program outputs stop settings = .ok program) :
    Entry.OnGrid settings.timeBase stop program.entries := by
  have serves := Schedule.gather_serves clock outputs stop
  obtain ⟨timely, -, -, rfl⟩ := program_eq_ok.1 made
  have drafted : Entry.OnGrid settings.timeBase stop
      ((Schedule.gather clock outputs stop).draft settings).entries := by
    refine List.foldlRecOn
      (motive := fun draft : ProgramDraft =>
        Entry.OnGrid settings.timeBase stop draft.entries) _ _
      (fun _ member => absurd member List.not_mem_nil) ?_
    intro draft onGrid segment member
    exact ProgramDraft.extend_onGrid onGrid (serves.blocks_tile timely.bounded member)
      ((serves.follow timely.bounded).bounds member).2.2
  exact fun run member => drafted run (List.mem_reverse.1 member)

/-- Settings that are accepted have a time base of at least one. -/
theorem Settings.timeBase_of_check (checked : settings.check = .ok ()) :
    Number.Nonnegative settings.timeBase ∧ 1 ≤ value settings.timeBase := by
  rw [check] at checked
  split at checked
  · cases checked
  · rename_i passes
    rw [Bool.not_eq_true', Bool.not_eq_false, Bool.and_eq_true, decide_eq_true_eq] at passes
    exact Number.nonnegative_of_one_le passes.1 passes.2

namespace PulseGenerator

variable {generator : PulseGenerator}

/-! ### Single ticks -/

/-- A pulse keeps time with a tick of some positions.  It is as long as the tick exactly if the tick
is a whole number of cycles, and otherwise off by a millionth of its cycles, or of one, at most. -/
structure InTime (generator : PulseGenerator) (timeBase : Float) (positions : Nat)
    (pulse : PulseInstruction) : Prop where
  opcode : pulse.opcode = .continue
  exact : (pulse.high + pulse.low : Nat) * value timeBase = positions * value generator.clockFreq ↔
    ∃ cycles : Nat, cycles * value timeBase = positions * value generator.clockFreq
  drift : |(pulse.high + pulse.low : Nat) * value timeBase -
      positions * value generator.clockFreq| ≤
    max 1 ((pulse.high + pulse.low : Nat) : ℚ) / 999999 * value timeBase

/-- An infinite number of cycles does not fit. -/
theorem fieldMax_lt_of_infinite {x : Float} (infinite : x.toModel.unpack = .infinity .positive) :
    2 * fieldMax < Number.toWord (Number.nearest x) := by
  have kept : Number.nearest x = x := by
    rw [Number.nearest, infinite]
  rw [kept, Number.toWord_eq, infinite]
  decide

/-- A number of cycles that fits is the one closest to the product. -/
theorem cycles_eq_closest {period : Float}
    (nonneg : Number.Nonnegative (period * generator.clockFreq))
    (fits : generator.cycles period ≤ 2 * fieldMax) :
    generator.cycles period = Number.closest (value (period * generator.clockFreq)) := by
  obtain ⟨nearestNonneg, nearestValue⟩ := Number.nearest_of_nonnegative nonneg
  have counted := Number.toWord_of_nonnegative nearestNonneg
  rw [nearestValue, Nat.floor_natCast, ← cycles] at counted
  have limit : 2 * fieldMax < UInt64.size - 1 := by decide
  omega

/-- The pulse for a tick that is accepted keeps time with it. -/
theorem tick_inTime (clockNonneg : Number.Nonnegative generator.clockFreq)
    (baseNonneg : Number.Nonnegative timeBase) (one : 1 ≤ value timeBase) {positions : Nat}
    (pos : 1 ≤ positions) (word : positions < UInt64.size) {repetitions : Nat}
    {pulse : PulseInstruction}
    (made : generator.tickInstruction (TimeGrid.seconds positions timeBase) repetitions =
      .ok pulse) : generator.InTime timeBase positions pulse := by
  obtain ⟨⟨aligned, -, low⟩, rfl⟩ := tickInstruction_eq_ok.1 made
  obtain ⟨periodNonneg, periodNear⟩ := TimeGrid.seconds_near baseNonneg one pos word
  have basePos := zero_lt_one.trans_le one
  have whole : ∀ count : Nat, count / 2 + (count - count / 2) = count := by omega
  have fits : generator.cycles (TimeGrid.seconds positions timeBase) ≤ 2 * fieldMax := by omega
  rcases Number.mul_near periodNonneg periodNear clockNonneg with infinite | ⟨nonneg, near⟩
  · have large := fieldMax_lt_of_infinite infinite
    exact absurd fits (Nat.not_le.2 large)
  · have limit : 2 * fieldMax ≤ 2 ^ 34 := by decide
    have count := cycles_eq_closest nonneg fits
    have exact : positions / value timeBase * value generator.clockFreq * value timeBase =
        positions * value generator.clockFreq := by
      field_simp
    rw [count] at fits
    refine ⟨rfl, ?_, ?_⟩
    · simp only [whole, count]
      refine ⟨fun same => ⟨_, same⟩, fun ⟨cycles, same⟩ => ?_⟩
      rw [← exact, mul_left_inj' basePos.ne'] at same
      rw [Number.closest_eq nonneg.value_nonneg (same ▸ near) (fits.trans limit), same, exact]
    · have tolerated := Number.tolerated_near nonneg (by omega) aligned
      simp only [whole, count]
      rw [← exact, ← sub_mul, abs_mul, abs_of_pos basePos]
      exact mul_le_mul_of_nonneg_right (Number.near_trans tolerated near) basePos.le

/-! ### Whole programs -/

/-- The instructions for an entry keep time.  There are as many pulses as ticks in a run, and they do
so with the ticks, whatever number of positions it is that has the period of the run; there is
one. -/
def KeepsTime (generator : PulseGenerator) (timeBase : Float) (last : Nat) :
    Entry → List PulseInstruction → Prop
  | .tick run, pulses =>
      (pulses.map PulseInstruction.repetitions).sum = run.repetitions ∧
      (∃ positions, 1 ≤ positions ∧ positions ≤ last ∧
        run.period = TimeGrid.seconds positions timeBase) ∧
      ∀ positions, 1 ≤ positions → positions ≤ last →
        run.period = TimeGrid.seconds positions timeBase →
          ∀ pulse ∈ pulses, generator.InTime timeBase positions pulse
  | .wait _, halts => ∀ halt ∈ halts, halt.opcode = .wait

theorem clockFreq_of_create {name : String} {clockFreq : Float}
    (created : create name clockFreq = .ok generator) (minHalfPeriod maxInstructions : Nat) :
    Number.Nonnegative (generator.withLimits minHalfPeriod maxInstructions).clockFreq := by
  rw [create] at created
  split at created
  · rename_i passes
    cases created
    rw [Bool.and_eq_true, decide_eq_true_eq] at passes
    exact (Number.nonnegative_of_pos passes.1 passes.2).1
  · cases created

/-- Instructions for an entry that passes keep time with it. -/
theorem carried_keepsTime (clockNonneg : Number.Nonnegative generator.clockFreq)
    (baseNonneg : Number.Nonnegative timeBase) (one : 1 ≤ value timeBase)
    (word : last < UInt64.size) {entries : List Entry}
    (onGrid : Entry.OnGrid timeBase last entries) {entry : Entry} (member : entry ∈ entries)
    (passes : generator.Passes entry) :
    generator.KeepsTime timeBase last entry (generator.carried entry) := by
  cases entry with
  | wait marker =>
      intro instruction isHalt
      rw [List.mem_singleton.1 isHalt]
      rfl
  | tick run =>
      refine ⟨repetitions_carried_tick run, onGrid run member,
        fun positions pos le period pulse inCarried => ?_⟩
      obtain ⟨made, translated⟩ := passes
      obtain ⟨part, -, rfl⟩ := List.mem_map.1 inCarried
      have accepted := (tickInstruction_eq_ok.1 translated).1
      rw [period] at accepted ⊢
      exact tick_inTime clockNonneg baseNonneg one pos (by omega)
        (tickInstruction_eq_ok.2 ⟨accepted, rfl⟩)

/-- What a generator makes of the program of a clock keeps time with it.  A pulse is exactly as long
as its tick if the tick is a whole number of cycles of the reference clock, and only then.  Every
other tick is refused or off by a millionth of its cycles at most. -/
theorem instructions_inTime {clock : Pseudoclock} {outputs : List Output} {stop : Nat}
    {program : Program} {name : String} {clockFreq : Float} {minHalfPeriod maxInstructions : Nat}
    {list : List PulseInstruction} (checked : settings.check = .ok ())
    (word : stop < UInt64.size) (made : clock.program outputs stop settings = .ok program)
    (created : create name clockFreq = .ok generator)
    (translated : (generator.withLimits minHalfPeriod maxInstructions).instructions program =
      .ok list) :
    ∃ blocks, list = blocks.flatten ++ [⟨.stop, 0, 0, 0⟩] ∧
      List.Forall₂ ((generator.withLimits minHalfPeriod maxInstructions).KeepsTime
        settings.timeBase stop) program.entries blocks := by
  obtain ⟨baseNonneg, one⟩ := Settings.timeBase_of_check checked
  have repeated : ∀ run ∈ program.runs, 1 ≤ run.repetitions := fun run member =>
    (Pseudoclock.program_canonical made).counted run (Program.mem_runs.1 member)
  obtain ⟨passes, -, rfl⟩ := (instructions_eq_ok repeated).1 translated
  refine ⟨program.entries.map (carried _), by rw [List.flatMap_def], ?_⟩
  rw [List.forall₂_map_right_iff, List.forall₂_same]
  intro entry member
  exact carried_keepsTime (clockFreq_of_create created _ _) baseNonneg one word
    (Pseudoclock.program_onGrid made) member (passes entry member)

/-- An output that changes its value once. -/
def stepAt (position : Nat) : Output :=
  ⟨"ao/ao0", .analog, 0, .fast,
    .ofList [⟨0, none, .constant 1, rfl⟩, ⟨position, none, .constant 2, rfl⟩]⟩

/-- The reference clocks and time bases of the example, as numbers. -/
theorem value_gigahertz : value 1e9 = 1000000000 := by
  have unpacked : (1e9 : Float).toModel.unpack = Number.float .positive 8388608000000000 (-23) :=
    rfl
  rw [Number.value_of_unpack unpacked, Number.scaled]
  norm_num

theorem value_hundredMegahertz : value 1e8 = 100000000 := by
  have unpacked : (1e8 : Float).toModel.unpack = Number.float .positive 6710886400000000 (-26) :=
    rfl
  rw [Number.value_of_unpack unpacked, Number.scaled]
  norm_num

/-- Ticks of a hundred nanoseconds are ten cycles of a hundred megahertz. -/
theorem stepAt_inTime : ∃ generator program list blocks,
    create "pb0" 1e8 = .ok generator ∧
      Pseudoclock.bare.program [stepAt 100] 300 {} = .ok program ∧
      (generator.withLimits 5 10).instructions program = .ok list ∧
      list = blocks.flatten ++ [⟨.stop, 0, 0, 0⟩] ∧
      List.Forall₂ ((generator.withLimits 5 10).KeepsTime 1000000000 300)
        program.entries blocks := by
  have succeeds : (create "pb0" 1e8 >>= fun generator =>
      Pseudoclock.bare.program [stepAt 100] 300 {} >>=
        (generator.withLimits 5 10).instructions).isOk = true := by
    decide +kernel
  have checked : ({} : Settings).check = .ok () :=
    Checks.toOption_eq_some_iff.1 (by decide +kernel)
  obtain ⟨list, compiled⟩ := Checks.isOk_iff.1 succeeds
  obtain ⟨generator, created, later⟩ := Checks.bind_eq_ok.1 compiled
  obtain ⟨program, made, translated⟩ := Checks.bind_eq_ok.1 later
  obtain ⟨blocks, whole, kept⟩ := instructions_inTime checked (by decide) made created translated
  exact ⟨generator, program, list, blocks, created, made, translated, whole, kept⟩

/-- A tick of 2000001 nanoseconds is 200000.1 cycles of a hundred megahertz.  It is accepted, and its
pulse is a tenth of a cycle short. -/
theorem stepAt_drifts : ∃ generator program,
    create "pb0" 1e8 = .ok generator ∧
    Pseudoclock.bare.program [stepAt 2000001] 2000101 {} = .ok program ∧
    program.runs.map Run.period = [TimeGrid.seconds 2000001 1e9, TimeGrid.seconds 100 1e9] ∧
    generator.instructions program = .ok
      [⟨.continue, 1, 100000, 100000⟩, ⟨.continue, 1, 5, 5⟩, ⟨.stop, 0, 0, 0⟩] ∧
    (100000 + 100000) * value 1e9 ≠ 2000001 * value generator.clockFreq := by
  have run : (Pseudoclock.bare.program [stepAt 2000001] 2000101 {}).toOption.map
      (fun program => (program.runs.map Run.period,
        ((⟨"pb0", 1e8, 5, 4096⟩ : PulseGenerator).instructions program).toOption)) =
      some ([TimeGrid.seconds 2000001 1e9, TimeGrid.seconds 100 1e9],
        some [⟨.continue, 1, 100000, 100000⟩, ⟨.continue, 1, 5, 5⟩, ⟨.stop, 0, 0, 0⟩]) := by
    decide +kernel
  obtain ⟨program, made, facts⟩ := Option.map_eq_some_iff.1 run
  obtain ⟨periods, pulses⟩ := Prod.mk.inj facts
  refine ⟨⟨"pb0", 1e8, 5, 4096⟩, program, rfl, Checks.toOption_eq_some_iff.1 made, periods,
    Checks.toOption_eq_some_iff.1 pulses, ?_⟩
  rw [value_gigahertz, value_hundredMegahertz]
  norm_num

end PulseGenerator

end Metronome
