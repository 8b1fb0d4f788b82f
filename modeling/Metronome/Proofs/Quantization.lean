/-
Module: Metronome.Proofs.Quantization
Purpose: Samples that an analog card or a synthesizer accepts have codes that fit their fields, in
  exact arithmetic.
Trusted boundary: none
Main exports:
  AnalogCard.code, AnalogCard.InRange, AnalogCard.Emits, AnalogCard.Quantizes, Synthesizer.word,
  Synthesizer.InRange, Synthesizer.Emits, Synthesizer.Tunes, Card.codes_fit
-/
import Mathlib
import Metronome.Card.Analog
import Metronome.Proofs.Composites
import Metronome.Proofs.Encodable
import Metronome.Proofs.Pointwise
import Metronome.Proofs.Reading
import Metronome.Proofs.Seconds

/-!
What a card accepts and what it makes of it are separate functions, which have to agree on the range
of the samples.  They are read twice here by the formulas that both follow: in doubles they are the
functions of the card, and in rational numbers the codes of accepted samples fit their fields with
no conversion having to stop at an end of its integer type.
-/

namespace Metronome

open Reading (Inside lastCode nearest ofWord read roundAway)
open Number (value)

/-! ### Analog cards -/

namespace AnalogCard

section Formulas

variable {α : Type} [Sub α] [Mul α] [Div α] [LT α] [Reading α]

/-- The code of a voltage. -/
def code (card : AnalogCard) (voltage : α) : Int :=
  Reading.code voltage (read card.low) (read card.high) card.bits

/-- Voltages that a card can output. -/
def InRange (card : AnalogCard) (voltages : List α) : Prop :=
  Inside (read card.low) (read card.high) voltages

end Formulas

/-- The voltage that a code stands for. -/
def voltage (card : AnalogCard) (code : Int) : ℚ :=
  Reading.reconstruct (value card.low) (value card.high) card.bits code

/-- The columns that a card makes of its device are the codes of the samples, all of which are in
range. -/
def Emits (card : AnalogCard) (compiled : Compiled) : Prop :=
  ∃ device artifact, Card.sampled compiled card.name .analogCard = .ok device ∧
    card.encode compiled = .ok artifact ∧
    (∀ entry ∈ device.samples.entries, card.InRange entry.2) ∧
    artifact.datasets.entries = device.samples.entries.map fun entry =>
      (entry.1, .integers (entry.2.map card.code))

/-- How an analog card quantizes.  Valid samples are emitted as their codes, and unless some are no
numbers at all, their values are in range as well.  The other rules are those of the codes in exact
arithmetic. -/
structure Quantizes (card : AnalogCard) : Prop where
  emits : ∀ {compiled : Compiled}, card.validate compiled = .ok () → card.Emits compiled
  exact : ∀ {samples : List Float}, card.InRange samples → (∀ x ∈ samples, x.isNaN = false) →
    card.InRange (samples.map value)
  fits : ∀ {voltages : List ℚ}, card.InRange voltages → ∀ v ∈ voltages,
    0 ≤ card.code v ∧ card.code v ≤ lastCode card.bits
  unclamped : ∀ {voltages : List ℚ}, card.InRange voltages → ∀ v ∈ voltages,
    card.code v = roundAway (onScale v (value card.low) (value card.high) (lastCode card.bits))
  first : card.code (value card.low) = 0
  last : card.code (value card.high) = lastCode card.bits
  monotone : Monotone (card.code : ℚ → Int)
  onto : ∀ {code : Int}, 0 ≤ code → code ≤ lastCode card.bits →
    card.InRange [card.voltage code] ∧ card.code (card.voltage code) = code
  near : ∀ {voltages : List ℚ}, card.InRange voltages → ∀ v ∈ voltages,
    |card.voltage (card.code v) - v| ≤
      (value card.high - value card.low) / lastCode card.bits / 2

variable {card : AnalogCard} {compiled : Compiled}

theorem checkRange_eq_ok {line : ClockLine} {channel : String} {samples : List Float} :
    card.checkRange compiled line channel samples = .ok () ↔ card.InRange samples := by
  have inside : Card.outside? card.low card.high samples = none ↔ card.InRange samples :=
    Reading.outside?_eq_none
  rw [checkRange, ← inside]
  cases Card.outside? card.low card.high samples with
  | none => exact iff_of_true rfl rfl
  | some found => exact iff_of_false nofun nofun

theorem emits (valid : card.validate compiled = .ok ()) : card.Emits compiled := by
  obtain ⟨device, found, rest⟩ := Checks.bind_eq_ok.1 valid
  obtain ⟨_, -, checked⟩ := Checks.bind_eq_ok.1 rest
  -- The columns are added one by one, but have names of their own, so that none replaces another.
  have columns : card.encode compiled = .ok ((Artifact.empty card.name).extend
      (device.samples.entries.map fun entry => (entry.1, .integers (entry.2.map card.code)))) := by
    rw [encode, found, Artifact.extend, List.foldl_map]
    rfl
  refine ⟨device, _, found, columns, fun entry member =>
    checkRange_eq_ok.1 (Checks.forM_eq_ok.1 checked entry member), ?_⟩
  have distinct : device.samples.names.Nodup := device.samples.distinct
  refine Artifact.entries_extend ?_ fun _ _ => List.not_mem_nil
  rw [List.map_map]
  exact distinct

/-- A card that is created has a range and a resolution. -/
theorem create_eq_ok {name : String} {low high : Float} {bits capacity : Nat}
    (created : create name low high bits capacity = .ok card) :
    card.low.isFinite = true ∧ card.high.isFinite = true ∧ value card.low < value card.high ∧
      1 ≤ card.bits ∧ card.bits ≤ 32 := by
  rw [create] at created
  split at created
  · cases created
  · rename_i range
    split at created
    · cases created
    · rename_i resolution
      cases created
      simp only [Bool.not_eq_true', Bool.not_eq_false, Bool.and_eq_true, decide_eq_true_eq]
        at range
      obtain ⟨⟨lowFinite, highFinite⟩, less⟩ := range
      rw [not_or, not_lt] at resolution
      exact ⟨lowFinite, highFinite, (Number.lt_iff_value_of_isFinite lowFinite highFinite).1 less,
        Nat.one_le_iff_ne_zero.2 resolution.1, resolution.2⟩

theorem quantizes {name : String} {low high : Float} {bits capacity : Nat}
    (created : create name low high bits capacity = .ok card) : card.Quantizes := by
  obtain ⟨lowFinite, highFinite, range, positive, small⟩ := create_eq_ok created
  have last := Reading.lastCode_nonneg card.bits
  obtain ⟨lowest, highest⟩ := Reading.reconstruct_ends (value card.low) (value card.high) positive
  have bounds : ∀ {voltages : List ℚ}, card.InRange voltages → ∀ v ∈ voltages,
      0 ≤ card.code v ∧ card.code v ≤ lastCode card.bits ∧
        card.code v = roundAway (onScale v (value card.low) (value card.high)
          (lastCode card.bits)) := by
    intro voltages inRange v member
    obtain ⟨above, below⟩ := Reading.inside_iff.1 inRange v member
    exact Reading.code_bounds range small above below
  have onto : ∀ {code : Int}, 0 ≤ code → code ≤ lastCode card.bits →
      card.code (card.voltage code) = code :=
    Reading.code_reconstruct range positive small
  exact {
    emits := emits
    exact := fun inRange numbers => inRange.values lowFinite highFinite numbers
    fits := fun inRange v member => ⟨(bounds inRange v member).1, (bounds inRange v member).2.1⟩
    unclamped := fun inRange v member => (bounds inRange v member).2.2
    first := by
      have first := onto le_rfl last
      rwa [voltage, lowest] at first
    last := by
      have last := onto last le_rfl
      rwa [voltage, highest] at last
    monotone := fun _ _ le => Reading.code_mono range le
    onto := fun low high => by
      refine ⟨Reading.inside_iff.2 fun v member => ?_, onto low high⟩
      rw [List.mem_singleton.1 member]
      exact Reading.reconstruct_mem range positive low high
    near := fun inRange v member => by
      obtain ⟨above, below⟩ := Reading.inside_iff.1 inRange v member
      exact Reading.code_near range positive small above below }

end AnalogCard

/-! ### Synthesizers -/

namespace Synthesizer

section Formulas

variable {α : Type} [Add α] [Sub α] [Mul α] [Div α] [LT α] [DecidableLT α] [Reading α]

/-- The word of a sample of a part. -/
def word (card : Synthesizer) (part : Part) (sample : α) : Int :=
  match part with
  | .freq => Reading.toSigned (nearest
      (freqSteps sample (read card.clockFreq) (ofWord (1 <<< freqBits))))
  | .amp => Reading.code sample (read 0) (read 1) ampBits
  | .phase =>
      let steps := phaseSteps (Reading.wrap sample (read turn)) (read turn)
        (ofWord (1 <<< phaseBits))
      (Reading.toWord (nearest steps) % 1 <<< phaseBits : Nat)
  | .gate => Reading.toSigned sample

/-- Samples that are valid for a part. -/
def InRange (card : Synthesizer) (part : Part) (samples : List α) : Prop :=
  match part with
  | .freq => Inside (read 0) (read card.clockFreq / read 2) samples
  | .amp => Inside (read 0) (read 1) samples
  | .phase => Inside (read (-largest)) (read largest) samples
  | .gate => True

end Formulas

/-- The columns that a synthesizer makes of its device are the words of the samples of the composite
outputs' parts, all of which are in range. -/
def Emits (card : Synthesizer) (compiled : Compiled) : Prop :=
  ∃ device artifact, Card.sampled compiled card.name .synthesizer = .ok device ∧
    card.encode compiled = .ok artifact ∧
    (∀ {slot : Nat × Part} {samples : List Float},
      (card.latest device).lookup (some slot) = some samples → card.InRange slot.2 samples) ∧
    ∀ {column : String × Dataset}, column ∈ artifact.datasets.entries ↔
      ∃ slot samples, (card.latest device).lookup (some slot) = some samples ∧
        column = (columnName slot, .integers (samples.map (card.word slot.2)))

/-- How a synthesizer encodes.  Valid samples are emitted as their words, and unless some are no
numbers at all, their values are in range as well; for frequencies the reference clock must not be
so slow that half of it falls between the doubles.  The other rules are those of the words in exact
arithmetic. -/
structure Tunes (card : Synthesizer) : Prop where
  emits : ∀ {compiled : Compiled}, card.validate compiled = .ok () → card.Emits compiled
  exact : ∀ {part : Part} {samples : List Float}, card.InRange part samples →
    (∀ x ∈ samples, x.isNaN = false) →
    (part = .freq → 2 ^ (-1021 : Int) ≤ value card.clockFreq) →
      card.InRange part (samples.map value)
  freq : ∀ {samples : List ℚ}, card.InRange .freq samples → ∀ f ∈ samples,
    0 ≤ card.word .freq f ∧ card.word .freq f ≤ 2 ^ 31 ∧
      card.word .freq f = roundAway (f * (2 ^ 32 / value card.clockFreq))
  amp : ∀ {samples : List ℚ}, card.InRange .amp samples → ∀ a ∈ samples,
    0 ≤ card.word .amp a ∧ card.word .amp a ≤ 2 ^ 14 - 1 ∧
      card.word .amp a = roundAway (a * (2 ^ 14 - 1))
  phase : ∀ p : ℚ, 0 ≤ card.word .phase p ∧ card.word .phase p ≤ 2 ^ 16 - 1 ∧
    card.word .phase p = roundAway (Int.fract (p / value turn) * 2 ^ 16) % 2 ^ 16
  turns : ∀ (p : ℚ) (k : Int), card.word .phase (p + k * value turn) = card.word .phase p

variable {card : Synthesizer} {compiled : Compiled}

theorem dataset_eq_word (part : Part) (samples : List Float) :
    card.dataset part samples = .integers (samples.map (card.word part)) := by
  cases part <;> rfl

theorem checkPart_eq_ok {line : ClockLine} {part : String} {samples : Option (List Float)}
    {low high : Float} : card.checkPart compiled line part samples low high = .ok () ↔
      ∃ held, samples = some held ∧ Inside low high held := by
  cases samples with
  | none => exact iff_of_false nofun nofun
  | some held =>
      have inside : Card.outside? low high held = none ↔ Inside low high held :=
        Reading.outside?_eq_none
      rw [checkPart]
      simp only [Option.some.injEq, exists_eq_left', ← inside]
      cases Card.outside? low high held with
      | none => exact iff_of_true rfl rfl
      | some found => exact iff_of_false nofun nofun

/-- The parts of a checked composite output are in range. -/
theorem inRange_of_checkOutput {line : ClockLine} {output : Nat × Composite}
    (checked : card.checkOutput compiled line output = .ok ()) {part : Part}
    {samples : List Float} (held : output.2.get part = some samples) :
    card.InRange part samples := by
  obtain ⟨_, freq, rest⟩ := Checks.bind_eq_ok.1 checked
  obtain ⟨_, amp, phase⟩ := Checks.bind_eq_ok.1 rest
  obtain ⟨freqs, hasFreqs, freqInside⟩ := checkPart_eq_ok.1 freq
  obtain ⟨amps, hasAmps, ampInside⟩ := checkPart_eq_ok.1 amp
  obtain ⟨phases, hasPhases, phaseInside⟩ := checkPart_eq_ok.1 phase
  cases part with
  | freq => cases hasFreqs.symm.trans held; exact freqInside
  | amp => cases hasAmps.symm.trans held; exact ampInside
  | phase => cases hasPhases.symm.trans held; exact phaseInside
  | gate => trivial

theorem emits (valid : card.validate compiled = .ok ()) : card.Emits compiled := by
  obtain ⟨artifact, encoded⟩ := encodes valid
  obtain ⟨device, found, rest⟩ := Checks.bind_eq_ok.1 valid
  obtain ⟨_, -, rest⟩ := Checks.bind_eq_ok.1 rest
  obtain ⟨outputs, gathered, checked⟩ := Checks.bind_eq_ok.1 rest
  refine ⟨device, artifact, found, encoded, fun latest => ?_, fun {column} => ?_⟩
  · obtain ⟨composite, member, held⟩ := (part_of_outputs gathered).2 latest
    exact inRange_of_checkOutput (Checks.forM_eq_ok.1 checked _ member) held
  · simp only [mem_entries_of_encode found encoded, dataset_eq_word]

/-- A synthesizer that is created has a positive reference clock. -/
theorem create_eq_ok {name : String} {clockFreq : Float} {capacity : Nat}
    (created : create name clockFreq capacity = .ok card) :
    Number.Nonnegative card.clockFreq ∧ 0 < value card.clockFreq := by
  rw [create] at created
  split at created
  · rename_i clock
    cases created
    rw [Bool.and_eq_true, decide_eq_true_eq] at clock
    exact Number.nonnegative_of_pos clock.1 clock.2
  · cases created

theorem value_turn_pos : 0 < value turn :=
  (Number.nonnegative_of_pos (by decide +kernel) (by decide +kernel)).2

theorem ofWord_shift (bits : Nat) : (ofWord (1 <<< bits) : ℚ) = 2 ^ bits := by
  have word : ((1 <<< bits : Nat) : ℚ) = 2 ^ bits := by
    rw [Nat.one_shiftLeft]
    push_cast
    rfl
  exact word

/-- The word of a frequency up to half of the reference clock. -/
theorem freq_word {f : ℚ} (pos : 0 < value card.clockFreq) (above : 0 ≤ f)
    (below : f ≤ value card.clockFreq / 2) :
    0 ≤ card.word .freq f ∧ card.word .freq f ≤ 2 ^ 31 ∧
      card.word .freq f = roundAway (f * (2 ^ 32 / value card.clockFreq)) := by
  have unfolded : card.word .freq f = Reading.saturate (Reading.truncate
      (roundAway (f * (ofWord (1 <<< 32) / value card.clockFreq)) : ℚ)) := rfl
  have first : 0 ≤ f * (2 ^ 32 / value card.clockFreq) := by positivity
  have last : f * (2 ^ 32 / value card.clockFreq) ≤ ((2 ^ 31 : Int) : ℚ) := by
    calc f * (2 ^ 32 / value card.clockFreq)
        ≤ value card.clockFreq / 2 * (2 ^ 32 / value card.clockFreq) := by gcongr
      _ = ((2 ^ 31 : Int) : ℚ) := by
          push_cast
          field_simp
          norm_num
  obtain ⟨low, high⟩ := Reading.roundAway_mem first last
  rw [unfolded, ofWord_shift, Reading.truncate_intCast,
    Reading.saturate_eq_self low (high.trans_lt (by norm_num))]
  exact ⟨low, high, rfl⟩

/-- The word of an amplitude up to the full one. -/
theorem amp_word {a : ℚ} (above : 0 ≤ a) (below : a ≤ 1) :
    0 ≤ card.word .amp a ∧ card.word .amp a ≤ 2 ^ 14 - 1 ∧
      card.word .amp a = roundAway (a * (2 ^ 14 - 1)) := by
  have unfolded : card.word .amp a = Reading.code a (value 0) (value 1) ampBits := rfl
  have place : onScale a 0 1 (lastCode ampBits : ℚ) = a * (2 ^ 14 - 1) := by
    rw [onScale, lastCode, ampBits]
    push_cast
    ring
  obtain ⟨low, high, rounded⟩ :=
    Reading.code_bounds zero_lt_one (by decide : ampBits ≤ 32) above below
  rw [unfolded, Number.value_zero, Number.value_one]
  exact ⟨low, high, rounded.trans (congrArg roundAway place)⟩

/-- The word of a phase.  What is rounded up to a whole turn has the word of none. -/
theorem phase_word (p : ℚ) : 0 ≤ card.word .phase p ∧ card.word .phase p ≤ 2 ^ 16 - 1 ∧
    card.word .phase p = roundAway (Int.fract (p / value turn) * 2 ^ 16) % 2 ^ 16 := by
  have unfolded : card.word .phase p = ((min (2 ^ 64 - 1) (Reading.truncate (roundAway
      (Reading.wrap p (value turn) / value turn * ofWord (1 <<< 16)) : ℚ))).toNat % 2 ^ 16 : Nat) :=
    rfl
  have fraction := Int.fract_nonneg (p / value turn)
  have first : 0 ≤ Int.fract (p / value turn) * 2 ^ 16 := by positivity
  have last : Int.fract (p / value turn) * 2 ^ 16 ≤ ((2 ^ 16 : Int) : ℚ) := by
    push_cast
    exact mul_le_of_le_one_left (by norm_num) (Int.fract_lt_one _).le
  obtain ⟨low, high⟩ := Reading.roundAway_mem first last
  rw [unfolded, Reading.wrap_div value_turn_pos, ofWord_shift, Reading.truncate_intCast]
  generalize roundAway (Int.fract (p / value turn) * 2 ^ 16) = steps at low high ⊢
  omega

theorem tunes {name : String} {clockFreq : Float} {capacity : Nat}
    (created : create name clockFreq capacity = .ok card) : card.Tunes := by
  obtain ⟨nonneg, pos⟩ := create_eq_ok created
  exact {
    emits := emits
    exact := fun {part samples} inRange numbers normal => by
      cases part with
      | freq =>
          obtain ⟨finite, half⟩ := Number.value_half nonneg (normal rfl)
          have inside := Reading.Inside.values (by decide) finite inRange numbers
          rw [half, ← Number.value_two] at inside
          exact inside
      | amp => exact Reading.Inside.values (by decide) (by decide) inRange numbers
      | phase => exact Reading.Inside.values (by decide) (by decide) inRange numbers
      | gate => trivial
    freq := fun inRange f member => by
      obtain ⟨above, below⟩ := Reading.inside_iff.1 inRange f member
      rw [Reading.read_zero] at above
      rw [Reading.read_two] at below
      exact freq_word pos above below
    amp := fun inRange a member => by
      obtain ⟨above, below⟩ := Reading.inside_iff.1 inRange a member
      rw [Reading.read_zero] at above
      rw [Reading.read_one] at below
      exact amp_word above below
    phase := phase_word
    turns := fun p k => by
      rw [(phase_word _).2.2, (phase_word p).2.2, add_div,
        mul_div_cancel_right₀ _ value_turn_pos.ne', Int.fract_add_intCast] }

end Synthesizer

/-- Compiled samples are numbers. -/
theorem Experiment.isNaN_of_compile {experiment : Experiment} {stop : Option Float}
    {compiled : Compiled} {name : String} {device : SampledDevice}
    (made : experiment.compile stop = .ok compiled) (lookup : compiled.device name = .ok device)
    {entry : String × List Float} (member : entry ∈ device.samples.entries) :
    ∀ x ∈ entry.2, x.isNaN = false := by
  obtain ⟨found, -, sampled⟩ := compile_device made lookup
  obtain ⟨samples, traversed, rfl⟩ := sampleDevice_eq_ok.1 sampled
  obtain ⟨channel, -, values⟩ := Registry.mem_traverse traversed member
  exact fun x among => Number.isNaN_of_isFinite (Output.canProduce_of_samples values x among).1

/-- Valid samples have codes that fit their fields in exact arithmetic, on every analog card and
every synthesizer that can be created.  What is compiled has no samples but numbers, so that the
samples are valid in exact arithmetic, too. -/
theorem Card.codes_fit :
    (∀ {name : String} {low high : Float} {bits capacity : Nat} {card : AnalogCard},
      AnalogCard.create name low high bits capacity = .ok card → card.Quantizes) ∧
    (∀ {name : String} {clockFreq : Float} {capacity : Nat} {card : Synthesizer},
      Synthesizer.create name clockFreq capacity = .ok card → card.Tunes) ∧
    ∀ {experiment : Experiment} {stop : Option Float} {compiled : Compiled} {name : String}
      {device : SampledDevice}, experiment.compile stop = .ok compiled →
        compiled.device name = .ok device → ∀ entry ∈ device.samples.entries,
          ∀ x ∈ entry.2, x.isNaN = false :=
  ⟨AnalogCard.quantizes, Synthesizer.tunes, fun made lookup _ member =>
    Experiment.isNaN_of_compile made lookup member⟩

/-- A session that goes to an end of each range: ten volts, half of a reference clock of one
gigahertz, the full amplitude and a phase a little below a whole turn. -/
def rangeEnds : List Command :=
  [.addDevice "volts" .analogCard .fast, .addAnalogChannel "volts" 0 (-10),
    .constant "volts" "ao0" 1e-3 10, .addDevice "tones" .synthesizer .fast,
    .addComposite "tones" 0 true, .setComposite "tones" 0 1e-3 5e8 1 6.283185]

/-- The cards of the session and what it is compiled to, if they are valid. -/
def rangeEndCards : Except Fault (AnalogCard × Synthesizer × Experiment × Compiled) := do
  let new ← Experiment.create "clock" 1e-7 {}
  let experiment := new.session rangeEnds
  let compiled ← experiment.compile none
  let analog ← AnalogCard.create "volts" (-10) 10 16 4096
  let synthesizer ← Synthesizer.create "tones" 1e9 4096
  analog.validate compiled
  synthesizer.validate compiled
  return (analog, synthesizer, experiment, compiled)

/-- Both cards accept the session, and their codes fit. -/
theorem rangeEnds_codes_fit : ∃ analog synthesizer experiment compiled device,
    AnalogCard.create "volts" (-10) 10 16 4096 = .ok analog ∧
      Synthesizer.create "tones" 1e9 4096 = .ok synthesizer ∧
      (experiment : Experiment).compile none = .ok compiled ∧
      analog.validate compiled = .ok () ∧ synthesizer.validate compiled = .ok () ∧
      compiled.device "volts" = .ok device ∧ analog.Quantizes ∧ synthesizer.Tunes ∧
      ∀ entry ∈ device.samples.entries, ∀ x ∈ entry.2, x.isNaN = false := by
  obtain ⟨_, run⟩ := Checks.isOk_iff.1 (by decide +kernel : rangeEndCards.isOk = true)
  obtain ⟨new, started, run⟩ := Checks.bind_eq_ok.1 run
  obtain ⟨compiled, made, run⟩ := Checks.bind_eq_ok.1 run
  obtain ⟨analog, analogMade, run⟩ := Checks.bind_eq_ok.1 run
  obtain ⟨synthesizer, synthesizerMade, run⟩ := Checks.bind_eq_ok.1 run
  obtain ⟨_, analogValid, run⟩ := Checks.bind_eq_ok.1 run
  obtain ⟨_, synthesizerValid, -⟩ := Checks.bind_eq_ok.1 run
  obtain ⟨device, found, -⟩ := Checks.bind_eq_ok.1 analogValid
  obtain ⟨quantizes, tunes, numbers⟩ := Card.codes_fit
  have lookup : compiled.device "volts" = .ok device := by
    cases analogMade
    exact (Card.sampled_eq_ok.1 found).1
  exact ⟨analog, synthesizer, _, compiled, device, analogMade, synthesizerMade, made, analogValid,
    synthesizerValid, lookup, quantizes analogMade, tunes synthesizerMade, numbers made lookup⟩

end Metronome
