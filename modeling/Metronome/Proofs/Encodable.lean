/-
Module: Metronome.Proofs.Encodable
Purpose: A valid device can be encoded, unless two channels of a digital device are the same line of
  the same port.
Trusted boundary: none
Main exports:
  Card.Accepted, Card.LinesDistinct, DigitalCard.encodes_iff, Synthesizer.encodes,
  Card.exists_encode_iff
-/
import Metronome.Card
import Metronome.Proofs.Compilation
import Metronome.Proofs.Lines
import Metronome.Proofs.Packing
import Metronome.Proofs.Session

/-!
Validation and encoding gather the channels in the same way, so that a device that is valid has been
gathered.  Then an analog card quantises any sample, and a synthesizer finds the parts that were
looked for before.  A digital card packs the lines of each port; their lengths and bits have been
checked, but not that the bits are distinct.  Since `port0/line0` and `port00/line0` are both names
of the first line of the first port, they need not be.
-/

namespace Metronome

/-- The cards that are made by their checked constructors. -/
inductive Card.Accepted : Card → Prop where
  | pulse {name : String} {clockFreq : Float} {generator : PulseGenerator}
      (made : PulseGenerator.create name clockFreq = .ok generator) : Accepted (.pulse generator)
  | limited {name : String} {clockFreq : Float} {generator : PulseGenerator}
      (made : PulseGenerator.create name clockFreq = .ok generator)
      (minHalfPeriod maxInstructions : Nat) :
      Accepted (.pulse (generator.withLimits minHalfPeriod maxInstructions))
  | analog {name : String} {low high : Float} {bits capacity : Nat} {card : AnalogCard}
      (made : AnalogCard.create name low high bits capacity = .ok card) : Accepted (.analog card)
  | digital {name : String} {portWidth capacity : Nat} {card : DigitalCard}
      (made : DigitalCard.create name portWidth capacity = .ok card) : Accepted (.digital card)
  | synthesizer {name : String} {clockFreq : Float} {capacity : Nat} {card : Synthesizer}
      (made : Synthesizer.create name clockFreq capacity = .ok card) : Accepted (.synthesizer card)

/-- No two channels of a digital card's device have the same port and line numbers in their
names. -/
def Card.LinesDistinct (compiled : Compiled) : Card → Prop
  | .digital card => ∀ device, compiled.device card.name = .ok device →
      ∀ first ∈ device.samples.names, ∀ second ∈ device.samples.names,
        ChannelName.lineNumbers first = ChannelName.lineNumbers second → first = second
  | _ => True

variable {experiment : Experiment} {stop : Option Float} {compiled : Compiled}

theorem PulseGenerator.encodes {generator : PulseGenerator}
    (valid : generator.validate compiled = .ok ()) :
    ∃ artifact, generator.encode compiled = .ok artifact := by
  have made : ∃ instructions, generator.instructions compiled.program = .ok instructions := by
    rw [validate] at valid
    split at valid
    · cases valid
    · obtain ⟨instructions, made, -⟩ := Checks.bind_eq_ok.1 valid
      exact ⟨instructions, made⟩
  obtain ⟨instructions, made⟩ := made
  rw [encode, made]
  exact ⟨_, rfl⟩

theorem AnalogCard.encodes {card : AnalogCard} (valid : card.validate compiled = .ok ()) :
    ∃ artifact, card.encode compiled = .ok artifact := by
  obtain ⟨device, found, -⟩ := Checks.bind_eq_ok.1 valid
  rw [encode, found]
  exact ⟨_, rfl⟩

namespace Synthesizer

variable {card : Synthesizer}

/-- A part that is checked is there. -/
theorem isSome_of_checkPart {line : ClockLine} {part : String} {samples : Option (List Float)}
    {low high : Float} (checked : card.checkPart compiled line part samples low high = .ok ()) :
    samples.isSome = true := by
  cases samples with
  | none => cases checked
  | some samples => rfl

/-- A composite output that has all its analog parts can be added to any artifact. -/
theorem exists_addOutput_iff (artifact : Artifact) (output : Nat × Composite) :
    (∃ next, card.addOutput artifact output = .ok next) ↔
      output.2.freq.isSome ∧ output.2.amp.isSome ∧ output.2.phase.isSome := by
  obtain ⟨id, freq, amp, phase, gate⟩ := output
  rw [addOutput]
  cases freq <;> cases amp <;> cases phase <;> cases gate <;> simp

/-- A synthesizer whose device is valid can encode it. -/
theorem encodes (valid : card.validate compiled = .ok ()) :
    ∃ artifact, card.encode compiled = .ok artifact := by
  obtain ⟨device, found, rest⟩ := Checks.bind_eq_ok.1 valid
  obtain ⟨_, -, rest⟩ := Checks.bind_eq_ok.1 rest
  obtain ⟨outputs, gathered, checked⟩ := Checks.bind_eq_ok.1 rest
  have complete : ∀ output ∈ outputs,
      output.2.freq.isSome ∧ output.2.amp.isSome ∧ output.2.phase.isSome := by
    intro output member
    have passes := Checks.forM_eq_ok.1 checked output member
    obtain ⟨_, freq, rest⟩ := Checks.bind_eq_ok.1 passes
    obtain ⟨_, amp, phase⟩ := Checks.bind_eq_ok.1 rest
    exact ⟨isSome_of_checkPart freq, isSome_of_checkPart amp, isSome_of_checkPart phase⟩
  obtain ⟨artifact, made⟩ :=
    (Checks.foldlM_isOk_iff exists_addOutput_iff outputs (.empty card.name)).2 complete
  exact ⟨artifact, Checks.bind_eq_ok.2 ⟨device, found,
    Checks.bind_eq_ok.2 ⟨outputs, gathered, made⟩⟩⟩

end Synthesizer

namespace DigitalCard

variable {card : DigitalCard}

/-- The width of the ports of a card is that of a word. -/
theorem width_of_create {name : String} {portWidth capacity : Nat}
    (made : create name portWidth capacity = .ok card) :
    card.portWidth ≠ 0 ∧ card.portWidth ≤ Packing.widest := by
  rw [create] at made
  split at made
  · cases made
  · cases made
    dsimp only
    omega

theorem exists_addPort_iff (artifact : Artifact) (port : Nat × List Packing.Line) :
    (∃ next, card.addPort artifact port = .ok next) ↔
      ∃ words, Packing.pack port.2 card.portWidth = .ok words := by
  rw [addPort]
  cases Packing.pack port.2 card.portWidth <;> simp [bind, Except.bind, pure, Except.pure]

/-- A digital card whose device is valid can encode it exactly if no two channels are the same line
of the same port. -/
theorem encodes_iff (made : experiment.compile stop = .ok compiled) {name : String}
    {portWidth capacity : Nat} (accepted : create name portWidth capacity = .ok card)
    (valid : card.validate compiled = .ok ()) :
    (∃ artifact, card.encode compiled = .ok artifact) ↔
      (Card.digital card).LinesDistinct compiled := by
  obtain ⟨device, found, rest⟩ := Checks.bind_eq_ok.1 valid
  obtain ⟨_, -, rest⟩ := Checks.bind_eq_ok.1 rest
  obtain ⟨ports, gathers, -⟩ := Checks.bind_eq_ok.1 rest
  have lookup := (Card.sampled_eq_ok.1 found).1
  have gathered := ports_gathered gathers
  obtain ⟨positive, narrow⟩ := width_of_create accepted
  have packs : ∀ port ∈ ports, (∃ words, Packing.pack port.2 card.portWidth = .ok words) ↔
      (port.2.map Packing.Line.bit).Nodup := by
    intro port member
    have even : ∀ line ∈ port.2,
        line.samples.length = (compiled.program.lineTicks device.line).length := by
      intro line lineIn
      obtain ⟨-, entry, entryIn, levels⟩ := gathered.lines port member line lineIn
      rw [levels, Packing.levels, List.length_map]
      exact Experiment.compile_length made lookup entryIn
    exact Packing.pack_isOk_iff positive narrow even fun line lineIn =>
      (gathered.lines port member line lineIn).1
  have names : (device.samples.entries.map fun entry => ChannelName.lineNumbers entry.1) =
      device.samples.names.map ChannelName.lineNumbers := by
    rw [Registry.names, List.map_map]
    rfl
  have encodes : (∃ artifact, card.encode compiled = .ok artifact) ↔
      ∃ artifact, ports.foldlM card.addPort (.empty card.name) = .ok artifact := by
    rw [encode, found]
    change (∃ artifact, (card.ports device >>= _) = _) ↔ _
    rw [gathers]
    rfl
  have distinctNames : device.samples.names.Nodup := device.samples.distinct
  rw [encodes, Checks.foldlM_isOk_iff exists_addPort_iff, forall₂_congr packs,
    gathered.distinct_iff, names, List.nodup_map_iff_inj_on distinctNames]
  constructor
  · intro distinct other otherLookup
    rw [lookup] at otherLookup
    cases otherLookup
    exact distinct
  · intro distinct
    exact distinct device lookup

end DigitalCard

/-- A valid device can be encoded, exactly if no two channels of a digital device are the same line
of the same port. -/
theorem Card.exists_encode_iff (made : experiment.compile stop = .ok compiled) {card : Card}
    (accepted : card.Accepted) (valid : card.validate compiled = .ok ()) :
    (∃ artifact, card.encode compiled = .ok artifact) ↔ card.LinesDistinct compiled := by
  cases accepted with
  | pulse => exact iff_of_true (PulseGenerator.encodes valid) trivial
  | limited => exact iff_of_true (PulseGenerator.encodes valid) trivial
  | analog => exact iff_of_true (AnalogCard.encodes valid) trivial
  | digital created => exact DigitalCard.encodes_iff made created valid
  | synthesizer => exact iff_of_true (Synthesizer.encodes valid) trivial

/-- A session that registers two channels of a digital device by their names. -/
def twoLines (first second : String) : List Command :=
  [.addDevice "gates" .digitalCard .fast, .addChannel "gates" first 0,
    .addChannel "gates" second 0]

/-- A digital card with ports of eight lines. -/
def eightLines : DigitalCard := ⟨"gates", 8, 4096⟩

/-- Two lines of one port are valid and encoded, and they are distinct. -/
theorem twoLines_encoded : ∃ new compiled artifact,
    Experiment.create "clock" 1e-7 {} = .ok new ∧
      (new.session (twoLines "port0/line0" "port0/line1")).compile none = .ok compiled ∧
      (Card.digital eightLines).Accepted ∧
      (Card.digital eightLines).validate compiled = .ok () ∧
      (Card.digital eightLines).encode compiled = .ok artifact ∧
      (Card.digital eightLines).LinesDistinct compiled := by
  have runs : (do
      let new ← Experiment.create "clock" 1e-7 {}
      let compiled ← (new.session (twoLines "port0/line0" "port0/line1")).compile none
      (Card.digital eightLines).validate compiled
      (Card.digital eightLines).encode compiled : Except Fault Artifact).isOk = true := by
    decide +kernel
  obtain ⟨artifact, runs⟩ := Checks.isOk_iff.1 runs
  obtain ⟨new, created, runs⟩ := Checks.bind_eq_ok.1 runs
  obtain ⟨compiled, made, runs⟩ := Checks.bind_eq_ok.1 runs
  obtain ⟨_, valid, encoded⟩ := Checks.bind_eq_ok.1 runs
  have accepted : (Card.digital eightLines).Accepted :=
    .digital (rfl : DigitalCard.create "gates" 8 4096 = .ok eightLines)
  exact ⟨new, compiled, artifact, created, made, accepted, valid, encoded,
    (Card.exists_encode_iff made accepted valid).1 ⟨artifact, encoded⟩⟩

/-- Two names of the same line are both registered, and valid, but cannot be encoded. -/
theorem sameLine_not_encoded : ∃ new compiled,
    Experiment.create "clock" 1e-7 {} = .ok new ∧
      (new.session (twoLines "port0/line0" "port00/line0")).compile none = .ok compiled ∧
      (Card.digital eightLines).Accepted ∧
      (Card.digital eightLines).validate compiled = .ok () ∧
      (Card.digital eightLines).encode compiled = .error (.packing (.bitTaken 0)) := by
  have runs : (match (do
      let new ← Experiment.create "clock" 1e-7 {}
      let compiled ← (new.session (twoLines "port0/line0" "port00/line0")).compile none
      (Card.digital eightLines).validate compiled
      return (Card.digital eightLines).encode compiled : Except Fault (Except Fault Artifact)) with
    | .ok (.error (.packing (.bitTaken bit))) => some bit
    | _ => none) = some 0 := by decide +kernel
  split at runs
  · rename_i bit stages
    cases runs
    obtain ⟨new, created, stages⟩ := Checks.bind_eq_ok.1 stages
    obtain ⟨compiled, made, stages⟩ := Checks.bind_eq_ok.1 stages
    obtain ⟨_, valid, refused⟩ := Checks.bind_eq_ok.1 stages
    exact ⟨new, compiled, created, made,
      .digital (rfl : DigitalCard.create "gates" 8 4096 = .ok eightLines), valid,
      Except.ok.inj refused⟩
  · cases runs

end Metronome
