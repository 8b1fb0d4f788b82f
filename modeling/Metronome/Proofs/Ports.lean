/-
Module: Metronome.Proofs.Ports
Purpose: The words of a digital card hold the levels of every channel, and nothing else.
Trusted boundary: none
Main exports:
  DigitalCard.PortsOf, DigitalCard.portsOf_ports, DigitalCard.PortHolds,
  DigitalCard.encode_lossless
-/
import Mathlib
import Metronome.Proofs.Artifact
import Metronome.Proofs.Encodable
import Metronome.Proofs.Grouping
import Metronome.Proofs.Hex
import Metronome.Proofs.Numbering
import Metronome.Proofs.Packing

/-!
Channels are read one by one, as a port and a line with levels, and gathered under their ports; then
each port is packed, written twice, and stored in two columns.  No step loses a channel: the lines of
a port are those of the channels with its number, words give back the lines they were packed from,
and the columns of different ports have different names.
-/

namespace Metronome.DigitalCard

open Packing (Line)

variable {card : DigitalCard} {device : SampledDevice} {ports : List (Nat × List Line)}
  {entry : String × List Float} {port : Nat} {lines : List Line}

/-! ### Ports -/

/-- What the ports have to do with the channels: each port is there once, in order, if a channel has
its number, with the lines of those channels, which the card has. -/
structure PortsOf (card : DigitalCard) (device : SampledDevice) (ports : List (Nat × List Line)) :
    Prop where
  increasing : ports.Pairwise fun first second => first.1 < second.1
  occupied : ∀ port, port ∈ ports.map Prod.fst ↔
    ∃ channel ∈ device.samples.names, ∃ line, ChannelName.lineNumbers channel = .ok (port, line)
  lines : ∀ port lines, (port, lines) ∈ ports → ∀ line, line ∈ lines ↔
    ∃ entry ∈ device.samples.entries, ChannelName.lineNumbers entry.1 = .ok (port, line.bit) ∧
      line.samples = Packing.levels entry.2
  inside : ∀ channel ∈ device.samples.names, ∃ port line,
    ChannelName.lineNumbers channel = .ok (port, line) ∧ line < card.portWidth

/-- Lines that are appended one after the other are all there. -/
theorem foldl_append_singleton (lines : List Line) :
    lines.foldl (fun lines line => lines ++ [line]) [] = lines := by
  induction lines using List.reverseRecOn with
  | nil => rfl
  | append_singleton lines line ih => rw [List.foldl_append, ih, List.foldl_cons, List.foldl_nil]

/-- The ports of a device are those of its channels. -/
theorem portsOf_ports (made : card.ports device = .ok ports) : card.PortsOf device ports := by
  obtain ⟨items, read, rfl⟩ := ports_eq_ok.1 made
  have all := Checks.mapM_isOk_iff.1 ⟨items, read⟩
  have lines : ∀ port line, (port, line) ∈ items ↔ ∃ entry ∈ device.samples.entries,
      ChannelName.lineNumbers entry.1 = .ok (port, line.bit) ∧ line.bit < card.portWidth ∧
        line.samples = Packing.levels entry.2 := by
    intro port line
    simp only [Checks.mem_of_mapM read, readLine_eq_ok]
  have each : ∀ channel ∈ device.samples.names, ∃ port line,
      ChannelName.lineNumbers channel = .ok (port, line) ∧ line < card.portWidth := by
    intro channel member
    obtain ⟨samples, registered⟩ := Registry.mem_names_iff.1 member
    obtain ⟨item, made⟩ := all _ registered
    obtain ⟨numbers, inside, -⟩ := readLine_eq_ok.1 made
    exact ⟨_, _, numbers, inside⟩
  refine ⟨Grouping.gather_increasing, fun port => ?_, fun port group member line => ?_, each⟩
  · have grouped : port ∈ (Grouping.gather [] (fun lines line => lines ++ [line]) items).map Prod.fst ↔
        port ∈ items.map Prod.fst := by
      simp only [List.mem_map, Prod.exists, exists_and_right, exists_eq_right, Grouping.mem_gather]
    rw [grouped]
    constructor
    · intro held
      obtain ⟨⟨port, line⟩, member, rfl⟩ := List.mem_map.1 held
      obtain ⟨entry, registered, numbers, -⟩ := (lines port line).1 member
      exact ⟨entry.1, List.mem_map_of_mem registered, line.bit, numbers⟩
    · rintro ⟨channel, member, line, numbers⟩
      obtain ⟨samples, registered⟩ := Registry.mem_names_iff.1 member
      obtain ⟨otherPort, other, sameNumbers, inside⟩ := each channel member
      rw [numbers] at sameNumbers
      cases sameNumbers
      exact List.mem_map.2 ⟨(port, ⟨line, Packing.levels samples⟩),
        (lines port _).2 ⟨_, registered, numbers, inside, rfl⟩, rfl⟩
  · obtain ⟨-, rfl⟩ := Grouping.mem_gather.1 member
    rw [foldl_append_singleton, Grouping.mem_share, lines]
    constructor
    · rintro ⟨entry, registered, numbers, -, samples⟩
      exact ⟨entry, registered, numbers, samples⟩
    · rintro ⟨entry, registered, numbers, samples⟩
      obtain ⟨otherPort, other, sameNumbers, inside⟩ :=
        each entry.1 (List.mem_map_of_mem registered)
      rw [numbers] at sameNumbers
      cases sameNumbers
      exact ⟨entry, registered, numbers, inside, samples⟩

/-! ### Columns -/

/-- The columns of a port. -/
def portColumns (card : DigitalCard) (port : Nat × List Line) :
    Except Fault (List (String × Dataset)) :=
  (fun words =>
    [(portName port.1 ++ "/hex", .hex (words.map (Text.hexWord ((card.portWidth + 3) / 4)))),
      (portName port.1, .words words)]) <$> Packing.pack port.2 card.portWidth

theorem addPort_eq_extend (artifact : Artifact) (port : Nat × List Line) :
    card.addPort artifact port = artifact.extend <$> card.portColumns port := by
  rw [addPort, portColumns]
  cases Packing.pack port.2 card.portWidth <;> rfl

/-- The names of the columns of a port. -/
def columnNames (port : Nat) : List String :=
  [portName port ++ "/hex", portName port]

theorem mem_columnNames {column : String} :
    column ∈ columnNames port ↔ column = portName port ∨ column = portName port ++ "/hex" := by
  simp [columnNames, or_comm]

/-- A column is of one port only. -/
theorem columnNames_disjoint {other : Nat} {column : String} (first : column ∈ columnNames port)
    (second : column ∈ columnNames other) : port = other := by
  have plain : ∀ c ∈ "".toList.head?, Text.isDecimalDigit c = false := by simp
  have slash : ∀ c ∈ "/hex".toList.head?, Text.isDecimalDigit c = false := by
    simpa using ChannelName.isDecimalDigit_slash
  have spelled : ∀ {port}, column ∈ columnNames port → ∃ rest : String,
      (∀ c ∈ rest.toList.head?, Text.isDecimalDigit c = false) ∧
        column = "port" ++ toString port ++ rest := by
    intro port member
    rcases mem_columnNames.1 member with rfl | rfl
    · exact ⟨"", plain, by simp [portName]⟩
    · exact ⟨"/hex", slash, rfl⟩
  obtain ⟨rest, ends, rfl⟩ := spelled first
  obtain ⟨otherRest, otherEnds, same⟩ := spelled second
  exact (ChannelName.numbered_injective ends otherEnds same).1

theorem columnNames_nodup (port : Nat) : (columnNames port).Nodup := by
  simp [columnNames]

/-- The columns of a card are those of its ports. -/
theorem encode_eq_ok {compiled : Compiled} {artifact : Artifact} :
    card.encode compiled = .ok artifact ↔ ∃ device ports blocks,
      Card.sampled compiled card.name .digitalCard = .ok device ∧ card.ports device = .ok ports ∧
        ports.mapM card.portColumns = .ok blocks ∧
        artifact = (Artifact.empty card.name).extend blocks.flatten := by
  simp only [encode, Checks.bind_eq_ok, Artifact.foldlM_extend addPort_eq_extend]
  constructor
  · rintro ⟨device, found, ports, gathered, blocks, made, rfl⟩
    exact ⟨device, ports, blocks, found, gathered, made, rfl⟩
  · rintro ⟨device, ports, blocks, found, gathered, made, rfl⟩
    exact ⟨device, found, ports, gathered, blocks, made, rfl⟩

/-- The columns of an artifact are those of its ports, each with a name of its own. -/
theorem entries_columns {blocks : List (List (String × Dataset))}
    (increasing : ports.Pairwise fun first second => first.1 < second.1)
    (made : ports.mapM card.portColumns = .ok blocks) :
    ((Artifact.empty card.name).extend blocks.flatten).datasets.entries = blocks.flatten ∧
      blocks.flatten.map Prod.fst = ports.flatMap fun port => columnNames port.1 := by
  have names : blocks.flatten.map Prod.fst = ports.flatMap fun port => columnNames port.1 := by
    have each : ∀ port block, card.portColumns port = .ok block →
        block.map Prod.fst = columnNames port.1 := by
      intro port block packed
      obtain ⟨words, -, rfl⟩ := Checks.map_eq_ok.1 packed
      rfl
    rw [List.map_flatten, Checks.map_of_mapM each made, List.flatMap_def]
  have distinct : (blocks.flatten.map Prod.fst).Nodup := by
    rw [names, List.nodup_flatMap]
    refine ⟨fun port _ => columnNames_nodup port.1, increasing.imp ?_⟩
    intro first second less column inFirst inSecond
    exact absurd (columnNames_disjoint inFirst inSecond) (Nat.ne_of_lt less)
  exact ⟨Artifact.entries_extend distinct fun _ _ => List.not_mem_nil, names⟩

/-! ### What the columns hold -/

/-- What the columns of a port hold: one word for each tick, in which each channel of the port is
found at its bit, and all other bits are zero, spelled in as many digits as the port's lines need. -/
structure PortHolds (card : DigitalCard) (device : SampledDevice) (ticks port : Nat)
    (words : List Nat) (texts : List String) : Prop where
  count : words.length = ticks
  lines : ∀ entry ∈ device.samples.entries, ∀ line,
    ChannelName.lineNumbers entry.1 = .ok (port, line) →
      Packing.unpack words line = .ok (Packing.levels entry.2)
  clear : ∀ bit, (∀ channel ∈ device.samples.names,
    ChannelName.lineNumbers channel ≠ .ok (port, bit)) → ∀ word ∈ words, word.testBit bit = false
  spelled : List.Forall₂ (fun text word =>
    text.length = card.portWidth ⌈/⌉ 4 ∧ Text.hexValue? text = some word) texts words

variable {experiment : Experiment} {stop : Option Float} {compiled : Compiled}
  {artifact : Artifact}

/-- The words that hold the lines of a port hold its channels. -/
theorem portHolds_of_packs {words : List Nat} {ticks : Nat} (portsOf : card.PortsOf device ports)
    (member : (port, lines) ∈ ports) (wide : card.portWidth ≠ 0 ∧ card.portWidth ≤ Packing.widest)
    (even : ∀ entry ∈ device.samples.entries, entry.2.length = ticks)
    (packs : Packing.Packs lines card.portWidth words) :
    card.PortHolds device ticks port words
      (words.map (Text.hexWord ((card.portWidth + 3) / 4))) := by
  have inLines := portsOf.lines port lines member
  have exists_line : ∃ line, line ∈ lines := by
    obtain ⟨channel, channelIn, line, numbers⟩ :=
      (portsOf.occupied port).1 (List.mem_map_of_mem member)
    obtain ⟨samples, registered⟩ := Registry.mem_names_iff.1 channelIn
    exact ⟨⟨line, Packing.levels samples⟩, (inLines _).2 ⟨_, registered, numbers, rfl⟩⟩
  refine ⟨?_, fun entry registered line numbers => ?_, fun bit free => ?_, ?_⟩
  · obtain ⟨line, lineIn⟩ := exists_line
    have lengths : ∀ line ∈ lines, line.samples.length = ticks := by
      intro line lineIn
      obtain ⟨entry, registered, -, samples⟩ := (inLines line).1 lineIn
      rw [samples, Packing.levels, List.length_map, even entry registered]
    rw [packs.count, Packing.sampleCount_eq lengths lineIn]
  · obtain ⟨otherPort, other, sameNumbers, inside⟩ :=
      portsOf.inside entry.1 (List.mem_map_of_mem registered)
    rw [numbers] at sameNumbers
    cases sameNumbers
    exact packs.unpack ((inLines ⟨line, _⟩).2 ⟨entry, registered, numbers, rfl⟩)
      (Nat.lt_of_lt_of_le inside wide.2)
  · refine packs.clear bit fun used => ?_
    obtain ⟨line, lineIn, rfl⟩ := List.mem_map.1 used
    obtain ⟨entry, registered, numbers, -⟩ := (inLines line).1 lineIn
    exact free entry.1 (List.mem_map_of_mem registered) numbers
  · rw [List.forall₂_map_left_iff, List.forall₂_same]
    intro word wordIn
    have fits : word < 16 ^ ((card.portWidth + 3) / 4) := by
      calc word < 2 ^ card.portWidth := packs.narrow word wordIn
        _ ≤ 2 ^ (4 * ((card.portWidth + 3) / 4)) := Nat.pow_le_pow_right (by omega) (by omega)
        _ = 16 ^ ((card.portWidth + 3) / 4) := by rw [Nat.pow_mul]
    exact ⟨Text.length_hexWord (by omega) fits, Text.hexValue?_hexWord _ _⟩

/-- An artifact of a digital card holds a device: it has two columns for each port that a channel
is on, and they hold the channels of the port. -/
structure ArtifactHolds (card : DigitalCard) (device : SampledDevice) (ticks : Nat)
    (artifact : Artifact) : Prop where
  columns : ∀ column, column ∈ artifact.datasets.names ↔
    ∃ channel ∈ device.samples.names, ∃ port line,
      ChannelName.lineNumbers channel = .ok (port, line) ∧
        (column = portName port ∨ column = portName port ++ "/hex")
  ports : ∀ channel ∈ device.samples.names, ∃ port line words texts,
    ChannelName.lineNumbers channel = .ok (port, line) ∧
      artifact.datasets.get? (portName port) = some (.words words) ∧
      artifact.datasets.get? (portName port ++ "/hex") = some (.hex texts) ∧
      card.PortHolds device ticks port words texts

/-- What a digital card encodes holds its device. -/
theorem artifactHolds_of_encode (made : experiment.compile stop = .ok compiled)
    (wide : card.portWidth ≠ 0 ∧ card.portWidth ≤ Packing.widest)
    (encoded : card.encode compiled = .ok artifact) :
    ∃ device, Card.sampled compiled card.name .digitalCard = .ok device ∧
      card.ArtifactHolds device (compiled.program.tickCount device.line) artifact := by
  obtain ⟨device, ports, blocks, found, gathered, packed, rfl⟩ := encode_eq_ok.1 encoded
  have portsOf := portsOf_ports gathered
  have lookup := (Card.sampled_eq_ok.1 found).1
  obtain ⟨entries, names⟩ := entries_columns portsOf.increasing packed
  refine ⟨device, found, fun column => ?_, fun channel member => ?_⟩
  · rw [Registry.names, entries, names, List.mem_flatMap]
    constructor
    · rintro ⟨port, portIn, columnIn⟩
      obtain ⟨channel, member, line, numbers⟩ :=
        (portsOf.occupied port.1).1 (List.mem_map_of_mem portIn)
      exact ⟨channel, member, port.1, line, numbers, mem_columnNames.1 columnIn⟩
    · rintro ⟨channel, member, port, line, numbers, columnIn⟩
      obtain ⟨held, portIn, rfl⟩ :=
        List.mem_map.1 ((portsOf.occupied port).2 ⟨channel, member, line, numbers⟩)
      exact ⟨held, portIn, mem_columnNames.2 columnIn⟩
  · obtain ⟨port, line, numbers, -⟩ := portsOf.inside channel member
    obtain ⟨⟨port, lines⟩, portIn, rfl⟩ :=
      List.mem_map.1 ((portsOf.occupied port).2 ⟨channel, member, line, numbers⟩)
    obtain ⟨block, columns⟩ := Checks.mapM_isOk_iff.1 ⟨blocks, packed⟩ _ portIn
    have blockIn := (Checks.mem_of_mapM packed).2 ⟨_, portIn, columns⟩
    obtain ⟨words, packs, rfl⟩ := Checks.map_eq_ok.1 columns
    have stored : ∀ column ∈ blocks.flatten,
        ((Artifact.empty card.name).extend blocks.flatten).datasets.get? column.1 =
          some column.2 := by
      intro column columnIn
      rwa [Registry.get?_eq_some_iff, entries]
    have wordsStored := stored (portName port, .words words)
      (List.mem_flatten.2 ⟨_, blockIn, List.mem_cons_of_mem _ List.mem_cons_self⟩)
    have textsStored := stored (portName port ++ "/hex", .hex _)
      (List.mem_flatten.2 ⟨_, blockIn, List.mem_cons_self⟩)
    have even : ∀ entry ∈ device.samples.entries,
        entry.2.length = compiled.program.tickCount device.line := by
      intro entry registered
      rw [Experiment.compile_length made lookup registered, Program.length_lineTicks]
    exact ⟨port, line, words, _, numbers, wordsStored, textsStored,
      portHolds_of_packs portsOf portIn wide even (Packing.packs_of_pack packs)⟩

/-- A device whose channels are on lines that the card has, and were registered by their numbers, is
valid and encoded. -/
theorem encodes_of_numbered (made : experiment.compile stop = .ok compiled) {name : String}
    {portWidth capacity : Nat} (created : create name portWidth capacity = .ok card)
    (lookup : compiled.device card.name = .ok device) (kind : device.kind = .digitalCard)
    (numbered : ∀ channel ∈ device.samples.names, DeviceKind.digitalCard.Numbered channel)
    (inside : ∀ port line, ChannelName.line port line ∈ device.samples.names →
      line < card.portWidth)
    (fits : device.tickCount ≤ card.capacity) :
    card.validate compiled = .ok () ∧ ∃ artifact, card.encode compiled = .ok artifact := by
  have found := Card.sampled_eq_ok.2 ⟨lookup, kind⟩
  have read : ∀ entry ∈ device.samples.entries, ∃ item, card.readLine entry = .ok item := by
    intro entry registered
    have member := List.mem_map_of_mem (f := Prod.fst) registered
    obtain ⟨port, line, portSmall, lineSmall, named⟩ := numbered entry.1 member
    refine ⟨(port, ⟨line, Packing.levels entry.2⟩), readLine_eq_ok.2 ⟨?_, ?_, rfl⟩⟩
    · rw [named, ChannelName.lineNumbers_line portSmall lineSmall]
    · exact inside port line (named ▸ member)
  obtain ⟨items, read⟩ := Checks.mapM_isOk_iff.2 read
  have gathered := ports_eq_ok.2 ⟨items, read, rfl⟩
  have valid : card.validate compiled = .ok () := by
    rw [validate, found]
    change (Card.checkBuffer _ _ device >>= _) = _
    rw [Card.checkBuffer, if_neg (Nat.not_lt.2 fits)]
    change (card.ports device >>= _) = _
    rw [gathered]
    rfl
  refine ⟨valid, (encodes_iff made created valid).2 fun other otherLookup first firstIn second
    secondIn same => ?_⟩
  rw [lookup] at otherLookup
  cases otherLookup
  obtain ⟨port, line, portSmall, lineSmall, rfl⟩ := numbered first firstIn
  obtain ⟨otherPort, otherLine, otherSmall, otherLineSmall, rfl⟩ := numbered second secondIn
  rw [ChannelName.lineNumbers_line portSmall lineSmall,
    ChannelName.lineNumbers_line otherSmall otherLineSmall] at same
  cases same
  rfl

/-- A digital card loses nothing.  Whatever it encodes has two columns for each port that a channel
of its device is on, with a word for each tick, in which every channel is found at its bit and all
other bits are zero.  After a session that registers the channels by their numbers, on lines that
the card has, and with no more samples than it holds, the device is valid and encoded, and every
channel is found at its line of its port. -/
theorem encode_lossless {name : String} {portWidth capacity : Nat}
    (created : create name portWidth capacity = .ok card) :
    (∀ {experiment : Experiment} {stop : Option Float} {compiled : Compiled} {artifact : Artifact},
      experiment.compile stop = .ok compiled → card.validate compiled = .ok () →
        card.encode compiled = .ok artifact →
          ∃ device, Card.sampled compiled card.name .digitalCard = .ok device ∧
            card.ArtifactHolds device (compiled.program.tickCount device.line) artifact) ∧
    ∀ {clockName : String} {minPeriod : Float} {settings : Settings} {new : Experiment}
      {commands : List Command} {stop : Option Float} {compiled : Compiled}
      {device : SampledDevice},
      Experiment.create clockName minPeriod settings = .ok new →
        (∀ command ∈ commands, command.ByNumber card.name) →
        (new.session commands).compile stop = .ok compiled →
        Card.sampled compiled card.name .digitalCard = .ok device →
        (∀ port line, ChannelName.line port line ∈ device.samples.names →
          line < card.portWidth) →
        device.tickCount ≤ card.capacity →
          card.validate compiled = .ok () ∧ ∃ artifact, card.encode compiled = .ok artifact ∧
            ∀ port line samples,
              (ChannelName.line port line, samples) ∈ device.samples.entries → ∃ words,
                artifact.datasets.get? (portName port) = some (.words words) ∧
                  Packing.unpack words line = .ok (Packing.levels samples) := by
  have wide := width_of_create created
  refine ⟨fun made _ encoded => artifactHolds_of_encode made wide encoded, ?_⟩
  intro clockName minPeriod settings new commands stop compiled device started byNumber made found
    inside fits
  obtain ⟨lookup, kind⟩ := Card.sampled_eq_ok.1 found
  have numbered : ∀ channel ∈ device.samples.names, DeviceKind.digitalCard.Numbered channel := by
    intro channel member
    rw [← kind]
    exact Experiment.compile_numbered (Experiment.session_numbered started byNumber) made lookup
      member
  obtain ⟨valid, artifact, encoded⟩ :=
    encodes_of_numbered made created lookup kind numbered inside fits
  refine ⟨valid, artifact, encoded, fun port line samples registered => ?_⟩
  obtain ⟨other, otherFound, holds⟩ := artifactHolds_of_encode made wide encoded
  rw [found] at otherFound
  cases otherFound
  have member : ChannelName.line port line ∈ device.samples.names :=
    Registry.mem_names_iff.2 ⟨samples, registered⟩
  obtain ⟨heldPort, heldLine, words, texts, numbers, stored, -, portHolds⟩ :=
    holds.ports _ member
  obtain ⟨otherPort, otherLine, portSmall, lineSmall, same⟩ := numbered _ member
  obtain ⟨rfl, rfl⟩ := ChannelName.line_injective same
  rw [ChannelName.lineNumbers_line portSmall lineSmall] at numbers
  cases numbers
  exact ⟨words, stored, portHolds.lines _ registered line
    (ChannelName.lineNumbers_line portSmall lineSmall)⟩

/-- A session that raises the last line of the second of two ports. -/
def portSession : List Command :=
  [.addDevice "gates" .digitalCard .fast, .addDigitalChannel "gates" 0 0 0,
    .addDigitalChannel "gates" 1 7 0, .level "gates" "port1/line7" true 1e-6]

/-- Both ports are encoded, and the line is found at the last bit of its port. -/
theorem portSession_lossless : ∃ new compiled device artifact,
    Experiment.create "clock" 1e-7 {} = .ok new ∧
      (new.session portSession).compile none = .ok compiled ∧
      Card.sampled compiled "gates" .digitalCard = .ok device ∧
      eightLines.validate compiled = .ok () ∧ eightLines.encode compiled = .ok artifact ∧
      eightLines.ArtifactHolds device (compiled.program.tickCount device.line) artifact ∧
      ∃ samples words, ("port1/line7", samples) ∈ device.samples.entries ∧
        artifact.datasets.get? "port1" = some (.words words) ∧
        Packing.unpack words 7 = .ok (Packing.levels samples) := by
  have runs : (do
      let new ← Experiment.create "clock" 1e-7 {}
      let compiled ← (new.session portSession).compile none
      let device ← Card.sampled compiled "gates" .digitalCard
      return (device.samples.names, device.tickCount) : Except Fault (List String × Nat)) =
      .ok ([ChannelName.line 0 0, ChannelName.line 1 7], 2) :=
    Checks.toOption_eq_some_iff.1 (by decide +kernel)
  obtain ⟨new, started, runs⟩ := Checks.bind_eq_ok.1 runs
  obtain ⟨compiled, made, runs⟩ := Checks.bind_eq_ok.1 runs
  obtain ⟨device, found, runs⟩ := Checks.bind_eq_ok.1 runs
  obtain ⟨names, count⟩ := Prod.mk.inj (Except.ok.inj runs)
  have created : create "gates" 8 4096 = .ok eightLines := rfl
  have byNumber : ∀ command ∈ portSession, command.ByNumber eightLines.name := by decide
  have inside : ∀ port line, ChannelName.line port line ∈ device.samples.names → line < 8 := by
    intro port line member
    rw [names, List.mem_cons, List.mem_singleton] at member
    rcases member with same | same
    · obtain ⟨-, rfl⟩ := ChannelName.line_injective same
      omega
    · obtain ⟨-, rfl⟩ := ChannelName.line_injective same
      omega
  have fits : device.tickCount ≤ 4096 := by omega
  obtain ⟨holds, encodes⟩ := encode_lossless created
  obtain ⟨valid, artifact, encoded, lines⟩ :=
    encodes started byNumber made found inside fits
  obtain ⟨other, otherFound, artifactHolds⟩ := holds made valid encoded
  have sameDevice : other = device := Except.ok.inj (otherFound.symm.trans found)
  have member : ChannelName.line 1 7 ∈ device.samples.names := by simp [names]
  obtain ⟨samples, registered⟩ := Registry.mem_names_iff.1 member
  obtain ⟨words, stored, unpacked⟩ := lines 1 7 samples registered
  exact ⟨new, compiled, device, artifact, started, made, found, valid, encoded,
    sameDevice ▸ artifactHolds, samples, words, registered, stored, unpacked⟩

end Metronome.DigitalCard
