/-
Module: Metronome.Proofs.Composites
Purpose: A synthesizer encodes every channel on its own exactly if no two channels are the same part
  of the same composite output.
Trusted boundary: none
Main exports:
  Synthesizer.slot?, Synthesizer.Represents, Synthesizer.get?_of_encode,
  Synthesizer.length_of_encode, Synthesizer.represents_iff
-/
import Mathlib
import Metronome.Card.Synthesizer
import Metronome.Proofs.Artifact
import Metronome.Proofs.Compilation
import Metronome.Proofs.Grouping
import Metronome.Proofs.Numbering

/-!
The channels of a composite output meet in its slots, one for each part.  A slot that is set again
forgets what it held, and nothing is reported, so that of two channels with the same number and part
in their names the later one is encoded and the earlier one is lost.  Since `dds0/freq` and
`dds00/freq` are both names of the first frequency, this can happen; names that are made from
numbers never meet.
-/

namespace Metronome

/-! ### Slots -/

/-- The samples of one part of a composite output. -/
def Composite.get (composite : Composite) : Part → Option (List Float)
  | .freq => composite.freq
  | .amp => composite.amp
  | .phase => composite.phase
  | .gate => composite.gate

theorem Composite.get_set (composite : Composite) (part other : Part) (samples : List Float) :
    (composite.set part samples).get other =
      if other = part then some samples else composite.get other := by
  cases part <;> cases other <;> rfl

/-- Parts that are set one after the other hold the samples that were set last. -/
theorem Composite.get_foldl_set (parts : List (Part × List Float)) (part : Part) :
    (parts.foldl (fun composite item => composite.set item.1 item.2) {} : Composite).get part =
      parts.reverse.lookup part := by
  induction parts using List.reverseRecOn with
  | nil => cases part <;> rfl
  | append_singleton parts item ih =>
      rw [List.foldl_append, List.foldl_cons, List.foldl_nil, Composite.get_set, ih,
        List.reverse_append, List.reverse_singleton, List.singleton_append, List.lookup_cons]
      by_cases same : part = item.1
      · simp [same]
      · simp [same, beq_false_of_ne same]

namespace Synthesizer

variable {card : Synthesizer} {device : SampledDevice} {outputs : List (Nat × Composite)}
  {id : Nat} {part : Part} {samples : List Float} {compiled : Compiled} {artifact : Artifact}

/-- The number and the part in a channel's name. -/
def slot? (card : Synthesizer) (channel : String) : Option (Nat × Part) :=
  (ChannelName.partNumber card.name channel).toOption

/-- A channel's samples, and the number and the part that they belong to. -/
def readPart (card : Synthesizer) (entry : String × List Float) :
    Except Fault (Nat × (Part × List Float)) :=
  (fun slot => (slot.1, slot.2, entry.2)) <$> ChannelName.partNumber card.name entry.1

theorem readPart_eq_ok {entry : String × List Float} :
    card.readPart entry = .ok (id, part, samples) ↔
      card.slot? entry.1 = some (id, part) ∧ samples = entry.2 := by
  rw [readPart, Checks.map_eq_ok, slot?, Checks.toOption_eq_some_iff]
  constructor
  · rintro ⟨slot, numbers, made⟩
    cases made
    exact ⟨numbers, rfl⟩
  · rintro ⟨numbers, rfl⟩
    exact ⟨_, numbers, rfl⟩

theorem addChannel_eq_read (outputs : List (Nat × Composite)) (entry : String × List Float) :
    card.addChannel outputs entry =
      (fun item : Nat × (Part × List Float) =>
        Grouping.update item.1 {} (Composite.set item.2.1 item.2.2) outputs) <$>
          card.readPart entry := by
  rw [addChannel, readPart]
  cases ChannelName.partNumber card.name entry.1 <;> rfl

/-- Composite outputs of parts, set one after the other. -/
def gatherParts (items : List (Nat × (Part × List Float))) : List (Nat × Composite) :=
  Grouping.gather {} (fun composite item => composite.set item.1 item.2) items

/-- The composite outputs are the parts of the channels, gathered. -/
theorem outputs_eq_ok : card.outputs device = .ok outputs ↔
    ∃ items, device.samples.entries.mapM card.readPart = .ok items ∧
      outputs = gatherParts items :=
  Checks.foldlM_eq_ok_foldl addChannel_eq_read

/-- The samples of the channels under their numbers and parts, the last channel first. -/
def latest (card : Synthesizer) (device : SampledDevice) :
    List (Option (Nat × Part) × List Float) :=
  (device.samples.entries.map fun entry => (card.slot? entry.1, entry.2)).reverse

/-- The items of one number keep the order of all items. -/
theorem lookup_share (items : List (Nat × (Part × List Float))) :
    (Grouping.share id items).reverse.lookup part =
      (items.map fun item => (some (item.1, item.2.1), item.2.2)).reverse.lookup
        (some (id, part)) := by
  induction items using List.reverseRecOn with
  | nil => rfl
  | append_singleton items item ih =>
      obtain ⟨other, otherPart, samples⟩ := item
      rw [List.map_append, List.reverse_append, List.map_cons, List.map_nil, List.reverse_singleton,
        List.singleton_append, List.lookup_cons, ← ih]
      by_cases same : id = other
      · subst same
        have more : Grouping.share id (items ++ [(id, otherPart, samples)]) =
            Grouping.share id items ++ [(otherPart, samples)] := by
          simp [Grouping.share]
        rw [more, List.reverse_append, List.reverse_singleton, List.singleton_append,
          List.lookup_cons]
        by_cases samePart : part = otherPart
        · simp [samePart]
        · have differs : some (id, part) ≠ some (id, otherPart) := by simpa using samePart
          rw [beq_false_of_ne samePart, beq_false_of_ne differs]
      · have others : Grouping.share id (items ++ [(other, otherPart, samples)]) =
            Grouping.share id items := by
          simp [Grouping.share, Ne.symm same]
        have differs : some (id, part) ≠ some (other, otherPart) := by simp [same]
        rw [others, beq_false_of_ne differs]

/-- What the composite outputs have to do with the channels: a part is there if a channel has its
number and part, and then it holds the samples of the last of those channels. -/
theorem part_of_outputs (made : card.outputs device = .ok outputs) :
    (∃ composite, (id, composite) ∈ outputs ∧ composite.get part = some samples) ↔
      (card.latest device).lookup (some (id, part)) = some samples := by
  obtain ⟨items, read, rfl⟩ := outputs_eq_ok.1 made
  have views : items.map (fun item => (some (item.1, item.2.1), item.2.2)) =
      device.samples.entries.map fun entry => (card.slot? entry.1, entry.2) := by
    refine Checks.map_of_mapM (fun entry item made => ?_) read
    obtain ⟨slot, same⟩ := readPart_eq_ok.1 (made : card.readPart entry = .ok (_, _, _))
    rw [slot, same]
  have grouped : ∀ composite, (id, composite) ∈ gatherParts items ↔ id ∈ items.map Prod.fst ∧
      composite = (Grouping.share id items).foldl (fun composite item =>
        composite.set item.1 item.2) {} := fun _ => Grouping.mem_gather
  have parts : ∀ composite, (id, composite) ∈ gatherParts items →
      composite.get part = (card.latest device).lookup (some (id, part)) := by
    intro composite member
    obtain ⟨-, rfl⟩ := (grouped composite).1 member
    rw [Composite.get_foldl_set, lookup_share, views, latest]
  constructor
  · rintro ⟨composite, member, held⟩
    rw [← parts composite member, held]
  · intro found
    have registered : some (id, part) ∈ items.map fun item => some (item.1, item.2.1) := by
      obtain ⟨before, after, split, -⟩ := List.lookup_eq_some_iff.1 found
      have member : (some (id, part), samples) ∈ card.latest device := by simp [split]
      rw [latest, ← views, List.mem_reverse] at member
      obtain ⟨item, itemIn, same⟩ := List.mem_map.1 member
      exact List.mem_map.2 ⟨item, itemIn, congrArg Prod.fst same⟩
    have numbered : id ∈ items.map Prod.fst := by
      obtain ⟨item, itemIn, same⟩ := List.mem_map.1 registered
      cases same
      exact List.mem_map_of_mem itemIn
    have member := (grouped _).2 ⟨numbered, rfl⟩
    exact ⟨_, member, (parts _ member).trans found⟩

/-! ### Columns -/

/-- The column of a part. -/
def partColumn : Part → String
  | .freq => "ftw"
  | .amp => "asf"
  | .phase => "pow"
  | .gate => "gate"

/-- The name of the column of a composite output's part. -/
def columnName (slot : Nat × Part) : String :=
  "dds" ++ toString slot.1 ++ "/" ++ partColumn slot.2

/-- Samples as a part is encoded. -/
def dataset (card : Synthesizer) (part : Part) (samples : List Float) : Dataset :=
  .integers (match part with
    | .freq => samples.map card.freqWord
    | .amp => samples.map ampWord
    | .phase => samples.map phaseWord
    | .gate => samples.map Number.toSigned)

theorem columnName_injective : Function.Injective columnName := by
  rintro ⟨id, part⟩ ⟨otherId, other⟩ same
  have spelled : ∀ slot, columnName slot =
      "dds" ++ toString slot.1 ++ ("/" ++ partColumn slot.2) := fun slot => String.append_assoc
  have slash : ∀ part, ∀ c ∈ ("/" ++ partColumn part).toList.head?,
      Text.isDecimalDigit c = false := by
    intro part
    simpa using ChannelName.isDecimalDigit_slash
  rw [spelled, spelled] at same
  obtain ⟨ids, columns⟩ := ChannelName.numbered_injective (slash part) (slash other) same
  have parts : partColumn part = partColumn other := by simpa using columns
  have sameParts : part = other := by
    cases part <;> cases other <;> first | rfl | exact absurd parts (by decide)
  exact Prod.ext ids sameParts

/-- The columns of the parts that a composite output has. -/
def outputColumns (card : Synthesizer) (output : Nat × Composite) : List (String × Dataset) :=
  [Part.freq, .amp, .phase, .gate].filterMap fun part => (output.2.get part).map fun samples =>
    (columnName (output.1, part), card.dataset part samples)

/-- Accepts a composite output with all its analog parts. -/
def checkComplete (card : Synthesizer) (output : Nat × Composite) : Except Fault Unit :=
  if output.2.freq.isSome && output.2.amp.isSome && output.2.phase.isSome then .ok ()
  else .error (.limit card.name (.outputIncomplete output.1))

theorem addOutput_eq_extend (artifact : Artifact) (output : Nat × Composite) :
    card.addOutput artifact output =
      artifact.extend <$> (fun _ => card.outputColumns output) <$> card.checkComplete output := by
  obtain ⟨id, freq, amp, phase, gate⟩ := output
  cases freq <;> cases amp <;> cases phase <;> cases gate <;> rfl

theorem mem_outputColumns {output : Nat × Composite} {column : String × Dataset} :
    column ∈ card.outputColumns output ↔ ∃ part samples, output.2.get part = some samples ∧
      column = (columnName (output.1, part), card.dataset part samples) := by
  have all : ∀ part : Part, part ∈ [Part.freq, .amp, .phase, .gate] := by
    intro part
    cases part <;> decide
  simp only [outputColumns, List.mem_filterMap, all, true_and, Option.map_eq_some_iff]
  exact exists_congr fun part => exists_congr fun samples => and_congr_right fun _ => eq_comm

/-- The columns of a synthesizer are those of its composite outputs, each with a name of its own. -/
theorem entries_of_encode (encoded : card.encode compiled = .ok artifact) :
    ∃ device outputs, Card.sampled compiled card.name .synthesizer = .ok device ∧
      card.outputs device = .ok outputs ∧
      artifact.datasets.entries = outputs.flatMap card.outputColumns := by
  obtain ⟨device, found, rest⟩ := Checks.bind_eq_ok.1 encoded
  obtain ⟨outputs, gathered, rest⟩ := Checks.bind_eq_ok.1 rest
  obtain ⟨blocks, made, rfl⟩ := (Artifact.foldlM_extend addOutput_eq_extend).1 rest
  have columns : blocks = outputs.map card.outputColumns := by
    rw [← Checks.map_of_mapM (fun output block made => ?_) made, List.map_id]
    obtain ⟨_, -, same⟩ := Checks.map_eq_ok.1 made
    exact same.symm
  have increasing : outputs.Pairwise fun first second => first.1 < second.1 := by
    obtain ⟨items, -, rfl⟩ := outputs_eq_ok.1 gathered
    exact Grouping.gather_increasing
  have distinct : ((outputs.flatMap card.outputColumns).map Prod.fst).Nodup := by
    rw [List.map_flatMap, List.nodup_flatMap]
    constructor
    · intro output _
      rw [outputColumns, List.map_filterMap]
      refine List.Nodup.filterMap (fun first second column inFirst inSecond => ?_) (by decide)
      simp only [Option.mem_def, Option.map_map, Option.map_eq_some_iff] at inFirst inSecond
      obtain ⟨_, -, firstName⟩ := inFirst
      obtain ⟨_, -, secondName⟩ := inSecond
      exact congrArg Prod.snd (columnName_injective (firstName.trans secondName.symm))
    · refine increasing.imp fun {first second} less name inFirst inSecond => ?_
      obtain ⟨column, columnIn, rfl⟩ := List.mem_map.1 inFirst
      obtain ⟨other, otherIn, same⟩ := List.mem_map.1 inSecond
      obtain ⟨part, samples, -, rfl⟩ := mem_outputColumns.1 columnIn
      obtain ⟨otherPart, otherSamples, -, rfl⟩ := mem_outputColumns.1 otherIn
      have ids := congrArg Prod.fst (columnName_injective same)
      exact absurd ids (Nat.ne_of_gt less)
  refine ⟨device, outputs, found, gathered, ?_⟩
  rw [columns, ← List.flatMap_def]
  exact Artifact.entries_extend distinct fun _ _ => List.not_mem_nil

/-! ### What the columns hold -/

/-- The numbers and parts of a device's channels. -/
def slots (card : Synthesizer) (device : SampledDevice) : List (Nat × Part) :=
  device.samples.names.filterMap card.slot?

/-- A number and a part have samples if a channel has them in its name. -/
theorem exists_latest_iff {slot : Nat × Part} :
    (∃ samples, (card.latest device).lookup (some slot) = some samples) ↔
      slot ∈ card.slots device := by
  rw [← Option.isSome_iff_exists, List.lookup_isSome_iff, slots, List.mem_filterMap]
  constructor
  · rintro ⟨item, member, same⟩
    rw [latest, List.mem_reverse] at member
    obtain ⟨entry, registered, rfl⟩ := List.mem_map.1 member
    have named : entry.1 ∈ device.samples.names := List.mem_map_of_mem registered
    have isSlot : some slot = card.slot? entry.1 := eq_of_beq same
    exact ⟨entry.1, named, isSlot.symm⟩
  · rintro ⟨channel, member, isSlot⟩
    obtain ⟨samples, registered⟩ := Registry.mem_names_iff.1 member
    have member : (card.slot? channel, samples) ∈ card.latest device := by
      rw [latest, List.mem_reverse, List.mem_map]
      exact ⟨(channel, samples), registered, rfl⟩
    exact ⟨_, member, beq_iff_eq.2 isSlot.symm⟩

/-- The columns of an artifact: one for each number and part that a channel has, made from the
samples of the last of those channels. -/
theorem mem_entries_of_encode (found : Card.sampled compiled card.name .synthesizer = .ok device)
    (encoded : card.encode compiled = .ok artifact) {column : String × Dataset} :
    column ∈ artifact.datasets.entries ↔ ∃ slot samples,
      (card.latest device).lookup (some slot) = some samples ∧
        column = (columnName slot, card.dataset slot.2 samples) := by
  obtain ⟨other, outputs, otherFound, gathered, entries⟩ := entries_of_encode encoded
  rw [found] at otherFound
  cases otherFound
  simp only [entries, List.mem_flatMap, mem_outputColumns, Prod.exists, ← part_of_outputs gathered]
  constructor
  · rintro ⟨id, composite, member, part, samples, held, rfl⟩
    exact ⟨id, part, samples, ⟨composite, member, held⟩, rfl⟩
  · rintro ⟨id, part, samples, ⟨composite, member, held⟩, rfl⟩
    exact ⟨id, composite, member, part, samples, held, rfl⟩

/-- The column of a number and a part holds the samples of the last channel that has them. -/
theorem get?_of_encode (found : Card.sampled compiled card.name .synthesizer = .ok device)
    (encoded : card.encode compiled = .ok artifact) (slot : Nat × Part) :
    artifact.datasets.get? (columnName slot) =
      ((card.latest device).lookup (some slot)).map (card.dataset slot.2) := by
  apply Option.ext
  intro made
  rw [Registry.get?_eq_some_iff, mem_entries_of_encode found encoded, Option.map_eq_some_iff]
  constructor
  · rintro ⟨other, samples, latest, same⟩
    obtain ⟨names, rfl⟩ := Prod.mk.inj same
    cases columnName_injective names
    exact ⟨samples, latest, rfl⟩
  · rintro ⟨samples, latest, rfl⟩
    exact ⟨slot, samples, latest, rfl⟩

/-- There are as many columns as different numbers and parts. -/
theorem length_of_encode (found : Card.sampled compiled card.name .synthesizer = .ok device)
    (encoded : card.encode compiled = .ok artifact) :
    artifact.datasets.entries.length = (card.slots device).dedup.length := by
  have named : ∀ column, column ∈ artifact.datasets.names ↔
      column ∈ (card.slots device).dedup.map columnName := by
    intro column
    rw [Registry.mem_names_iff, List.mem_map]
    simp only [mem_entries_of_encode found encoded, List.mem_dedup, ← exists_latest_iff,
      Prod.mk.injEq]
    constructor
    · rintro ⟨made, slot, samples, latest, rfl, rfl⟩
      exact ⟨slot, ⟨samples, latest⟩, rfl⟩
    · rintro ⟨slot, ⟨samples, latest⟩, rfl⟩
      exact ⟨_, slot, samples, latest, rfl, rfl⟩
  have distinct := (List.nodup_dedup (card.slots device)).map columnName_injective
  have lengths := ((List.perm_ext_iff_of_nodup artifact.datasets.distinct distinct).2
    named).length_eq
  simpa using lengths

/-- No two channels of a device have the same number and part in their names. -/
def SlotsDistinct (card : Synthesizer) (device : SampledDevice) : Prop :=
  ∀ first ∈ device.samples.names, ∀ second ∈ device.samples.names,
    card.slot? first = card.slot? second → first = second

/-- An artifact represents every channel of a device: each has a column that is made from its
samples, no two have the same column, and there are no more columns than channels. -/
structure Represents (card : Synthesizer) (device : SampledDevice) (artifact : Artifact) : Prop where
  made : ∀ entry ∈ device.samples.entries, ∃ slot, card.slot? entry.1 = some slot ∧
    artifact.datasets.get? (columnName slot) = some (card.dataset slot.2 entry.2)
  apart : ∀ first ∈ device.samples.names, ∀ second ∈ device.samples.names,
    (card.slot? first).map columnName = (card.slot? second).map columnName → first = second
  count : artifact.datasets.entries.length = device.samples.entries.length

/-- Every channel of an encoded device has a number and a part. -/
theorem slot_of_encode (found : Card.sampled compiled card.name .synthesizer = .ok device)
    (encoded : card.encode compiled = .ok artifact) :
    ∀ channel ∈ device.samples.names, ∃ slot, card.slot? channel = some slot := by
  obtain ⟨other, outputs, otherFound, gathered, -⟩ := entries_of_encode encoded
  rw [found] at otherFound
  cases otherFound
  obtain ⟨items, read, -⟩ := outputs_eq_ok.1 gathered
  intro channel member
  obtain ⟨samples, registered⟩ := Registry.mem_names_iff.1 member
  obtain ⟨⟨id, part, _⟩, made⟩ := Checks.mapM_isOk_iff.1 ⟨items, read⟩ _ registered
  exact ⟨(id, part), (readPart_eq_ok.1 made).1⟩

/-- If every channel has a number and a part, none of them is left out. -/
theorem map_some_slots
    (slotted : ∀ channel ∈ device.samples.names, ∃ slot, card.slot? channel = some slot) :
    (card.slots device).map some = device.samples.names.map card.slot? := by
  rw [slots]
  generalize device.samples.names = channels at slotted
  induction channels with
  | nil => rfl
  | cons channel rest ih =>
      obtain ⟨⟨slot, isSlot⟩, others⟩ := List.forall_mem_cons.1 slotted
      rw [List.filterMap_cons_some isSlot, List.map_cons, List.map_cons, ih others, isSlot]

/-- If no two channels have the same number and part, every channel is represented. -/
theorem represents_of_distinct
    (found : Card.sampled compiled card.name .synthesizer = .ok device)
    (encoded : card.encode compiled = .ok artifact) (distinct : card.SlotsDistinct device) :
    card.Represents device artifact := by
  have slotted := slot_of_encode found encoded
  refine ⟨fun entry registered => ?_, fun first firstIn second secondIn same => ?_, ?_⟩
  · have member : entry.1 ∈ device.samples.names := List.mem_map_of_mem registered
    obtain ⟨slot, isSlot⟩ := slotted entry.1 member
    refine ⟨slot, isSlot, ?_⟩
    obtain ⟨samples, latest⟩ := exists_latest_iff.2 (List.mem_filterMap.2 ⟨entry.1, member, isSlot⟩)
    obtain ⟨before, after, split, -⟩ := List.lookup_eq_some_iff.1 latest
    have held : (some slot, samples) ∈ card.latest device := by simp [split]
    rw [Synthesizer.latest, List.mem_reverse] at held
    obtain ⟨other, otherIn, same⟩ := List.mem_map.1 held
    obtain ⟨otherSlot, rfl⟩ := Prod.mk.inj same
    have sameName : other.1 = entry.1 := distinct _ (List.mem_map_of_mem otherIn) _ member
      (otherSlot.trans isSlot.symm)
    have sameSamples := Registry.get?_eq_some_iff.2 otherIn
    rw [sameName, Registry.get?_eq_some_iff.2 registered] at sameSamples
    rw [get?_of_encode found encoded, latest, Option.some.inj sameSamples]
    rfl
  · exact distinct first firstIn second secondIn
      (Option.map_injective columnName_injective same)
  · have mapped := map_some_slots slotted
    have names : device.samples.names.Nodup := device.samples.distinct
    have nodup : (card.slots device).Nodup := by
      rw [← List.nodup_map_iff (Option.some_injective _), mapped, List.nodup_map_iff_inj_on names]
      exact distinct
    have lengths := congrArg List.length mapped
    rw [List.length_map, List.length_map, Registry.names, List.length_map] at lengths
    rw [length_of_encode found encoded, nodup.dedup, lengths]

/-- Parts that are named by their numbers are distinct. -/
theorem slotsDistinct_of_numbered
    (numbered : ∀ channel ∈ device.samples.names, DeviceKind.synthesizer.Numbered channel) :
    card.SlotsDistinct device := by
  have slots : ∀ channel ∈ device.samples.names, ∃ slot, card.slot? channel = some slot ∧
      channel = ChannelName.part slot.1 slot.2 := by
    intro channel member
    obtain ⟨id, part, small, rfl⟩ := numbered channel member
    exact ⟨(id, part), Checks.toOption_eq_some_iff.2 (ChannelName.partNumber_part _ small part), rfl⟩
  intro first firstIn second secondIn same
  obtain ⟨slot, isSlot, named⟩ := slots first firstIn
  obtain ⟨other, isOther, otherNamed⟩ := slots second secondIn
  rw [isSlot, isOther] at same
  rw [named, otherNamed, Option.some.inj same]

/-- What a synthesizer encodes has one column for each number and part that a channel of its device
has in its name, made from the last of those channels.  So it represents every channel exactly if no
two have the same number and part, and they never do after a session that registers the channels of
the device by their numbers. -/
theorem represents_iff (found : Card.sampled compiled card.name .synthesizer = .ok device)
    (encoded : card.encode compiled = .ok artifact) :
    (∀ slot, artifact.datasets.get? (columnName slot) =
      ((card.latest device).lookup (some slot)).map (card.dataset slot.2)) ∧
    artifact.datasets.entries.length = (card.slots device).dedup.length ∧
    (card.Represents device artifact ↔ card.SlotsDistinct device) ∧
    ∀ {clockName : String} {minPeriod : Float} {settings : Settings} {new : Experiment}
      {commands : List Command} {stop : Option Float},
      Experiment.create clockName minPeriod settings = .ok new →
        (∀ command ∈ commands, command.ByNumber card.name) →
        (new.session commands).compile stop = .ok compiled →
          card.Represents device artifact := by
  refine ⟨get?_of_encode found encoded, length_of_encode found encoded, ?_, ?_⟩
  · constructor
    · intro represents first firstIn second secondIn same
      exact represents.apart first firstIn second secondIn (congrArg _ same)
    · exact represents_of_distinct found encoded
  · intro clockName minPeriod settings new commands stop started byNumber made
    obtain ⟨lookup, kind⟩ := Card.sampled_eq_ok.1 found
    refine represents_of_distinct found encoded (slotsDistinct_of_numbered fun channel member => ?_)
    rw [← kind]
    exact Experiment.compile_numbered (Experiment.session_numbered started byNumber) made lookup
      member

/-- A session that registers two composite outputs by their numbers, the first with a gate. -/
def twoComposites : List Command :=
  [.addDevice "tones" .synthesizer .fast, .addComposite "tones" 0 true,
    .addComposite "tones" 12 false]

/-- A session that registers a frequency more, under another name of the first output. -/
def sameFrequency : List Command :=
  [.addDevice "tones" .synthesizer .fast, .addComposite "tones" 0 false,
    .addChannel "tones" "dds00/freq" 1e6]

/-- A synthesizer with a reference clock of one gigahertz. -/
def fastClock : Synthesizer := ⟨"tones", 1e9, 4096⟩

/-- The numbers of channels and of columns that a session comes to, if its device is valid. -/
def counts (commands : List Command) : Except Fault (Nat × Nat) := do
  let new ← Experiment.create "clock" 1e-7 {}
  let compiled ← (new.session commands).compile none
  let device ← Card.sampled compiled fastClock.name .synthesizer
  fastClock.validate compiled
  let artifact ← fastClock.encode compiled
  return (device.samples.names.length, artifact.datasets.names.length)

theorem counts_eq_ok {commands : List Command} {result : Nat × Nat}
    (run : counts commands = .ok result) : ∃ new compiled device artifact,
      Experiment.create "clock" 1e-7 {} = .ok new ∧
        (new.session commands).compile none = .ok compiled ∧
        Card.sampled compiled fastClock.name .synthesizer = .ok device ∧
        fastClock.validate compiled = .ok () ∧ fastClock.encode compiled = .ok artifact ∧
        device.samples.names.length = result.1 ∧ artifact.datasets.names.length = result.2 := by
  obtain ⟨new, started, run⟩ := Checks.bind_eq_ok.1 run
  obtain ⟨compiled, made, run⟩ := Checks.bind_eq_ok.1 run
  obtain ⟨device, found, run⟩ := Checks.bind_eq_ok.1 run
  obtain ⟨_, valid, run⟩ := Checks.bind_eq_ok.1 run
  obtain ⟨artifact, encoded, run⟩ := Checks.bind_eq_ok.1 run
  cases run
  exact ⟨new, compiled, device, artifact, started, made, found, valid, encoded, rfl, rfl⟩

/-- Two composite outputs with seven parts are represented by seven columns. -/
theorem twoComposites_represented : ∃ new compiled device artifact,
    Experiment.create "clock" 1e-7 {} = .ok new ∧
      (new.session twoComposites).compile none = .ok compiled ∧
      Card.sampled compiled fastClock.name .synthesizer = .ok device ∧
      fastClock.encode compiled = .ok artifact ∧ artifact.datasets.names.length = 7 ∧
      fastClock.Represents device artifact := by
  have run : counts twoComposites = .ok (7, 7) :=
    Checks.toOption_eq_some_iff.1 (by decide +kernel)
  obtain ⟨new, compiled, device, artifact, started, made, found, -, encoded, -, columns⟩ :=
    counts_eq_ok run
  have byNumber : ∀ command ∈ twoComposites, command.ByNumber fastClock.name := by decide
  obtain ⟨-, -, -, represents⟩ := represents_iff found encoded
  exact ⟨new, compiled, device, artifact, started, made, found, encoded, columns,
    represents started byNumber made⟩

/-- A frequency that is registered again under another name is valid and encoded, but four channels
have only three columns, so that one is lost. -/
theorem sameFrequency_not_represented : ∃ new compiled device artifact,
    Experiment.create "clock" 1e-7 {} = .ok new ∧
      (new.session sameFrequency).compile none = .ok compiled ∧
      Card.sampled compiled fastClock.name .synthesizer = .ok device ∧
      fastClock.validate compiled = .ok () ∧ fastClock.encode compiled = .ok artifact ∧
      device.samples.names.length = 4 ∧ artifact.datasets.names.length = 3 ∧
      ¬ fastClock.Represents device artifact := by
  have run : counts sameFrequency = .ok (4, 3) :=
    Checks.toOption_eq_some_iff.1 (by decide +kernel)
  obtain ⟨new, compiled, device, artifact, started, made, found, valid, encoded, channels,
    columns⟩ := counts_eq_ok run
  refine ⟨new, compiled, device, artifact, started, made, found, valid, encoded, channels,
    columns, fun represents => ?_⟩
  have count := represents.count
  rw [Registry.names, List.length_map] at channels columns
  omega

end Synthesizer
end Metronome
