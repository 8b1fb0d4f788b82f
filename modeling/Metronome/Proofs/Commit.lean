/-
Module: Metronome.Proofs.Commit
Purpose: A batch of cards is stored as a whole, after all that was stored before, or not at all.
Trusted boundary: none
Main exports:
  Card.NamesAdmitted, Compiled.rawColumns, Store.EncodedBy, Store.Committed,
  Store.encodeAll_outcome, Experiment.Admitted, Store.all_or_nothing
-/
import Mathlib
import Metronome.Store
import Metronome.Proofs.Artifact
import Metronome.Proofs.Compilation
import Metronome.Proofs.Naming
import Metronome.Proofs.Session

/-!
The names of a batch are checked against each other and against the store before anything is
encoded, and every card names its artifact after itself, so that no artifact finds its name taken
when it is stored.  The columns of samples are named `raw/` and the name of a channel.  No card
names a column of its own like that: only an analog card takes over the names of its channels, and
the names that it admits begin with other letters.
-/

namespace Metronome

/-! ### Artifacts -/

namespace Artifact

variable {artifact : Artifact}

/-- The artifact of a device whose columns have names of a kind. -/
structure Bears (holds : String → Prop) (device : String) (artifact : Artifact) : Prop where
  device : artifact.device = device
  columns : ∀ column ∈ artifact.datasets.names, holds column

variable {holds : String → Prop} {device name : String}

theorem Bears.empty : (Artifact.empty device).Bears holds device :=
  ⟨rfl, fun _ member => absurd member List.not_mem_nil⟩

theorem Bears.insert (bears : artifact.Bears holds device) (named : holds name)
    (dataset : Dataset) : (artifact.insert name dataset).Bears holds device := by
  refine ⟨bears.device, fun column member => ?_⟩
  rw [Artifact.insert, Registry.names_insert] at member
  split at member
  · exact bears.columns column member
  · rcases List.mem_append.1 member with old | new
    · exact bears.columns column old
    · rw [List.mem_singleton] at new
      exact new ▸ named

end Artifact

/-! ### Columns of cards -/

/-- A name that does not begin like that of a column of samples. -/
def Ordinary (name : String) : Prop :=
  "raw/".toList.isPrefixOf name.toList = false

theorem Ordinary.of_head {name : String} {first : Char} {rest : List Char}
    (spelled : name.toList = first :: rest) (other : ('r' == first) = false) : Ordinary name := by
  rw [Ordinary, spelled]
  change ('r' == first && _) = false
  rw [other, Bool.false_and]

theorem Ordinary.ne_raw {name : String} (ordinary : Ordinary name) (channel : String) :
    name ≠ "raw/" ++ channel := by
  rintro rfl
  rw [Ordinary, String.toList_append,
    List.isPrefixOf_iff_prefix.2 (List.prefix_append ..)] at ordinary
  cases ordinary

variable {holds : String → Prop} {compiled : Compiled} {artifact : Artifact}

theorem PulseGenerator.encode_bears {generator : PulseGenerator}
    (own : ∀ column, Ordinary column → holds column)
    (encoded : generator.encode compiled = .ok artifact) :
    artifact.Bears holds generator.name := by
  obtain ⟨instructions, -, made⟩ := Checks.bind_eq_ok.1 encoded
  cases made
  exact ((((Artifact.Bears.empty.insert (own "opcode" rfl) _).insert (own "repetitions" rfl)
    _).insert (own "high_cycles" rfl) _).insert (own "low_cycles" rfl) _).insert
      (own "instructions" rfl) _

theorem DigitalCard.encode_bears {card : DigitalCard}
    (own : ∀ column, Ordinary column → holds column)
    (encoded : card.encode compiled = .ok artifact) : artifact.Bears holds card.name := by
  obtain ⟨device, -, encoded⟩ := Checks.bind_eq_ok.1 encoded
  obtain ⟨ports, -, encoded⟩ := Checks.bind_eq_ok.1 encoded
  refine Checks.foldlM_keeps (fun artifact port next _ bears added => ?_) .empty encoded
  obtain ⟨words, -, made⟩ := Checks.bind_eq_ok.1 added
  cases made
  have spelled : (portName port.1).toList = 'p' :: ("ort".toList ++ (toString port.1).toList) := by
    simp [portName]
  have hex : (portName port.1 ++ "/hex").toList =
      'p' :: ("ort".toList ++ (toString port.1).toList ++ "/hex".toList) := by
    rw [String.toList_append, spelled, List.cons_append]
  exact (bears.insert (own _ (.of_head hex rfl)) _).insert (own _ (.of_head spelled rfl)) _

theorem Synthesizer.encode_bears {card : Synthesizer}
    (own : ∀ column, Ordinary column → holds column)
    (encoded : card.encode compiled = .ok artifact) : artifact.Bears holds card.name := by
  obtain ⟨device, -, encoded⟩ := Checks.bind_eq_ok.1 encoded
  obtain ⟨outputs, -, encoded⟩ := Checks.bind_eq_ok.1 encoded
  refine Checks.foldlM_keeps (fun artifact output next _ bears added => ?_) .empty encoded
  obtain ⟨id, freq, amp, phase, gate⟩ := output
  have named : ∀ column, holds ("dds" ++ toString id ++ "/" ++ column) := by
    intro column
    have spelled : ("dds" ++ toString id ++ "/" ++ column).toList =
        'd' :: ("ds".toList ++ (toString id).toList ++ "/".toList ++ column.toList) := by
      simp
    exact own _ (.of_head spelled rfl)
  cases freq with
  | none => cases added
  | some freq =>
      cases amp with
      | none => cases added
      | some amp =>
          cases phase with
          | none => cases added
          | some phase =>
              have freqColumn := bears.insert (named "ftw") (.integers (freq.map card.freqWord))
              have ampColumn := freqColumn.insert (named "asf") (.integers (amp.map ampWord))
              have columns := ampColumn.insert (named "pow") (.integers (phase.map phaseWord))
              cases gate with
              | none =>
                  cases added
                  exact columns
              | some gate =>
                  cases added
                  exact columns.insert (named "gate") _

/-- The names of channels that an analog card takes over for its columns. -/
def Card.TakesOver (compiled : Compiled) (card : Card) (channel : String) : Prop :=
  ∃ analog device, card = .analog analog ∧ compiled.device analog.name = .ok device ∧
    device.kind = .analogCard ∧ channel ∈ device.samples.names

/-- An artifact is named after its card.  Its columns have names of the card's own or names of
channels that it takes over. -/
theorem Card.encode_bears {card : Card} (own : ∀ column, Ordinary column → holds column)
    (taken : ∀ channel, card.TakesOver compiled channel → holds channel)
    (encoded : card.encode compiled = .ok artifact) : artifact.Bears holds card.name := by
  cases card with
  | pulse generator => exact PulseGenerator.encode_bears own encoded
  | analog card =>
      obtain ⟨device, found, made⟩ := Checks.bind_eq_ok.1 encoded
      cases made
      refine List.foldlRecOn device.samples.entries _ .empty fun artifact bears entry member => ?_
      obtain ⟨lookup, kind⟩ := Card.sampled_eq_ok.1 found
      exact bears.insert
        (taken entry.1 ⟨card, device, rfl, lookup, kind, List.mem_map_of_mem member⟩) _
  | digital card => exact DigitalCard.encode_bears own encoded
  | synthesizer card => exact Synthesizer.encode_bears own encoded

/-! ### Batches -/

/-- The names that a card takes over are names that an analog card admits. -/
def Card.NamesAdmitted (compiled : Compiled) (card : Card) : Prop :=
  ∀ channel, card.TakesOver compiled channel → DeviceKind.analogCard.admits channel = true

/-- The samples of a device as columns. -/
def Compiled.rawColumns (compiled : Compiled) (name : String) : List (String × Dataset) :=
  match compiled.devices.get? name with
  | none => []
  | some device => device.samples.entries.map fun entry => ("raw/" ++ entry.1, .reals entry.2)

theorem Compiled.rawColumns_distinct (name : String) :
    ((compiled.rawColumns name).map Prod.fst).Nodup := by
  rw [rawColumns]
  cases compiled.devices.get? name with
  | none => exact List.nodup_nil
  | some device =>
      have names : (device.samples.entries.map fun entry =>
          ("raw/" ++ entry.1, Dataset.reals entry.2)).map Prod.fst =
            device.samples.names.map ("raw/" ++ ·) := by
        rw [Registry.names, List.map_map, List.map_map]
        rfl
      dsimp only
      rw [names, List.nodup_map_iff fun _ _ => (String.append_right_inj "raw/").1]
      exact device.samples.distinct

namespace Store

/-- An artifact of a valid card: what the card encodes, and the samples of its device.  Unless an
analog card takes over a name that it would not admit for a channel, the samples come after all
columns of the card, which stay as they were. -/
structure EncodedBy (compiled : Compiled) (card : Card) (artifact : Artifact) : Prop where
  valid : card.validate compiled = .ok ()
  named : artifact.device = card.name
  columns : ∃ encoded, card.encode compiled = .ok encoded ∧
    artifact = encoded.extend (compiled.rawColumns card.name) ∧
    (∀ column ∈ compiled.rawColumns card.name, column ∈ artifact.datasets.entries) ∧
    (card.NamesAdmitted compiled →
      artifact.datasets.entries = encoded.datasets.entries ++ compiled.rawColumns card.name)

/-- A batch of cards is stored: their names are distinct and were new, and their artifacts come in
their order after all artifacts that were stored before. -/
structure Committed (compiled : Compiled) (cards : List Card) (before after : Store) : Prop where
  distinct : (cards.map Card.name).Nodup
  isNew : ∀ card ∈ cards, card.name ∉ before.names
  entries : ∃ artifacts, List.Forall₂ (EncodedBy compiled) cards artifacts ∧
    after.entries = before.entries ++ artifacts.map fun artifact => (artifact.device, artifact)

variable {card : Card} {cards : List Card} {store : Store}

theorem mem_rawColumns {name : String} {column : String × Dataset}
    (member : column ∈ compiled.rawColumns name) : ∃ channel, column.1 = "raw/" ++ channel := by
  rw [Compiled.rawColumns] at member
  split at member
  · cases member
  · obtain ⟨entry, -, rfl⟩ := List.mem_map.1 member
    exact ⟨entry.1, rfl⟩

theorem encodedBy_of_encodeCard (made : encodeCard compiled card = .ok artifact) :
    EncodedBy compiled card artifact := by
  obtain ⟨_, valid, made⟩ := Checks.bind_eq_ok.1 made
  obtain ⟨encoded, encodes, made⟩ := Checks.bind_eq_ok.1 made
  have extended : artifact = encoded.extend (compiled.rawColumns card.name) := by
    rw [Artifact.extend, Compiled.rawColumns]
    cases held : compiled.devices.get? card.name with
    | none =>
        rw [held] at made
        exact (Except.ok.inj made).symm
    | some device =>
        rw [held] at made
        dsimp only
        rw [List.foldl_map]
        exact (Except.ok.inj made).symm
  subst extended
  have distinct := compiled.rawColumns_distinct card.name
  have named : encoded.device = card.name :=
    (Card.encode_bears (fun _ _ => trivial) (fun _ _ => trivial) encodes :
      encoded.Bears (fun _ => True) card.name).device
  refine ⟨valid, Artifact.device_extend.trans named, encoded, encodes, rfl,
    fun column member => Artifact.mem_extend distinct member, fun admitted => ?_⟩
  refine Artifact.entries_extend distinct fun column member taken => ?_
  have ordinary : encoded.Bears Ordinary card.name := by
    refine Card.encode_bears (fun _ ordinary => ordinary) (fun channel takes => ?_) encodes
    obtain ⟨rest, spelled⟩ := ChannelName.analog_head (admitted channel takes)
    exact .of_head spelled rfl
  obtain ⟨channel, same⟩ := mem_rawColumns member
  exact (ordinary.columns column.1 taken).ne_raw channel same

theorem checkNames_eq_ok {seen : List String} :
    checkNames store seen cards = .ok () ↔
      (∀ card ∈ cards, card.name ∉ seen ∧ card.name ∉ store.names) ∧
        (cards.map Card.name).Nodup := by
  induction cards generalizing seen with
  | nil => simp [checkNames]
  | cons card rest ih =>
      rw [checkNames, List.forall_mem_cons, List.map_cons, List.nodup_cons]
      by_cases taken : card.name ∈ seen ∨ card.name ∈ store.names
      · have refused : (decide (card.name ∈ seen) || store.contains card.name) = true := by
          simpa [Registry.contains_iff] using taken
        rw [if_pos refused]
        refine iff_of_false (by simp) fun ⟨⟨⟨notSeen, notStored⟩, _⟩, _⟩ => ?_
        exact taken.elim notSeen notStored
      · have free : ¬ (decide (card.name ∈ seen) || store.contains card.name) = true := by
          simpa [Registry.contains_iff] using taken
        rw [if_neg free, ih]
        obtain ⟨notSeen, notStored⟩ := not_or.1 taken
        constructor
        · rintro ⟨each, distinct⟩
          refine ⟨⟨⟨notSeen, notStored⟩, fun other member => ?_⟩, fun again => ?_, distinct⟩
          · exact ⟨fun seen => (each other member).1 (List.mem_cons_of_mem _ seen),
              (each other member).2⟩
          · obtain ⟨other, member, same⟩ := List.mem_map.1 again
            exact (each other member).1 (same ▸ List.mem_cons_self)
        · rintro ⟨⟨-, each⟩, fresh, distinct⟩
          refine ⟨fun other member => ⟨fun seen => ?_, (each other member).2⟩, distinct⟩
          rcases List.mem_cons.1 seen with same | old
          · exact fresh (List.mem_map.2 ⟨other, member, same⟩)
          · exact (each other member).1 old

theorem run_put : (put artifact).run store =
    if store.contains artifact.device then (.error (.nameTaken artifact.device), store)
    else (.ok (), store.insert artifact.device artifact) := by
  rw [put, Steps.run_bind, Steps.run_get]
  dsimp only
  split <;> rfl

/-- Artifacts under new and distinct names are stored without fail. -/
theorem run_forM_put {artifacts : List Artifact}
    (distinct : (artifacts.map Artifact.device).Nodup)
    (isNew : ∀ artifact ∈ artifacts, artifact.device ∉ store.names) :
    ∃ after, (artifacts.forM put).run store = (.ok (), after) ∧
      after.entries =
        store.entries ++ artifacts.map fun artifact => (artifact.device, artifact) := by
  induction artifacts generalizing store with
  | nil => exact ⟨store, rfl, (List.append_nil _).symm⟩
  | cons artifact rest ih =>
      obtain ⟨notInRest, distinctRest⟩ := List.nodup_cons.1 distinct
      have free : artifact.device ∉ store.names := isNew artifact List.mem_cons_self
      have added : (store.insert artifact.device artifact).entries =
          store.entries ++ [(artifact.device, artifact)] :=
        Registry.entries_insert_new free artifact
      have others : ∀ other ∈ rest,
          other.device ∉ (store.insert artifact.device artifact).names := by
        intro other member
        rw [Registry.names_insert, if_neg free, List.mem_append, not_or]
        refine ⟨isNew other (List.mem_cons_of_mem _ member), fun same => notInRest ?_⟩
        rw [List.mem_singleton] at same
        exact List.mem_map.2 ⟨other, member, same⟩
      obtain ⟨after, ran, entries⟩ := ih distinctRest others
      have notHeld : ¬ store.contains artifact.device = true :=
        fun held => free (Registry.contains_iff.1 held)
      refine ⟨after, ?_, ?_⟩
      · rw [List.forM_eq_forM] at ran ⊢
        rw [List.forM_cons, Steps.run_bind, run_put, if_neg notHeld]
        exact ran
      · rw [entries, added, List.append_assoc]
        rfl

theorem device_of_encodedBy {artifacts : List Artifact}
    (each : List.Forall₂ (EncodedBy compiled) cards artifacts) :
    artifacts.map Artifact.device = cards.map Card.name := by
  induction each with
  | nil => rfl
  | cons encoded _ ih => rw [List.map_cons, List.map_cons, encoded.named, ih]

/-- A batch is stored as a whole, or the store stays as it was. -/
theorem encodeAll_outcome (compiled : Compiled) (cards : List Card) (store : Store) :
    (∃ fault, (encodeAll compiled cards).run store = (.error fault, store)) ∨
      ∃ after, (encodeAll compiled cards).run store = (.ok (cards.map Card.name), after) ∧
        Committed compiled cards store after := by
  rw [encodeAll, Steps.run_bind, Steps.run_get]
  dsimp only
  rw [Steps.run_bind, Steps.run_lift]
  cases checked : checkNames store [] cards with
  | error fault => exact Or.inl ⟨fault, rfl⟩
  | ok _ =>
      dsimp only
      rw [Steps.run_bind, Steps.run_mapM_lift]
      cases made : cards.mapM (encodeCard compiled) with
      | error fault => exact Or.inl ⟨fault, rfl⟩
      | ok artifacts =>
          obtain ⟨free, distinct⟩ := checkNames_eq_ok.1 checked
          have each : List.Forall₂ (EncodedBy compiled) cards artifacts :=
            (Checks.mapM_eq_ok.1 made).imp fun _ _ => encodedBy_of_encodeCard
          have named := device_of_encodedBy each
          have isNew : ∀ artifact ∈ artifacts, artifact.device ∉ store.names := by
            intro artifact member
            have ofCard : artifact.device ∈ cards.map Card.name :=
              named ▸ List.mem_map_of_mem member
            obtain ⟨card, cardIn, same⟩ := List.mem_map.1 ofCard
            exact same ▸ (free card cardIn).2
          obtain ⟨after, ran, entries⟩ := run_forM_put (named ▸ distinct) isNew
          refine Or.inr ⟨after, ?_, distinct, fun card member => (free card member).2, artifacts,
            each, entries⟩
          dsimp only
          rw [Steps.run_bind, ran, named]
          rfl

end Store

/-! ### Experiments -/

namespace Experiment

variable {before after experiment : Experiment}

/-- The channels of every device have names that its kind admits. -/
def Admitted (experiment : Experiment) : Prop :=
  ∀ name device, experiment.device name = .ok device → ∀ channel ∈ device.channels.names,
    device.kind.admits channel = true

theorem admitted_clear : experiment.clear.Admitted ↔ experiment.Admitted := by
  refine forall_device_clear fun device found => ?_
  rw [names_clear]
  rfl

theorem Registration.admitted (registration : Registration before after)
    (admitted : before.Admitted) : after.Admitted := by
  cases registration with
  | device isNew =>
      intro name device lookup channel member
      rcases device_setDevice.1 lookup with ⟨-, rfl⟩ | ⟨-, old⟩
      · cases member
      · exact admitted name device old channel member
  | channel found takes isNew created =>
      intro name device lookup channel member
      rcases device_setDevice.1 lookup with ⟨-, rfl⟩ | ⟨-, old⟩
      · rcases mem_names_setChannel.1 member with rfl | old
        · exact takes
        · exact admitted _ _ found channel old
      · exact admitted name device old channel member

theorem perform_admitted (command : Command) :
    Steps.Keeps (fun experiment => experiment.Named ∧ experiment.Admitted) (perform command) :=
  perform_keeps And.left command
    (fun _ _ _ start registration =>
      ⟨registration.named start.1, registration.admitted start.2⟩)
    fun start recording => ⟨recording.keeps (fun _ => named_clear) start.1,
      recording.keeps (fun _ => admitted_clear) start.2⟩

/-- In a compiled session no card takes over a name that it would not admit. -/
theorem compile_namesAdmitted {stop : Option Float} (admitted : experiment.Admitted)
    (made : experiment.compile stop = .ok compiled) (card : Card) :
    card.NamesAdmitted compiled := by
  rintro channel ⟨analog, device, rfl, lookup, kind, member⟩
  obtain ⟨found, held, same, names⟩ := compile_names made lookup
  rw [names] at member
  have takes := admitted _ found held channel member
  rwa [← same, kind] at takes

theorem session_admitted {clockName : String} {minPeriod : Float} {settings : Settings}
    (made : create clockName minPeriod settings = .ok experiment) (commands : List Command) :
    (experiment.session commands).Admitted :=
  (session_keeps (fun command _ => perform_admitted command)
    ⟨named_create made, fun _ _ lookup => absurd lookup (device_create made)⟩).2

end Experiment

namespace Store

/-- What was compiled is stored as a whole, or the store stays as it was. -/
theorem compileAndEncode_outcome (experiment : Experiment) (stop : Option Float)
    (cards : List Card) (store : Store) :
    (∃ fault, (compileAndEncode experiment stop cards).run store = (.error fault, store)) ∨
      ∃ compiled after, experiment.compile stop = .ok compiled ∧
        (compileAndEncode experiment stop cards).run store = (.ok compiled, after) ∧
        Committed compiled cards store after := by
  rw [compileAndEncode, Steps.run_bind, Steps.run_lift]
  cases made : experiment.compile stop with
  | error fault => exact Or.inl ⟨fault, rfl⟩
  | ok compiled =>
      dsimp only
      rw [Steps.run_bind]
      rcases encodeAll_outcome compiled cards store with ⟨fault, failed⟩ | ⟨after, ran, committed⟩
      · rw [failed]
        exact Or.inl ⟨fault, rfl⟩
      · rw [ran]
        exact Or.inr ⟨compiled, after, rfl, rfl, committed⟩

/-- On any store, compiled experiment and list of cards, a batch fails and leaves the store as it
was, or is stored as a whole, and so is what any experiment compiles to.  After any session of
commands no card takes over a name that it would not admit, so that no column of a card is
overwritten by samples. -/
theorem all_or_nothing :
    (∀ (compiled : Compiled) (cards : List Card) (store : Store),
      (∃ fault, (encodeAll compiled cards).run store = (.error fault, store)) ∨
        ∃ after, (encodeAll compiled cards).run store = (.ok (cards.map Card.name), after) ∧
          Committed compiled cards store after) ∧
    (∀ (experiment : Experiment) (stop : Option Float) (cards : List Card) (store : Store),
      (∃ fault, (compileAndEncode experiment stop cards).run store = (.error fault, store)) ∨
        ∃ compiled after, experiment.compile stop = .ok compiled ∧
          (compileAndEncode experiment stop cards).run store = (.ok compiled, after) ∧
          Committed compiled cards store after) ∧
    ∀ {clockName : String} {minPeriod : Float} {settings : Settings} {new : Experiment}
      {stop : Option Float} {compiled : Compiled} (commands : List Command),
      Experiment.create clockName minPeriod settings = .ok new →
        (new.session commands).compile stop = .ok compiled →
          ∀ card : Card, card.NamesAdmitted compiled := by
  refine ⟨encodeAll_outcome, compileAndEncode_outcome, fun commands made compiles => ?_⟩
  exact Experiment.compile_namesAdmitted (Experiment.session_admitted made commands) compiles

/-- A session that sets a voltage. -/
def voltSession : List Command :=
  [.addDevice "volts" .analogCard .fast, .addAnalogChannel "volts" 0 0,
    .constant "volts" "ao0" 1e-6 1]

/-- The cards of its clock and of its device. -/
def voltCards : List Card :=
  [.pulse { name := "clock", clockFreq := 1e8 }, .analog ⟨"volts", -10, 10, 16, 4096⟩]

/-- Both cards are stored in an empty store, in their order. -/
theorem voltSession_stored : ∃ new compiled after,
    Experiment.create "clock" 1e-7 {} = .ok new ∧
      (compileAndEncode (new.session voltSession) none voltCards).run .empty =
        (.ok compiled, after) ∧
      after.names = ["clock", "volts"] ∧ Committed compiled voltCards .empty after ∧
      ∀ card : Card, card.NamesAdmitted compiled := by
  have run : (Experiment.create "clock" 1e-7 {}).toOption.map (fun new =>
      let ran := (compileAndEncode (new.session voltSession) none voltCards).run .empty
      (ran.1.isOk, Registry.names ran.2)) = some (true, ["clock", "volts"]) := by decide +kernel
  obtain ⟨new, made⟩ := Checks.isOk_iff.1 (by decide +kernel :
    (Experiment.create "clock" 1e-7 {}).isOk = true)
  rw [made] at run
  replace run := Option.some.inj run
  dsimp only at run
  obtain ⟨-, outcome, admitted⟩ := all_or_nothing
  rcases outcome (new.session voltSession) none voltCards .empty with
    ⟨fault, failed⟩ | ⟨compiled, after, compiles, ran, committed⟩
  · rw [failed] at run
    cases run
  · rw [ran] at run
    exact ⟨new, compiled, after, made, ran, (Prod.mk.inj run).2, committed,
      admitted voltSession made compiles⟩

/-- Samples of a device with two channels, of which one is named like a column of samples of the
other.  No analog card admits such a name, but what is compiled can be put together by hand. -/
def shadowed : Compiled where
  clockName := "clock"
  clockMinPeriod := 1e-7
  program := .compress 1e9 1e-8 [.tick 1e-8 true]
  devices := .ofList [("volts",
    ⟨"volts", .analogCard, .fast, .ofList [("x", [1]), ("raw/x", [2])]⟩)]

/-- The card of the device. -/
def shadowedCard : Card :=
  .analog ⟨"volts", -10, 10, 16, 4096⟩

/-- The codes of one channel are overwritten by the samples of the other. -/
theorem shadowed_overwritten :
    (shadowedCard.encode shadowed).toOption.bind (·.datasets.get? "raw/x") =
        some (.integers [39321]) ∧
      ((encodeAll shadowed [shadowedCard]).run .empty).1.toOption = some ["volts"] ∧
      (((encodeAll shadowed [shadowedCard]).run .empty).2.get? "volts").bind
          (·.datasets.get? "raw/x") = some (.reals [1]) := by
  decide +kernel

end Store

end Metronome
