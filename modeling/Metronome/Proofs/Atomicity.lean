/-
Module: Metronome.Proofs.Atomicity
Purpose: A command that fails leaves the experiment as it was, except for the first edge of a pulse.
Trusted boundary: none
Main exports:
  Experiment.FreqFirst, Recorder.addComposite_unchanged, Recorder.tryPart, Recorder.setPart,
  Recorder.run_setComposite, Recorder.setComposite_unchanged, Recorder.pulse_left,
  Experiment.LeftBy, Experiment.session_failed_leftBy
-/
import Metronome.Proofs.Naming
import Metronome.Proofs.Placing
import Metronome.Proofs.Session

/-!
Most commands are one change that succeeds or is not made.  Three are made of several.  The parts of
a composite output are registered one after the other, the frequency first: where no part has been
registered without it, only the first registration can fail.  They are set one after the other as
well, but only after all have been tried, and setting one does not touch the others.  The two edges
of a pulse are recorded one after the other without a trial, so a refused second edge leaves the
first.
-/

namespace Metronome

/-- The commands that name a channel by themselves, past the forms that their device suggests. -/
def Command.isDirect : Command → Bool
  | .addChannel .. => true
  | _ => false

namespace Experiment

variable {before after experiment : Experiment} {device : String} {id : Nat} {part : Part}

/-- No part of a composite output is registered before its frequency. -/
def FreqFirst (experiment : Experiment) : Prop :=
  ∀ device found, experiment.device device = .ok found → found.kind = .synthesizer →
    ∀ id part, ChannelName.part id part ∈ found.channels.names →
      ChannelName.part id .freq ∈ found.channels.names

/-! ### The frequency comes first -/

theorem freqFirst_clear : experiment.clear.FreqFirst ↔ experiment.FreqFirst := by
  refine forall_device_clear fun device found => ?_
  rw [names_clear]
  rfl

/-- A device that is no synthesizer may change in any way. -/
theorem FreqFirst.setDevice (first : before.FreqFirst) {changed : Device}
    (kept : changed.kind = .synthesizer → ∀ id part,
      ChannelName.part id part ∈ changed.channels.names →
        ChannelName.part id .freq ∈ changed.channels.names) :
    (before.setDevice changed).FreqFirst := by
  intro device found lookup synthesizer
  rcases device_setDevice.1 lookup with ⟨-, rfl⟩ | ⟨-, old⟩
  · exact kept synthesizer
  · exact first device found old synthesizer

/-- A part may be registered as a frequency, or where its frequency is registered. -/
theorem FreqFirst.addPart (first : before.FreqFirst)
    (made : before.addTypedChannel device .synthesizer (ChannelName.part id part) 0 = .ok after)
    (leads : part = .freq ∨ ∃ found, before.device device = .ok found ∧
      ChannelName.part id .freq ∈ found.channels.names) : after.FreqFirst := by
  obtain ⟨found, channel, lookup, -, -, -, -, rfl⟩ := addTypedChannel_eq_ok.1 made
  refine first.setDevice fun synthesizer otherId other member => ?_
  rw [mem_names_setChannel] at member ⊢
  rcases member with same | old
  · obtain ⟨rfl, rfl⟩ := ChannelName.part_injective same
    rcases leads with rfl | ⟨held, heldLookup, registered⟩
    · exact Or.inl rfl
    · rw [lookup] at heldLookup
      cases heldLookup
      exact Or.inr registered
  · exact Or.inr (first device found lookup synthesizer otherId other old)

/-- A channel of another card is no part of a composite output. -/
theorem FreqFirst.addOther (first : before.FreqFirst) {kind : DeviceKind} {name : String}
    {default : Float} (other : kind ≠ .synthesizer)
    (made : before.addTypedChannel device kind name default = .ok after) : after.FreqFirst := by
  obtain ⟨found, channel, lookup, same, -, -, -, rfl⟩ := addTypedChannel_eq_ok.1 made
  exact first.setDevice fun synthesizer => absurd (same.symm.trans synthesizer) other

end Experiment

namespace Recorder

open Experiment

variable {before after : Experiment} {device : String} {id : Nat} {fault : Fault}

/-- A change that fails is not made. -/
theorem atomic_unchanged {change : Experiment → Except Fault Experiment}
    (failed : ((atomic change).run before).1 = .error fault) :
    ((atomic change).run before).2 = before := by
  rw [run_atomic] at failed ⊢
  cases changed : change before with
  | error other => rfl
  | ok after =>
      rw [changed] at failed
      cases failed

/-! ### Composite outputs -/

/-- Parts that are new to a synthesizer are registered without fail. -/
theorem run_addParts {parts : List Part} (distinct : parts.Nodup) {found : Device}
    (lookup : before.device device = .ok found) (named : found.name = device)
    (synthesizer : found.kind = .synthesizer)
    (isNew : ∀ part ∈ parts, ChannelName.part id part ∉ found.channels.names) :
    ∃ after, (parts.forM fun part => atomic fun experiment =>
      experiment.addTypedChannel device .synthesizer (ChannelName.part id part) 0).run before =
        (.ok (), after) := by
  induction parts generalizing before found with
  | nil => exact ⟨before, rfl⟩
  | cons part rest ih =>
      obtain ⟨notInRest, distinctRest⟩ := List.nodup_cons.1 distinct
      have created : ∃ channel, Channel.create found.name (ChannelName.part id part)
          (found.kind.channelKind (ChannelName.part id part)) 0 found.timeBase = .ok channel :=
        ⟨_, Channel.create_eq_ok.2 ⟨Channel.checkValue_eq_ok.2 ⟨by decide +kernel,
          fun _ => Or.inl (by decide +kernel)⟩, rfl⟩⟩
      obtain ⟨channel, created⟩ := created
      have added : before.addTypedChannel device .synthesizer (ChannelName.part id part) 0 =
          .ok (before.setDevice (found.setChannel (ChannelName.part id part) channel)) :=
        addTypedChannel_eq_ok.2 ⟨found, channel, lookup, synthesizer,
          by rw [synthesizer]; exact ChannelName.admits_part id part,
          isNew part List.mem_cons_self, created, rfl⟩
      have others : ∀ other ∈ rest, ChannelName.part id other ∉
          (found.setChannel (ChannelName.part id part) channel).channels.names := by
        intro other member registered
        rcases mem_names_setChannel.1 registered with same | old
        · exact notInRest ((ChannelName.part_injective same).2 ▸ member)
        · exact isNew other (List.mem_cons_of_mem _ member) old
      have registered : (before.setDevice (found.setChannel (ChannelName.part id part)
          channel)).device device = .ok (found.setChannel (ChannelName.part id part) channel) :=
        device_setDevice.2 (Or.inl ⟨named.symm, rfl⟩)
      obtain ⟨after, ran⟩ := ih distinctRest registered named synthesizer others
      refine ⟨after, ?_⟩
      rw [List.forM_eq_forM] at ran ⊢
      rw [List.forM_cons, Steps.run_bind, run_atomic, added]
      exact ran

/-- The parts of a composite output are registered all or not at all. -/
theorem addComposite_unchanged (named : before.Named) (first : before.FreqFirst) {gate : Bool}
    (failed : ((addComposite device id gate).run before).1 = .error fault) :
    ((addComposite device id gate).run before).2 = before := by
  obtain ⟨rest, parts, distinct, notFreq⟩ : ∃ rest : List Part,
      [Part.freq, .amp, .phase] ++ (if gate then [Part.gate] else []) = .freq :: rest ∧
        rest.Nodup ∧ Part.freq ∉ rest := by
    cases gate <;> exact ⟨_, rfl, by decide, by decide⟩
  rw [addComposite, parts] at failed ⊢
  rw [List.forM_eq_forM, List.forM_cons, Steps.run_bind, run_atomic] at failed ⊢
  cases added : before.addTypedChannel device .synthesizer (ChannelName.part id .freq) 0 with
  | error other => rfl
  | ok after =>
      obtain ⟨found, channel, lookup, synthesizer, -, isNew, -, rfl⟩ :=
        addTypedChannel_eq_ok.1 added
      have ownName : found.name = device := named.devices lookup
      have others : ∀ other ∈ rest, ChannelName.part id other ∉
          (found.setChannel (ChannelName.part id .freq) channel).channels.names := by
        intro other member registered
        rcases mem_names_setChannel.1 registered with same | old
        · exact notFreq ((ChannelName.part_injective same).2 ▸ member)
        · exact isNew (first device found lookup synthesizer id other old)
      have registered : (before.setDevice (found.setChannel (ChannelName.part id .freq)
          channel)).device device = .ok (found.setChannel (ChannelName.part id .freq) channel) :=
        device_setDevice.2 (Or.inl ⟨ownName.symm, rfl⟩)
      obtain ⟨after, ran⟩ := run_addParts distinct registered ownName synthesizer others
      rw [List.forM_eq_forM] at ran
      rw [added] at failed
      dsimp only at failed
      rw [ran] at failed
      cases failed

/-- Sets a part of a composite output to a value at a time. -/
def setPart (device : String) (id : Nat) (t : Float) (entry : Part × Float) : Recorder Unit :=
  atomic fun experiment =>
    experiment.recordTyped device (ChannelName.part id entry.1) .analog (.constant entry.2) t none

/-- Parts that each admit their value are set without fail. -/
theorem run_setParts {values : List (Part × Float)} {t : Float} (named : before.Named)
    (distinct : (values.map Prod.fst).Nodup)
    (admitted : ∀ entry ∈ values, ∃ channel added,
      before.typedChannel device (ChannelName.part id entry.1) .analog = .ok channel ∧
        channel.place (.constant entry.2) t none = .ok added) :
    ∃ after, (values.forM (setPart device id t)).run before = (.ok (), after) := by
  induction values generalizing before with
  | nil => exact ⟨before, rfl⟩
  | cons entry rest ih =>
      obtain ⟨part, value⟩ := entry
      obtain ⟨notInRest, distinctRest⟩ := List.nodup_cons.1 distinct
      obtain ⟨channel, added, typed, placed⟩ := admitted (part, value) List.mem_cons_self
      have recorded := (recordTyped_eq_ok named).2 ⟨channel, added, typed, placed, rfl⟩
      have recording := Recording.adjust (typedChannel_eq_ok.1 typed).1 placed
      have others : ∀ entry ∈ rest, ∃ channel added',
          (before.adjust device (ChannelName.part id part) (Channel.insert · added)).typedChannel
            device (ChannelName.part id entry.1) .analog = .ok channel ∧
          channel.place (.constant entry.2) t none = .ok added' := by
        intro entry member
        obtain ⟨other, otherAdded, otherTyped, otherPlaced⟩ :=
          admitted entry (List.mem_cons_of_mem _ member)
        obtain ⟨otherFound, analog⟩ := typedChannel_eq_ok.1 otherTyped
        refine ⟨other, otherAdded, typedChannel_eq_ok.2 ⟨?_, analog⟩, otherPlaced⟩
        rw [channel_adjust_of_ne, otherFound]
        rintro ⟨-, same⟩
        exact notInRest (List.mem_map.2 ⟨entry, member, (ChannelName.part_injective same).2⟩)
      obtain ⟨after, ran⟩ := ih (recording.keeps (fun _ => named_clear) named) distinctRest others
      refine ⟨after, ?_⟩
      rw [List.forM_eq_forM] at ran ⊢
      rw [List.forM_cons, Steps.run_bind, setPart, run_atomic, recorded]
      exact ran

/-- Tries whether a part of a composite output takes a value at a time. -/
def tryPart (experiment : Experiment) (device : String) (id : Nat) (t : Float)
    (entry : Part × Float) : Except Fault Unit := do
  let channel ← experiment.typedChannel device (ChannelName.part id entry.1) .analog
  let _ ← channel.place (.constant entry.2) t none

theorem tryPart_eq_ok {t : Float} {entry : Part × Float} :
    tryPart before device id t entry = .ok () ↔ ∃ channel added,
      before.typedChannel device (ChannelName.part id entry.1) .analog = .ok channel ∧
        channel.place (.constant entry.2) t none = .ok added := by
  rw [tryPart, Checks.bind_eq_ok]
  refine exists_congr fun channel => ?_
  simp only [Checks.bind_eq_ok, exists_and_left]
  exact and_congr_right fun _ => exists_congr fun added => and_iff_left rfl

/-- The parts of a composite output are set after all of them have been tried, on the experiment as
it was. -/
theorem run_setComposite (t freq amp phase : Float) :
    (setComposite device id t freq amp phase).run before =
      match (compositeValues freq amp phase).forM (tryPart before device id t) with
      | .ok _ => ((compositeValues freq amp phase).forM (setPart device id t)).run before
      | .error fault => (.error fault, before) := by
  have reads : ∀ entry : Part × Float, (do
      let channel ← before.typedChannel device (ChannelName.part id entry.1) .analog
      let _ ← channel.place (.constant entry.2) t none : Recorder Unit).run before =
        (tryPart before device id t entry, before) := by
    intro entry
    rw [tryPart, Steps.run_bind, Steps.run_lift]
    cases before.typedChannel device (ChannelName.part id entry.1) .analog with
    | error other => rfl
    | ok channel =>
        dsimp only
        rw [Steps.run_bind, Steps.run_lift]
        cases placed : channel.place (.constant entry.2) t none with
        | error other => simp [bind, Except.bind, placed]
        | ok added => simp [bind, Except.bind, placed]; rfl
  rw [setComposite, Steps.run_bind, Steps.run_get]
  dsimp only
  rw [Steps.run_bind, Steps.run_forM_of_reads reads]
  cases (compositeValues freq amp phase).forM (tryPart before device id t) <;> rfl

/-- The parts of a composite output are set all or not at all. -/
theorem setComposite_unchanged (named : before.Named) {t freq amp phase : Float}
    (failed : ((setComposite device id t freq amp phase).run before).1 = .error fault) :
    ((setComposite device id t freq amp phase).run before).2 = before := by
  rw [run_setComposite] at failed ⊢
  cases tried : (compositeValues freq amp phase).forM (tryPart before device id t) with
  | error other => rfl
  | ok _ =>
      have admitted := fun entry member =>
        tryPart_eq_ok.1 (Checks.forM_eq_ok.1 tried entry member)
      obtain ⟨after, ran⟩ := run_setParts named
        (by simp [compositeValues] : ((compositeValues freq amp phase).map Prod.fst).Nodup) admitted
      rw [tried] at failed
      dsimp only at failed
      rw [ran] at failed
      cases failed

/-! ### Pulses -/

/-- A pulse fails at its first edge, and changes nothing, or at its second one, and keeps the
first. -/
theorem pulse_left {name : String} {high : Bool} {t duration : Float}
    (failed : ((pulse device name high t duration).run before).1 = .error fault) :
    let after := ((pulse device name high t duration).run before).2
    after = before ∧ (∃ refusal, before.setLevel device name high t = .error refusal) ∨
      before.setLevel device name high t = .ok after ∧
        ∃ refusal, after.setLevel device name (!high) (t + duration) = .error refusal := by
  rw [pulse, Steps.run_bind, run_atomic] at failed ⊢
  cases edge : before.setLevel device name high t with
  | error refusal => exact Or.inl ⟨rfl, refusal, rfl⟩
  | ok middle =>
      rw [edge] at failed
      dsimp only at failed ⊢
      rw [run_atomic] at failed ⊢
      cases second : middle.setLevel device name (!high) (t + duration) with
      | ok after =>
          rw [second] at failed
          cases failed
      | error refusal => exact Or.inr ⟨rfl, refusal, second⟩

end Recorder

/-! ### Sessions -/

namespace Experiment

variable {before after experiment : Experiment} {device name : String} {id : Nat} {t : Float}

/-- The frequency of a composite output is registered. -/
def Leads (device : String) (id : Nat) (experiment : Experiment) : Prop :=
  ∃ found, experiment.device device = .ok found ∧
    ChannelName.part id .freq ∈ found.channels.names

/-- Once the frequency is registered, the registration of any part keeps it so. -/
theorem keeps_addPart (part : Part) :
    Steps.Keeps (fun experiment => experiment.FreqFirst ∧ experiment.Leads device id)
      (Recorder.atomic fun experiment =>
        experiment.addTypedChannel device .synthesizer (ChannelName.part id part) 0) := by
  refine Recorder.keeps_atomic fun before after start made =>
    ⟨start.1.addPart made (Or.inr start.2), ?_⟩
  obtain ⟨-, found, lookup, leads⟩ := start
  obtain ⟨held, channel, heldLookup, -, -, -, -, rfl⟩ := addTypedChannel_eq_ok.1 made
  rw [lookup] at heldLookup
  cases heldLookup
  by_cases same : device = found.name
  · exact ⟨_, device_setDevice.2 (Or.inl ⟨same, rfl⟩), mem_names_setChannel.2 (Or.inr leads)⟩
  · exact ⟨found, device_setDevice.2 (Or.inr ⟨same, lookup⟩), leads⟩

theorem addComposite_freqFirst (named : before.Named) (first : before.FreqFirst) (gate : Bool) :
    ((Recorder.addComposite device id gate).run before).2.FreqFirst := by
  have parts : [Part.freq, .amp, .phase] ++ (if gate then [Part.gate] else []) =
      .freq :: ([Part.amp, .phase] ++ if gate then [Part.gate] else []) := rfl
  rw [Recorder.addComposite, parts, List.forM_eq_forM, List.forM_cons, Steps.run_bind,
    Recorder.run_atomic]
  cases added : before.addTypedChannel device .synthesizer (ChannelName.part id .freq) 0 with
  | error fault => exact first
  | ok middle =>
      have leads : middle.Leads device id := by
        obtain ⟨found, channel, lookup, -, -, -, -, rfl⟩ := addTypedChannel_eq_ok.1 added
        exact ⟨_, device_setDevice.2 (Or.inl ⟨(named.devices lookup).symm, rfl⟩),
          mem_names_setChannel.2 (Or.inl rfl)⟩
      exact (Steps.keeps_forM _ (fun part _ => keeps_addPart part) middle
        ⟨first.addPart added (Or.inl rfl), leads⟩).1

/-- Every command but the direct registration of a channel keeps the frequency of each composite
output first. -/
theorem perform_freqFirst {command : Command} (indirect : command.isDirect = false) :
    Steps.Keeps (fun experiment => experiment.Named ∧ experiment.FreqFirst) (perform command) := by
  cases registers : command.isRegistration with
  | false =>
      refine perform_keeps And.left command (fun yes => ?_) fun start recording =>
        ⟨recording.keeps (fun _ => named_clear) start.1,
          recording.keeps (fun _ => freqFirst_clear) start.2⟩
      rw [registers] at yes
      cases yes
  | true =>
      intro before start
      refine ⟨perform_named command before start.1, ?_⟩
      cases command with
      | addDevice name kind line =>
          refine Recorder.keeps_atomic (fun before after first made => ?_) before start.2
          obtain ⟨-, rfl⟩ := addDevice_eq_ok.1 made
          exact first.setDevice fun _ id part member => absurd member List.not_mem_nil
      | addAnalogChannel device id default =>
          exact Recorder.keeps_atomic (fun before after first made =>
            first.addOther (by decide) made) before start.2
      | addDigitalChannel device port line default =>
          exact Recorder.keeps_atomic (fun before after first made =>
            first.addOther (by decide) made) before start.2
      | addComposite device id gate => exact addComposite_freqFirst start.1 start.2 gate
      | addChannel device name default => cases indirect
      | _ => cases registers

/-- Two experiments differ by one level that is set at a time on a digital channel, where no
instruction started before. -/
def DiffersByLevel (before : Experiment) (device name : String) (high : Bool) (t : Float)
    (after : Experiment) : Prop :=
  ∃ channel added, before.typedChannel device name .digital = .ok channel ∧
    TimeGrid.position t channel.timeBase channel.output = .ok added.start ∧
    added.ramp = none ∧ added.instruction = .constant (if high then 1 else 0) ∧
    (∀ present ∈ channel.timeline.items, present.start ≠ added.start) ∧
    (∀ placement, placement ∈ (channel.insert added).timeline.items ↔
      placement = added ∨ placement ∈ channel.timeline.items) ∧
    after = before.adjust device name (Channel.insert · added)

theorem differsByLevel_of_setLevel (named : before.Named) {high : Bool}
    (made : before.setLevel device name high t = .ok after) :
    before.DiffersByLevel device name high t after := by
  obtain ⟨channel, added, typed, placed, rfl⟩ := (recordTyped_eq_ok named).1 made
  have admits := Channel.place_eq_ok.1 placed
  have distinct := Timeline.starts_ne admits.free
  exact ⟨channel, added, typed, admits.starts, (admits.constant rfl).1, admits.holds, distinct,
    fun placement => Ordered.mem_insert_iff distinct, rfl⟩

/-- What a failed command leaves behind: what was there, except for a pulse whose first edge was
admitted and whose second one was not, which leaves the first edge. -/
def LeftBy (before : Experiment) : Command → Experiment → Prop
  | .pulse device name high t duration, after =>
      after = before ∧ (∃ refusal, before.setLevel device name high t = .error refusal) ∨
        before.DiffersByLevel device name high t after ∧
          before.setLevel device name high t = .ok after ∧
            ∃ refusal, after.setLevel device name (!high) (t + duration) = .error refusal
  | _, after => after = before

theorem after_failed {command : Command} {fault : Fault}
    (failed : (before.after command).2 = some fault) :
    ((perform command).run before).1 = .error fault := by
  rw [Experiment.after] at failed
  rcases ran : (perform command).run before with ⟨result, reached⟩
  rw [ran] at failed
  cases result with
  | error other =>
      cases failed
      rfl
  | ok _ => cases failed

/-- In every session without direct registrations a command that fails leaves the experiment as it
was, or, being a pulse, with its first edge more. -/
theorem session_failed_leftBy {clockName : String} {minPeriod : Float} {settings : Settings}
    (made : create clockName minPeriod settings = .ok experiment) {commands : List Command}
    (indirect : ∀ command ∈ commands, command.isDirect = false) {command : Command} {fault : Fault}
    (failed : ((experiment.session commands).after command).2 = some fault) :
    (experiment.session commands).LeftBy command
      ((experiment.session commands).after command).1 := by
  have invariant : (experiment.session commands).Named ∧ (experiment.session commands).FreqFirst :=
    session_keeps (fun command member => perform_freqFirst (indirect command member))
      ⟨named_create made, fun device found lookup => absurd lookup (device_create made)⟩
  obtain ⟨named, first⟩ := invariant
  generalize experiment.session commands = before at *
  have ran := after_failed failed
  rw [after_fst]
  cases command with
  | addComposite device id gate => exact Recorder.addComposite_unchanged named first ran
  | setComposite device id t freq amp phase => exact Recorder.setComposite_unchanged named ran
  | pulse device name high t duration =>
      rcases Recorder.pulse_left ran with ⟨unchanged, refused⟩ | ⟨edge, refused⟩
      · exact Or.inl ⟨unchanged, refused⟩
      · exact Or.inr ⟨differsByLevel_of_setLevel named edge, edge, refused⟩
  | _ => exact Recorder.atomic_unchanged ran

/-- A session after which the level of a digital channel is set at one time. -/
def levelSession : List Command :=
  [.addDevice "gates" .digitalCard .fast, .addDigitalChannel "gates" 0 0 0,
    .level "gates" "port0/line0" true 3e-6]

/-- A pulse that would end at that time fails and leaves its first edge, an instruction more. -/
theorem levelSession_pulse_leftBy : ∃ new fault, create "clock" 1e-7 {} = .ok new ∧
    let pulse := Command.pulse "gates" "port0/line0" true 1e-6 2e-6
    let before := new.session levelSession
    (∀ command ∈ levelSession, command.isDirect = false) ∧
    (before.after pulse).2 = some fault ∧
    (before.after pulse).1.channels.map (fun channel => channel.timeline.items.length) = [2] ∧
    before.LeftBy pulse (before.after pulse).1 := by
  have run : (create "clock" 1e-7 {}).toOption.map (fun new =>
      let after := (new.session levelSession).after
        (.pulse "gates" "port0/line0" true 1e-6 2e-6)
      (after.2.isSome, after.1.channels.map fun channel => channel.timeline.items.length)) =
        some (true, [2]) := by decide +kernel
  obtain ⟨new, made⟩ := Checks.isOk_iff.1 (by decide +kernel :
    (create "clock" 1e-7 {}).isOk = true)
  rw [made] at run
  obtain ⟨failed, counts⟩ := Prod.mk.inj (Option.some.inj run)
  obtain ⟨fault, failed⟩ := Option.isSome_iff_exists.1 failed
  have indirect : ∀ command ∈ levelSession, command.isDirect = false := by decide
  exact ⟨new, fault, made, indirect, failed, counts,
    session_failed_leftBy made indirect failed⟩

end Experiment
end Metronome
