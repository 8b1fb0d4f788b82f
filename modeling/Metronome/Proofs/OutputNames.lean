/-
Module: Metronome.Proofs.OutputNames
Purpose: The name of an output tells its device and its channel, although device names may have
  slashes in them.
Trusted boundary: none
Main exports:
  ChannelName.append_slash_inj, ChannelName.rest_of_admits, ChannelName.output_injective,
  Experiment.Registered.output_injective
-/
import Metronome.Proofs.Naming
import Metronome.Proofs.Registered

/-!
An output is reported as its device's name, a slash, and its channel's name.  A channel's name has
at most one slash itself, and what follows it is no channel's name, so that only one of the slashes
can be the one in between.
-/

namespace Metronome

namespace ChannelName

variable {name digits before rest : List Char}

/-- A character is at two places of a list only if one is before the other. -/
theorem append_cons_cases {first second third fourth : List Char} {c : Char}
    (same : first ++ c :: second = third ++ c :: fourth) :
    (first = third ∧ second = fourth) ∨
      (∃ between, second = between ++ c :: fourth) ∨ ∃ between, fourth = between ++ c :: second := by
  rcases List.append_eq_append_iff.1 same with ⟨more, -, split⟩ | ⟨more, -, split⟩
  · cases more with
    | nil =>
        refine Or.inl ⟨?_, (List.cons.inj split).2⟩
        rw [(List.cons.inj split).2] at same
        exact List.append_cancel_right same
    | cons d more =>
        obtain ⟨rfl, rfl⟩ := List.cons.inj split
        exact Or.inr (Or.inl ⟨more, rfl⟩)
  · cases more with
    | nil =>
        refine Or.inl ⟨?_, (List.cons.inj split).2.symm⟩
        rw [(List.cons.inj split).2] at same
        exact List.append_cancel_right same
    | cons d more =>
        obtain ⟨rfl, rfl⟩ := List.cons.inj split
        exact Or.inr (Or.inr ⟨more, rfl⟩)

/-- A list with a single slash can be split there in one way. -/
theorem append_slash_inj {front back : List Char} (inFront : '/' ∉ front) (inBack : '/' ∉ back)
    (same : front ++ '/' :: back = before ++ '/' :: rest) : front = before ∧ back = rest := by
  rcases append_cons_cases same with split | ⟨between, rfl⟩ | ⟨between, rfl⟩
  · exact split
  · simp at inBack
  · rw [← List.cons_append, ← List.append_assoc] at same
    rw [List.append_cancel_right same] at inFront
    simp at inFront

theorem digits?_eq_some (found : digits? name = some (digits, rest)) :
    name = digits ++ rest ∧ '/' ∉ digits := by
  rw [digits?] at found
  split at found
  · cases found
  · cases found
    refine ⟨List.takeWhile_append_dropWhile.symm, fun slash => ?_⟩
    have digit := List.all_eq_true.1 List.all_takeWhile _ slash
    rw [isDecimalDigit_slash] at digit
    cases digit

/-- A number at the end of an analog channel's name has no slash in it. -/
theorem analogDigits?_eq_some {text : String} {number : List Char}
    (read : analogDigits? text = some number) :
    text.toList = "ao".toList ++ number ∧ '/' ∉ number := by
  simp only [analogDigits?, Option.bind_eq_bind, Option.bind_eq_some_iff] at read
  obtain ⟨ending, letters, ⟨digits, rest⟩, found, finished⟩ := read
  obtain ⟨rfl, noSlash⟩ := digits?_eq_some found
  split at finished
  · rename_i empty
    obtain rfl := List.isEmpty_iff.1 empty
    cases finished
    exact ⟨by simpa using after?_eq_some_iff.1 letters, noSlash⟩
  · cases finished

theorem lineDigits?_eq_some {text : String} {port line : List Char}
    (read : lineDigits? text = some (port, line)) :
    text.toList = ("port".toList ++ port) ++ '/' :: ("line".toList ++ line) ∧
      '/' ∉ port ∧ '/' ∉ line := by
  simp only [lineDigits?, Option.bind_eq_bind, Option.bind_eq_some_iff] at read
  obtain ⟨afterPort, letters, ⟨digits, middle⟩, found, afterLine, separated, ⟨others, rest⟩, next,
    finished⟩ := read
  obtain ⟨rfl, noSlash⟩ := digits?_eq_some found
  obtain ⟨rfl, noOther⟩ := digits?_eq_some next
  split at finished
  · rename_i empty
    obtain rfl := List.isEmpty_iff.1 empty
    obtain rfl := after?_eq_some_iff.1 separated
    cases finished
    exact ⟨by simpa using after?_eq_some_iff.1 letters, noSlash, noOther⟩
  · cases finished

theorem partDigits?_eq_some {text : String} {number : List Char} {part : Part}
    (read : partDigits? text = some (number, part)) :
    text.toList = ("dds".toList ++ number) ++ '/' :: part.label.toList ∧ '/' ∉ number := by
  simp only [partDigits?, Option.bind_eq_bind, Option.bind_eq_some_iff] at read
  obtain ⟨ending, letters, ⟨digits, rest⟩, found, other, isPart, same⟩ := read
  obtain ⟨rfl, noSlash⟩ := digits?_eq_some found
  cases same
  have label := List.find?_some isPart
  obtain rfl : '/' :: part.label.toList = rest := of_decide_eq_true label
  exact ⟨by simpa using after?_eq_some_iff.1 letters, noSlash⟩

theorem slash_not_mem_label (part : Part) : '/' ∉ part.label.toList := by
  cases part <;> decide

/-- What follows a slash in a name that a device admits is the number of a line or a part. -/
theorem rest_of_admits {kind : DeviceKind} {text : String} (admitted : kind.admits text = true)
    (slash : text.toList = before ++ '/' :: rest) :
    (∃ digits, rest = "line".toList ++ digits) ∨ ∃ part : Part, rest = part.label.toList := by
  cases kind with
  | analogCard =>
      obtain ⟨number, read⟩ := Option.isSome_iff_exists.1 admitted
      obtain ⟨spelled, noSlash⟩ := analogDigits?_eq_some read
      have member : '/' ∈ "ao".toList ++ number := by
        rw [← spelled, slash]
        simp
      simp [noSlash] at member
  | digitalCard =>
      obtain ⟨⟨port, line⟩, read⟩ := Option.isSome_iff_exists.1 admitted
      obtain ⟨spelled, noSlash, noOther⟩ := lineDigits?_eq_some read
      rw [spelled] at slash
      obtain ⟨-, rfl⟩ := append_slash_inj (by simpa using noSlash) (by simpa using noOther) slash
      exact Or.inl ⟨line, rfl⟩
  | synthesizer =>
      obtain ⟨⟨number, part⟩, read⟩ := Option.isSome_iff_exists.1 admitted
      obtain ⟨spelled, noSlash⟩ := partDigits?_eq_some read
      rw [spelled] at slash
      obtain ⟨-, rfl⟩ := append_slash_inj (by simpa using noSlash) (slash_not_mem_label part) slash
      exact Or.inr ⟨part, rfl⟩

/-- No device admits a line without its port, nor a part without its number. -/
theorem not_admits_rest {kind : DeviceKind} {text : String}
    (tail : (∃ digits, text.toList = "line".toList ++ digits) ∨
      ∃ part : Part, text.toList = part.label.toList) :
    kind.admits text = false := by
  rcases tail with ⟨digits, spelled⟩ | ⟨part, spelled⟩
  · cases kind <;>
      simp [DeviceKind.admits, analogDigits?, lineDigits?, partDigits?, spelled, after?]
  · rw [String.toList_injective spelled]
    cases part <;> cases kind <;> rfl

/-- Of two outputs with the same name, the device of one does not have more in front of its slash. -/
theorem not_longer {kind other : DeviceKind} {text otherText : String} {between : List Char}
    (admitted : kind.admits text = true) (otherAdmitted : other.admits otherText = true) :
    text.toList ≠ between ++ '/' :: otherText.toList := by
  intro slash
  rw [not_admits_rest (rest_of_admits admitted slash)] at otherAdmitted
  cases otherAdmitted

/-- Outputs of the same name are the same channel of the same device. -/
theorem output_injective {kind otherKind : DeviceKind} {device name otherDevice otherName : String}
    (admitted : kind.admits name = true) (otherAdmitted : otherKind.admits otherName = true)
    (same : device ++ "/" ++ name = otherDevice ++ "/" ++ otherName) :
    device = otherDevice ∧ name = otherName := by
  have spelled : device.toList ++ '/' :: name.toList =
      otherDevice.toList ++ '/' :: otherName.toList := by
    simpa using congrArg String.toList same
  -- If the slashes in between differ, the later one is in a channel's name.
  rcases append_cons_cases spelled with ⟨devices, names⟩ | ⟨between, longer⟩ | ⟨between, longer⟩
  · exact ⟨String.toList_injective devices, String.toList_injective names⟩
  · exact absurd longer (not_longer admitted otherAdmitted)
  · exact absurd longer (not_longer otherAdmitted admitted)

end ChannelName

/-- Channels of an experiment with the same output name are registered under the same names. -/
theorem Experiment.Registered.output_injective {experiment : Experiment} {settings : Settings}
    (registered : experiment.Registered settings) (named : experiment.Named)
    {device name otherDevice otherName : String} {channel other : Channel}
    (lookup : experiment.channel device name = .ok channel)
    (otherLookup : experiment.channel otherDevice otherName = .ok other)
    (same : channel.output = other.output) : device = otherDevice ∧ name = otherName := by
  have spelled : ∀ {device name channel}, experiment.channel device name = .ok channel →
      channel.output = device ++ "/" ++ name ∧ ∃ kind : DeviceKind, kind.admits name = true := by
    intro device name channel lookup
    obtain ⟨found, held, member⟩ := channel_eq_ok.1 lookup
    have rules := (registered.devices device found held).channels member
    rw [Channel.output, rules.device, named.devices held, named.channels lookup]
    exact ⟨rfl, found.kind, rules.admitted⟩
  obtain ⟨output, kind, admitted⟩ := spelled lookup
  obtain ⟨otherOutput, otherKind, otherAdmitted⟩ := spelled otherLookup
  rw [output, otherOutput] at same
  exact ChannelName.output_injective admitted otherAdmitted same

end Metronome
