/-
Module: Metronome.Proofs.Naming
Purpose: The names of digital lines and of the parts of composite outputs read back, and the first
  letter of the names that an analog card admits.
Trusted boundary: none
Main exports:
  ChannelName.after?_eq_some_iff, ChannelName.partDigits?_part, ChannelName.numbered_injective,
  ChannelName.part_injective, ChannelName.admits_part, ChannelName.partNumber_part,
  ChannelName.lineNumbers_line, ChannelName.line_injective, ChannelName.analog_head
-/
import Metronome.Channel.Name

/-!
A name is read from the front: a fixed beginning, a run of digits, a fixed rest.  The names of lines
and parts are written in the same form, and their digits are followed by a slash, which is none, or
by nothing, so the run ends where it was written to end.  A number that is a word is read from its
digits.
-/

namespace Metronome.ChannelName

theorem after?_eq_some_iff {fixed name rest : List Char} :
    after? fixed name = some rest ↔ name = fixed ++ rest := by
  induction fixed generalizing name with
  | nil => simp [after?]
  | cons c fixed ih =>
      cases name with
      | nil => simp [after?]
      | cons d name =>
          rw [after?]
          by_cases same : c = d
          · simp [same, ih]
          · simp [same, Ne.symm same]

/-- The digits that numbers are written in are decimal digits. -/
theorem isDecimalDigit_of_isDigit {c : Char} (digit : c.isDigit = true) :
    Text.isDecimalDigit c = true := by
  obtain ⟨low, high⟩ := Char.isDigit_iff_toNat.1 digit
  refine List.any_eq_true.2 ⟨0x30, List.mem_cons_self, ?_⟩
  rw [Bool.and_eq_true, decide_eq_true_eq, decide_eq_true_eq]
  exact ⟨low, high⟩

theorem isDecimalDigit_slash : Text.isDecimalDigit '/' = false := by decide +kernel

/-- The run of digits of a written number ends where the number does. -/
theorem digits?_toDigits (id : Nat) {rest : List Char}
    (ends : ∀ c ∈ rest.head?, Text.isDecimalDigit c = false) :
    digits? (Nat.toDigits 10 id ++ rest) = some (Nat.toDigits 10 id, rest) := by
  have digits : ∀ c ∈ Nat.toDigits 10 id, Text.isDecimalDigit c = true := fun c member =>
    isDecimalDigit_of_isDigit (Nat.isDigit_of_mem_toDigits (by omega) (by omega) member)
  have stops : rest.takeWhile Text.isDecimalDigit = [] ∧
      rest.dropWhile Text.isDecimalDigit = rest := by
    cases rest with
    | nil => exact ⟨rfl, rfl⟩
    | cons c rest => simp [ends c rfl]
  rw [digits?, List.takeWhile_append_of_pos digits, List.dropWhile_append_of_pos digits, stops.1,
    stops.2, List.append_nil]
  simp [Nat.toDigits_ne_nil]

/-- The name of a part reads back as its number and the part. -/
theorem partDigits?_part (id : Nat) (part : Part) :
    partDigits? (ChannelName.part id part) = some (Nat.toDigits 10 id, part) := by
  have spelled : (ChannelName.part id part).toList =
      "dds".toList ++ (Nat.toDigits 10 id ++ '/' :: part.label.toList) := by
    rw [ChannelName.part, Nat.toString_eq_ofList_toDigits]
    simp
  have ends : digits? (Nat.toDigits 10 id ++ '/' :: part.label.toList) =
      some (Nat.toDigits 10 id, '/' :: part.label.toList) :=
    digits?_toDigits id (by simpa using isDecimalDigit_slash)
  simp only [partDigits?, after?_eq_some_iff.2 spelled, Option.bind_eq_bind, Option.bind_some, ends]
  cases part <;> rfl

/-- Numbers of the same digits are the same. -/
theorem toDigits_injective {first second : Nat}
    (same : Nat.toDigits 10 first = Nat.toDigits 10 second) : first = second := by
  rw [← Nat.ofDigitChars_ten_toDigits (n := first), same, Nat.ofDigitChars_ten_toDigits]

/-- Names with a number after the same beginning have the same number and the same rest, if their
rests do not go on with a digit. -/
theorem numbered_injective {fixed : String} {first second : Nat} {firstRest secondRest : String}
    (firstEnds : ∀ c ∈ firstRest.toList.head?, Text.isDecimalDigit c = false)
    (secondEnds : ∀ c ∈ secondRest.toList.head?, Text.isDecimalDigit c = false)
    (same : fixed ++ toString first ++ firstRest = fixed ++ toString second ++ secondRest) :
    first = second ∧ firstRest = secondRest := by
  have spelled := congrArg String.toList same
  simp only [String.toList_append, Nat.toString_eq_ofList_toDigits, String.toList_ofList,
    List.append_assoc, List.append_cancel_left_eq] at spelled
  have read := digits?_toDigits first firstEnds
  rw [spelled, digits?_toDigits second secondEnds] at read
  obtain ⟨digits, rests⟩ := Prod.mk.inj (Option.some.inj read)
  exact ⟨toDigits_injective digits.symm, (String.toList_injective rests).symm⟩

/-- Parts of the same name are the same part of the same composite output. -/
theorem part_injective {id otherId : Nat} {part other : Part}
    (same : ChannelName.part id part = ChannelName.part otherId other) :
    id = otherId ∧ part = other := by
  have read := partDigits?_part otherId other
  rw [← same, partDigits?_part] at read
  obtain ⟨digits, parts⟩ := Prod.mk.inj (Option.some.inj read)
  exact ⟨toDigits_injective digits, parts⟩

/-- A synthesizer admits the names of all parts. -/
theorem admits_part (id : Nat) (part : Part) :
    DeviceKind.synthesizer.admits (ChannelName.part id part) = true := by
  rw [DeviceKind.admits, partDigits?_part]
  rfl

/-- A word is read from its digits. -/
theorem word?_toDigits {number : Nat} (small : number < UInt64.size) :
    Text.word? (Nat.toDigits 10 number) = some number := by
  have digits : (Nat.toDigits 10 number).all Char.isDigit = true := List.all_eq_true.2 fun c =>
    Nat.isDigit_of_mem_toDigits (by omega) (by omega)
  have value : Text.digitsValue (Nat.toDigits 10 number) = number :=
    Nat.ofDigitChars_ten_toDigits
  rw [Text.word?, value, digits, if_pos]
  simpa [Nat.toDigits_ne_nil] using small

/-- The name of a part reads back as its numbers. -/
theorem partNumber_part (device : String) {id : Nat} (small : id < UInt64.size) (part : Part) :
    partNumber device (ChannelName.part id part) = .ok (id, part) := by
  simp [partNumber, partDigits?_part, word?_toDigits small]

/-- The name of a digital line reads back as the digits of its numbers. -/
theorem lineDigits?_line (port line : Nat) :
    lineDigits? (ChannelName.line port line) = some (Nat.toDigits 10 port, Nat.toDigits 10 line) := by
  have spelled : (ChannelName.line port line).toList =
      "port".toList ++ (Nat.toDigits 10 port ++ ("/line".toList ++ Nat.toDigits 10 line)) := by
    rw [ChannelName.line, Nat.toString_eq_ofList_toDigits, Nat.toString_eq_ofList_toDigits]
    simp
  have portEnds : digits? (Nat.toDigits 10 port ++ ("/line".toList ++ Nat.toDigits 10 line)) =
      some (Nat.toDigits 10 port, "/line".toList ++ Nat.toDigits 10 line) :=
    digits?_toDigits port (by simpa using isDecimalDigit_slash)
  have lineEnds : digits? (Nat.toDigits 10 line ++ []) = some (Nat.toDigits 10 line, []) :=
    digits?_toDigits line (by simp)
  rw [List.append_nil] at lineEnds
  simp only [lineDigits?, after?_eq_some_iff.2 spelled, Option.bind_eq_bind, Option.bind_some,
    portEnds, after?_eq_some_iff.2 rfl, lineEnds]
  rfl

/-- The name of a digital line reads back as its numbers. -/
theorem lineNumbers_line {port line : Nat} (portSmall : port < UInt64.size)
    (lineSmall : line < UInt64.size) :
    lineNumbers (ChannelName.line port line) = .ok (port, line) := by
  simp [lineNumbers, lineDigits?_line, word?_toDigits portSmall, word?_toDigits lineSmall]

/-- Lines of the same name are the same line of the same port. -/
theorem line_injective {port line otherPort other : Nat}
    (same : ChannelName.line port line = ChannelName.line otherPort other) :
    port = otherPort ∧ line = other := by
  have read := lineDigits?_line otherPort other
  rw [← same, lineDigits?_line] at read
  obtain ⟨ports, lines⟩ := Prod.mk.inj (Option.some.inj read)
  exact ⟨toDigits_injective ports, toDigits_injective lines⟩

/-- The name of an analog channel begins with its letters. -/
theorem analog_head {name : String} (admitted : DeviceKind.analogCard.admits name = true) :
    ∃ rest, name.toList = "ao".toList ++ rest := by
  rw [DeviceKind.admits] at admitted
  cases found : after? "ao".toList name.toList with
  | none =>
      rw [analogDigits?, found] at admitted
      cases admitted
  | some rest => exact ⟨rest, after?_eq_some_iff.1 found⟩

end Metronome.ChannelName
