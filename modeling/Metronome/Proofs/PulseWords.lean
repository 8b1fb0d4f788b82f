/-
Module: Metronome.Proofs.PulseWords
Purpose: The words of a pulse program say what its columns say, and the program can be read back from
  them.
Trusted boundary: none
Main exports:
  PulseInstruction.Fits, PulseInstruction.ofWord?, PulseInstruction.spells_word,
  PulseInstruction.ofWord?_word, PulseInstruction.eq_of_word_eq, PulseGenerator.instructions_fit,
  PulseGenerator.encode_words
-/
import Mathlib
import Metronome.Proofs.Arithmetic
import Metronome.Proofs.Hex
import Metronome.Proofs.Pulses

/-!
The fields of an instruction follow each other in its word without anything in between.  They can be
told apart since every number fits its field, so that the field has a fixed number of digits: ticks
and waits are refused if they do not fit, and long repetitions are split.
-/

namespace Metronome

/-! ### Digits -/

/-- The upper-case hexadecimal digits. -/
def Text.upperDigits : List Char :=
  "0123456789ABCDEF".toList

namespace Text

variable {value width : Nat}

theorem hexDigit_mem : ∀ value < 16, hexDigit true value ∈ upperDigits := by
  decide

theorem mem_hexDigitsWithin {fuel : Nat} {c : Char} (member : c ∈ hexDigitsWithin true fuel value) :
    c ∈ upperDigits := by
  induction fuel generalizing value with
  | zero => cases member
  | succ fuel ih =>
      rw [hexDigitsWithin] at member
      split at member
      · rename_i small
        rw [List.mem_singleton.1 member]
        exact hexDigit_mem value small
      · rcases List.mem_append.1 member with before | last
        · exact ih before
        · rw [List.mem_singleton.1 last]
          exact hexDigit_mem _ (Nat.mod_lt _ (by omega))

/-- A word in hexadecimal has no other characters than digits. -/
theorem mem_hexWord {c : Char} (member : c ∈ (hexWord width value).toList) : c ∈ upperDigits := by
  rw [hexWord, String.toList_ofList] at member
  rcases List.mem_append.1 member with filled | digit
  · rw [List.eq_of_mem_replicate filled]
    exact hexDigit_mem 0 (by omega)
  · exact mem_hexDigitsWithin digit

end Text

/-! ### Words of instructions -/

/-- The opcode with a number. -/
def Opcode.ofCode? : Nat → Option Opcode
  | 0 => some .stop
  | 1 => some .continue
  | 2 => some .wait
  | _ => none

theorem Opcode.ofCode?_code (opcode : Opcode) : ofCode? opcode.code = some opcode := by
  cases opcode <;> rfl

theorem Opcode.code_lt (opcode : Opcode) : opcode.code < 16 ^ 2 := by
  cases opcode <;> decide

namespace PulseInstruction

variable {instruction first second : PulseInstruction} {word : String}

/-- The numbers of an instruction fit fields of 32 bits. -/
structure Fits (instruction : PulseInstruction) : Prop where
  repetitions : instruction.repetitions ≤ PulseGenerator.fieldMax
  high : instruction.high ≤ PulseGenerator.fieldMax
  low : instruction.low ≤ PulseGenerator.fieldMax

/-- The number in the `width` digits of a word that follow the first `start` ones. -/
def field? (word : String) (start width : Nat) : Option Nat :=
  Text.hexValue? (String.ofList ((word.toList.drop start).take width))

/-- The instruction that is written as a word of 26 digits. -/
def ofWord? (word : String) : Option PulseInstruction := do
  guard (word.length = 26)
  let opcode ← Opcode.ofCode? (← field? word 0 2)
  return ⟨opcode, ← field? word 2 8, ← field? word 10 8, ← field? word 18 8⟩

/-- How a word spells four numbers: it has exactly 26 upper-case digits, two of the first number and
eight of each other one. -/
structure Spells (word : String) (code repetitions high low : Nat) : Prop where
  length : word.length = 26
  digits : ∀ c ∈ word.toList, c ∈ Text.upperDigits
  code : field? word 0 2 = some code
  repetitions : field? word 2 8 = some repetitions
  high : field? word 10 8 = some high
  low : field? word 18 8 = some low

/-- A number that fits is written with eight digits. -/
theorem length_field {value : Nat} (fits : value ≤ PulseGenerator.fieldMax) :
    (Text.hexWord 8 value).toList.length = 8 := by
  rw [String.length_toList]
  exact Text.length_hexWord (by omega) (Nat.lt_of_le_of_lt fits (by decide))

/-- A number that is written after `start` digits of a word is the number of the field there. -/
theorem field?_eq {start width value : Nat} {after : List Char}
    (written : word.toList.drop start = (Text.hexWord width value).toList ++ after)
    (wide : (Text.hexWord width value).toList.length = width) :
    field? word start width = some value := by
  rw [field?, written, List.take_left' wide, String.ofList_toList]
  exact Text.hexValue?_hexWord width value

/-- The word of an instruction that fits spells its numbers. -/
theorem spells_word (fits : instruction.Fits) :
    Spells instruction.word instruction.opcode.code instruction.repetitions instruction.high
      instruction.low := by
  have codeLength : (Text.hexWord 2 instruction.opcode.code).toList.length = 2 := by
    rw [String.length_toList]
    exact Text.length_hexWord (by omega) instruction.opcode.code_lt
  have repetitionsLength := length_field fits.repetitions
  have highLength := length_field fits.high
  have lowLength := length_field fits.low
  have spelled : instruction.word.toList = (Text.hexWord 2 instruction.opcode.code).toList ++
      ((Text.hexWord 8 instruction.repetitions).toList ++
        ((Text.hexWord 8 instruction.high).toList ++ (Text.hexWord 8 instruction.low).toList)) := by
    simp only [word, String.toList_append, List.append_assoc]
  have afterCode : instruction.word.toList.drop 2 =
      (Text.hexWord 8 instruction.repetitions).toList ++
        ((Text.hexWord 8 instruction.high).toList ++ (Text.hexWord 8 instruction.low).toList) := by
    rw [spelled, List.drop_left' codeLength]
  have afterRepetitions : instruction.word.toList.drop 10 =
      (Text.hexWord 8 instruction.high).toList ++ (Text.hexWord 8 instruction.low).toList := by
    rw [← List.drop_drop (i := 8) (j := 2), afterCode, List.drop_left' repetitionsLength]
  have afterHigh : instruction.word.toList.drop 18 =
      (Text.hexWord 8 instruction.low).toList ++ [] := by
    rw [← List.drop_drop (i := 8) (j := 10), afterRepetitions, List.drop_left' highLength,
      List.append_nil]
  constructor
  case length =>
    rw [← String.length_toList, spelled]
    simp only [List.length_append, codeLength, repetitionsLength, highLength, lowLength]
  case digits =>
    intro c member
    rw [spelled] at member
    simp only [List.mem_append] at member
    rcases member with inCode | inRepetitions | inHigh | inLow <;> exact Text.mem_hexWord ‹_›
  case code => exact field?_eq (List.drop_zero.trans spelled) codeLength
  case repetitions => exact field?_eq afterCode repetitionsLength
  case high => exact field?_eq afterRepetitions highLength
  case low => exact field?_eq afterHigh lowLength

/-- A word that spells the numbers of an instruction is read as the instruction. -/
theorem Spells.ofWord?_eq
    (spells : Spells word instruction.opcode.code instruction.repetitions instruction.high
      instruction.low) : ofWord? word = some instruction := by
  obtain ⟨length, -, code, repetitions, high, low⟩ := spells
  simp [ofWord?, length, code, repetitions, high, low, Opcode.ofCode?_code]

/-- An instruction that fits is read back from its word. -/
theorem ofWord?_word (fits : instruction.Fits) : ofWord? instruction.word = some instruction :=
  (spells_word fits).ofWord?_eq

/-- Instructions that fit are told apart by their words. -/
theorem eq_of_word_eq (firstFits : first.Fits) (secondFits : second.Fits)
    (same : first.word = second.word) : first = second := by
  have read := ofWord?_word firstFits
  rw [same, ofWord?_word secondFits] at read
  exact (Option.some.inj read).symm

end PulseInstruction

namespace PulseGenerator

open PulseInstruction (Fits Spells ofWord?)

variable {generator : PulseGenerator} {program : Program} {compiled : Compiled}
  {artifact : Artifact}

/-! ### Instructions of a program -/

/-- The instruction for a wait fits: a timeout that is too long is refused, and one that is no number
counts as none. -/
theorem fits_of_waitInstruction {marker : Marker} {made : PulseInstruction}
    (waits : generator.waitInstruction marker = .ok made) : made.Fits := by
  obtain ⟨label, timeout, origin⟩ := marker
  have one : 1 ≤ fieldMax := fieldMax_pos
  cases timeout with
  | none =>
      cases waits
      exact ⟨one, Nat.zero_le _, Nat.zero_le _⟩
  | some timeout =>
      rw [waitInstruction] at waits
      dsimp only at waits
      split at waits
      · cases waits
      · rename_i inRange
        cases waits
        rw [Bool.or_eq_true, not_or] at inRange
        have within : ¬ Number.ofWord fieldMax < Number.nearest (timeout * 1000) :=
          fun above => inRange.2 (decide_eq_true above)
        exact ⟨one, Number.toWord_le_of_not_lt (by decide) within, Nat.zero_le _⟩

/-- All instructions for an entry fit. -/
theorem fits_of_entryInstructions {entry : Entry} {made : List PulseInstruction}
    (translated : generator.entryInstructions entry = .ok made) :
    ∀ instruction ∈ made, instruction.Fits := by
  intro instruction member
  cases entry with
  | wait marker =>
      obtain ⟨halt, waits, rfl⟩ := Checks.map_eq_ok.1 translated
      rw [List.mem_singleton.1 member]
      exact fits_of_waitInstruction waits
  | tick run =>
      obtain ⟨part, split, ticks⟩ := (Checks.mem_of_mapM translated).1 member
      obtain ⟨⟨-, -, low⟩, rfl⟩ := tickInstruction_eq_ok.1 ticks
      exact ⟨(mem_split split).2, by dsimp only; omega, low⟩

/-- All instructions for entries fit, if those made before do.  The induction is on the entries. -/
theorem fits_of_entriesInstructions {entries : List Entry} {made result : List PulseInstruction}
    {count total : Nat} (fits : ∀ instruction ∈ made, instruction.Fits)
    (translated : generator.entriesInstructions made count entries = .ok (result, total)) :
    ∀ instruction ∈ result, instruction.Fits := by
  induction entries generalizing made count with
  | nil =>
      cases translated
      exact fits
  | cons entry rest ih =>
      obtain ⟨more, entryTranslated, continued⟩ := Checks.bind_eq_ok.1 translated
      have moreFits := fits_of_entryInstructions entryTranslated
      have allFit : ∀ instruction ∈ more.reverse ++ made, instruction.Fits := by
        intro instruction member
        rcases List.mem_append.1 member with new | old
        · exact moreFits instruction (List.mem_reverse.1 new)
        · exact fits instruction old
      dsimp only at continued
      split at continued
      · cases continued
        exact allFit
      · exact ih allFit continued

/-- All instructions for a program fit. -/
theorem instructions_fit {list : List PulseInstruction}
    (translated : generator.instructions program = .ok list) :
    ∀ instruction ∈ list, instruction.Fits := by
  obtain ⟨⟨made, count⟩, entries, finished⟩ := Checks.bind_eq_ok.1 translated
  have madeFit := fits_of_entriesInstructions (fun _ member => absurd member List.not_mem_nil)
    entries
  dsimp only at finished
  split at finished
  · cases finished
  · cases finished
    intro instruction member
    rcases List.mem_cons.1 (List.mem_reverse.1 member) with rfl | inMade
    · exact ⟨Nat.zero_le _, Nat.zero_le _, Nat.zero_le _⟩
    · exact madeFit instruction inMade

/-! ### Artifacts -/

/-- An artifact with the numbers of instructions in four columns and words in a fifth. -/
structure Tabulates (artifact : Artifact) (opcodes repetitions high low : List Int)
    (words : List String) : Prop where
  names : artifact.datasets.names =
    ["opcode", "repetitions", "high_cycles", "low_cycles", "instructions"]
  opcodes : artifact.datasets.get? "opcode" = some (.integers opcodes)
  repetitions : artifact.datasets.get? "repetitions" = some (.integers repetitions)
  high : artifact.datasets.get? "high_cycles" = some (.integers high)
  low : artifact.datasets.get? "low_cycles" = some (.integers low)
  words : artifact.datasets.get? "instructions" = some (.hex words)

/-- The columns of the instructions of a program are in the artifact. -/
theorem tabulates_of_encode {instructions : List PulseInstruction}
    (translated : generator.instructions compiled.program = .ok instructions)
    (encoded : generator.encode compiled = .ok artifact) :
    Tabulates artifact (instructions.map fun instruction => (instruction.opcode.code : Int))
      (instructions.map fun instruction => (instruction.repetitions : Int))
      (instructions.map fun instruction => (instruction.high : Int))
      (instructions.map fun instruction => (instruction.low : Int))
      (instructions.map PulseInstruction.word) := by
  rw [encode, translated] at encoded
  cases encoded
  have none : (Artifact.empty generator.name).datasets.names = [] := rfl
  constructor
  case names => simp [Artifact.insert, none]
  all_goals simp [Artifact.insert, Registry.get?_insert]

/-- The instructions are read back from their words. -/
theorem mapM_ofWord? {instructions : List PulseInstruction}
    (fits : ∀ instruction ∈ instructions, instruction.Fits) :
    (instructions.map PulseInstruction.word).mapM ofWord? = some instructions := by
  induction instructions with
  | nil => rfl
  | cons first rest ih =>
      obtain ⟨firstFits, restFit⟩ := List.forall_mem_cons.1 fits
      rw [List.map_cons, List.mapM_cons, PulseInstruction.ofWord?_word firstFits, ih restFit]
      rfl

/-- Words of instructions that fit are different for different instructions, and every artifact of a
pulse generator is made of such instructions.  Its five columns are equally long.  Each word has 26
digits and spells the numbers that the other columns have at its place, and the instructions can be
read back from the words alone. -/
theorem encode_words :
    (∀ first second : PulseInstruction, first.Fits → second.Fits → first.word = second.word →
      first = second) ∧
    ∀ (generator : PulseGenerator) (compiled : Compiled) (artifact : Artifact),
      generator.encode compiled = .ok artifact →
      ∃ (opcodes repetitions high low : List Int) (words : List String)
        (instructions : List PulseInstruction),
        Tabulates artifact opcodes repetitions high low words ∧
        (opcodes.length = words.length ∧ repetitions.length = words.length ∧
          high.length = words.length ∧ low.length = words.length) ∧
        (∀ (index : Nat) word, words[index]? = some word →
          ∃ code repeated highCycles lowCycles : Nat,
            Spells word code repeated highCycles lowCycles ∧
            opcodes[index]? = some (code : Int) ∧ repetitions[index]? = some (repeated : Int) ∧
            high[index]? = some (highCycles : Int) ∧ low[index]? = some (lowCycles : Int)) ∧
        generator.instructions compiled.program = .ok instructions ∧
        (∀ instruction ∈ instructions, instruction.Fits) ∧
        words.mapM ofWord? = some instructions := by
  refine ⟨fun first second => PulseInstruction.eq_of_word_eq, ?_⟩
  intro generator compiled artifact encoded
  obtain ⟨instructions, translated, -⟩ := Checks.bind_eq_ok.1 encoded
  have fits := instructions_fit translated
  refine ⟨_, _, _, _, _, instructions, tabulates_of_encode translated encoded, ?_, ?_, translated,
    fits, mapM_ofWord? fits⟩
  · simp only [List.length_map, and_self]
  · intro index word found
    rw [List.getElem?_map, Option.map_eq_some_iff] at found
    obtain ⟨instruction, here, rfl⟩ := found
    refine ⟨_, _, _, _, PulseInstruction.spells_word (fits instruction (List.mem_of_getElem? here)),
      ?_⟩
    simp only [List.getElem?_map, here, Option.map_some, and_self]

/-- The long program, compiled without devices. -/
def longCompiled : Compiled :=
  ⟨"clock", 1e-7, longProgram, .empty⟩

/-- The words of a program with more repetitions than a field holds and with a wait, from which its
instructions are read back.  No other instruction that fits has the word of the wait. -/
theorem longProgram_words : ∃ artifact words,
    (⟨"clock", 1e8, 5, 5⟩ : PulseGenerator).encode longCompiled = .ok artifact ∧
    artifact.datasets.get? "instructions" = some (.hex words) ∧
    words = ["01FFFFFFFF0000003200000032", "012A05F2010000003200000032",
      "0200000001000009C400000000", "01000000010000003200000032", "00000000000000000000000000"] ∧
    words.mapM ofWord? = some [⟨.continue, 4294967295, 50, 50⟩, ⟨.continue, 705032705, 50, 50⟩,
      ⟨.wait, 1, 2500, 0⟩, ⟨.continue, 1, 50, 50⟩, ⟨.stop, 0, 0, 0⟩] ∧
    ∀ other : PulseInstruction, other.Fits → other.word = "0200000001000009C400000000" →
      other = ⟨.wait, 1, 2500, 0⟩ := by
  have translated : (⟨"clock", 1e8, 5, 5⟩ : PulseGenerator).instructions longCompiled.program =
      .ok [⟨.continue, 4294967295, 50, 50⟩, ⟨.continue, 705032705, 50, 50⟩,
        ⟨.wait, 1, 2500, 0⟩, ⟨.continue, 1, 50, 50⟩, ⟨.stop, 0, 0, 0⟩] :=
    Checks.toOption_eq_some_iff.1 (by decide +kernel)
  obtain ⟨artifact, encoded⟩ : ∃ artifact,
      (⟨"clock", 1e8, 5, 5⟩ : PulseGenerator).encode longCompiled = .ok artifact := by
    rw [encode, translated]
    exact ⟨_, rfl⟩
  obtain ⟨opcodes, repetitions, high, low, words, instructions, table, -, -, same, -, read⟩ :=
    encode_words.2 _ _ _ encoded
  cases Except.ok.inj (translated.symm.trans same)
  refine ⟨artifact, words, encoded, table.words, ?_, read, fun other fits written => ?_⟩
  · have columns := (tabulates_of_encode translated encoded).words
    rw [table.words] at columns
    cases columns
    decide +kernel
  · refine encode_words.1 other _ fits
      ⟨by decide +kernel, by decide +kernel, by decide +kernel⟩ (written.trans ?_)
    decide +kernel

end PulseGenerator

end Metronome
