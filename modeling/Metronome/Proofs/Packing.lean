/-
Module: Metronome.Proofs.Packing
Purpose: Which lines pack into words, and that every line can be read back from them.
Trusted boundary: none
Main exports:
  Packing.sampleCount, Packing.check_eq_ok, Packing.pack_isOk_iff, Packing.column, Packing.Packs,
  Packing.packs_of_pack, Packing.Packs.unpack
-/
import Mathlib
import Metronome.Packing
import Metronome.Proofs.Checks

/-!
A word is known by its bits, and a list of words by its columns, one for each bit.  A line that is
added changes the column of its bit and no other, so that lines at distinct bits each find their
column as it was at the beginning, and leave it for good.
-/

namespace Metronome.Packing

variable {lines : List Line} {line : Line} {width length bit : Nat} {words : List Nat}

/-! ### Checks -/

theorem checkLines_cons_eq_ok {taken : List Nat} :
    checkLines width length taken (line :: lines) = .ok () ↔
      (line.samples.length = length ∧ line.bit < width ∧ line.bit ∉ taken) ∧
        checkLines width length (line.bit :: taken) lines = .ok () := by
  rw [checkLines]
  split
  · rename_i uneven
    simp [uneven]
  · rename_i even
    split
    · rename_i outside
      simp [Nat.not_lt.2 outside]
    · rename_i inside
      split
      · rename_i used
        simp [used]
      · rename_i free
        exact (and_iff_right ⟨Decidable.not_not.1 even, Nat.lt_of_not_le inside, free⟩).symm

/-- Lines pass their checks exactly if they have the length, and bits that are inside the width,
free and distinct. -/
theorem checkLines_eq_ok {taken : List Nat} :
    checkLines width length taken lines = .ok () ↔
      (∀ line ∈ lines, line.samples.length = length ∧ line.bit < width ∧ line.bit ∉ taken) ∧
        (lines.map Line.bit).Nodup := by
  induction lines generalizing taken with
  | nil => simp [checkLines]
  | cons line rest ih =>
      rw [checkLines_cons_eq_ok, ih, List.forall_mem_cons, List.map_cons, List.nodup_cons]
      constructor
      · rintro ⟨this, each, distinct⟩
        refine ⟨⟨this, fun other member => ?_⟩, fun again => ?_, distinct⟩
        · obtain ⟨even, inside, free⟩ := each other member
          exact ⟨even, inside, fun used => free (List.mem_cons_of_mem _ used)⟩
        · obtain ⟨other, member, same⟩ := List.mem_map.1 again
          exact (each other member).2.2 (same ▸ List.mem_cons_self)
      · rintro ⟨⟨this, each⟩, fresh, distinct⟩
        refine ⟨this, fun other member => ?_, distinct⟩
        obtain ⟨even, inside, free⟩ := each other member
        refine ⟨even, inside, fun used => ?_⟩
        rcases List.mem_cons.1 used with same | old
        · exact fresh (List.mem_map.2 ⟨other, member, same⟩)
        · exact free old

/-- Distinct bits below a width are no more than the width. -/
theorem length_le_of_nodup (below : ∀ line ∈ lines, line.bit < width)
    (distinct : (lines.map Line.bit).Nodup) : lines.length ≤ width := by
  have within : lines.map Line.bit ⊆ List.range width := by
    intro bit member
    obtain ⟨line, lineIn, rfl⟩ := List.mem_map.1 member
    exact List.mem_range.2 (below line lineIn)
  have fewer := (distinct.subperm within).length_le
  rwa [List.length_map, List.length_range] at fewer

/-- The number of samples of the first line, which is that of all lines if they are packed. -/
def sampleCount (lines : List Line) : Nat :=
  (lines.head?.map fun line => line.samples.length).getD 0

/-- Lines pass the check exactly if the width is that of a word, and they have one length, and bits
below the width that are distinct. -/
theorem check_eq_ok : check lines width = .ok () ↔
    (width ≠ 0 ∧ width ≤ widest) ∧
      (∀ line ∈ lines, line.samples.length = sampleCount lines ∧ line.bit < width) ∧
      (lines.map Line.bit).Nodup := by
  rw [check]
  split
  · rename_i outside
    exact iff_of_false nofun fun passes => by omega
  · rename_i inside
    split
    · rename_i tooMany
      refine iff_of_false nofun fun passes => ?_
      have fewer := length_le_of_nodup (fun line member => (passes.2.1 line member).2) passes.2.2
      omega
    · rw [checkLines_eq_ok, and_iff_right (show width ≠ 0 ∧ width ≤ widest by omega)]
      simp only [List.not_mem_nil, not_false_eq_true, and_true]
      rfl

theorem pack_eq_ok : pack lines width = .ok words ↔
    check lines width = .ok () ∧
      words = lines.foldl addLine (List.replicate (sampleCount lines) 0) := by
  rw [pack]
  cases check lines width with
  | error cause => simp
  | ok passed => exact ⟨fun made => ⟨rfl, (Except.ok.inj made).symm⟩,
      fun made => congrArg Except.ok made.2.symm⟩

theorem sampleCount_eq (even : ∀ line ∈ lines, line.samples.length = length)
    (member : line ∈ lines) : sampleCount lines = length := by
  cases lines with
  | nil => cases member
  | cons head rest => exact even head List.mem_cons_self

/-- Lines of one length and below the width of a word pack exactly if their bits are distinct. -/
theorem pack_isOk_iff (positive : width ≠ 0) (narrow : width ≤ widest)
    (even : ∀ line ∈ lines, line.samples.length = length)
    (below : ∀ line ∈ lines, line.bit < width) :
    (∃ words, pack lines width = .ok words) ↔ (lines.map Line.bit).Nodup := by
  have each : ∀ line ∈ lines, line.samples.length = sampleCount lines ∧ line.bit < width :=
    fun line member => ⟨(even line member).trans (sampleCount_eq even member).symm,
      below line member⟩
  simp only [pack_eq_ok, exists_and_left, exists_eq, and_true]
  rw [check_eq_ok, and_iff_right ⟨positive, narrow⟩, and_iff_right each]

/-! ### Columns -/

/-- One bit of all words. -/
def column (words : List Nat) (bit : Nat) : List Bool :=
  words.map fun word => word.testBit bit

theorem length_addLine (even : line.samples.length = words.length) :
    (addLine words line).length = words.length := by
  rw [addLine, List.length_zipWith, even, Nat.min_self]

/-- A line that is added is seen in the column of its bit, with what was there. -/
theorem column_addLine : column (addLine words line) line.bit =
    List.zipWith (· || ·) (column words line.bit) line.samples := by
  rw [column, column, addLine, List.map_zipWith, List.zipWith_map_left]
  congr 1
  funext word high
  cases high <;> simp

/-- A line that is added leaves the other columns. -/
theorem column_addLine_of_ne (even : line.samples.length = words.length) (other : bit ≠ line.bit) :
    column (addLine words line) bit = column words bit := by
  have ignored : (fun (word : Nat) (high : Bool) =>
      (if high then word ||| 1 <<< line.bit else word).testBit bit) =
      fun word _ => word.testBit bit := by
    funext word high
    cases high with
    | false => rfl
    | true =>
        rw [if_pos rfl, Nat.testBit_or, Nat.one_shiftLeft,
          Nat.testBit_two_pow_of_ne (Ne.symm other), Bool.or_false]
  rw [column, column, addLine, List.map_zipWith, ignored]
  apply List.ext_getElem
  · simp [even]
  · simp

/-- Lines at other bits leave a column. -/
theorem column_foldl_of_notMem (even : ∀ line ∈ lines, line.samples.length = words.length)
    (free : bit ∉ lines.map Line.bit) :
    column (lines.foldl addLine words) bit = column words bit := by
  induction lines generalizing words with
  | nil => rfl
  | cons line rest ih =>
      obtain ⟨first, others⟩ := List.forall_mem_cons.1 even
      rw [List.map_cons, List.mem_cons, not_or] at free
      rw [List.foldl_cons, ih (by rwa [length_addLine first]) free.2,
        column_addLine_of_ne first free.1]

/-- Lines at distinct bits that were clear are each seen in their column. -/
theorem column_foldl (even : ∀ line ∈ lines, line.samples.length = words.length)
    (distinct : (lines.map Line.bit).Nodup) (member : line ∈ lines)
    (clear : column words line.bit = List.replicate words.length false) :
    column (lines.foldl addLine words) line.bit = line.samples := by
  induction lines generalizing words with
  | nil => cases member
  | cons other rest ih =>
      obtain ⟨first, others⟩ := List.forall_mem_cons.1 even
      obtain ⟨fresh, distinctRest⟩ := List.nodup_cons.1 distinct
      have stays := length_addLine first
      rw [List.foldl_cons]
      rcases List.mem_cons.1 member with rfl | inRest
      · rw [column_foldl_of_notMem (by rwa [stays]) fresh, column_addLine, clear]
        apply List.ext_getElem
        · simp [first]
        · simp
      · have apart : line.bit ≠ other.bit := fun same =>
          fresh (same ▸ List.mem_map_of_mem inRest)
        apply ih (by rwa [stays]) distinctRest inRest
        rw [column_addLine_of_ne first apart, clear, stays]

theorem length_foldl (even : ∀ line ∈ lines, line.samples.length = words.length) :
    (lines.foldl addLine words).length = words.length := by
  induction lines generalizing words with
  | nil => rfl
  | cons line rest ih =>
      obtain ⟨first, others⟩ := List.forall_mem_cons.1 even
      have stays := length_addLine first
      rw [List.foldl_cons, ih (by rwa [stays]), stays]

/-! ### Words -/

/-- Words that hold lines: one word for each sample, the samples of every line in the column of its
bit, and nothing else, so that they have no bits beyond the width. -/
structure Packs (lines : List Line) (width : Nat) (words : List Nat) : Prop where
  count : words.length = sampleCount lines
  columns : ∀ line ∈ lines, column words line.bit = line.samples
  clear : ∀ bit, bit ∉ lines.map Line.bit → ∀ word ∈ words, word.testBit bit = false
  narrow : ∀ word ∈ words, word < 2 ^ width

/-- Lines are packed into words that hold them. -/
theorem packs_of_pack (packed : pack lines width = .ok words) : Packs lines width words := by
  obtain ⟨checked, rfl⟩ := pack_eq_ok.1 packed
  obtain ⟨-, each, distinct⟩ := check_eq_ok.1 checked
  have even : ∀ line ∈ lines,
      line.samples.length = (List.replicate (sampleCount lines) 0).length := by
    intro line member
    rw [List.length_replicate]
    exact (each line member).1
  have start : ∀ bit, column (List.replicate (sampleCount lines) 0) bit =
      List.replicate (sampleCount lines) false := by
    simp [column]
  have clear : ∀ bit, bit ∉ lines.map Line.bit →
      ∀ word ∈ lines.foldl addLine (List.replicate (sampleCount lines) 0),
        word.testBit bit = false := by
    intro bit free word member
    have held : word.testBit bit ∈
        column (lines.foldl addLine (List.replicate (sampleCount lines) 0)) bit :=
      List.mem_map_of_mem member
    rw [column_foldl_of_notMem even free, start] at held
    exact List.eq_of_mem_replicate held
  refine ⟨?_, fun line member => ?_, clear, fun word member => ?_⟩
  · rw [length_foldl even, List.length_replicate]
  · exact column_foldl even distinct member (by rw [start, List.length_replicate])
  · refine Nat.lt_pow_two_of_testBit word fun bit beyond => clear bit ?_ word member
    intro used
    obtain ⟨line, lineIn, rfl⟩ := List.mem_map.1 used
    exact absurd (each line lineIn).2 (Nat.not_lt.2 beyond)

/-- A line of a word's width reads back. -/
theorem Packs.unpack (packs : Packs lines width words) (member : line ∈ lines)
    (inside : line.bit < widest) : unpack words line.bit = .ok line.samples := by
  rw [Packing.unpack, if_neg (Nat.not_le.2 inside)]
  exact congrArg Except.ok (packs.columns line member)

end Metronome.Packing
