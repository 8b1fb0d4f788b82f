/-
Module: Metronome.Proofs.Unpacking
Purpose: Packing and unpacking undo each other, and the order of the lines does not matter.
Trusted boundary: none
Main exports:
  Packing.eq_of_columns, Packing.Packs.unique, Packing.pack_eq_ok_iff_packs,
  Packing.Packs.perm, Packing.linesOf, Packing.packs_linesOf, Packing.pack_round_trip
-/
import Metronome.Proofs.Packing

/-!
Words are known by their columns: a column at a bit that has a line is the line, and every other
column is clear.  So lines leave one choice of words that hold them.  Packing makes that choice
whatever the order of the lines, and makes words again from their own columns.
-/

namespace Metronome.Packing

variable {lines others : List Line} {width : Nat} {words other : List Nat}

/-! ### Words by their columns -/

/-- Words with the same columns are the same. -/
theorem eq_of_columns (count : words.length = other.length)
    (same : ∀ bit, column words bit = column other bit) : words = other := by
  refine List.ext_getElem count fun index inWords inOther => Nat.eq_of_testBit_eq fun bit => ?_
  have atIndex := congrArg (·[index]?) (same bit)
  simpa [column, inWords, inOther] using atIndex

/-- The column at a bit without a line is clear. -/
theorem Packs.column_clear (packs : Packs lines width words) {bit : Nat}
    (free : bit ∉ lines.map Line.bit) : column words bit = List.replicate words.length false :=
  List.eq_replicate_iff.2 ⟨List.length_map _, fun high member => by
    obtain ⟨word, inWords, rfl⟩ := List.mem_map.1 member
    exact packs.clear bit free word inWords⟩

/-- There is one choice of words that hold given lines. -/
theorem Packs.unique (packs : Packs lines width words) (otherPacks : Packs lines width other) :
    words = other := by
  have count : words.length = other.length := packs.count.trans otherPacks.count.symm
  refine eq_of_columns count fun bit => ?_
  by_cases used : bit ∈ lines.map Line.bit
  · obtain ⟨line, member, rfl⟩ := List.mem_map.1 used
    rw [packs.columns line member, otherPacks.columns line member]
  · rw [packs.column_clear used, otherPacks.column_clear used, count]

/-- Lines that pass their check are packed into the words that hold them. -/
theorem pack_eq_ok_iff_packs :
    pack lines width = .ok words ↔ check lines width = .ok () ∧ Packs lines width words := by
  constructor
  · intro packed
    exact ⟨(pack_eq_ok.1 packed).1, packs_of_pack packed⟩
  · rintro ⟨checked, packs⟩
    have packed := pack_eq_ok.2 ⟨checked, rfl⟩
    rw [packed, (packs_of_pack packed).unique packs]

/-- Lines pass the check exactly if the width is that of a word, and they have some length in
common, and bits below the width that are distinct. -/
theorem check_isOk_iff : check lines width = .ok () ↔
    (1 ≤ width ∧ width ≤ widest) ∧ (∃ length, ∀ line ∈ lines, line.samples.length = length) ∧
      (∀ line ∈ lines, line.bit < width) ∧ (lines.map Line.bit).Nodup := by
  rw [check_eq_ok, Nat.one_le_iff_ne_zero]
  refine and_congr_right fun _ => ?_
  rw [forall₂_and, and_assoc]
  refine and_congr_left fun _ => ⟨fun even => ⟨_, even⟩, fun ⟨length, even⟩ line member => ?_⟩
  rw [even line member, sampleCount_eq even member]

/-! ### The order of the lines -/

/-- The common length of lines does not depend on their order. -/
theorem sampleCount_perm {length : Nat} (even : ∀ line ∈ lines, line.samples.length = length)
    (perm : lines.Perm others) : sampleCount others = sampleCount lines := by
  cases others with
  | nil => rw [List.perm_nil.1 perm]
  | cons head rest =>
      have member : head ∈ lines := perm.mem_iff.2 List.mem_cons_self
      exact (even head member).trans (sampleCount_eq even member).symm

/-- Words that hold lines hold them in every order. -/
theorem Packs.perm {length : Nat} (packs : Packs lines width words)
    (even : ∀ line ∈ lines, line.samples.length = length) (perm : lines.Perm others) :
    Packs others width words where
  count := packs.count.trans (sampleCount_perm even perm).symm
  columns line member := packs.columns line (perm.mem_iff.2 member)
  clear bit free := packs.clear bit fun used => free ((perm.map Line.bit).mem_iff.1 used)
  narrow := packs.narrow

/-- Lines are packed into the same words in every order. -/
theorem pack_perm (packed : pack lines width = .ok words) (perm : lines.Perm others) :
    pack others width = .ok words := by
  obtain ⟨checked, packs⟩ := pack_eq_ok_iff_packs.1 packed
  obtain ⟨narrow, ⟨length, even⟩, below, distinct⟩ := check_isOk_iff.1 checked
  refine pack_eq_ok_iff_packs.2 ⟨check_isOk_iff.2 ⟨narrow, ⟨length, fun line member => ?_⟩,
    fun line member => ?_, (perm.map Line.bit).nodup_iff.1 distinct⟩, packs.perm even perm⟩
  · exact even line (perm.mem_iff.2 member)
  · exact below line (perm.mem_iff.2 member)

/-! ### Words packed again -/

/-- The lines of words: their columns below a width. -/
def linesOf (words : List Nat) (width : Nat) : List Line :=
  (List.range width).map fun bit => ⟨bit, column words bit⟩

theorem bits_linesOf (words : List Nat) (width : Nat) :
    (linesOf words width).map Line.bit = List.range width := by
  rw [linesOf, List.map_map]
  exact List.map_id _

theorem mem_linesOf {line : Line} : line ∈ linesOf words width ↔
    line.bit < width ∧ line.samples = column words line.bit := by
  rw [linesOf, List.mem_map]
  constructor
  · rintro ⟨bit, below, rfl⟩
    exact ⟨List.mem_range.1 below, rfl⟩
  · rintro ⟨below, column⟩
    exact ⟨line.bit, List.mem_range.2 below, by rw [← column]⟩

/-- The lines of words have one sample for each word. -/
theorem length_of_mem_linesOf {line : Line} (member : line ∈ linesOf words width) :
    line.samples.length = words.length := by
  rw [(mem_linesOf.1 member).2, column, List.length_map]

/-- Words that have no bits beyond a width hold their own lines. -/
theorem packs_linesOf (positive : 1 ≤ width) (narrow : ∀ word ∈ words, word < 2 ^ width) :
    Packs (linesOf words width) width words where
  count := by
    have first : ⟨0, column words 0⟩ ∈ linesOf words width := mem_linesOf.2 ⟨positive, rfl⟩
    exact (sampleCount_eq (fun _ => length_of_mem_linesOf) first).symm
  columns line member := (mem_linesOf.1 member).2.symm
  clear bit free word member := by
    rw [bits_linesOf, List.mem_range, Nat.not_lt] at free
    exact Nat.testBit_lt_two_pow
      (Nat.lt_of_lt_of_le (narrow word member) (Nat.pow_le_pow_right Nat.two_pos free))
  narrow := narrow

/-- Words are packed again from their lines. -/
theorem pack_linesOf (positive : 1 ≤ width) (word : width ≤ widest)
    (narrow : ∀ word ∈ words, word < 2 ^ width) :
    pack (linesOf words width) width = .ok words := by
  refine pack_eq_ok_iff_packs.2 ⟨check_isOk_iff.2 ⟨⟨positive, word⟩,
    ⟨words.length, fun _ => length_of_mem_linesOf⟩, fun line member => (mem_linesOf.1 member).1,
    ?_⟩, packs_linesOf positive narrow⟩
  rw [bits_linesOf]
  exact List.nodup_range

theorem unpack_of_lt {bit : Nat} (inside : bit < widest) :
    unpack words bit = .ok (column words bit) :=
  if_neg (Nat.not_le.2 inside)

/-- All bits below the width of a word are unpacked into the lines of the words. -/
theorem mapM_unpack (word : width ≤ widest) :
    ((List.range width).mapM fun bit => Line.mk bit <$> unpack words bit) =
      .ok (linesOf words width) := by
  rw [linesOf, Checks.mapM_eq_ok, List.forall₂_map_right_iff, List.forall₂_same]
  intro bit below
  rw [unpack_of_lt (Nat.lt_of_lt_of_le (List.mem_range.1 below) word)]
  rfl

/-- Packing and unpacking are inverse to each other over the whole format.  Lines can be packed
exactly if the width is between one bit and the widest word, and the lines have one length and
distinct bits below the width, which are then no more lines than bits.  Every line is unpacked from
the words as it was, every other bit is low in all of them, no word has a bit beyond the width, and
the lines may come in any order.  And words of a width are what their own bits are packed into. -/
theorem pack_round_trip (width : Nat) :
    (∀ lines, (∃ words, pack lines width = .ok words) ↔
      (1 ≤ width ∧ width ≤ widest) ∧ (∃ length, ∀ line ∈ lines, line.samples.length = length) ∧
        (∀ line ∈ lines, line.bit < width) ∧ (lines.map Line.bit).Nodup) ∧
    (∀ lines : List Line, (∀ line ∈ lines, line.bit < width) → (lines.map Line.bit).Nodup →
      lines.length ≤ width) ∧
    (∀ lines words, pack lines width = .ok words →
      (∀ line ∈ lines, unpack words line.bit = .ok line.samples) ∧
      (∀ bit, bit < widest → bit ∉ lines.map Line.bit →
        unpack words bit = .ok (List.replicate words.length false)) ∧
      (∀ word ∈ words, word < 2 ^ width) ∧
      ∀ others, lines.Perm others → pack others width = .ok words) ∧
    (1 ≤ width → width ≤ widest → ∀ words, (∀ word ∈ words, word < 2 ^ width) →
      ∃ lines, ((List.range width).mapM fun bit => Line.mk bit <$> unpack words bit) = .ok lines ∧
        pack lines width = .ok words) := by
  refine ⟨fun lines => ?_, fun lines => length_le_of_nodup, fun lines words packed => ?_,
    fun positive word words narrow =>
      ⟨_, mapM_unpack word, pack_linesOf positive word narrow⟩⟩
  · simp only [pack_eq_ok, exists_and_left, exists_eq, and_true]
    exact check_isOk_iff
  · obtain ⟨checked, packs⟩ := pack_eq_ok_iff_packs.1 packed
    obtain ⟨⟨-, word⟩, -, below, -⟩ := check_isOk_iff.1 checked
    refine ⟨fun line member => ?_, fun bit inside free => ?_, packs.narrow,
      fun others => pack_perm packed⟩
    · exact packs.unpack member (Nat.lt_of_lt_of_le (below line member) word)
    · rw [unpack_of_lt inside, packs.column_clear free]

end Metronome.Packing
