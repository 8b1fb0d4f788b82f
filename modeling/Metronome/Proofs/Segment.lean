/-
Module: Metronome.Proofs.Segment
Purpose: Segments follow each other without a gap, and the blocks of a segment are its ticks.
Trusted boundary: none
Main exports:
  Block.ticks, Block.Tile, Segment.fastTicks, Segment.blocks_ticks, Segment.blocks_tile,
  Segment.mem_fastTicks, Segment.Follow, Schedule.segmentsOf_follow
-/
import Metronome.Schedule.Program

namespace Metronome

namespace Block

/-- The single ticks of a block. -/
def ticks (block : Block) : List Tick :=
  (List.range block.repetitions).map fun k =>
    ⟨block.start + k * block.period, block.dualRate⟩

/-- Blocks that follow each other without a gap from one position to another. -/
def Tile : Nat → List Block → Nat → Prop
  | start, [], stop => start = stop
  | start, block :: rest, stop =>
      block.start = start ∧ 0 < block.period ∧ 0 < block.repetitions ∧
        Tile (start + block.period * block.repetitions) rest stop

theorem Tile.le {start stop : Nat} {blocks : List Block} (tile : Tile start blocks stop) :
    start ≤ stop := by
  induction blocks generalizing start with
  | nil => exact Nat.le_of_eq tile
  | cons block rest ih => exact Nat.le_trans (Nat.le_add_right ..) (ih tile.2.2.2)

theorem Tile.append {start middle stop : Nat} {first second : List Block}
    (one : Tile start first middle) (two : Tile middle second stop) :
    Tile start (first ++ second) stop := by
  induction first generalizing start with
  | nil =>
      obtain rfl : start = middle := one
      exact two
  | cons block rest ih =>
      obtain ⟨begins, period, repetitions, tail⟩ := one
      exact ⟨begins, period, repetitions, ih tail⟩

/-- One tick bridges any distance. -/
theorem Tile.single {start stop : Nat} (ahead : start < stop) (dualRate : Bool) :
    Tile start [⟨stop - start, 1, dualRate, start⟩] stop := by
  refine ⟨rfl, Nat.sub_pos_of_lt ahead, Nat.one_pos, ?_⟩
  rw [Nat.mul_one]
  exact Nat.add_sub_cancel' (Nat.le_of_lt ahead)

/-- The period of a block is at most the distance that the blocks bridge. -/
theorem Tile.period_le {start stop : Nat} {blocks : List Block} (tile : Tile start blocks stop)
    {block : Block} (member : block ∈ blocks) : start + block.period ≤ stop := by
  induction blocks generalizing start with
  | nil => exact absurd member List.not_mem_nil
  | cons first rest ih =>
      obtain ⟨-, -, repetitions, tail⟩ := tile
      rcases List.mem_cons.1 member with rfl | inRest
      · have once : block.period ≤ block.period * block.repetitions :=
          Nat.le_mul_of_pos_right _ repetitions
        have reached := tail.le
        omega
      · have later := ih tail inRest
        omega

/-- A block in a sequence without gaps has ticks, and they take time. -/
theorem Tile.pos {start stop : Nat} {blocks : List Block} (tile : Tile start blocks stop)
    {block : Block} (member : block ∈ blocks) : 0 < block.period ∧ 0 < block.repetitions := by
  induction blocks generalizing start with
  | nil => exact absurd member List.not_mem_nil
  | cons first rest ih =>
      obtain ⟨-, period, repetitions, tail⟩ := tile
      rcases List.mem_cons.1 member with rfl | inRest
      · exact ⟨period, repetitions⟩
      · exact ih tail inRest

theorem ticks_single (period start : Nat) (dualRate : Bool) :
    ticks ⟨period, 1, dualRate, start⟩ = [⟨start, dualRate⟩] := by
  simp [ticks]

end Block

namespace Segment

/-- The fast ticks of a segment: the sample ticks strictly inside the sampled part, and a closing
tick at its limit if the segment goes on. -/
def fastTicks (segment : Segment) (period : Option Nat) (limit : Nat) : List Nat :=
  ((List.range (segment.interior period limit)).map fun k =>
      segment.start + (k + 1) * period.getD 0) ++
    if limit < segment.next then [limit] else []

/-- The blocks of a segment are one dual-rate tick at its start and then its fast ticks. -/
theorem blocks_ticks (segment : Segment) (period : Option Nat) (limit : Nat) :
    (segment.blocks period limit).flatMap Block.ticks =
      ⟨segment.start, true⟩ ::
        (segment.fastTicks period limit).map fun position => ⟨position, false⟩ := by
  have closing : (if limit < segment.next then
        [(⟨segment.next - limit, 1, false, limit⟩ : Block)] else []).flatMap Block.ticks =
      (if limit < segment.next then [limit] else []).map fun position =>
        (⟨position, false⟩ : Tick) := by
    split <;> simp [Block.ticks_single]
  unfold blocks fastTicks
  simp only [List.flatMap_append, List.map_append, closing]
  rw [← List.cons_append]
  congr 1
  cases period with
  | none => simp [interior, Block.ticks_single]
  | some period =>
      simp only [Option.getD_some]
      generalize segment.interior (some period) limit = count
      match count with
      | 0 => simp [Block.ticks_single]
      | 1 => simp [Block.ticks_single]
      | more + 2 =>
          have several : 1 < more + 2 := by omega
          have middle : Block.ticks ⟨period, more + 1, false, segment.start + period⟩ =
              ((List.range (more + 1)).map fun k => segment.start + (k + 1) * period).map
                fun position => ⟨position, false⟩ := by
            simp only [Block.ticks, List.map_map]
            apply List.map_congr_left
            intro k _
            simp only [Function.comp_apply, Nat.add_mul, Nat.one_mul, Nat.add_assoc,
              Nat.add_comm period]
          rw [List.range_succ, List.map_append]
          simp [several, middle, Block.ticks_single, Nat.add_assoc]

/-- A sampled part of a segment: it is not empty and does not reach past the segment, and samples
are apart. -/
structure Sampled (segment : Segment) (period : Option Nat) (limit : Nat) : Prop where
  start_lt : segment.start < limit
  le_next : limit ≤ segment.next
  apart : ∀ step, period = some step → 0 < step

/-- The number of a sample tick is in range if the tick lies before the limit. -/
theorem lt_interior_iff {segment : Segment} {period limit k : Nat} (apart : 0 < period)
    (start_lt : segment.start < limit) :
    k < segment.interior (some period) limit ↔ segment.start + (k + 1) * period < limit := by
  rw [interior, Nat.lt_iff_add_one_le, Nat.le_div_iff_mul_le apart]
  omega

/-- The blocks of a segment leave no gap. -/
theorem blocks_tile {segment : Segment} {period : Option Nat} {limit : Nat}
    (sampled : segment.Sampled period limit) :
    Block.Tile segment.start (segment.blocks period limit) segment.next := by
  have start_lt := sampled.start_lt
  have le_next := sampled.le_next
  have closing : Block.Tile limit
      (if limit < segment.next then [⟨segment.next - limit, 1, false, limit⟩] else [])
      segment.next := by
    split
    · rename_i goesOn
      exact Block.Tile.single goesOn false
    · rename_i ends
      exact Nat.le_antisymm le_next (Nat.le_of_not_lt ends)
  unfold blocks
  refine Block.Tile.append ?_ closing
  cases period with
  | none => exact Block.Tile.single start_lt true
  | some period =>
      have apart := sampled.apart period rfl
      have sampleBefore : ∀ k, k < segment.interior (some period) limit →
          segment.start + (k + 1) * period < limit := fun k =>
        (lt_interior_iff apart start_lt).1
      dsimp only
      generalize segment.interior (some period) limit = count at sampleBefore
      match count with
      | 0 => exact Block.Tile.single start_lt true
      | 1 =>
          refine ⟨rfl, apart, Nat.one_pos, ?_⟩
          have second : segment.start + period * 1 = segment.start + 1 * period := by
            rw [Nat.mul_comm]
          rw [second]
          exact Block.Tile.single (sampleBefore 0 Nat.one_pos) false
      | more + 2 =>
          refine ⟨rfl, apart, Nat.one_pos, ?_⟩
          rw [Nat.mul_one, if_pos (by omega : 1 < more + 2)]
          refine ⟨rfl, apart, Nat.succ_pos more, ?_⟩
          have last : segment.start + period + period * (more + 2 - 1) =
              segment.start + (more + 2) * period := by
            have steps : (more + 2) * period = period + period * (more + 1) := by
              rw [Nat.mul_comm, Nat.mul_succ, Nat.add_comm]
            rw [steps, Nat.add_assoc]
            rfl
          rw [last]
          exact Block.Tile.single (sampleBefore (more + 1) (Nat.lt_succ_self _)) false

/-- Where the fast ticks of a segment are. -/
theorem mem_fastTicks {segment : Segment} {period : Option Nat} {limit position : Nat}
    (sampled : segment.Sampled period limit) :
    position ∈ segment.fastTicks period limit ↔
      (segment.start < position ∧ position < limit ∧
        ∃ step, period = some step ∧ step ∣ position - segment.start) ∨
      (position = limit ∧ limit < segment.next) := by
  have closing : position ∈ (if limit < segment.next then [limit] else []) ↔
      position = limit ∧ limit < segment.next := by
    split <;> simp_all
  rw [fastTicks, List.mem_append, closing]
  apply or_congr_left
  simp only [List.mem_map, List.mem_range]
  cases period with
  | none => simp [interior]
  | some period =>
      have apart := sampled.apart period rfl
      have start_lt := sampled.start_lt
      simp only [Option.getD_some, Option.some.injEq, exists_eq_left']
      constructor
      · intro sample
        obtain ⟨k, inRange, rfl⟩ := sample
        have before := (lt_interior_iff apart start_lt).1 inRange
        have later : 0 < (k + 1) * period := Nat.mul_pos (Nat.succ_pos k) apart
        refine ⟨by omega, before, ?_⟩
        rw [Nat.add_sub_cancel_left]
        exact Nat.dvd_mul_left ..
      · intro inside
        obtain ⟨later, before, number, multiple⟩ := inside
        have positive : 0 < number := by
          apply Nat.pos_of_ne_zero
          rintro rfl
          omega
        have distance : (number - 1 + 1) * period = position - segment.start := by
          rw [Nat.sub_add_cancel positive, Nat.mul_comm, ← multiple]
        refine ⟨number - 1, (lt_interior_iff apart start_lt).2 ?_, ?_⟩ <;> omega

/-- The fast ticks of a segment lie strictly inside it. -/
theorem fastTicks_inside {segment : Segment} {period : Option Nat} {limit position : Nat}
    (sampled : segment.Sampled period limit)
    (member : position ∈ segment.fastTicks period limit) :
    segment.start < position ∧ position < segment.next := by
  have start_lt := sampled.start_lt
  have le_next := sampled.le_next
  rcases (mem_fastTicks sampled).1 member with ⟨later, before, -⟩ | ⟨rfl, goesOn⟩
  · omega
  · omega

theorem fastTicks_increasing {segment : Segment} {period : Option Nat} {limit : Nat}
    (sampled : segment.Sampled period limit) :
    (segment.fastTicks period limit).Pairwise (· < ·) := by
  rw [fastTicks, List.pairwise_append]
  refine ⟨?_, by split <;> simp, ?_⟩
  · rw [List.pairwise_map]
    cases period with
    | none => simp [interior]
    | some period =>
        refine List.pairwise_lt_range.imp ?_
        intro first second less
        have scaled : (first + 1) * period < (second + 1) * period :=
          Nat.mul_lt_mul_of_pos_right (Nat.succ_lt_succ less) (sampled.apart period rfl)
        simp only [Option.getD_some]
        omega
  · intro sample inInterior closing atLimit
    have limited : closing = limit := by
      split at atLimit
      · exact List.mem_singleton.1 atLimit
      · exact absurd atLimit List.not_mem_nil
    subst limited
    simp only [List.mem_map, List.mem_range] at inInterior
    obtain ⟨k, inRange, rfl⟩ := inInterior
    cases period with
    | none => simp [interior] at inRange
    | some period =>
        exact (lt_interior_iff (sampled.apart period rfl) sampled.start_lt).1 inRange

/-- A segment has as many ticks as its count says. -/
theorem tickCount_eq (segment : Segment) (period : Option Nat) (limit : Nat) :
    segment.tickCount period limit = (segment.fastTicks period limit).length + 1 := by
  rw [tickCount, fastTicks, List.length_append, List.length_map, List.length_range]
  split <;> simp

/-- Segments that follow each other without a gap from one position to another. -/
def Follow : Nat → List Segment → Nat → Prop
  | start, [], stop => start = stop
  | start, segment :: rest, stop =>
      segment.start = start ∧ segment.start < segment.next ∧ Follow segment.next rest stop

theorem Follow.le {start stop : Nat} {segments : List Segment}
    (follow : Follow start segments stop) : start ≤ stop := by
  induction segments generalizing start with
  | nil => exact Nat.le_of_eq follow
  | cons segment rest ih =>
      obtain ⟨rfl, ahead, tail⟩ := follow
      exact Nat.le_trans (Nat.le_of_lt ahead) (ih tail)

/-- A segment of a sequence is not empty and lies between the ends of the sequence. -/
theorem Follow.bounds {start stop : Nat} {segments : List Segment}
    (follow : Follow start segments stop) {segment : Segment} (member : segment ∈ segments) :
    start ≤ segment.start ∧ segment.start < segment.next ∧ segment.next ≤ stop := by
  induction segments generalizing start with
  | nil => exact absurd member List.not_mem_nil
  | cons first rest ih =>
      obtain ⟨rfl, ahead, tail⟩ := follow
      rcases List.mem_cons.1 member with rfl | inRest
      · exact ⟨Nat.le_refl _, ahead, tail.le⟩
      · have later := ih tail inRest
        omega

/-- A segment of a sequence leads to the stop or to the start of another one. -/
theorem Follow.next_eq {start stop : Nat} {segments : List Segment}
    (follow : Follow start segments stop) {segment : Segment} (member : segment ∈ segments) :
    segment.next = stop ∨ ∃ other ∈ segments, other.start = segment.next := by
  induction segments generalizing start with
  | nil => exact absurd member List.not_mem_nil
  | cons first rest ih =>
      obtain ⟨-, -, tail⟩ := follow
      rcases List.mem_cons.1 member with rfl | inRest
      · cases rest with
        | nil => exact Or.inl tail
        | cons second others => exact Or.inr ⟨second, by simp, tail.1⟩
      · rcases ih tail inRest with last | ⟨other, otherIn, isNext⟩
        · exact Or.inl last
        · exact Or.inr ⟨other, List.mem_cons_of_mem _ otherIn, isNext⟩

/-- Of two segments of a sequence the second starts where the first ends, or later. -/
theorem Follow.ordered {start stop : Nat} {segments : List Segment}
    (follow : Follow start segments stop) :
    segments.Pairwise fun first second => first.next ≤ second.start := by
  induction segments generalizing start with
  | nil => exact List.Pairwise.nil
  | cons first rest ih =>
      obtain ⟨-, -, tail⟩ := follow
      exact List.pairwise_cons.2 ⟨fun second inRest => (tail.bounds inRest).1, ih tail⟩

/-- Two segments of a sequence are the same or apart. -/
theorem Follow.apart {start stop : Nat} {segments : List Segment}
    (follow : Follow start segments stop) {one two : Segment} (oneIn : one ∈ segments)
    (twoIn : two ∈ segments) : one = two ∨ one.next ≤ two.start ∨ two.next ≤ one.start := by
  induction segments generalizing start with
  | nil => exact absurd oneIn List.not_mem_nil
  | cons first rest ih =>
      obtain ⟨-, -, tail⟩ := follow
      rcases List.mem_cons.1 oneIn with rfl | oneRest
      · rcases List.mem_cons.1 twoIn with rfl | twoRest
        · exact Or.inl rfl
        · exact Or.inr (Or.inl (tail.bounds twoRest).1)
      · rcases List.mem_cons.1 twoIn with rfl | twoRest
        · exact Or.inr (Or.inr (tail.bounds oneRest).1)
        · exact ih tail oneRest twoRest

/-- Every position between the ends of a sequence lies in one of its segments. -/
theorem Follow.exists_around {start stop position : Nat} {segments : List Segment}
    (follow : Follow start segments stop) (later : start ≤ position) (before : position < stop) :
    ∃ segment ∈ segments, segment.start ≤ position ∧ position < segment.next := by
  induction segments generalizing start with
  | nil =>
      obtain rfl : start = stop := follow
      omega
  | cons first rest ih =>
      obtain ⟨rfl, -, tail⟩ := follow
      by_cases inFirst : position < first.next
      · exact ⟨first, List.mem_cons_self .., later, inFirst⟩
      · obtain ⟨segment, member, around⟩ := ih tail (Nat.le_of_not_lt inFirst)
        exact ⟨segment, List.mem_cons_of_mem _ member, around⟩

end Segment

namespace Schedule

theorem segmentsOf_starts (stop : Nat) (boundaries : List Nat) :
    (segmentsOf stop boundaries).map Segment.start = boundaries := by
  fun_induction segmentsOf stop boundaries with
  | case1 => rfl
  | case2 start => rfl
  | case3 start next rest ih => rw [List.map_cons, ih]

/-- The segments between increasing boundaries follow each other from the first boundary to the
stop. -/
theorem segmentsOf_follow {stop first : Nat} {rest : List Nat}
    (increasing : (first :: rest).Pairwise (· < ·))
    (before : ∀ boundary ∈ first :: rest, boundary < stop) :
    Segment.Follow first (segmentsOf stop (first :: rest)) stop := by
  induction rest generalizing first with
  | nil => exact ⟨rfl, before first (List.mem_singleton.2 rfl), rfl⟩
  | cons next rest ih =>
      obtain ⟨firstLess, restIncreasing⟩ := List.pairwise_cons.1 increasing
      exact ⟨rfl, firstLess next (List.mem_cons_self ..),
        ih restIncreasing fun boundary inRest => before boundary (List.mem_cons_of_mem _ inRest)⟩

end Schedule

end Metronome
