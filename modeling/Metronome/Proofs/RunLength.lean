/-
Module: Metronome.Proofs.RunLength
Purpose: Run-length coding keeps every event, merges all that it can, and gives back every program
  that has nothing left to merge.
Trusted boundary: none
Main exports:
  Event.Same, Event.Numeric, Entry.merges, Entry.Canonical, Entry.foldl_pushEvent_replicate,
  Program.unstamped, Program.beq_unstamped, Program.Numeric, Program.compress_events,
  Program.compress_canonical, Program.compress_of_canonical, Program.compress_numeric
-/
import Mathlib
import Metronome.Program

/-!
Entries are pushed one at a time, by single events or by whole runs, and only the last of them can
change.  So what is left to merge is decided at each push, and a run of events has the same effect
as its events one after the other.  Merging compares periods as doubles: it keeps the period of the
first tick, and never takes place where a period is undefined.
-/

namespace Metronome

/-! ### Events and origins -/

/-- Events that are equal, where periods are compared as doubles. -/
inductive Event.Same : Event → Event → Prop where
  | tick {first second : Float} (equal : (first == second) = true) (dualRate : Bool) :
      Same (.tick first dualRate) (.tick second dualRate)
  | wait (marker : Marker) : Same (.wait marker) (.wait marker)

/-- An event whose period, if it has one, is a number. -/
def Event.Numeric : Event → Prop
  | .tick period _ => period.isNaN = false
  | .wait _ => True

/-- A double that is a number is equal to itself. -/
theorem Number.beq_self {x : Float} (number : x.isNaN = false) : (x == x) = true := by
  rw [Float.isNaN_eq_decide_eq_nan, decide_eq_false_iff_not] at number
  exact Float.beq_self_iff.2 number

/-- A double that is equal to some double is a number. -/
theorem Number.isNaN_of_beq {x y : Float} (equal : (x == y) = true) : x.isNaN = false := by
  rw [Float.isNaN_eq_decide_eq_nan]
  exact decide_eq_false (Float.beq_iff_ne_nan_and_eq.1 equal).1

/-- A run without its origin time. -/
def Run.unstamped (run : Run) : Run :=
  { run with origin := none }

/-- A marker without its origin time. -/
def Marker.unstamped (marker : Marker) : Marker :=
  { marker with origin := none }

/-- An entry without its origin time. -/
def Entry.unstamped : Entry → Entry
  | .tick run => .tick run.unstamped
  | .wait marker => .wait marker.unstamped

/-- A program without its origin times: all that takes part in comparisons. -/
def Program.unstamped (program : Program) : Program :=
  { program with entries := program.entries.map Entry.unstamped }

namespace Entry

/-- Neighbours that would be one run: ticks of the same period and rate. -/
def merges : Entry → Entry → Bool
  | .tick first, .tick second => first.period == second.period && first.dualRate == second.dualRate
  | _, _ => false

/-- Entries in which nothing is left to merge, without empty runs. -/
structure Canonical (entries : List Entry) : Prop where
  counted : ∀ run, .tick run ∈ entries → 1 ≤ run.repetitions
  apart : entries.IsChain fun first second => first.merges second = false

@[simp] theorem merges_unstamped (first second : Entry) :
    first.unstamped.merges second.unstamped = first.merges second := by
  cases first with
  | wait => rfl
  | tick => cases second <;> rfl

/-- Whether a run prolongs an entry does not depend on its length and its origin time. -/
theorem merges_resized (entry : Entry) (run : Run) (count : Nat) (origin : Option Float) :
    entry.merges (.tick ⟨run.period, count, run.dualRate, origin⟩) = entry.merges (.tick run) := by
  cases entry <;> rfl

/-- Neither does whether it is prolonged by one. -/
theorem resized_merges (run : Run) (count : Nat) (origin : Option Float) (entry : Entry) :
    (tick ⟨run.period, count, run.dualRate, origin⟩).merges entry = (tick run).merges entry := by
  cases entry <;> rfl

/-! ### One push -/

theorem pushRun_of_merges {run last : Run} {rest : List Entry}
    (merging : (Entry.tick last).merges (.tick run) = true) :
    pushRun run (.tick last :: rest) =
      .tick { last with repetitions := last.repetitions + run.repetitions } :: rest :=
  if_pos merging

/-- A run that does not prolong the last entry becomes an entry of its own. -/
theorem pushRun_of_apart {run : Run} {entries : List Entry}
    (apart : ∀ last ∈ entries.head?, last.merges (.tick run) = false) :
    pushRun run entries = .tick run :: entries := by
  cases entries with
  | nil => rfl
  | cons entry rest =>
      cases entry with
      | wait marker => rfl
      | tick last =>
          have unequal := apart (.tick last) rfl
          exact if_neg (Bool.eq_false_iff.1 unequal)

/-- A run is pushed in one of two ways. -/
theorem pushRun_cases (run : Run) (entries : List Entry) :
    (∃ last rest, entries = .tick last :: rest ∧ (Entry.tick last).merges (.tick run) = true ∧
      pushRun run entries =
        .tick { last with repetitions := last.repetitions + run.repetitions } :: rest) ∨
    (∀ last ∈ entries.head?, last.merges (.tick run) = false) ∧
      pushRun run entries = .tick run :: entries := by
  by_cases apart : ∀ last ∈ entries.head?, last.merges (.tick run) = false
  · exact Or.inr ⟨apart, pushRun_of_apart apart⟩
  · left
    push Not at apart
    obtain ⟨entry, isLast, merging⟩ := apart
    cases entries with
    | nil => cases isLast
    | cons head rest =>
        cases isLast
        cases entry with
        | wait marker => exact absurd rfl merging
        | tick last =>
            have same := Bool.eq_true_of_not_eq_false merging
            exact ⟨last, rest, rfl, same, pushRun_of_merges same⟩

/-- Two runs of one period and rate have the effect of a single one, if the period is a number. -/
theorem pushRun_pushRun {run : Run} (number : run.period.isNaN = false) (more : Nat)
    (entries : List Entry) :
    pushRun { run with repetitions := more } (pushRun run entries) =
      pushRun { run with repetitions := run.repetitions + more } entries := by
  rcases pushRun_cases run entries with ⟨last, rest, rfl, merging, pushed⟩ | ⟨apart, pushed⟩
  · have both : (Entry.tick last).merges
        (.tick { run with repetitions := run.repetitions + more }) = true := merging
    have second :
        (Entry.tick { last with repetitions := last.repetitions + run.repetitions }).merges
          (.tick { run with repetitions := more }) = true := merging
    rw [pushed, pushRun_of_merges both, pushRun_of_merges second, Nat.add_assoc]
  · have itself : (Entry.tick run).merges (.tick { run with repetitions := more }) = true := by
      rw [merges, Number.beq_self number, Bool.true_and]
      exact beq_self_eq_true run.dualRate
    have unmerged : ∀ last ∈ entries.head?,
        last.merges (.tick { run with repetitions := run.repetitions + more }) = false :=
      fun last isLast => (last.merges_resized run ..).trans (apart last isLast)
    rw [pushed, pushRun_of_merges itself, pushRun_of_apart unmerged]

/-- Equal events one after the other have the effect of one run. -/
theorem foldl_pushEvent_replicate {period : Float} (number : period.isNaN = false)
    (dualRate : Bool) {count : Nat} (pos : 1 ≤ count) (entries : List Entry) :
    (List.replicate count (.tick period dualRate)).foldl pushEvent entries =
      pushRun ⟨period, count, dualRate, none⟩ entries := by
  induction count, pos using Nat.le_induction with
  | base => rfl
  | succ count pos ih =>
      have numeric : (⟨period, count, dualRate, none⟩ : Run).period.isNaN = false := number
      rw [List.replicate_succ', List.foldl_append, ih]
      exact pushRun_pushRun numeric 1 entries

/-- The origin time of a run has no effect on how it is pushed. -/
theorem map_unstamped_pushRun (run : Run) (entries : List Entry) :
    (pushRun run entries).map unstamped = pushRun run.unstamped (entries.map unstamped) := by
  rcases pushRun_cases run entries with ⟨last, rest, rfl, merging, pushed⟩ | ⟨apart, pushed⟩
  · have unstampedMerging :
        (Entry.tick last.unstamped).merges (.tick run.unstamped) = true := merging
    rw [pushed]
    exact (pushRun_of_merges unstampedMerging).symm
  · have unstampedApart : ∀ last ∈ (entries.map unstamped).head?,
        last.merges (.tick run.unstamped) = false := by
      intro last isLast
      rw [List.head?_map] at isLast
      obtain ⟨stamped, isHead, rfl⟩ := Option.map_eq_some_iff.1 isLast
      exact (merges_unstamped stamped (.tick run)).trans (apart stamped isHead)
    rw [pushed, pushRun_of_apart unstampedApart]
    rfl

/-! ### What every push keeps -/

/-- A pushed run leaves nothing to merge.  Entries are listed from the last to the first. -/
theorem Canonical.pushRun {run : Run} {entries : List Entry}
    (canonical : Canonical entries.reverse) (pos : 1 ≤ run.repetitions) :
    Canonical (pushRun run entries).reverse := by
  obtain ⟨counted, apart⟩ := canonical
  rcases pushRun_cases run entries with ⟨last, rest, rfl, -, pushed⟩ | ⟨unmerged, pushed⟩
  · rw [List.reverse_cons] at counted apart
    rw [pushed, List.reverse_cons]
    constructor
    · intro other member
      rcases List.mem_append.1 member with inRest | isLast
      · exact counted other (List.mem_append_left _ inRest)
      · cases List.mem_singleton.1 isLast
        exact Nat.le_add_left_of_le pos
    · obtain ⟨restApart, -, join⟩ := List.isChain_append.1 apart
      refine List.isChain_append.2 ⟨restApart, List.isChain_singleton _, ?_⟩
      intro first isFirst second isSecond
      cases isSecond
      exact (first.merges_resized last ..).trans (join first isFirst _ rfl)
  · rw [pushed, List.reverse_cons]
    constructor
    · intro other member
      rcases List.mem_append.1 member with old | isNew
      · exact counted other old
      · cases List.mem_singleton.1 isNew
        exact pos
    · refine List.isChain_append.2 ⟨apart, List.isChain_singleton _, ?_⟩
      intro first isFirst second isSecond
      cases isSecond
      rw [List.getLast?_reverse] at isFirst
      exact unmerged first isFirst

/-- A wait keeps the ticks before it from those after it. -/
theorem Canonical.pushWait {entries : List Entry} (canonical : Canonical entries.reverse)
    (marker : Marker) : Canonical (Entry.wait marker :: entries).reverse := by
  obtain ⟨counted, apart⟩ := canonical
  rw [List.reverse_cons]
  constructor
  · intro run member
    rcases List.mem_append.1 member with old | isNew
    · exact counted run old
    · cases List.mem_singleton.1 isNew
  · refine List.isChain_append.2 ⟨apart, List.isChain_singleton _, ?_⟩
    intro first _ second isSecond
    cases isSecond
    cases first <;> rfl

theorem Canonical.pushEvent {entries : List Entry} (canonical : Canonical entries.reverse)
    (event : Event) : Canonical (pushEvent entries event).reverse := by
  cases event with
  | wait marker => exact canonical.pushWait marker
  | tick period dualRate => exact canonical.pushRun (Nat.le_refl 1)

theorem canonical_nil : Canonical [] :=
  ⟨fun _ member => absurd member List.not_mem_nil, List.isChain_nil⟩

/-- A pushed event is added to those of the entries, up to the equality of periods. -/
theorem events_pushEvent {event : Event} (numeric : event.Numeric) (entries : List Entry) :
    ∃ same, same.Same event ∧ (pushEvent entries event).reverse.flatMap events =
      entries.reverse.flatMap events ++ [same] := by
  cases event with
  | wait marker => exact ⟨.wait marker, .wait marker, by simp [pushEvent, events]⟩
  | tick period dualRate =>
      rcases pushRun_cases ⟨period, 1, dualRate, none⟩ entries with
        ⟨last, rest, rfl, merging, pushed⟩ | ⟨-, pushed⟩
      · rw [merges, Bool.and_eq_true] at merging
        obtain ⟨equal, rate⟩ := merging
        have sameRate : last.dualRate = dualRate := eq_of_beq rate
        refine ⟨.tick last.period dualRate, .tick equal dualRate, ?_⟩
        rw [pushEvent, pushed]
        simp only [List.reverse_cons, List.flatMap_append, List.flatMap_cons, List.flatMap_nil,
          List.append_nil, events, List.replicate_succ', sameRate, List.append_assoc]
      · refine ⟨.tick period dualRate, .tick (Number.beq_self numeric) dualRate, ?_⟩
        rw [pushEvent, pushed]
        simp [events]

/-! ### Whole programs -/

/-- Canonical entries are pushed back by their events, one after the other.  The induction is on the
entries still to come, which do not merge with what has been pushed. -/
theorem foldl_pushEvent_events {entries : List Entry} (canonical : Canonical entries)
    (numeric : ∀ run, .tick run ∈ entries → run.period.isNaN = false) (before : List Entry)
    (apart : ∀ last ∈ before.head?, ∀ first ∈ entries.head?, last.merges first = false) :
    ((entries.flatMap events).foldl pushEvent before).map unstamped =
      (entries.map unstamped).reverse ++ before.map unstamped := by
  induction entries generalizing before with
  | nil => rfl
  | cons entry rest ih =>
      obtain ⟨counted, chain⟩ := canonical
      obtain ⟨entryApart, restApart⟩ := List.isChain_cons.1 chain
      have restCanonical : Canonical rest :=
        ⟨fun run member => counted run (List.mem_cons_of_mem _ member), restApart⟩
      have restNumeric := fun run (member : Entry.tick run ∈ rest) =>
        numeric run (List.mem_cons_of_mem _ member)
      rw [List.flatMap_cons, List.foldl_append, List.map_cons, List.reverse_cons,
        List.append_assoc]
      cases entry with
      | wait marker =>
          refine ih restCanonical restNumeric (.wait marker :: before) ?_
          intro last isLast first _
          cases isLast
          rfl
      | tick run =>
          have unmerged : ∀ last ∈ before.head?,
              last.merges (.tick run.unstamped) = false := fun last isLast =>
            (last.merges_resized run ..).trans (apart last isLast _ rfl)
          have pushed : (events (.tick run)).foldl pushEvent before =
              .tick run.unstamped :: before :=
            (foldl_pushEvent_replicate (numeric run List.mem_cons_self) run.dualRate
              (counted run List.mem_cons_self) before).trans (pushRun_of_apart unmerged)
          rw [pushed]
          refine ih restCanonical restNumeric (.tick run.unstamped :: before) ?_
          intro last isLast first isFirst
          cases isLast
          exact (resized_merges run _ _ first).trans (entryApart first isFirst)

end Entry

namespace Program

/-- A compressed stream has the events of the stream. -/
theorem compress_events {events : List Event} (numeric : ∀ event ∈ events, event.Numeric)
    (timeBase stopTime : Float) :
    List.Forall₂ Event.Same (compress timeBase stopTime events).events events := by
  have pushed : ∀ entries : List Entry, ∃ tail, List.Forall₂ Event.Same tail events ∧
      (events.foldl Entry.pushEvent entries).reverse.flatMap Entry.events =
        entries.reverse.flatMap Entry.events ++ tail := by
    induction events with
    | nil => exact fun entries => ⟨[], .nil, (List.append_nil _).symm⟩
    | cons event rest ih =>
        intro entries
        obtain ⟨numericEvent, numericRest⟩ := List.forall_mem_cons.1 numeric
        obtain ⟨same, equal, first⟩ := Entry.events_pushEvent numericEvent entries
        obtain ⟨tail, equalTail, others⟩ := ih numericRest (Entry.pushEvent entries event)
        refine ⟨same :: tail, .cons equal equalTail, ?_⟩
        rw [List.foldl_cons, others, first, List.append_assoc]
        rfl
  obtain ⟨tail, equal, all⟩ := pushed []
  rw [Program.events, compress, all]
  exact equal

/-- A compressed stream has nothing left to merge. -/
theorem compress_canonical (timeBase stopTime : Float) (events : List Event) :
    Entry.Canonical (compress timeBase stopTime events).entries := by
  have kept : ∀ entries : List Entry, Entry.Canonical entries.reverse →
      Entry.Canonical (events.foldl Entry.pushEvent entries).reverse := by
    induction events with
    | nil => exact fun _ canonical => canonical
    | cons event rest ih =>
        intro entries canonical
        exact ih _ (canonical.pushEvent event)
  exact kept [] Entry.canonical_nil

/-- A program with nothing left to merge is what its events are compressed to, but for the origin
times. -/
theorem compress_of_canonical {program : Program} (canonical : Entry.Canonical program.entries)
    (numeric : ∀ run, .tick run ∈ program.entries → run.period.isNaN = false) :
    (compress program.timeBase program.stopTime program.events).unstamped =
      program.unstamped := by
  have pushed := Entry.foldl_pushEvent_events canonical numeric []
    fun _ isLast => absurd isLast (by simp)
  rw [List.map_nil, List.append_nil] at pushed
  rw [unstamped, unstamped, compress, Program.events, List.map_reverse, pushed,
    List.reverse_reverse]

/-- Origin times take no part in comparisons. -/
theorem beq_unstamped (first second : Program) :
    (first.unstamped == second.unstamped) = (first == second) := by
  have entries : ∀ one other : List Entry,
      (one.map Entry.unstamped == other.map Entry.unstamped) = (one == other) := by
    intro one
    induction one with
    | nil =>
        intro other
        cases other <;> rfl
    | cons entry rest ih =>
        intro other
        cases other with
        | nil => rfl
        | cons otherEntry otherRest =>
            have heads : (entry.unstamped == otherEntry.unstamped) = (entry == otherEntry) := by
              cases entry <;> cases otherEntry <;> rfl
            rw [List.map_cons, List.map_cons, List.cons_beq_cons, List.cons_beq_cons, heads, ih]
  have unfolded : ∀ one other : Program, (one == other) =
      (one.timeBase == other.timeBase && one.stopTime == other.stopTime &&
        one.entries == other.entries) := fun _ _ => rfl
  rw [unfolded, unfolded, unstamped, unstamped, entries]

/-- A program in which every period, every timeout and both of its own times are numbers. -/
structure Numeric (program : Program) : Prop where
  timeBase : program.timeBase.isNaN = false
  stopTime : program.stopTime.isNaN = false
  periods : ∀ run, .tick run ∈ program.entries → run.period.isNaN = false
  timeouts : ∀ marker, .wait marker ∈ program.entries → ∀ timeout,
    marker.timeout = some timeout → timeout.isNaN = false

/-- Origin times need not be numbers. -/
theorem Numeric.of_unstamped {program : Program} (numeric : program.unstamped.Numeric) :
    program.Numeric where
  timeBase := numeric.timeBase
  stopTime := numeric.stopTime
  periods := fun run member => numeric.periods run.unstamped (List.mem_map_of_mem member)
  timeouts := fun marker member =>
    numeric.timeouts marker.unstamped (List.mem_map_of_mem member)

/-- Such a program is equal to itself. -/
theorem Numeric.beq_self {program : Program} (numeric : program.Numeric) :
    (program == program) = true := by
  have each : ∀ entry ∈ program.entries, (entry == entry) = true := by
    intro entry member
    cases entry with
    | tick run =>
        have number := numeric.periods run member
        change (run.period == run.period && run.repetitions == run.repetitions &&
          run.dualRate == run.dualRate) = true
        simp only [Number.beq_self number, beq_self_eq_true, Bool.and_self]
    | wait marker =>
        have timeouts := numeric.timeouts marker member
        change (marker.label == marker.label && marker.timeout == marker.timeout) = true
        rw [beq_self_eq_true, Bool.true_and]
        cases timeout : marker.timeout with
        | none => rfl
        | some seconds => exact Number.beq_self (timeouts seconds timeout)
  have all : (program.entries == program.entries) = true := by
    generalize program.entries = entries at each
    induction entries with
    | nil => rfl
    | cons entry rest ih =>
        obtain ⟨head, tail⟩ := List.forall_mem_cons.1 each
        rw [List.cons_beq_cons, head, ih tail, Bool.and_self]
  change (program.timeBase == program.timeBase && program.stopTime == program.stopTime &&
    program.entries == program.entries) = true
  rw [Number.beq_self numeric.timeBase, Number.beq_self numeric.stopTime, all]
  rfl

/-- Every event of a compressed stream is one of the stream, up to the equality of periods. -/
theorem exists_same_of_mem_compress {timeBase stopTime : Float} {events : List Event}
    (numeric : ∀ event ∈ events, event.Numeric) {event : Event}
    (member : event ∈ (compress timeBase stopTime events).events) :
    ∃ other ∈ events, event.Same other := by
  have paired := compress_events numeric timeBase stopTime
  obtain ⟨index, bound, rfl⟩ := List.getElem_of_mem member
  exact ⟨_, List.getElem_mem _, (List.forall₂_iff_get.1 paired).2 index bound
    ((List.forall₂_iff_get.1 paired).1 ▸ bound)⟩

/-- A stream of numbers is compressed to numbers. -/
theorem compress_numeric {timeBase stopTime : Float} {events : List Event}
    (timeBaseNumber : timeBase.isNaN = false) (stopTimeNumber : stopTime.isNaN = false)
    (numeric : ∀ event ∈ events, event.Numeric)
    (timeouts : ∀ marker, .wait marker ∈ events → ∀ timeout,
      marker.timeout = some timeout → timeout.isNaN = false) :
    (compress timeBase stopTime events).Numeric where
  timeBase := timeBaseNumber
  stopTime := stopTimeNumber
  periods := by
    intro run member
    have pos := (compress_canonical timeBase stopTime events).counted run member
    have isEvent : .tick run.period run.dualRate ∈ (compress timeBase stopTime events).events :=
      List.mem_flatMap.2 ⟨_, member, List.mem_replicate.2 ⟨Nat.ne_of_gt pos, rfl⟩⟩
    obtain ⟨other, -, same⟩ := exists_same_of_mem_compress numeric isEvent
    cases same with
    | tick equal dualRate => exact Number.isNaN_of_beq equal
  timeouts := by
    intro marker member
    have isEvent : .wait marker ∈ (compress timeBase stopTime events).events :=
      List.mem_flatMap.2 ⟨_, member, List.mem_singleton.2 rfl⟩
    obtain ⟨other, inEvents, same⟩ := exists_same_of_mem_compress numeric isEvent
    cases same
    exact timeouts marker inEvents

end Program

end Metronome
