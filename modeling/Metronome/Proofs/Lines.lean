/-
Module: Metronome.Proofs.Lines
Purpose: The lines of a digital device pack exactly if no two channels are the same line of the same
  port.
Trusted boundary: none
Main exports:
  DigitalCard.readLine, DigitalCard.ports_eq_ok, DigitalCard.addresses, DigitalCard.Gathered,
  DigitalCard.ports_gathered, DigitalCard.Gathered.distinct_iff
-/
import Mathlib
import Metronome.Card.Digital
import Metronome.Proofs.Checks
import Metronome.Proofs.Grouping

/-!
Channels are gathered by the numbers in their names, so different names may come to the same port
and line.  The gathered ports hold one address for each channel, up to their order; since each port
is there once, the bits of every port are distinct exactly if all addresses are.
-/

namespace Metronome

namespace DigitalCard

open Packing (Line)

variable {card : DigitalCard} {device : SampledDevice} {ports : List (Nat × List Line)}
  {entry : String × List Float}

/-! ### Reading -/

/-- The port of a channel, and its line with the levels of its samples. -/
def readLine (card : DigitalCard) (entry : String × List Float) : Except Fault (Nat × Line) := do
  let (port, line) ← ChannelName.lineNumbers entry.1
  if card.portWidth ≤ line then
    throw (.limit card.name (.lineMissing line entry.1 card.portWidth))
  return (port, ⟨line, Packing.levels entry.2⟩)

theorem readLine_eq_ok {item : Nat × Line} : card.readLine entry = .ok item ↔
    ChannelName.lineNumbers entry.1 = .ok (item.1, item.2.bit) ∧ item.2.bit < card.portWidth ∧
      item.2.samples = Packing.levels entry.2 := by
  obtain ⟨port, line, samples⟩ := item
  rw [readLine, Checks.bind_eq_ok]
  constructor
  · rintro ⟨⟨port, line⟩, numbers, made⟩
    dsimp only at made
    split at made
    · cases made
    · rename_i inside
      cases made
      exact ⟨numbers, Nat.lt_of_not_le inside, rfl⟩
  · rintro ⟨numbers, inside, rfl⟩
    refine ⟨(port, line), numbers, ?_⟩
    dsimp only
    rw [if_neg (Nat.not_le.2 inside)]
    rfl

theorem addChannel_eq_read (ports : List (Nat × List Line)) (entry : String × List Float) :
    card.addChannel ports entry =
      (fun item : Nat × Line => Grouping.update item.1 [] (· ++ [item.2]) ports) <$>
        card.readLine entry := by
  rw [addChannel, readLine]
  cases ChannelName.lineNumbers entry.1 with
  | error fault => rfl
  | ok numbers =>
      simp only [bind, Except.bind]
      split <;> rfl

/-- The ports are the lines of the channels, gathered. -/
theorem ports_eq_ok : card.ports device = .ok ports ↔
    ∃ items, device.samples.entries.mapM card.readLine = .ok items ∧
      ports = Grouping.gather [] (fun lines line => lines ++ [line]) items :=
  Checks.foldlM_eq_ok_foldl addChannel_eq_read

/-! ### Addresses -/

/-- The port and the bit of every gathered line. -/
def addresses (ports : List (Nat × List Line)) : List (Nat × Nat) :=
  ports.flatMap fun port => port.2.map fun line => (port.1, line.bit)

/-- A line that is gathered adds its address to the others. -/
theorem addresses_update (port : Nat) (line : Line) :
    (addresses (Grouping.update port [] (fun lines => lines ++ [line]) ports)).Perm
      ((port, line.bit) :: addresses ports) := by
  induction ports with
  | nil => exact List.Perm.refl _
  | cons first rest ih =>
      obtain ⟨other, lines⟩ := first
      rw [Grouping.update]
      split
      · exact List.Perm.refl _
      · split
        · rename_i same
          subst same
          simp only [addresses, List.flatMap_cons, List.map_append, List.map_cons, List.map_nil,
            List.append_assoc]
          exact List.perm_middle
        · simp only [addresses, List.flatMap_cons] at ih ⊢
          exact (ih.append_left _).trans List.perm_middle

/-- What the gathered ports have to do with the channels: each port is there once, in order, the
addresses are those in the names, up to their order, and every line has the levels of a channel
and a bit that the card has. -/
structure Gathered (card : DigitalCard) (entries : List (String × List Float))
    (ports : List (Nat × List Line)) : Prop where
  increasing : ports.Pairwise fun first second => first.1 < second.1
  addressed : ((addresses ports).map Except.ok).Perm
    (entries.map fun entry => ChannelName.lineNumbers entry.1)
  lines : ∀ port ∈ ports, ∀ line ∈ port.2, line.bit < card.portWidth ∧
    ∃ entry ∈ entries, line.samples = Packing.levels entry.2

variable {done entries : List (String × List Float)} {after : List (Nat × List Line)}

/-- A channel that is gathered adds its line. -/
theorem Gathered.addChannel (gathered : Gathered card done ports)
    (made : card.addChannel ports entry = .ok after) : Gathered card (done ++ [entry]) after := by
  rw [addChannel_eq_read, Checks.map_eq_ok] at made
  obtain ⟨⟨port, line⟩, read, rfl⟩ := made
  obtain ⟨numbers, inside, levels⟩ := readLine_eq_ok.1 read
  refine ⟨Grouping.update_increasing gathered.increasing, ?_, fun group member other present => ?_⟩
  · rw [List.map_append, List.map_cons, List.map_nil, numbers]
    exact ((addresses_update port line).map Except.ok).trans
      ((gathered.addressed.cons _).trans (List.perm_append_singleton _ _).symm)
  · have old : ∀ lines, (group.1, lines) ∈ ports → other ∈ lines → other.bit < card.portWidth ∧
        ∃ held ∈ done ++ [entry], other.samples = Packing.levels held.2 := by
      intro lines held inLines
      obtain ⟨below, source, sourceIn, sourceLevels⟩ := gathered.lines _ held other inLines
      exact ⟨below, source, List.mem_append_left _ sourceIn, sourceLevels⟩
    have new : other = line → other.bit < card.portWidth ∧
        ∃ held ∈ done ++ [entry], other.samples = Packing.levels held.2 := by
      rintro rfl
      exact ⟨inside, entry, by simp, levels⟩
    rcases Grouping.mem_update member with held | ⟨named, changed | ⟨lines, held, changed⟩⟩
    · exact old group.2 held present
    · rw [changed] at present
      exact new (by simpa using present)
    · rw [changed] at present
      rcases List.mem_append.1 present with inLines | added
      · exact old lines (named ▸ held) inLines
      · exact new (by simpa using added)

/-- Channels that are gathered one after the other are all gathered. -/
theorem Gathered.foldlM (gathered : Gathered card done ports)
    (made : entries.foldlM card.addChannel ports = .ok after) :
    Gathered card (done ++ entries) after := by
  induction entries generalizing done ports with
  | nil =>
      cases made
      rw [List.append_nil]
      exact gathered
  | cons entry rest ih =>
      rw [List.foldlM_cons, Checks.bind_eq_ok] at made
      obtain ⟨middle, first, others⟩ := made
      rw [List.append_cons]
      exact ih (gathered.addChannel first) others

/-- The ports of a device gather its channels. -/
theorem ports_gathered (made : card.ports device = .ok ports) :
    Gathered card device.samples.entries ports := by
  have none : Gathered card [] [] := ⟨List.Pairwise.nil, List.Perm.refl _, fun _ member => by
    cases member⟩
  exact none.foldlM made

/-- The bits of every port are distinct exactly if no two channels are the same line of the same
port. -/
theorem Gathered.distinct_iff (gathered : Gathered card entries ports) :
    (∀ port ∈ ports, (port.2.map Line.bit).Nodup) ↔
      (entries.map fun entry => ChannelName.lineNumbers entry.1).Nodup := by
  have apart : ports.Pairwise (Function.onFun List.Disjoint fun port =>
      port.2.map fun line => (port.1, line.bit)) := by
    refine gathered.increasing.imp fun {first second} less address inFirst inSecond => ?_
    obtain ⟨_, -, rfl⟩ := List.mem_map.1 inFirst
    obtain ⟨_, -, same⟩ := List.mem_map.1 inSecond
    exact absurd (congrArg Prod.fst same) (Nat.ne_of_gt less)
  have each : ∀ port : Nat × List Line, (port.2.map fun line => (port.1, line.bit)).Nodup ↔
      (port.2.map Line.bit).Nodup := by
    intro port
    have split : (port.2.map fun line => (port.1, line.bit)) =
        (port.2.map Line.bit).map (Prod.mk port.1) := by
      rw [List.map_map]
      rfl
    rw [split, List.nodup_map_iff (Prod.mk_right_injective port.1)]
  rw [← gathered.addressed.nodup_iff, List.nodup_map_iff (fun _ _ => Except.ok.inj), addresses,
    List.nodup_flatMap, and_iff_left apart]
  simp only [each]

end DigitalCard
end Metronome
