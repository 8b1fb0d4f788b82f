/-
Module: Metronome.Proofs.Document
Purpose: The settings that are read from a document are those that its statements give, and they are
  valid.
Trusted boundary: none
Main exports:
  Statement.timeBase?, Statement.maxTicks?, Statement.timing?, Document.GivenBy,
  Settings.ofText_eq_ok, Settings.ofText_spec
-/
import Mathlib
import Metronome.Proofs.Checks
import Metronome.Settings.Document

/-!
Statements are taken one by one, and each of them fixes one setting at most.  A setting that is
fixed is never changed, since a second value refuses the document.  So a setting has the only value
that a statement gives it, or its default if there is none, whatever the order of the statements is.
-/

namespace Metronome.Settings

namespace Document

/-! ### What a statement gives -/

namespace Statement

/-- The time base that a statement gives. -/
def timeBase? : Statement → Option Float
  | .assign ["time_base"] (.whole value) => some (Float.ofInt value)
  | .assign ["time_base"] (.real value) => some value
  | _ => none

/-- The most ticks that a statement allows. -/
def maxTicks? : Statement → Option Nat
  | .assign ["max_ticks"] (.whole value) => some value.toNat
  | _ => none

/-- The timing that a statement gives.  One that is named by a table stands in the table of all
timings, or has the name of that table in front. -/
def timing? : Statement → Option WaitTiming
  | .assign ["wait_timing"] (.text name) | .assign ["wait_timing"] (.choice name) =>
      Document.timing? name
  | .assign ["wait_timing", name] .empty | .header ["wait_timing", name]
  | .assign [name] .empty => Document.timing? name
  | _ => none

end Statement

/-! ### What a draft gathers -/

namespace Draft

variable {draft next : Draft} {given : List Statement} {statement : Statement}

/-- A draft holds what statements have given. -/
structure Gathers (given : List Statement) (draft : Draft) : Prop where
  timeBase : draft.timeBase.toList = given.filterMap Statement.timeBase?
  maxTicks : draft.maxTicks.toList = given.filterMap Statement.maxTicks?
  timing : draft.waitTiming.toList = given.filterMap Statement.timing?

theorem gathers_nil : Gathers [] {} :=
  ⟨rfl, rfl, rfl⟩

/-- A statement adds what it gives to a draft. -/
structure Adds (statement : Statement) (draft next : Draft) : Prop where
  timeBase : next.timeBase.toList = draft.timeBase.toList ++ statement.timeBase?.toList
  maxTicks : next.maxTicks.toList = draft.maxTicks.toList ++ statement.maxTicks?.toList
  timing : next.waitTiming.toList = draft.waitTiming.toList ++ statement.timing?.toList

theorem Adds.gathers (adds : Adds statement draft next) (gathers : Gathers given draft) :
    Gathers (given ++ [statement]) next where
  timeBase := by
    rw [adds.timeBase, gathers.timeBase, List.filterMap_append]
    cases given : statement.timeBase? <;> simp [given]
  maxTicks := by
    rw [adds.maxTicks, gathers.maxTicks, List.filterMap_append]
    cases given : statement.maxTicks? <;> simp [given]
  timing := by
    rw [adds.timing, gathers.timing, List.filterMap_append]
    cases given : statement.timing? <;> simp [given]

/-- It does not matter to what a statement adds where the document stands. -/
theorem Adds.congr {other : Draft} (adds : Adds statement draft next)
    (timeBase : other.timeBase = next.timeBase) (maxTicks : other.maxTicks = next.maxTicks)
    (timing : other.waitTiming = next.waitTiming) : Adds statement draft other where
  timeBase := by rw [timeBase, adds.timeBase]
  maxTicks := by rw [maxTicks, adds.maxTicks]
  timing := by rw [timing, adds.timing]

/-- The timing is fixed once, by its name. -/
theorem setTiming_eq_some {name : String} (set : draft.setTiming name = some next) :
    draft.waitTiming = none ∧ ∃ timing, Document.timing? name = some timing ∧
      next = { draft with waitTiming := some timing } := by
  unfold setTiming at set
  split at set
  · cases set
  · rename_i free
    obtain ⟨timing, named, rfl⟩ := Option.map_eq_some_iff.1 set
    exact ⟨free, timing, named, rfl⟩

/-- A name that fixes the timing is all that its statement gives. -/
theorem adds_of_setTiming {name : String} {set : Draft} (fixed : draft.setTiming name = some set)
    (timing : statement.timing? = Document.timing? name) (noTimeBase : statement.timeBase? = none)
    (noMaxTicks : statement.maxTicks? = none) : Adds statement draft set := by
  obtain ⟨free, found, named, rfl⟩ := setTiming_eq_some fixed
  constructor
  · rw [noTimeBase]
    exact (List.append_nil _).symm
  · rw [noMaxTicks]
    exact (List.append_nil _).symm
  · rw [timing, named, free]
    rfl

theorem adds_of_timeBase {x : Float} (free : draft.timeBase = none)
    (gives : statement.timeBase? = some x) (noMaxTicks : statement.maxTicks? = none)
    (noTiming : statement.timing? = none) :
    Adds statement draft { draft with timeBase := some x } := by
  constructor
  · rw [gives, free]
    rfl
  · rw [noMaxTicks]
    exact (List.append_nil _).symm
  · rw [noTiming]
    exact (List.append_nil _).symm

theorem assignRoot_adds {path : List String} {value : Value}
    (assigned : draft.assignRoot path value = some next) :
    Adds (.assign path value) draft next := by
  unfold assignRoot at assigned
  split at assigned
  · -- A time base may be written with a fraction or without one.
    cases value with
    | whole whole =>
        obtain ⟨free, rfl⟩ : draft.timeBase = none ∧ _ = next := by simpa using assigned
        exact adds_of_timeBase free rfl rfl rfl
    | real real =>
        obtain ⟨free, rfl⟩ : draft.timeBase = none ∧ _ = next := by simpa using assigned
        exact adds_of_timeBase free rfl rfl rfl
    | text name => cases assigned
    | choice name => cases assigned
    | empty => cases assigned
  · obtain ⟨⟨-, free⟩, rfl⟩ : (_ ∧ draft.maxTicks = none) ∧ _ = next := by
      simpa using assigned
    exact ⟨(List.append_nil _).symm, by rw [free]; rfl, (List.append_nil _).symm⟩
  · obtain ⟨set, fixed, rfl⟩ := Option.map_eq_some_iff.1 assigned
    exact (adds_of_setTiming fixed rfl rfl rfl).congr rfl rfl rfl
  · obtain ⟨set, fixed, rfl⟩ := Option.map_eq_some_iff.1 assigned
    exact (adds_of_setTiming fixed rfl rfl rfl).congr rfl rfl rfl
  · obtain ⟨set, fixed, rfl⟩ := Option.map_eq_some_iff.1 assigned
    exact (adds_of_setTiming fixed rfl rfl rfl).congr rfl rfl rfl
  · cases assigned

/-- Every statement that does not refuse the document adds what it gives. -/
theorem step_adds (taken : draft.step statement = some next) : Adds statement draft next := by
  unfold step at taken
  split at taken
  · rename_i path value
    split at taken
    · exact assignRoot_adds taken
    · rename_i name _
      exact adds_of_setTiming taken (by simp [Statement.timing?]) (by simp [Statement.timeBase?])
        (by simp [Statement.maxTicks?])
    · cases taken
  · split at taken
    · cases taken
    · cases taken
      exact ⟨(List.append_nil _).symm, (List.append_nil _).symm, (List.append_nil _).symm⟩
  · obtain ⟨set, fixed, rfl⟩ := Option.map_eq_some_iff.1 taken
    exact (adds_of_setTiming fixed rfl rfl rfl).congr rfl rfl rfl
  · cases taken

/-- A draft gathers what statements give, one after the other. -/
theorem foldlM_step_gathers {statements : List Statement} (gathers : Gathers given draft)
    (taken : statements.foldlM step draft = some next) : Gathers (given ++ statements) next := by
  induction statements generalizing given draft with
  | nil =>
      cases taken
      rwa [List.append_nil]
  | cons statement rest ih =>
      rw [List.foldlM_cons] at taken
      obtain ⟨after, stepped, taken⟩ := Option.bind_eq_some_iff.1 taken
      have extended := ih ((step_adds stepped).gathers gathers) taken
      rwa [List.append_assoc] at extended

end Draft

/-! ### The range of whole numbers -/

/-- No whole number past the largest one of 64 bits with a sign. -/
def Value.InRange : Value → Prop
  | .whole value => value < 2 ^ 63
  | _ => True

/-- What is read, if anything, is in range. -/
def Ranged (read : Option Value) : Prop :=
  ∀ value, read = some value → value.InRange

namespace Ranged

theorem none : Ranged .none :=
  fun _ read => nomatch read

theorem real (x : Float) : Ranged (some (.real x)) := by
  rintro _ ⟨⟩
  trivial

theorem bind {α : Type} {first : Option α} {rest : α → Option Value}
    (each : ∀ a, Ranged (rest a)) : Ranged (first >>= rest) := by
  intro value read
  obtain ⟨a, -, read⟩ := Option.bind_eq_some_iff.1 read
  exact each a value read

theorem ite {condition : Prop} [Decidable condition] {first second : Option Value}
    (holds : Ranged first) (fails : Ranged second) :
    Ranged (if condition then first else second) := by
  split
  · exact holds
  · exact fails

end Ranged

theorem ranged_inRange? (whole : Int) : Ranged (inRange? whole) := by
  intro value read
  unfold inRange? at read
  split at read
  · rename_i bounds
    cases read
    exact Int.lt_of_le_of_lt bounds.2 (by decide)
  · cases read

theorem ranged_whole? (cs : List Char) : Ranged (whole? cs) := by
  unfold whole?
  split
  all_goals exact .bind fun _ => ranged_inRange? _

/-- A number with a fraction or an exponent is not whole. -/
theorem ranged_real? (cs : List Char) : Ranged (real? cs) := by
  unfold real?
  cases splitSign cs with
  | mk negative cs =>
      dsimp only
      refine .ite (.real _) (.ite (.real _) (.bind fun whole => ?_))
      have last : ∀ (fraction : List Char) (exponent : Int),
          Ranged (if ((decimalValue (whole ++ fraction) (exponent - fraction.length)).isFinite ||
              negative) = true
            then some (.real (if negative = true
              then -decimalValue (whole ++ fraction) (exponent - fraction.length)
              else decimalValue (whole ++ fraction) (exponent - fraction.length)))
            else .none) :=
        fun _ _ => .ite (.real _) .none
      split
      all_goals
        refine .bind fun fraction => ?_
        split
        · exact .bind fun _ => last fraction _
        · exact .ite (.bind fun _ => last fraction _) (.bind fun _ => last fraction _)

variable {cs rest : List Char}

theorem inRange_of_value? {value : Value} (read : value? cs = some (value, rest)) :
    value.InRange := by
  unfold value? at read
  split at read
  · obtain ⟨_, -, made⟩ := Option.map_eq_some_iff.1 read
    cases made
    trivial
  · obtain ⟨_, -, made⟩ := Option.map_eq_some_iff.1 read
    cases made
    trivial
  · split at read
    · cases read
      trivial
    · obtain ⟨_, -, made⟩ := Option.map_eq_some_iff.1 read
      cases made
      trivial
  · split at read
    · cases read
      trivial
    · obtain ⟨_, -, made⟩ := Option.map_eq_some_iff.1 read
      cases made
      trivial
  · obtain ⟨number, token, made⟩ := Option.bind_eq_some_iff.1 read
    cases made
    rcases Option.or_eq_some_iff.1 token with isWhole | ⟨-, isReal⟩
    · exact ranged_whole? _ _ isWhole
    · exact ranged_real? _ _ isReal

/-- The values of statements are in range. -/
def Statement.InRange : Statement → Prop
  | .assign _ value => value.InRange
  | .header _ => True

/-- Whole numbers in range allow so many ticks. -/
theorem Statement.maxTicks?_lt {statement : Statement} {most : Nat} (inRange : statement.InRange)
    (gives : statement.maxTicks? = some most) : most < 2 ^ 63 := by
  unfold maxTicks? at gives
  split at gives
  · rename_i value
    have bound : value < 2 ^ 63 := inRange
    have same : value.toNat = most := Option.some.inj gives
    omega
  · cases gives

theorem inRange_of_statement? {statement : Statement}
    (read : statement? cs = some (statement, rest)) : statement.InRange := by
  unfold statement? at read
  split at read
  · obtain ⟨⟨path, _⟩, -, read⟩ := Option.bind_eq_some_iff.1 read
    dsimp only at read
    split at read
    · obtain ⟨_, -, made⟩ := Option.bind_eq_some_iff.1 read
      cases made
      trivial
    · cases read
  · obtain ⟨⟨path, _⟩, -, read⟩ := Option.bind_eq_some_iff.1 read
    dsimp only at read
    split at read
    · obtain ⟨⟨value, _⟩, isValue, read⟩ := Option.bind_eq_some_iff.1 read
      obtain ⟨_, -, made⟩ := Option.bind_eq_some_iff.1 read
      cases made
      exact inRange_of_value? isValue
    · cases read

theorem inRange_of_statementsWithin {fuel : Nat} {statements : List Statement}
    (read : statementsWithin fuel cs = some statements) :
    ∀ statement ∈ statements, statement.InRange := by
  induction fuel generalizing cs statements with
  | zero => cases read
  | succ fuel ih =>
      unfold statementsWithin at read
      split at read
      · cases read
        exact fun _ member => absurd member List.not_mem_nil
      · obtain ⟨after, -, read⟩ := Option.bind_eq_some_iff.1 read
        exact ih read
      · exact ih read
      · obtain ⟨after, -, read⟩ := Option.bind_eq_some_iff.1 read
        exact ih read
      · obtain ⟨⟨statement, after⟩, first, read⟩ := Option.bind_eq_some_iff.1 read
        obtain ⟨others, later, rfl⟩ := Option.map_eq_some_iff.1 read
        exact List.forall_mem_cons.2 ⟨inRange_of_statement? first, ih later⟩

/-! ### Whole documents -/

/-- Settings that are given by statements.  Each of them is the value of the only statement that
gives it, or its default if there is none. -/
structure GivenBy (given : List Statement) (settings : Settings) : Prop where
  timeBase : given.filterMap Statement.timeBase? = [settings.timeBase] ∨
    given.filterMap Statement.timeBase? = [] ∧ settings.timeBase = ({} : Settings).timeBase
  maxTicks : given.filterMap Statement.maxTicks? = [settings.maxTicks] ∨
    given.filterMap Statement.maxTicks? = [] ∧ settings.maxTicks = ({} : Settings).maxTicks
  timing : given.filterMap Statement.timing? = [settings.waitTiming] ∨
    given.filterMap Statement.timing? = [] ∧ settings.waitTiming = ({} : Settings).waitTiming

/-- The only value of a list, or a default. -/
theorem only_or_default {α : Type} {fixed : Option α} {values : List α}
    (holds : fixed.toList = values) (default : α) :
    values = [fixed.getD default] ∨ values = [] ∧ fixed.getD default = default := by
  subst holds
  cases fixed with
  | none => exact Or.inr ⟨rfl, rfl⟩
  | some value => exact Or.inl rfl

theorem givenBy_of_settings? {text : String} {settings : Settings}
    (read : settings? text = some settings) :
    ∃ given, statements text = some given ∧ GivenBy given settings := by
  obtain ⟨given, isGiven, read⟩ := Option.bind_eq_some_iff.1 read
  obtain ⟨draft, taken, finished⟩ := Option.bind_eq_some_iff.1 read
  have gathers := Draft.foldlM_step_gathers Draft.gathers_nil taken
  rw [Draft.finish] at finished
  split at finished
  · cases finished
  · cases finished
    exact ⟨given, isGiven, only_or_default gathers.timeBase _, only_or_default gathers.maxTicks _,
      only_or_default gathers.timing _⟩

end Document

/-- Settings are read if the document gives some and they are valid. -/
theorem ofText_eq_ok {text : String} {settings : Settings} :
    ofText text = .ok settings ↔
      Document.settings? text = some settings ∧ settings.check = .ok () := by
  unfold ofText
  cases Document.settings? text with
  | none => simp
  | some given =>
      dsimp only
      rw [Checks.bind_eq_ok]
      constructor
      · rintro ⟨_, checked, same⟩
        cases same
        exact ⟨rfl, checked⟩
      · rintro ⟨same, checked⟩
        cases same
        exact ⟨(), checked, rfl⟩

/-- The settings that are read from a document are those that its statements give, with defaults for
all others.  They are valid, and a number of ticks fits in a word. -/
theorem ofText_spec {text : String} {settings : Settings} (read : ofText text = .ok settings) :
    settings.check = .ok () ∧ settings.maxTicks < 2 ^ 63 ∧
      ∃ given, Document.statements text = some given ∧ Document.GivenBy given settings := by
  obtain ⟨asked, checked⟩ := ofText_eq_ok.1 read
  obtain ⟨given, isGiven, givenBy⟩ := Document.givenBy_of_settings? asked
  refine ⟨checked, ?_, given, isGiven, givenBy⟩
  rcases givenBy.maxTicks with only | ⟨-, isDefault⟩
  · have among : settings.maxTicks ∈ given.filterMap Document.Statement.maxTicks? := by
      rw [only]
      exact List.mem_cons_self
    obtain ⟨statement, member, gives⟩ := List.mem_filterMap.1 among
    have inRange := Document.inRange_of_statementsWithin isGiven statement member
    exact Document.Statement.maxTicks?_lt inRange gives
  · rw [isDefault]
    decide

/-- One setting is given, and the others have their defaults. -/
example : (ofText "max_ticks = 5").toOption.map (fun settings =>
    (settings.maxTicks, settings.timeBase == 1e9)) = some (5, true) := by
  decide +kernel

/-- A setting that is given twice refuses the document. -/
example : (ofText "max_ticks = 5\nmax_ticks = 5").isOk = false := by
  decide +kernel

end Metronome.Settings
