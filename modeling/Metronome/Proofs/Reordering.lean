/-
Module: Metronome.Proofs.Reordering
Purpose: Calls that put waits, levels, ramps and composite values at times can be made in any order.
Trusted boundary: none
Main exports:
  Channel.place_insert_iff, Request, Request.apply_comm, Command.requests,
  Experiment.perform_eq_ok_requests, Experiment.Accepts, Experiment.session_reordered
-/
import Metronome.Proofs.Atomicity
import Metronome.Proofs.Soundness

/-!
A channel looks at the neighbours of a new placement in the timeline that it has so far.  On a sound
timeline that is the same as keeping apart from every placement, and keeping apart is symmetric; so
of two placements that are taken one after the other, the later one would have been taken first, and
the earlier one after it.  Every call is a list of such requests, and a permutation of calls is a
permutation of their requests.
-/

namespace Metronome

/-! ### Timelines -/

/-- Items at two free positions can be inserted in either order. -/
theorem Ordered.insert_comm {α : Type} {position : α → Nat} {ordered : Ordered position}
    {first second : α} (apart : position first ≠ position second)
    (firstFree : ∀ present ∈ ordered.items, position present ≠ position first)
    (secondFree : ∀ present ∈ ordered.items, position present ≠ position second) :
    (ordered.insert first).insert second = (ordered.insert second).insert first := by
  have afterFirst : ∀ present ∈ (ordered.insert first).items,
      position present ≠ position second := by
    intro present member
    rcases mem_insert member with rfl | old
    · exact apart
    · exact secondFree present old
  have afterSecond : ∀ present ∈ (ordered.insert second).items,
      position present ≠ position first := by
    intro present member
    rcases mem_insert member with rfl | old
    · exact apart.symm
    · exact firstFree present old
  apply ext_mem
  intro item
  rw [mem_insert_iff afterFirst, mem_insert_iff firstFree, mem_insert_iff afterSecond,
    mem_insert_iff secondFree]
  exact or_left_comm

theorem Placement.Clears.symm {first second : Placement} (clears : first.Clears second) :
    second.Clears first := by
  obtain ⟨distinct, before, after⟩ := clears
  exact ⟨distinct.symm, after, before⟩

namespace Channel

variable {channel : Channel} {instruction : Instruction} {t : Float}
  {timing : Option RampTiming} {first second : Placement}

/-- After it has taken a placement, a channel admits what it admitted before, as far as that keeps
apart from the placement. -/
theorem place_insert_iff (apart : channel.timeline.Apart)
    (free : channel.timeline.overlapping? first = none) :
    (channel.insert first).place instruction t timing = .ok second ↔
      channel.place instruction t timing = .ok second ∧ first.Clears second := by
  have distinct := Timeline.starts_ne free
  have collides : (channel.insert first).timeline.overlapping? second = none ↔
      channel.timeline.overlapping? second = none ∧ first.Clears second := by
    rw [Timeline.overlapping?_eq_none_iff apart]
    refine (Timeline.overlapping?_eq_none_iff (Timeline.insert_apart apart free)).trans ?_
    constructor
    · intro clears
      exact ⟨fun present member => clears present (Ordered.mem_insert_of_mem member),
        clears first ((Ordered.mem_insert_iff distinct).2 (Or.inl rfl))⟩
    · rintro ⟨clears, new⟩ present member
      rcases Ordered.mem_insert member with rfl | old
      · exact new
      · exact clears present old
  rw [place_eq_ok, place_eq_ok]
  -- Only the search for a collision looks at the timeline.
  constructor
  · intro admits
    obtain ⟨free, clears⟩ := collides.1 admits.free
    exact ⟨⟨admits.starts, admits.holds, admits.constant, admits.ramp, free⟩, clears⟩
  · rintro ⟨admits, clears⟩
    exact ⟨admits.starts, admits.holds, admits.constant, admits.ramp,
      collides.2 ⟨admits.free, clears⟩⟩

/-- Two placements that are taken one after the other can be taken the other way round. -/
theorem place_comm {other : Instruction} {otherT : Float} {otherTiming : Option RampTiming}
    (apart : channel.timeline.Apart)
    (firstPlaced : channel.place instruction t timing = .ok first)
    (secondPlaced : (channel.insert first).place other otherT otherTiming = .ok second) :
    channel.place other otherT otherTiming = .ok second ∧
      (channel.insert second).place instruction t timing = .ok first ∧
      (channel.insert first).insert second = (channel.insert second).insert first := by
  have firstFree := (place_eq_ok.1 firstPlaced).free
  obtain ⟨placed, clears⟩ := (place_insert_iff apart firstFree).1 secondPlaced
  have secondFree := (place_eq_ok.1 placed).free
  refine ⟨placed, (place_insert_iff apart secondFree).2 ⟨firstPlaced, clears.symm⟩, ?_⟩
  exact congrArg (fun timeline => { channel with timeline })
    (Ordered.insert_comm clears.1 (Timeline.starts_ne firstFree) (Timeline.starts_ne secondFree))

end Channel

/-- Two waits that are added one after the other can be added the other way round. -/
theorem Pseudoclock.addWait_comm {clock middle after : Pseudoclock} {label otherLabel : String}
    {t otherT : Float} {timeout otherTimeout : Option Float}
    (first : clock.addWait label t timeout = .ok middle)
    (second : middle.addWait otherLabel otherT otherTimeout = .ok after) :
    ∃ other, clock.addWait otherLabel otherT otherTimeout = .ok other ∧
      other.addWait label t timeout = .ok after := by
  obtain ⟨point, found, afterStart, positive, free, rfl⟩ := addWait_eq_ok.1 first
  obtain ⟨otherPoint, otherFound, otherAfterStart, otherPositive, otherFree, rfl⟩ :=
    addWait_eq_ok.1 second
  rw [Ordered.find?_eq_none_iff] at free otherFree
  have inserted : ∀ wait, wait ∈ (clock.waits.insert ⟨point, label, t, timeout⟩).items ↔
      wait = ⟨point, label, t, timeout⟩ ∨ wait ∈ clock.waits.items :=
    fun _ => Ordered.mem_insert_iff free
  have apart : point ≠ otherPoint := otherFree _ ((inserted _).2 (Or.inl rfl))
  have otherFirst : ∀ wait ∈ clock.waits.items, wait.position ≠ otherPoint :=
    fun wait member => otherFree wait (Ordered.mem_insert_of_mem member)
  have swapped : (clock.waits.insert ⟨point, label, t, timeout⟩).insert
        ⟨otherPoint, otherLabel, otherT, otherTimeout⟩ =
      (clock.waits.insert ⟨otherPoint, otherLabel, otherT, otherTimeout⟩).insert
        ⟨point, label, t, timeout⟩ := Ordered.insert_comm apart free otherFirst
  refine ⟨_, addWait_eq_ok.2 ⟨otherPoint, otherFound, otherAfterStart, otherPositive,
    Ordered.find?_eq_none_iff.2 otherFirst, rfl⟩, addWait_eq_ok.2 ⟨point, found, afterStart,
    positive, Ordered.find?_eq_none_iff.2 fun wait member => ?_, ?_⟩⟩
  · rcases Ordered.mem_insert member with rfl | old
    · exact apart.symm
    · exact free wait old
  · exact congrArg (fun waits => { clock with waits }) swapped

/-! ### Requests -/

/-- What cannot be divided among the calls that put something at a time: one wait, or one
instruction on one channel of a kind. -/
inductive Request where
  | wait (label : String) (t : Float) (timeout : Option Float)
  | record (device channel : String) (kind : ChannelKind) (instruction : Instruction) (t : Float)
      (timing : Option RampTiming)
deriving Inhabited

/-- The experiment with a request met. -/
def Request.apply (experiment : Experiment) : Request → Except Fault Experiment
  | .wait label t timeout => experiment.addWait label t timeout
  | .record device channel kind instruction t timing =>
      experiment.recordTyped device channel kind instruction t timing

namespace Experiment

variable {before middle after : Experiment} {device name : String} {kind : ChannelKind}
  {instruction : Instruction} {t : Float} {timing : Option RampTiming}

theorem addWait_eq_ok {label : String} {timeout : Option Float} :
    before.addWait label t timeout = .ok after ↔
      ∃ clock, before.clock.addWait label t timeout = .ok clock ∧
        after = { before with clock } := by
  rw [Experiment.addWait, Checks.bind_eq_ok]
  exact exists_congr fun _ => and_congr_right fun _ =>
    ⟨fun made => (Except.ok.inj made).symm, congrArg Except.ok ∘ Eq.symm⟩

theorem clock_of_recordTyped (named : before.Named)
    (made : before.recordTyped device name kind instruction t timing = .ok after) :
    after.clock = before.clock := by
  obtain ⟨channel, added, -, -, rfl⟩ := (recordTyped_eq_ok named).1 made
  rfl

/-- Recording does not look at the clock. -/
theorem recordTyped_clock (named : before.Named) (clock : Pseudoclock) :
    ({ before with clock } : Experiment).recordTyped device name kind instruction t timing =
        .ok after ↔
      ∃ recorded, before.recordTyped device name kind instruction t timing = .ok recorded ∧
        after = { recorded with clock } := by
  have sameNamed : Named { before with clock } := ⟨named.devices, named.channels⟩
  rw [recordTyped_eq_ok sameNamed]
  constructor
  · rintro ⟨channel, added, typed, placed, rfl⟩
    exact ⟨_, (recordTyped_eq_ok named).2 ⟨channel, added, typed, placed, rfl⟩, rfl⟩
  · rintro ⟨recorded, made, rfl⟩
    obtain ⟨channel, added, typed, placed, rfl⟩ := (recordTyped_eq_ok named).1 made
    exact ⟨channel, added, typed, placed, rfl⟩

theorem channel_adjust_self {change : Channel → Channel} :
    (before.adjust device name change).channel device name =
      change <$> before.channel device name := by
  rw [adjust, channel_mapEach]
  simp only [and_self, if_true]

/-- Changes of two channels can be made in either order, and so can changes of one channel that
commute on it. -/
theorem adjust_comm {otherDevice otherName : String} {first second : Channel → Channel}
    (commute : otherDevice = device ∧ otherName = name → ∀ channel,
      before.channel device name = .ok channel →
        second (first channel) = first (second channel)) :
    (before.adjust device name first).adjust otherDevice otherName second =
      (before.adjust otherDevice otherName second).adjust device name first := by
  simp only [adjust, mapEach_mapEach]
  apply mapEach_congr
  intro someDevice someName channel found
  by_cases isFirst : someDevice = device ∧ someName = name
  · by_cases isSecond : someDevice = otherDevice ∧ someName = otherName
    · obtain ⟨rfl, rfl⟩ := isFirst
      simp only [isSecond, and_self, if_true]
      exact commute ⟨isSecond.1.symm, isSecond.2.symm⟩ channel found
    · rw [if_neg isSecond, if_neg isSecond]
  · rw [if_neg isFirst, if_neg isFirst]

/-- Two recordings that are made one after the other can be made the other way round. -/
theorem recordTyped_comm (named : before.Named) (sound : before.Sound)
    {otherDevice otherName : String} {otherKind : ChannelKind} {other : Instruction}
    {otherT : Float} {otherTiming : Option RampTiming}
    (first : before.recordTyped device name kind instruction t timing = .ok middle)
    (second : middle.recordTyped otherDevice otherName otherKind other otherT otherTiming =
      .ok after) :
    ∃ swapped, before.recordTyped otherDevice otherName otherKind other otherT otherTiming =
        .ok swapped ∧
      swapped.recordTyped device name kind instruction t timing = .ok after := by
  have middleNamed := (recording_of_recordTyped named first).keeps (fun _ => named_clear) named
  obtain ⟨channel, added, typed, placed, rfl⟩ := (recordTyped_eq_ok named).1 first
  obtain ⟨otherChannel, otherAdded, otherTyped, otherPlaced, rfl⟩ :=
    (recordTyped_eq_ok middleNamed).1 second
  obtain ⟨found, isKind⟩ := typedChannel_eq_ok.1 typed
  obtain ⟨otherFound, otherIsKind⟩ := typedChannel_eq_ok.1 otherTyped
  by_cases same : otherDevice = device ∧ otherName = name
  · -- On one channel the two placements have to keep apart.
    obtain ⟨rfl, rfl⟩ := same
    rw [channel_adjust_self, found] at otherFound
    cases otherFound
    have apart := (sound.channels channel (mem_channels_iff.2 ⟨_, _, found⟩)).apart
    obtain ⟨firstPlaced, thenPlaced, swaps⟩ := Channel.place_comm apart placed otherPlaced
    have made := (recordTyped_eq_ok named).2
      ⟨channel, otherAdded, typedChannel_eq_ok.2 ⟨found, otherIsKind⟩, firstPlaced, rfl⟩
    have swappedNamed := (recording_of_recordTyped named made).keeps (fun _ => named_clear) named
    refine ⟨_, made, (recordTyped_eq_ok swappedNamed).2
      ⟨channel.insert otherAdded, added, typedChannel_eq_ok.2 ⟨?_, isKind⟩, thenPlaced, ?_⟩⟩
    · rw [channel_adjust_self, found]
      rfl
    · apply adjust_comm
      rintro - held heldFound
      rw [found] at heldFound
      cases heldFound
      exact swaps
  · -- Recordings on two channels do not meet.
    rw [channel_adjust_of_ne same] at otherFound
    have made := (recordTyped_eq_ok named).2
      ⟨otherChannel, otherAdded, typedChannel_eq_ok.2 ⟨otherFound, otherIsKind⟩, otherPlaced, rfl⟩
    have swappedNamed := (recording_of_recordTyped named made).keeps (fun _ => named_clear) named
    refine ⟨_, made, (recordTyped_eq_ok swappedNamed).2
      ⟨channel, added, typedChannel_eq_ok.2 ⟨?_, isKind⟩, placed, ?_⟩⟩
    · rw [channel_adjust_of_ne fun equal => same ⟨equal.1.symm, equal.2.symm⟩, found]
    · exact adjust_comm fun equal => absurd equal same

end Experiment

namespace Request

variable {before middle after : Experiment} {first second : Request}

theorem recording_of_apply (named : before.Named) {request : Request}
    (met : request.apply before = .ok after) : Experiment.Recording before after := by
  cases request with
  | wait label t timeout => exact Experiment.recording_of_addWait met
  | record device channel kind instruction t timing =>
      exact Experiment.recording_of_recordTyped named met

/-- Two requests that are met one after the other can be met the other way round, with the same
result. -/
theorem apply_comm (named : before.Named) (sound : before.Sound)
    (firstMet : first.apply before = .ok middle) (secondMet : second.apply middle = .ok after) :
    ∃ other, second.apply before = .ok other ∧ first.apply other = .ok after := by
  have middleNamed := (recording_of_apply named firstMet).keeps
    (fun _ => Experiment.named_clear) named
  cases first with
  | wait label t timeout =>
      obtain ⟨clock, added, rfl⟩ := Experiment.addWait_eq_ok.1 firstMet
      cases second with
      | wait otherLabel otherT otherTimeout =>
          obtain ⟨otherClock, otherAdded, rfl⟩ := Experiment.addWait_eq_ok.1 secondMet
          obtain ⟨swapped, early, late⟩ := Pseudoclock.addWait_comm added otherAdded
          exact ⟨_, Experiment.addWait_eq_ok.2 ⟨swapped, early, rfl⟩,
            Experiment.addWait_eq_ok.2 ⟨otherClock, late, rfl⟩⟩
      | record device channel kind instruction otherT timing =>
          obtain ⟨recorded, made, rfl⟩ := (Experiment.recordTyped_clock named clock).1 secondMet
          rw [← Experiment.clock_of_recordTyped named made] at added
          exact ⟨recorded, made, Experiment.addWait_eq_ok.2 ⟨clock, added, rfl⟩⟩
  | record device channel kind instruction t timing =>
      cases second with
      | wait label otherT timeout =>
          obtain ⟨clock, added, rfl⟩ := Experiment.addWait_eq_ok.1 secondMet
          rw [Experiment.clock_of_recordTyped named firstMet] at added
          exact ⟨_, Experiment.addWait_eq_ok.2 ⟨clock, added, rfl⟩,
            (Experiment.recordTyped_clock named clock).2 ⟨middle, firstMet, rfl⟩⟩
      | record otherDevice otherChannel otherKind other otherT otherTiming =>
          exact Experiment.recordTyped_comm named sound firstMet secondMet

/-- Requests that are met one after the other are met in any order, with the same result. -/
theorem foldlM_apply_perm (named : before.Named) (sound : before.Sound)
    {requests reordered : List Request} (perm : requests.Perm reordered)
    (met : requests.foldlM apply before = .ok after) :
    reordered.foldlM apply before = .ok after := by
  have kept : ∀ {experiment : Experiment} {request : Request} {next : Experiment},
      experiment.Named ∧ experiment.Sound → apply experiment request = .ok next →
        next.Named ∧ next.Sound := by
    intro experiment request next start met
    have recording := recording_of_apply start.1 met
    exact ⟨recording.keeps (fun _ => Experiment.named_clear) start.1, recording.sound start.2⟩
  exact Checks.foldlM_perm apply kept
    (fun start first second => apply_comm start.1 start.2 first second) perm ⟨named, sound⟩ met

/-- A request that is met after others would be met at once. -/
theorem exists_apply_of_mem (named : before.Named) (sound : before.Sound)
    {requests : List Request} (met : requests.foldlM apply before = .ok after)
    {request : Request} (member : request ∈ requests) :
    ∃ next, request.apply before = .ok next := by
  obtain ⟨earlier, later, rfl⟩ := List.append_of_mem member
  have first := foldlM_apply_perm named sound List.perm_middle met
  rw [List.foldlM_cons, Checks.bind_eq_ok] at first
  obtain ⟨next, taken, -⟩ := first
  exact ⟨next, taken⟩

end Request

/-! ### Calls -/

namespace Command

/-- The calls that put a wait, a level, a ramp or the values of a composite output at a time. -/
def isPlacing : Command → Bool
  | .wait .. | .constant .. | .level .. | .linear .. | .exponential .. | .sine ..
  | .setComposite .. => true
  | _ => false

/-- The requests of a call that puts something at a time: one for each channel that it changes. -/
def requests : Command → List Request
  | .wait label t timeout => [.wait label t timeout]
  | .constant device channel t value => [.record device channel .analog (.constant value) t none]
  | .level device channel high t =>
      [.record device channel .digital (.constant (if high then 1 else 0)) t none]
  | .linear device channel t timing start finish =>
      [.record device channel .analog (.linear start finish) t (some timing)]
  | .exponential device channel t timing start finish offset =>
      [.record device channel .analog (.exponential start finish offset) t (some timing)]
  | .sine device channel t timing freq amplitude phase offset =>
      [.record device channel .analog (.sine freq amplitude phase offset) t (some timing)]
  | .setComposite device id t freq amp phase =>
      (Recorder.compositeValues freq amp phase).map fun entry =>
        .record device (ChannelName.part id entry.1) .analog (.constant entry.2) t none
  | _ => []

end Command

namespace Recorder

variable {before after : Experiment}

/-- A single change succeeds exactly if it is made. -/
theorem run_atomic_eq_ok {change : Experiment → Except Fault Experiment} :
    (atomic change).run before = (.ok (), after) ↔ change before = .ok after := by
  rw [run_atomic]
  cases change before with
  | error fault => exact iff_of_false nofun nofun
  | ok next =>
      exact ⟨fun same => congrArg Except.ok (congrArg Prod.snd same),
        fun same => congrArg (Prod.mk _) (Except.ok.inj same)⟩

/-- Single changes on a list all succeed exactly if they are made one after the other. -/
theorem run_forM_atomic_eq_ok {α : Type} {change : Experiment → α → Except Fault Experiment}
    {items : List α} :
    (items.forM fun item => atomic fun experiment => change experiment item).run before =
        (.ok (), after) ↔
      items.foldlM change before = .ok after := by
  induction items generalizing before with
  | nil =>
      simp only [List.foldlM_nil]
      exact ⟨fun same => congrArg Except.ok (congrArg Prod.snd same),
        fun same => congrArg (Prod.mk _) (Except.ok.inj same)⟩
  | cons item rest ih =>
      rw [List.forM_eq_forM] at ih ⊢
      rw [List.forM_cons, Steps.run_bind, run_atomic, List.foldlM_cons]
      cases change before item with
      | error fault => exact iff_of_false nofun nofun
      | ok next => exact ih

end Recorder

namespace Experiment

variable {before after experiment : Experiment}

/-- The parts of a composite output are set exactly if the requests for them are met one after the
other; so the trial before is no additional condition. -/
theorem run_setComposite_eq_ok (named : before.Named) (sound : before.Sound) {device : String}
    {id : Nat} {t freq amp phase : Float} :
    (Recorder.setComposite device id t freq amp phase).run before = (.ok (), after) ↔
      (Command.setComposite device id t freq amp phase).requests.foldlM Request.apply before =
        .ok after := by
  have written : ((Recorder.compositeValues freq amp phase).forM
      (Recorder.setPart device id t)).run before = (.ok (), after) ↔
      (Command.setComposite device id t freq amp phase).requests.foldlM Request.apply before =
        .ok after := by
    rw [Command.requests, List.foldlM_map]
    exact Recorder.run_forM_atomic_eq_ok
  rw [Recorder.run_setComposite, ← written]
  constructor
  · intro made
    split at made
    · exact made
    · cases made
  · intro made
    have met := written.1 made
    have tried : (Recorder.compositeValues freq amp phase).forM
        (Recorder.tryPart before device id t) = .ok () := by
      refine Checks.forM_eq_ok.2 fun entry member => Recorder.tryPart_eq_ok.2 ?_
      obtain ⟨next, taken⟩ := Request.exists_apply_of_mem named sound met
        (List.mem_map_of_mem member)
      obtain ⟨channel, added, typed, placed, -⟩ := (recordTyped_eq_ok named).1 taken
      exact ⟨channel, added, typed, placed⟩
    rw [tried]
    exact made

/-- A call that puts something at a time succeeds exactly if its requests are met. -/
theorem perform_eq_ok_requests (named : before.Named) (sound : before.Sound) {command : Command}
    (placing : command.isPlacing = true) :
    (perform command).run before = (.ok (), after) ↔
      command.requests.foldlM Request.apply before = .ok after := by
  have single : ∀ request : Request,
      [request].foldlM Request.apply before = request.apply before := by
    intro request
    rw [List.foldlM_cons]
    exact bind_pure _
  cases command with
  | setComposite device id t freq amp phase => exact run_setComposite_eq_ok named sound
  | wait | constant | level | linear | exponential | sine =>
      rw [Command.requests, single]
      exact Recorder.run_atomic_eq_ok
  | _ => cases placing

/-- Every call of a list succeeds, each on what the ones before it left. -/
def Accepts (experiment : Experiment) : List Command → Prop
  | [] => True
  | command :: rest =>
      (experiment.after command).2 = none ∧ (experiment.after command).1.Accepts rest

instance decidableAccepts : (experiment : Experiment) → (commands : List Command) →
    Decidable (experiment.Accepts commands)
  | _, [] => .isTrue trivial
  | experiment, command :: rest =>
      have := decidableAccepts (experiment.after command).1 rest
      inferInstanceAs (Decidable (_ ∧ _))

theorem after_eq_ok {command : Command} :
    before.after command = (after, none) ↔ (perform command).run before = (.ok (), after) := by
  rw [Experiment.after]
  rcases (perform command).run before with ⟨_ | _, reached⟩
  · exact iff_of_false (fun same => by cases same) (fun same => by cases same)
  · exact ⟨fun same => congrArg (Prod.mk _) (congrArg Prod.fst same),
      fun same => congrArg (·, none) (congrArg Prod.snd same)⟩

/-- Calls that put something at a time all succeed exactly if all their requests are met. -/
theorem accepts_iff (named : before.Named) (sound : before.Sound) {commands : List Command}
    (placing : ∀ command ∈ commands, command.isPlacing = true) :
    (before.Accepts commands ∧ before.session commands = after) ↔
      (commands.flatMap Command.requests).foldlM Request.apply before = .ok after := by
  induction commands generalizing before with
  | nil => simp [Accepts, session, pure, Except.pure]
  | cons command rest ih =>
      obtain ⟨isPlacing, restPlacing⟩ := List.forall_mem_cons.1 placing
      have next : (before.after command).1.Named ∧ (before.after command).1.Sound := by
        rw [after_fst]
        exact perform_sound command before ⟨named, sound⟩
      rw [List.flatMap_cons, List.foldlM_append, Checks.bind_eq_ok]
      constructor
      · rintro ⟨⟨succeeds, others⟩, final⟩
        have ran := after_eq_ok.1 (Prod.ext rfl succeeds)
        exact ⟨_, (perform_eq_ok_requests named sound isPlacing).1 ran,
          (ih next.1 next.2 restPlacing).1 ⟨others, final⟩⟩
      · rintro ⟨middle, met, others⟩
        have ran := after_eq_ok.2 ((perform_eq_ok_requests named sound isPlacing).2 met)
        rw [ran] at next
        obtain ⟨accepts, final⟩ := (ih next.1 next.2 restPlacing).2 others
        rw [Accepts, session, List.foldl_cons, ran]
        exact ⟨⟨rfl, accepts⟩, final⟩

/-- After any session, calls that put waits, levels, ramps and values of composite outputs at times
can be made in any order: if they all succeed in one order, they all succeed in every other, and the
same timelines and the same waits are the result. -/
theorem session_reordered {clockName : String} {minPeriod : Float} {settings : Settings}
    (made : create clockName minPeriod settings = .ok experiment) (history : List Command)
    {calls reordered : List Command} (placing : ∀ call ∈ calls, call.isPlacing = true)
    (perm : calls.Perm reordered) (accepted : (experiment.session history).Accepts calls) :
    (experiment.session history).Accepts reordered ∧
      (experiment.session history).session reordered =
        (experiment.session history).session calls := by
  obtain ⟨named, sound⟩ := session_rules made history
  have met := (accepts_iff named sound placing).1 ⟨accepted, rfl⟩
  have samePlacing : ∀ call ∈ reordered, call.isPlacing = true :=
    fun call member => placing call (perm.mem_iff.2 member)
  have reorderedMet := Request.foldlM_apply_perm named sound
    (perm.flatMap_right Command.requests) met
  exact (accepts_iff named sound samePlacing).2 reorderedMet

/-- A session that registers an analog channel and a composite output. -/
def rackSession : List Command :=
  [.addDevice "volts" .analogCard .fast, .addAnalogChannel "volts" 0 0,
    .addDevice "tones" .synthesizer .fast, .addComposite "tones" 0 false]

/-- A ramp, the level that takes over where it ends, a wait there and a composite output. -/
def touchingCalls : List Command :=
  [.linear "volts" "ao0" 1e-6 ⟨1e-6, 1e6⟩ 0 1, .constant "volts" "ao0" 2e-6 3,
    .wait "trigger" 2e-6 none, .setComposite "tones" 0 1e-6 1e6 1 0]

/-- The calls succeed from the last to the first as well, with the same result. -/
theorem touchingCalls_reversed : ∃ new, create "clock" 1e-7 {} = .ok new ∧
    (new.session rackSession).Accepts touchingCalls ∧
    (new.session rackSession).Accepts touchingCalls.reverse ∧
    (new.session rackSession).session touchingCalls.reverse =
      (new.session rackSession).session touchingCalls := by
  have run : (create "clock" 1e-7 {}).toOption.map (fun new =>
      decide ((new.session rackSession).Accepts touchingCalls)) = some true := by decide +kernel
  obtain ⟨new, made⟩ := Checks.isOk_iff.1 (by decide +kernel :
    (create "clock" 1e-7 {}).isOk = true)
  rw [made] at run
  have accepted := of_decide_eq_true (Option.some.inj run)
  have reversed := session_reordered made rackSession (by decide)
    (List.reverse_perm touchingCalls).symm accepted
  exact ⟨new, made, accepted, reversed⟩

end Experiment
end Metronome
