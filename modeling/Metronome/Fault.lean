/-
Module: Metronome.Fault
Purpose: Every way in which recording, compiling or encoding can fail, and the wording of each.
Trusted boundary: none
Main exports:
  Fault, Fault.message
-/
import Metronome.Kind
import Metronome.Placement
import Metronome.Text.Quoted

/-!
A fault says what went wrong as data; its wording is in one function per group of causes.  Numbers
in a wording are written with the fewest digits that read back.
-/

namespace Metronome

/-- What can be wrong with the timeline of one output. -/
inductive TimelineCause where
  | timeUndefined
  | beyondGrid (last : Float)
  | rateNotPositive (rate : Float)
  | rateBelowResolution (rate : Float)
  | rateOffGrid (rate timeBase : Float)
  | valueNotFinite (value : Float)
  | rampWithoutDuration (instruction : Instruction)
  | digitalRamp
  | durationNotPositive (duration : Float)
  | durationBelowResolution (duration : Float)
  | rampBeyondGrid (duration : Float)
  | overlap (added present : Placement)
  | waitAtStart
  | waitTimeout (timeout : Float)
  | waitTaken (label : String)
  | stopNotPositive
  | stopBeforeEnd (lastEnd : Float)
  | startPastStop (instruction : Instruction) (stop : Float)
  | rampOnSlowLine
  | rampPastStop (rampEnd stop : Float)
  | partialSample (duration period count : Float)
  | waitPastStop (stop : Float)

/-- Why two participants cannot share the clock. -/
inductive ConflictCause where
  | rampSpansWait
  | samplePeriods (first second : Float)

/-- Which limit of a device is exceeded. -/
inductive LimitCause where
  | minimumPeriod (period timeBase : Float)
  | tickCount (limit : Nat) (time : Float)
  | sampleCount (count capacity : Nat)
  | voltage (channel : String) (value time low high : Float)
  | lineMissing (line : Nat) (channel : String) (width : Nat)
  | partMissing (part : String)
  | partRange (part : String) (value time low high : Float)
  | outputIncomplete (id : Nat)
  | periodOffCycle (period freq : Float)
  | periodTooShort (period : Float) (minimum : Nat)
  | periodTooLong (period : Float)
  | timeoutRange (timeout : Float) (label : String) (longest : Nat)
  | instructionCount (limit : Nat)

/-- Why lines cannot be packed into words. -/
inductive PackingCause where
  | wordWidth (widest width : Nat)
  | tooManyLines (count width : Nat)
  | unequalLength (bit length expected : Nat)
  | bitOutside (bit width : Nat)
  | bitTaken (bit : Nat)

/-- Why an instruction and a domain do not go together. -/
inductive PlacementCause where
  | emptyDomain (stop start : Nat)
  | zeroPeriod
  | constantWithDomain
  | rampWithoutDomain

/-- What can be wrong with a setting or with the data of an instruction. -/
inductive SettingCause where
  | unreadable
  | timeBaseRange (timeBase : Float)
  | timeBaseFraction (timeBase : Float)
  | noTicks
  | argumentMissing (shape : Shape) (name : String)
  | argumentNotFinite (shape : Shape) (name : String) (value : Float)
  | placement (instruction : Instruction) (start : Nat) (cause : PlacementCause)
  | outputRange (card : String) (low high : Float)
  | resolution (card : String) (bits : Nat)
  | portWidth (card : String) (widest width : Nat)
  | generatorClock (name : String) (freq : Float)
  | synthesizerClock (name : String) (freq : Float)

/-- A failure of recording, compiling or encoding. -/
inductive Fault where
  /-- Two outputs, or an output and a wait, need the clock in contradictory ways. -/
  | conflict (first second : String) (time : Float) (cause : ConflictCause)
  /-- The timeline of one output is malformed. -/
  | timeline (output : String) (time : Float) (cause : TimelineCause)
  /-- A ramp has a value that is not finite. -/
  | rampValue (output : String) (time value : Float)
  /-- A digital output is given another value than `0` or `1`. -/
  | digitalValue (output : String) (time value : Float)
  /-- A device cannot do what is asked. -/
  | limit (device : String) (cause : LimitCause)
  /-- A name is registered twice. -/
  | nameTaken (name : String)
  /-- Lines do not fit a word. -/
  | packing (cause : PackingCause)
  /-- No device has this name. -/
  | unknownDevice (name : String) (registered : List String)
  /-- No channel of the device has this name. -/
  | unknownChannel (device channel : String) (registered : List String)
  /-- The device is of another kind. -/
  | wrongDevice (name : String) (expected : DeviceKind)
  /-- The channel is of another kind. -/
  | wrongChannel (name : String) (expected : ChannelKind)
  /-- A channel name has not the form of its device's names. -/
  | channelName (device name form : String)
  /-- A setting, or the data of an instruction, is refused. -/
  | setting (cause : SettingCause)

namespace TimelineCause

open Number (text)

/-- The wording of a fault in a timeline. -/
def message : TimelineCause → String
  | .timeUndefined => "instruction time must be finite and non-negative"
  | .beyondGrid last =>
      "time exceeds the last representable position " ++ text last ++ " [s] of the time grid"
  | .rateNotPositive rate => "ramp sample rate must be positive, got " ++ text rate
  | .rateBelowResolution rate =>
      "ramp sample rate " ++ text rate ++ " [Hz] is below the time resolution"
  | .rateOffGrid rate timeBase =>
      "ramp sample rate " ++ text rate ++ " [Hz] does not correspond to an integer number of " ++
        text timeBase ++ " [1/s] time positions"
  | .valueNotFinite value => "value " ++ text value ++ " is not finite"
  | .rampWithoutDuration instruction =>
      "ramp instruction " ++ instruction.text ++ " requires a duration"
  | .digitalRamp => "digital channels cannot ramp"
  | .durationNotPositive duration => "ramp duration must be positive, got " ++ text duration
  | .durationBelowResolution duration =>
      "ramp duration " ++ text duration ++ " [s] is below the time resolution"
  | .rampBeyondGrid duration =>
      "ramp of " ++ text duration ++ " [s] ends beyond the time grid"
  | .overlap added present =>
      "instruction " ++ added.text ++ " overlaps with instruction " ++ present.text
  | .waitAtStart => "a wait cannot be scheduled at the start of the experiment"
  | .waitTimeout timeout => "wait timeout must be positive, got " ++ text timeout
  | .waitTaken label => "coincides with wait '" ++ label ++ "'"
  | .stopNotPositive => "experiment stop time must be positive"
  | .stopBeforeEnd lastEnd =>
      "stop time precedes the last instruction end time " ++ text lastEnd ++
        " [s]. If you intended to stop right after the last instruction, use stop_time=None"
  | .startPastStop instruction stop =>
      "instruction " ++ instruction.text ++
        " is scheduled at or past the experiment stop time " ++ text stop ++ " [s]"
  | .rampOnSlowLine =>
      "ramps require the fast clock line but the output is on the slow line"
  | .rampPastStop rampEnd stop =>
      "ramp ends at " ++ text rampEnd ++ " [s], past the experiment stop time " ++ text stop ++
        " [s]"
  | .partialSample duration period count =>
      "ramp duration " ++ text duration ++ " [s] is not an integer number of sample periods " ++
        text period ++ " [s] (" ++ text count ++ " ticks)"
  | .waitPastStop stop =>
      "wait is scheduled at or past the experiment stop time " ++ text stop ++ " [s]"

end TimelineCause

namespace ConflictCause

open Number (text)

/-- The wording of a conflict. -/
def message : ConflictCause → String
  | .rampSpansWait => "a ramp cannot span a wait"
  | .samplePeriods first second =>
      "simultaneous ramps request different sample periods " ++ text first ++ " [s] and " ++
        text second ++ " [s]"

end ConflictCause

namespace LimitCause

open Number (text)

/-- The wording of an exceeded limit. -/
def message : LimitCause → String
  | .minimumPeriod period timeBase =>
      "minimum period " ++ text period ++ " [s] must be at least one time position (1/" ++
        text timeBase ++ " [s])"
  | .tickCount limit time =>
      "clock program exceeds the maximum of " ++ toString limit ++ " ticks at t = " ++
        text time ++ " [s]"
  | .sampleCount count capacity =>
      toString count ++ " samples exceed the device buffer of " ++ toString capacity ++
        " samples"
  | .voltage channel value time low high =>
      channel ++ " outputs " ++ text value ++ " [V] at t = " ++ text time ++
        " [s], outside the range [" ++ text low ++ ", " ++ text high ++ "] [V]"
  | .lineMissing line channel width =>
      "line " ++ toString line ++ " of " ++ channel ++ " does not exist on " ++ toString width ++
        "-line ports"
  | .partMissing part => "composite output is missing its " ++ part ++ " sub-channel"
  | .partRange part value time low high =>
      part ++ " = " ++ text value ++ " at t = " ++ text time ++ " [s] is outside the range [" ++
        text low ++ ", " ++ text high ++ "]"
  | .outputIncomplete id => "composite output dds" ++ toString id ++ " is incomplete"
  | .periodOffCycle period freq =>
      "tick period " ++ text period ++ " [s] is not a whole number of " ++ text freq ++
        " [Hz] reference clock cycles"
  | .periodTooShort period minimum =>
      "tick period " ++ text period ++ " [s] is shorter than the minimum of " ++
        toString minimum ++ " cycles per half period"
  | .periodTooLong period =>
      "tick period " ++ text period ++ " [s] overflows the 32-bit half period field"
  | .timeoutRange timeout label longest =>
      "timeout " ++ text timeout ++ " [s] of wait '" ++ label ++ "' is outside the 1 ms to " ++
        toString longest ++ " ms range"
  | .instructionCount limit =>
      "program needs more than the maximum of " ++ toString limit ++ " instructions"

end LimitCause

/-- The wording of a refused packing. -/
def PackingCause.message : PackingCause → String
  | .wordWidth widest width =>
      "word width must be between 1 and " ++ toString widest ++ " bits, got " ++ toString width
  | .tooManyLines count width =>
      toString count ++ " lines cannot be packed into " ++ toString width ++ "-bit words"
  | .unequalLength bit length expected =>
      "line at bit " ++ toString bit ++ " has " ++ toString length ++ " samples, expected " ++
        toString expected
  | .bitOutside bit width =>
      "bit index " ++ toString bit ++ " does not fit into " ++ toString width ++ "-bit words"
  | .bitTaken bit => "bit index " ++ toString bit ++ " is assigned to more than one line"

/-- The wording of a refused placement. -/
def PlacementCause.message : PlacementCause → String
  | .emptyDomain stop start =>
      "end_pos " ++ toString stop ++ " should be strictly greater than start_pos " ++
        toString start
  | .zeroPeriod => "sample period must be positive"
  | .constantWithDomain => "constant instructions cannot span a domain"
  | .rampWithoutDomain => "ramps require a domain"

namespace SettingCause

open Number (text)

/-- The wording of a refused setting. -/
def message : SettingCause → String
  | .unreadable => "the settings text cannot be read"
  | .timeBaseRange timeBase =>
      "time_base must be a finite number of positions per second >= 1, got " ++ text timeBase
  | .timeBaseFraction timeBase => "time_base must be integral, got " ++ text timeBase
  | .noTicks => "max_ticks must be positive"
  | .argumentMissing shape name =>
      "Expected instr type " ++ shape.label ++ " to contain key " ++ name
  | .argumentNotFinite shape name value =>
      "Instr type " ++ shape.label ++ " received non-finite argument " ++ name ++ " = " ++
        text value
  | .placement instruction start cause =>
      "Instruction " ++ instruction.text ++ " at position " ++ toString start ++ ": " ++
        cause.message
  | .outputRange card low high =>
      "Analog card " ++ card ++ ": invalid output range [" ++ text low ++ ", " ++ text high ++ "]"
  | .resolution card bits =>
      "Analog card " ++ card ++ ": resolution must be between 1 and 32 bits, got " ++
        toString bits
  | .portWidth card widest width =>
      "Digital card " ++ card ++ ": port width must be between 1 and " ++ toString widest ++
        " lines, got " ++ toString width
  | .generatorClock name freq =>
      "Pulse generator " ++ name ++ ": reference clock must be positive, got " ++ text freq
  | .synthesizerClock name freq =>
      "DDS card " ++ name ++ ": reference clock must be positive, got " ++ text freq

end SettingCause

namespace Fault

open Number (text)

/-- The message of a fault. -/
def message : Fault → String
  | .conflict first second time cause =>
      "Timeline conflict at t = " ++ text time ++ " [s] between " ++ first ++ " and " ++ second ++
        ": " ++ cause.message
  | .timeline output time cause =>
      "Timeline error on " ++ output ++ " at t = " ++ text time ++ " [s]: " ++ cause.message
  | .rampValue output time value =>
      "Ramp on " ++ output ++ " evaluated to non-finite value " ++ text value ++ " at t = " ++
        text time ++ " [s]"
  | .digitalValue output time value =>
      "Digital output " ++ output ++ " requires values 0 or 1 but received " ++ text value ++
        " at t = " ++ text time ++ " [s]"
  | .limit device cause => "Device " ++ device ++ " limit violated: " ++ cause.message
  | .nameTaken name => "Name " ++ name ++ " is already registered"
  | .packing cause => "Bitfield packing failed: " ++ cause.message
  | .unknownDevice name registered =>
      "There is no device " ++ name ++ " registered. Registered devices are " ++
        Text.quoteList registered
  | .unknownChannel device channel registered =>
      "Device " ++ device ++ " does not have channel " ++ channel ++
        ". Registered channels are " ++ Text.quoteList registered
  | .wrongDevice name expected =>
      name ++ " is incompatible with this instruction, expected a device of kind " ++
        expected.label
  | .wrongChannel name expected =>
      name ++ " is incompatible with this instruction, expected a channel of kind " ++
        expected.label
  | .channelName device name form =>
      "Expecting channels of device " ++ device ++ " to be of format '" ++ form ++
        "' yet received channel name " ++ name
  | .setting cause => "Configuration error: " ++ cause.message

end Fault

end Metronome
