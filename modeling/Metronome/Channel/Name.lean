/-
Module: Metronome.Channel.Name
Purpose: The names by which cards address their channels.
Trusted boundary: none
Main exports:
  Part, DeviceKind.admits, ChannelName.analog, ChannelName.line, ChannelName.part,
  ChannelName.lineNumbers, ChannelName.partNumber
-/
import Metronome.Fault
import Metronome.Text.DecimalDigit

/-!
An analog channel is `ao` and a number, a digital one `port` and a number, a slash, `line` and a
number, and a composite output `dds` and a number has the parts `freq`, `amp`, `phase` and
`gate`.  A number is a run of decimal digits of any script; its value is needed only where
channels are grouped by it, and there the digits must be ASCII and the value a 64-bit word.
-/

namespace Metronome

/-- The parts of a composite output. -/
inductive Part where
  | freq
  | amp
  | phase
  | gate
deriving Repr, Inhabited, DecidableEq

/-- The name of a part. -/
def Part.label : Part → String
  | .freq => "freq"
  | .amp => "amp"
  | .phase => "phase"
  | .gate => "gate"

namespace ChannelName

/-- The name of an analog channel. -/
def analog (id : Nat) : String :=
  "ao" ++ toString id

/-- The name of a digital line. -/
def line (port line : Nat) : String :=
  "port" ++ toString port ++ "/line" ++ toString line

/-- The name of a part of a composite output. -/
def part (id : Nat) (part : Part) : String :=
  "dds" ++ toString id ++ "/" ++ part.label

/-- The rest of a name after a fixed beginning. -/
def after? : (fixed name : List Char) → Option (List Char)
  | [], name => some name
  | _ :: _, [] => none
  | c :: fixed, d :: name => if c = d then after? fixed name else none

/-- The nonempty run of decimal digits at the front, and the rest. -/
def digits? (name : List Char) : Option (List Char × List Char) :=
  let digits := name.takeWhile Text.isDecimalDigit
  if digits.isEmpty then none else some (digits, name.dropWhile Text.isDecimalDigit)

/-- The digits of an analog channel's number. -/
def analogDigits? (name : String) : Option (List Char) := do
  let (digits, rest) ← digits? (← after? "ao".toList name.toList)
  if rest.isEmpty then some digits else none

/-- The digits of a digital line's port and line numbers. -/
def lineDigits? (name : String) : Option (List Char × List Char) := do
  let (port, rest) ← digits? (← after? "port".toList name.toList)
  let (line, rest) ← digits? (← after? "/line".toList rest)
  if rest.isEmpty then some (port, line) else none

/-- The digits of a composite output's number, and its part. -/
def partDigits? (name : String) : Option (List Char × Part) := do
  let (digits, rest) ← digits? (← after? "dds".toList name.toList)
  let part ← [Part.freq, .amp, .phase, .gate].find? fun part =>
    '/' :: part.label.toList = rest
  some (digits, part)

/-- The port and the line number of a digital channel. -/
def lineNumbers (name : String) : Except Fault (Nat × Nat) :=
  let numbers? := do
    let (port, line) ← lineDigits? name
    some (← Text.word? port, ← Text.word? line)
  match numbers? with
  | some numbers => .ok numbers
  | none => .error (.channelName "" name DeviceKind.digitalCard.channelForm)

/-- The number of a composite output, and its part. -/
def partNumber (device name : String) : Except Fault (Nat × Part) :=
  let number? := do
    let (digits, part) ← partDigits? name
    some (← Text.word? digits, part)
  match number? with
  | some number => .ok number
  | none => .error (.channelName device name DeviceKind.synthesizer.channelForm)

end ChannelName

/-- The names a device kind admits for its channels. -/
def DeviceKind.admits (kind : DeviceKind) (name : String) : Bool :=
  match kind with
  | .analogCard => (ChannelName.analogDigits? name).isSome
  | .digitalCard => (ChannelName.lineDigits? name).isSome
  | .synthesizer => (ChannelName.partDigits? name).isSome

/-- The kind of a channel, by its device's kind and its name: digital lines and gates are
digital. -/
def DeviceKind.channelKind (kind : DeviceKind) (name : String) : ChannelKind :=
  match kind with
  | .digitalCard => .digital
  | .synthesizer =>
      match ChannelName.partDigits? name with
      | some (_, .gate) => .digital
      | _ => .analog
  | .analogCard => .analog

end Metronome
