/-
Module: Metronome.Device
Purpose: Cards: a kind, a clock line and named channels.
Trusted boundary: none
Main exports:
  Device, Device.channel, Device.addChannel
-/
import Metronome.Channel
import Metronome.Channel.Name
import Metronome.Registry

namespace Metronome

/-- A card that one line of the pseudoclock drives. -/
structure Device where
  name : String
  kind : DeviceKind
  line : ClockLine
  timeBase : Float
  channels : Registry Channel
deriving Inhabited

namespace Device

/-- A card without channels. -/
def create (name : String) (kind : DeviceKind) (line : ClockLine) (timeBase : Float) : Device :=
  ⟨name, kind, line, timeBase, .empty⟩

/-- The channel with a name. -/
def channel (device : Device) (name : String) : Except Fault Channel :=
  match device.channels.get? name with
  | some channel => .ok channel
  | none => .error (.unknownChannel device.name name device.channels.names)

/-- The device with one of its channels changed. -/
def setChannel (device : Device) (name : String) (channel : Channel) : Device :=
  { device with channels := device.channels.insert name channel }

/-- The device with a channel more.  The form of the name is checked first, then that it is new,
then the default value. -/
def addChannel (device : Device) (name : String) (default : Float) : Except Fault Device :=
  if !device.kind.admits name then
    .error (.channelName device.name name device.kind.channelForm)
  else if device.channels.contains name then
    .error (.nameTaken (device.name ++ "/" ++ name))
  else
    device.setChannel name <$>
      Channel.create device.name name (device.kind.channelKind name) default device.timeBase

/-- A device with an edited channel. -/
def isEdited (device : Device) : Bool :=
  device.channels.values.any Channel.isEdited

/-- The device with every channel changed. -/
def mapChannels (change : Channel → Channel) (device : Device) : Device :=
  { device with channels := device.channels.map fun _ => change }

/-- The device with one of some placements on each channel, in order, and the placements that are
left. -/
def deal (device : Device) (placements : List Placement) : Device × List Placement :=
  let dealt := device.channels.thread Channel.takeFirst placements
  ({ device with channels := dealt.1 }, dealt.2)

/-- The device without instructions. -/
def clear (device : Device) : Device :=
  device.mapChannels Channel.clear

/-- The last position that an instruction of any channel occupies. -/
def lastStop (device : Device) : Nat :=
  device.channels.values.foldl (fun last channel => max last channel.timeline.lastStop) 0

end Device

end Metronome
