/-
Module: Metronome.Store
Purpose: Artifacts kept by device, and batches of cards that are encoded into a store as a whole.
Trusted boundary: none
Main exports:
  Store, Storing, Store.put, Store.encodeAll, Store.compileAndEncode
-/
import Metronome.Card

/-!
A batch is encoded before anything is stored, and its names are checked before anything is
encoded: they must be distinct, and new to the store.  An artifact takes along the samples it was
made from.
-/

namespace Metronome

/-- Artifacts by the name of their device. -/
abbrev Store := Registry Artifact

/-- Steps on a store that may fail, with the store kept as it then is. -/
abbrev Storing := ExceptT Fault (StateM Store)

namespace Store

/-- Stores an artifact of a device that has none yet. -/
def put (artifact : Artifact) : Storing Unit := do
  let store ← get
  if store.contains artifact.device then throw (.nameTaken artifact.device)
  set (store.insert artifact.device artifact)

/-- Accepts cards with distinct names that are new to a store, in order. -/
def checkNames (store : Store) (seen : List String) : List Card → Except Fault Unit
  | [] => .ok ()
  | card :: rest =>
      if card.name ∈ seen || store.contains card.name then .error (.nameTaken card.name)
      else checkNames store (card.name :: seen) rest

/-- The artifact of a card that is valid, with the samples of its device. -/
def encodeCard (compiled : Compiled) (card : Card) : Except Fault Artifact := do
  card.validate compiled
  let artifact ← card.encode compiled
  match compiled.devices.get? card.name with
  | none => return artifact
  | some device => return device.samples.entries.foldl (fun artifact (channel, samples) =>
      artifact.insert ("raw/" ++ channel) (.reals samples)) artifact

/-- Stores the artifacts of a batch of cards.  Returns the names of their devices. -/
def encodeAll (compiled : Compiled) (cards : List Card) : Storing (List String) := do
  checkNames (← get) [] cards
  let artifacts ← cards.mapM fun card => (encodeCard compiled card : Except Fault Artifact)
  artifacts.forM put
  return artifacts.map Artifact.device

/-- Compiles an experiment and stores the artifacts of a batch of cards. -/
def compileAndEncode (experiment : Experiment) (stop : Option Float) (cards : List Card) :
    Storing Compiled := do
  let compiled ← experiment.compile stop
  let _ ← encodeAll compiled cards
  return compiled

end Store

end Metronome
