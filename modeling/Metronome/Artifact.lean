/-
Module: Metronome.Artifact
Purpose: What an encoder makes for one device: named columns of numbers and words.
Trusted boundary: none
Main exports:
  Dataset, Artifact, onScale, quantize
-/
import Metronome.Number.Nearest
import Metronome.Registry

namespace Metronome

/-- A column of an artifact. -/
inductive Dataset where
  | reals (values : List Float)
  | integers (values : List Int)
  | words (values : List Nat)
  | hex (values : List String)
deriving Inhabited, DecidableEq

/-- The length of a column. -/
def Dataset.size : Dataset → Nat
  | .reals values => values.length
  | .integers values => values.length
  | .words values => values.length
  | .hex values => values.length

/-- The columns made for one device. -/
structure Artifact where
  device : String
  datasets : Registry Dataset
deriving Inhabited

namespace Artifact

/-- An artifact without columns. -/
def empty (device : String) : Artifact :=
  ⟨device, .empty⟩

/-- The artifact with a column under a name. -/
def insert (artifact : Artifact) (name : String) (dataset : Dataset) : Artifact :=
  { artifact with datasets := artifact.datasets.insert name dataset }

end Artifact

/-- Where a value of the range from `low` to `high` lies on a scale that ends at `full`. -/
def onScale {α : Type} [Sub α] [Mul α] [Div α] (value low high full : α) : α :=
  (value - low) / (high - low) * full

/-- The code of a value in the range from `low` to `high`, on a scale of `2 ^ bits` codes. -/
def quantize (value low high : Float) (bits : Nat) : Int :=
  Number.toSigned (Number.nearest (onScale value low high (Number.ofWord (1 <<< bits - 1))))

end Metronome
