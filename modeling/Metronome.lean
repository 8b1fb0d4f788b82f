import Metronome.Text.DecimalDigit
import Metronome.Text.Hex
import Metronome.TimeGrid
import Metronome.Placement.Checked
import Metronome.Settings.Document
import Metronome.Ordered
import Metronome.Registry
import Metronome.Device
import Metronome.Pseudoclock
import Metronome.Program
import Metronome.Schedule.Program
import Metronome.Experiment
import Metronome.Store
import Metronome.Proofs.Checks
import Metronome.Proofs.Demand
import Metronome.Proofs.Schedule
import Metronome.Proofs.Segment
import Metronome.Proofs.Grid
import Metronome.Proofs.Chronology
import Metronome.Proofs.Unrolling
import Metronome.Proofs.Draft
import Metronome.Proofs.Ticks
import Metronome.Proofs.Admission
import Metronome.Proofs.Tiling
import Metronome.Proofs.Sampling
import Metronome.Proofs.Normal
import Metronome.Proofs.RampEnd
import Metronome.Proofs.Registry
import Metronome.Proofs.Comparison
import Metronome.Proofs.Steps
import Metronome.Proofs.Lookup
import Metronome.Proofs.Session
import Metronome.Proofs.Placing
import Metronome.Proofs.Soundness
import Metronome.Proofs.Naming
import Metronome.Proofs.Grouping
import Metronome.Proofs.Packing
import Metronome.Proofs.Atomicity
import Metronome.Proofs.Compilation
import Metronome.Proofs.Lines
import Metronome.Proofs.Encodable
import Metronome.Proofs.Artifact
import Metronome.Proofs.Commit
import Metronome.Proofs.Pointwise
import Metronome.Proofs.Seconds
import Metronome.Proofs.RunLength
import Metronome.Proofs.Emission
import Metronome.Proofs.Stepwise
import Metronome.Proofs.Epochs
import Metronome.Proofs.Pulses
import Metronome.Proofs.Hex
import Metronome.Proofs.Numbering
import Metronome.Proofs.Ports
import Metronome.Proofs.Composites
import Metronome.Proofs.HalfEven
import Metronome.Proofs.Rounding
import Metronome.Proofs.Value
import Metronome.Proofs.Tolerance
import Metronome.Proofs.Cycles
import Metronome.Proofs.Reordering
import Metronome.Proofs.Determination
import Metronome.Proofs.FinalValues
import Metronome.Proofs.SlowLine
import Metronome.Proofs.Unpacking
import Metronome.Proofs.Vacancy
import Metronome.Proofs.ExactQuotient
import Metronome.Proofs.Registered
import Metronome.Proofs.SampleRate
import Metronome.Proofs.Failures
import Metronome.Proofs.OutputNames
import Metronome.Proofs.Conflict
import Metronome.Proofs.DigitalLevels
import Metronome.Proofs.Document
import Metronome.Proofs.Arithmetic
import Metronome.Proofs.RoundTrip
import Metronome.Proofs.Reset
import Metronome.Proofs.Fraction
import Metronome.Proofs.LinearRamp
import Metronome.Proofs.Clearing
import Metronome.Proofs.PulseWords
import Metronome.Proofs.Guarded
import Metronome.Proofs.Extent
import Metronome.Proofs.TrapFree
import Metronome.Proofs.Reading
import Metronome.Proofs.Quantization
