import Cepheus.Infra.Root
import Cepheus.Argus.Registry

/-!
# The moving average

`services/argus/ewma.go`: a baseline of the mean and the variance of a metric in which the newest
sample has the weight `alpha`, and a finding for a sample that is too many standard deviations away
from the mean of those before it.

The floats are read as exact rationals, and so is the count of the samples, an `int64`.
-/

namespace Cepheus.Argus

open Infra

/-- `EwmaConfig`, without `SeverityAlpha`: nothing reads it. -/
structure EwmaConfig where
  alpha : ℚ
  threshold : ℚ
  warmup : Int
  epsilon : ℚ
deriving DecidableEq, Repr

/-- `Ewma`, with the square root it computes with. -/
structure Ewma where
  config : EwmaConfig
  root : Root

/-- The baseline. -/
structure EwmaState where
  mean : ℚ
  variance : ℚ
  n : Int
  lastSeen : Time
deriving DecidableEq, Repr

/-- The baseline before the first sample: the zero value of the type. -/
def EwmaState.zero : EwmaState := { mean := 0, variance := 0, n := 0, lastSeen := 0 }

/-- `types.EwmaFindingDetails`. -/
structure EwmaFindingDetails where
  z : ℚ
  stddev : ℚ
  variance : ℚ
  n : Int
deriving DecidableEq, Repr

namespace Ewma

variable (e : Ewma)

def stddev (state : EwmaState) : ℚ := e.root.sqrt (state.variance + e.config.epsilon)

def z (state : EwmaState) (value : ℚ) : ℚ := (value - state.mean) / e.stddev state

/-- The baseline with one more sample. -/
def fold (state : EwmaState) (ts : Time) (value : ℚ) : EwmaState :=
  let delta := value - state.mean
  { mean := state.mean + e.config.alpha * delta
    variance := (1 - e.config.alpha) * (state.variance + e.config.alpha * delta * delta)
    n := state.n + 1
    lastSeen := ts }

/-- `step`. The details of a finding are those of the baseline after the sample, but for the
deviation, which is that from the baseline before it. -/
def step (state : EwmaState) (ts : Time) (value : ℚ) :
    EwmaState × Option (DetailedFinding EwmaFindingDetails) :=
  if state.n = 0 then ({ mean := value, variance := 0, n := 1, lastSeen := ts }, none)
  else
    let stddev := e.stddev state
    let z := e.z state value
    let next := e.fold state ts value
    (next,
      if e.config.warmup ≤ state.n ∧ e.config.threshold ≤ |z| then
        some
          { finding := { ts, value, severity := min 12 |z| }
            details := { z, stddev, variance := next.variance, n := next.n } }
      else none)

/-- `Step`, the detector. -/
def detector : Detector Extracted EwmaState where
  step state ts value :=
    match value with
    | .float v =>
      let (next, finding) := e.step (state.getD .zero) ts v
      .ok (next, finding.map DetailedFinding.finding)
    | _ => .error ("ewma: want float64, got " ++ value.typeName)

theorem detector_step_float (state : Option EwmaState) (ts : Time) (v : ℚ) :
    e.detector.step state ts (.float v) =
      .ok ((e.step (state.getD .zero) ts v).1,
        (e.step (state.getD .zero) ts v).2.map DetailedFinding.finding) := rfl

/-- The baseline after some samples. -/
def baseline (samples : List (Time × ℚ)) : EwmaState :=
  samples.foldl (fun state sample => (e.step state sample.1 sample.2).1) .zero

theorem baseline_append (samples : List (Time × ℚ)) (sample : Time × ℚ) :
    e.baseline (samples ++ [sample]) = (e.step (e.baseline samples) sample.1 sample.2).1 := by
  simp [baseline]

theorem baseline_singleton (sample : Time × ℚ) :
    e.baseline [sample] = { mean := sample.2, variance := 0, n := 1, lastSeen := sample.1 } := rfl

variable {e}

theorem step_of_ne_zero {state : EwmaState} (h : state.n ≠ 0) (ts : Time) (value : ℚ) :
    (e.step state ts value).1 = e.fold state ts value := by
  simp [step, h]

/-- `Epsilon` keeps the standard deviation of a constant series away from zero. -/
theorem stddev_pos {state : EwmaState} (he : 0 < e.config.epsilon) (hv : 0 ≤ state.variance) :
    0 < e.stddev state :=
  e.root.sqrt_pos (add_pos_of_nonneg_of_pos hv he)

end Ewma

/-- The detector that `Start` makes. -/
def startEwma : Ewma where
  config := { alpha := 1 / 1000, threshold := 4, warmup := 40, epsilon := 100000000 }
  root := .floor

end Cepheus.Argus
