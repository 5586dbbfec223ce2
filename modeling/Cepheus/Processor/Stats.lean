import Mathlib.Data.List.Sort
import Cepheus.Infra.Time
import Cepheus.Infra.Words

/-!
# Statistics of delays

`computeStats` and `percentile`, of which `services/stamp-processor/processor.go` and
`services/ping-processor/processor.go` have the same copy.

`none` is a panic of the runtime: an index out of range. Two durations that compare as equal are the
same number, so it does not matter that `sort.Slice` is not stable.
-/

namespace Cepheus.Processor

open Infra

/-- `LatencyStats`. Nothing sets `StdDev`. -/
structure LatencyStats where
  mean : Duration
  p50 : Duration
  p95 : Duration
  stdDev : Duration
deriving DecidableEq, Repr

/-- The zero value. -/
def LatencyStats.zero : LatencyStats := { mean := 0, p50 := 0, p95 := 0, stdDev := 0 }

/-- `l[i]`. -/
def index (l : List Duration) (i : Int) : Option Duration := if i < 0 then none else l[i.toNat]?

/-- `percentile`: the value at the rank, interpolated between its two neighbours. -/
def percentile (sorted : List Duration) (p : ℚ) : Option Duration :=
  match sorted with
  | [] => some 0
  | [d] => some d
  | _ :: _ :: _ =>
    let rank := p * ((sorted.length : ℚ) - 1)
    let lo := truncate rank
    let hi := lo + 1
    if (sorted.length : Int) ≤ hi then index sorted (sorted.length - 1)
    else do
      let frac := rank - lo
      let low ← index sorted lo
      let high ← index sorted hi
      some (truncate (low * (1 - frac) + high * frac))

/-- `computeStats`. The sum is an `int64`, and the mean is rounded towards zero. -/
def computeStats (values : List Duration) : Option LatencyStats :=
  if values = [] then some .zero
  else do
    let sorted := values.insertionSort (· ≤ ·)
    let sum := sorted.foldl (fun sum v => int64 (sum + v)) 0
    let p50 ← percentile sorted (50 / 100)
    let p95 ← percentile sorted (95 / 100)
    some { mean := sum.tdiv sorted.length, p50, p95, stdDev := 0 }

/-- Without values the statistics are those of an answer within no time. -/
@[simp] theorem computeStats_nil : computeStats [] = some .zero := rfl

example : computeStats [30, 10, 20] = some { mean := 20, p50 := 20, p95 := 29, stdDev := 0 } := by
  decide +kernel

end Cepheus.Processor
