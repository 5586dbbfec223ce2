import Cepheus.Infra.Time

/-!
# The leaky bucket

`services/argus/leaky_bucket.go`, with the scores read as exact rationals.

A finding adds its severity to the score, and time drains it at `decayPerSecond`. Nothing
stops the elapsed time from being negative: a finding older than the last update of the score
raises it by what would have drained in between.
-/

namespace Cepheus.Argus

open Infra

/-- The fields of `LeakyBucketConfiguration` that the bucket reads. -/
structure LeakyBucket where
  openThreshold : ℚ
  closeThreshold : ℚ
  decayPerSecond : ℚ
deriving DecidableEq, Repr

/-- A score and the instant it belongs to. -/
structure BucketState where
  score : ℚ
  scoreUpdatedAt : Time
deriving DecidableEq, Repr

/-- The outcome of one update of the score. -/
structure BucketUpdate where
  newState : BucketState
  contribution : ℚ
  crossedOpen : Bool
  crossedClose : Bool
deriving DecidableEq, Repr

namespace LeakyBucket

variable (b : LeakyBucket)

/-- The score at the instant `ts`; `Add` and `Decay` both begin with it. -/
def decayed (state : BucketState) (ts : Time) : ℚ :=
  max 0 (state.score - b.decayPerSecond * Duration.seconds (Time.sub ts state.scoreUpdatedAt))

/-- Add a finding of severity `value` observed at `ts`. -/
def add (state : BucketState) (value : ℚ) (ts : Time) : BucketUpdate :=
  let decayed := b.decayed state ts
  let contribution := |value|
  let newScore := decayed + contribution
  { newState := { score := newScore, scoreUpdatedAt := ts }
    contribution := contribution
    crossedOpen := decide (decayed < b.openThreshold ∧ b.openThreshold ≤ newScore)
    crossedClose := decide (b.closeThreshold ≤ decayed ∧ newScore < b.closeThreshold) }

/-- Let time pass until `ts`, with no finding. -/
def decay (state : BucketState) (ts : Time) : BucketUpdate :=
  let decayed := b.decayed state ts
  { newState := { score := decayed, scoreUpdatedAt := ts }
    contribution := 0
    crossedOpen := false
    crossedClose := decide (b.closeThreshold ≤ state.score ∧ decayed < b.closeThreshold) }

/-! ## The score -/

theorem decayed_nonneg (state : BucketState) (ts : Time) : 0 ≤ b.decayed state ts :=
  le_max_left _ _

/-- Time that passes does not raise the score. -/
theorem decayed_le {state : BucketState} {ts : Time} (hd : 0 ≤ b.decayPerSecond)
    (hs : 0 ≤ state.score) (ht : state.scoreUpdatedAt ≤ ts) : b.decayed state ts ≤ state.score := by
  have hsec := Duration.seconds_nonneg (Time.sub_nonneg ht)
  have hdrain := mul_nonneg hd hsec
  exact max_le hs (by linarith)

/-- An empty bucket stays empty as time passes. -/
theorem decayed_eq_zero {state : BucketState} {ts : Time} (hd : 0 ≤ b.decayPerSecond)
    (hs : state.score = 0) (ht : state.scoreUpdatedAt ≤ ts) : b.decayed state ts = 0 :=
  le_antisymm (hs ▸ b.decayed_le hd hs.ge ht) (b.decayed_nonneg state ts)

theorem add_score (state : BucketState) (value : ℚ) (ts : Time) :
    (b.add state value ts).newState.score = b.decayed state ts + |value| := rfl

theorem add_score_nonneg (state : BucketState) (value : ℚ) (ts : Time) :
    0 ≤ (b.add state value ts).newState.score :=
  add_nonneg (b.decayed_nonneg state ts) (abs_nonneg value)

/-- A finding leaves at least its own severity in the bucket. -/
theorem le_add_score (state : BucketState) (value : ℚ) (ts : Time) :
    value ≤ (b.add state value ts).newState.score := by
  rw [add_score]
  linarith [b.decayed_nonneg state ts, le_abs_self value]

/-! ## The edges -/

theorem add_crossedOpen {state : BucketState} {value : ℚ} {ts : Time} :
    (b.add state value ts).crossedOpen = true ↔
      b.decayed state ts < b.openThreshold ∧
        b.openThreshold ≤ (b.add state value ts).newState.score := by
  simp [add]

/-- **A finding never takes the score over the falling edge.** -/
theorem add_crossedClose (state : BucketState) (value : ℚ) (ts : Time) :
    (b.add state value ts).crossedClose = false := by
  simp only [add, decide_eq_false_iff_not, not_and, not_lt]
  intro h
  linarith [abs_nonneg value]

theorem decay_crossedClose {state : BucketState} {ts : Time} :
    (b.decay state ts).crossedClose = true ↔
      b.closeThreshold ≤ state.score ∧ b.decayed state ts < b.closeThreshold := by
  simp [decay]

end LeakyBucket

end Cepheus.Argus
