import Cepheus.Infra.BetaBinomial
import Cepheus.Infra.Words
import Cepheus.Argus.Registry

/-!
# The loss detector

`services/argus/betab.go`: how many probes were lost so far gives a beta distribution of the chance
to lose one, and a batch is reported if so many losses in it are improbable.

The `int64` counters wrap around. The floats are read as exact numbers, of a field of one's choice:
the sum of `betaBinomialUpperTail` goes over the probabilities themselves, which the code computes
by way of logarithms of the gamma function (`Properties/Lgamma.lean` has the sum as it is written).
-/

namespace Cepheus.Argus

open Infra

/-! ## The tail -/

section

open Infra.BetaBinomial

variable {K : Type*} [Field K]

/-- The loop of `betaBinomialUpperTail`, with so many rounds to go, from `i` on. -/
def tailLoop (n : ℕ) (a b : K) : ℕ → ℕ → K → K
  | 0, _, tail => tail
  | rounds + 1, i, tail => tailLoop n a b rounds (i + 1) (tail + pmf n a b i)

/-- `betaBinomialUpperTail`. -/
def betaBinomialUpperTail [LinearOrder K] (k n : Int) (a b : K) : K :=
  if k ≤ 0 then 1
  else if n < k then 0
  else
    let tail := tailLoop n.toNat a b (n + 1 - k).toNat k.toNat 0
    if 1 < tail then 1 else tail

/-- The loop adds up the probabilities. -/
theorem tailLoop_eq (n : ℕ) (a b : K) (rounds i : ℕ) (tail : K) :
    tailLoop n a b rounds i tail = tail + ∑ j ∈ Finset.Ico i (i + rounds), pmf n a b j := by
  induction rounds generalizing i tail with
  | zero => simp [tailLoop]
  | succ rounds ih =>
    rw [tailLoop, ih, Finset.sum_eq_sum_Ico_succ_bot (by omega : i < i + (rounds + 1)),
      show i + 1 + rounds = i + (rounds + 1) by omega, add_assoc]

/-- All of the loop. -/
theorem tailLoop_upperTail {n k : ℕ} (a b : K) (hk : k ≤ n + 1) :
    tailLoop n a b (n + 1 - k) k 0 = upperTail n a b k := by
  rw [tailLoop_eq, zero_add, upperTail, show k + (n + 1 - k) = n + 1 by omega]

end

/-! ## The detector -/

/-- `BetaBinomialState`. -/
structure BetaBinomialState where
  lost : Int
  received : Int
  n : Int
  lastSeen : Time
deriving DecidableEq, Repr

/-- The baseline before the first batch: the zero value of the type. -/
def BetaBinomialState.zero : BetaBinomialState :=
  { lost := 0, received := 0, n := 0, lastSeen := 0 }

structure BetaBinomialConfig where
  threshold : ℚ
  warmup : Int
deriving DecidableEq, Repr

/-- `BetaBinomial`, with the logarithm it computes with. -/
structure BetaBinomial where
  config : BetaBinomialConfig
  log10 : ℚ → ℚ

/-- `types.BetaBinomialFindingDetails`. -/
structure BetaBinomialFindingDetails where
  tail : ℚ
  lost : Int
  sent : Int
  rate : ℚ
  postAlpha : ℚ
  postBeta : ℚ
deriving DecidableEq, Repr

/-- The losses in a batch. -/
def LossSample.lost (s : LossSample) : Int := max 0 (int64 (s.sent - s.received))

def priorAlpha : ℚ := 1 / 2

def priorBeta : ℚ := 1 / 2

namespace BetaBinomialState

variable (st : BetaBinomialState)

def postAlpha : ℚ := priorAlpha + st.lost

def postBeta : ℚ := priorBeta + st.received

/-- The chance of at least as many losses as in the batch, by what was seen before it. -/
def tail (s : LossSample) : ℚ := betaBinomialUpperTail s.lost s.sent st.postAlpha st.postBeta

/-- The baseline with one more batch. -/
def fold (ts : Time) (s : LossSample) : BetaBinomialState :=
  { lost := int64 (st.lost + s.lost)
    received := int64 (st.received + s.received)
    n := int64 (st.n + 1)
    lastSeen := ts }

end BetaBinomialState

namespace BetaBinomial

variable (b : BetaBinomial)

/-- The batch is one to report. -/
def Reports (st : BetaBinomialState) (s : LossSample) : Prop :=
  0 < s.sent ∧ b.config.warmup ≤ int64 (st.lost + st.received) ∧ 0 < s.lost ∧
    st.tail s ≤ b.config.threshold

instance (st : BetaBinomialState) (s : LossSample) : Decidable (b.Reports st s) :=
  inferInstanceAs (Decidable (_ ∧ _))

/-- What is reported of a batch. -/
def report (st : BetaBinomialState) (ts : Time) (s : LossSample) :
    DetailedFinding BetaBinomialFindingDetails :=
  let tail := st.tail s
  let rate : ℚ := s.lost / s.sent
  { finding := { ts, value := rate, severity := min 12 (-b.log10 (max tail (1 / 10 ^ 12))) }
    details :=
      { tail, lost := s.lost, sent := s.sent, rate
        postAlpha := st.postAlpha, postBeta := st.postBeta } }

/-- `step`. -/
def step (st : BetaBinomialState) (ts : Time) (s : LossSample) :
    BetaBinomialState × Option (DetailedFinding BetaBinomialFindingDetails) :=
  (st.fold ts s, if b.Reports st s then some (b.report st ts s) else none)

/-- `Step`, the detector. -/
def detector : Detector Extracted BetaBinomialState where
  step state ts value :=
    match value with
    | .loss s =>
      let (next, finding) := b.step (state.getD .zero) ts s
      .ok (next, finding.map DetailedFinding.finding)
    | _ => .error ("beta binomial: want LossSample, got " ++ value.typeName)

end BetaBinomial

end Cepheus.Argus
