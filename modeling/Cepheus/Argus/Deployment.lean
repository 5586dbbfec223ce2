import Cepheus.Argus.BetaBinomial
import Cepheus.Argus.Ewma
import Cepheus.Argus.Messages

/-!
# The service as it is started

`Start` of `services/argus/runner.go`: the default registry, the two detectors that are registered,
and their settings.

Both detectors keep their baselines as JSON documents in one table. A document is read here as what
has been written; `json.Unmarshal` takes the fields that it finds and leaves the others zero, which
decides what a detector would make of the document of the other one.
-/

namespace Cepheus.Argus

open Infra

/-- A document of `argus_baselines`. -/
inductive Baseline where
  | ewma (state : EwmaState)
  | betaB (state : BetaBinomialState)
deriving DecidableEq, Repr

namespace Baseline

/-- `json.Unmarshal` into an `EwmaState`. -/
def toEwma : Baseline → EwmaState
  | .ewma state => state
  | .betaB state => { EwmaState.zero with n := state.n, lastSeen := state.lastSeen }

/-- `json.Unmarshal` into a `BetaBinomialState`. -/
def toBetaBinomial : Baseline → BetaBinomialState
  | .ewma state => { BetaBinomialState.zero with n := state.n, lastSeen := state.lastSeen }
  | .betaB state => state

/-- The sample that was folded last. -/
def lastSeen : Baseline → Time
  | .ewma state => state.lastSeen
  | .betaB state => state.lastSeen

end Baseline

/-- A detector that reads its state from a document and writes it to one. -/
def Detector.onDocuments {V S T : Type} (d : Detector V T) (unmarshal : S → T) (marshal : T → S) :
    Detector V S where
  step state ts value :=
    (d.step (state.map unmarshal) ts value).map fun (next, finding) => (marshal next, finding)

section

variable (root : Root) (log10 : ℚ → ℚ)

def deployedEwma : Ewma := { startEwma with root }

def deployedBetaBinomial : BetaBinomial where
  config := { threshold := 1 / 10000, warmup := 50 }
  log10

/-- The detectors that are registered. -/
def deployedDetectors : DetectorType → Option (Detector Extracted Baseline)
  | .ewma => some ((deployedEwma root).detector.onDocuments Baseline.toEwma .ewma)
  | .betaB =>
    some ((deployedBetaBinomial log10).detector.onDocuments Baseline.toBetaBinomial .betaB)
  | _ => none

def deployedWorker : Worker Extracted Baseline where
  pr := createDefaultRegistry
  detectors := deployedDetectors root log10

/-- The service, before anything is in the stream. -/
def deployed : Pipeline Extracted Baseline where
  worker := deployedWorker root log10
  config := startConfig
  codec := jsonCodec
  data _ := []

end

end Cepheus.Argus
