import Cepheus.Argus.Database

/-!
# Extractors and detectors

`services/argus/registry.go` and `types/detector.go`: which metrics a series has, how each is read
out of a measurement, and which detectors watch it.

The pipeline itself is not tied to any of them. Go writes `any` for the values between an extractor
and a detector and `json.RawMessage` for the state of a detector; here they are type variables `V`
and `S`, and `CreateDefaultRegistry` is one instance.
-/

namespace Cepheus.Argus

open Infra

/-! ## Measurements -/

/-- `common.PingMetrics`. -/
structure PingMetrics where
  rttP95Ns : Int
  sent : Int
  received : Int
deriving DecidableEq, Repr

/-- `common.StampMetrics`. -/
structure StampMetrics where
  rttP95Ns : Int
  fwdP95Ns : Int
  bwdP95Ns : Int
  sent : Int
  received : Int
deriving DecidableEq, Repr

/-- `common.TraceMetrics`. -/
structure TraceMetrics where
  asnPathHash : String
  linkPathHash : String
deriving DecidableEq, Repr

/-- The metrics of a measurement (`RawSample.Row`), with their dynamic type. -/
inductive Metrics
  | ping (m : PingMetrics)
  | stamp (m : StampMetrics)
  | trace (m : TraceMetrics)
deriving DecidableEq, Repr

/-- What `%T` prints. -/
def Metrics.typeName : Metrics → String
  | .ping _ => "common.PingMetrics"
  | .stamp _ => "common.StampMetrics"
  | .trace _ => "common.TraceMetrics"

/-! ## The interfaces -/

/-- How one metric is read, and who watches it. -/
structure Extractor (V : Type) where
  detectors : List DetectorType
  extract : Metrics → Except String V
  metricName : String

/-- The extractors of every kind of series; a kind without an entry has none. -/
structure PipelineRegistry (V : Type) where
  entries : SeriesType → List (Extractor V)

/-- `GetExtractors`. -/
def PipelineRegistry.getExtractors {V : Type} (p : PipelineRegistry V) (st : SeriesType) :
    List (Extractor V) := p.entries st

/--
`types.Detector`: fold one value into the baseline, and report what is odd about it.

The state is the JSON document of the baseline, `none` (a nil message) before the first sample. A
`jsonb` column keeps the document, though not its text.
-/
structure Detector (V S : Type) where
  step : Option S → Time → V → Except String (S × Option Finding)

/-- A finding with what its detector has to say about it (`types.Finding`). -/
structure DetailedFinding (D : Type) where
  finding : Finding
  details : D
deriving DecidableEq, Repr

/-! ## The default registry -/

/-- The argument of the beta-binomial detector. -/
structure LossSample where
  sent : Int
  received : Int
deriving DecidableEq, Repr

/-- The values that the default extractors return. `float64` is read as an exact rational. -/
inductive Extracted
  | float (x : ℚ)
  | loss (s : LossSample)
  | text (s : String)
deriving DecidableEq, Repr

/-- What `%T` prints. -/
def Extracted.typeName : Extracted → String
  | .float _ => "float64"
  | .loss _ => "argus.LossSample"
  | .text _ => "string"

/-- The error of an extractor that gets another probe's metrics. -/
def unexpected (want : String) (data : Metrics) : Except String Extracted :=
  .error ("expected " ++ want ++ ", got " ++ data.typeName)

/-- An extractor of STAMP measurements. -/
def extractStamp (f : StampMetrics → Extracted) : Metrics → Except String Extracted
  | .stamp m => .ok (f m)
  | data => unexpected "common.StampMetrics" data

/-- An extractor of ping measurements. -/
def extractPing (f : PingMetrics → Extracted) : Metrics → Except String Extracted
  | .ping m => .ok (f m)
  | data => unexpected "common.PingMetrics" data

/-- An extractor of trace measurements. -/
def extractTrace (f : TraceMetrics → Extracted) : Metrics → Except String Extracted
  | .trace m => .ok (f m)
  | data => unexpected "common.TraceMetrics" data

/-- `CreateDefaultRegistry`. -/
def createDefaultRegistry : PipelineRegistry Extracted where
  entries
    | .stamp =>
      [{ metricName := "fwd_p95_ns", extract := extractStamp fun m => .float m.fwdP95Ns
         detectors := [.ewma] },
       { metricName := "bwd_p95_ns", extract := extractStamp fun m => .float m.bwdP95Ns
         detectors := [.ewma] },
       { metricName := "rtt_p95_ns", extract := extractStamp fun m => .float m.rttP95Ns
         detectors := [.ewma] },
       { metricName := "loss", extract := extractStamp fun m => .loss ⟨m.sent, m.received⟩
         detectors := [.betaB] }]
    | .ping =>
      [{ metricName := "rtt_p95_ns", extract := extractPing fun m => .float m.rttP95Ns
         detectors := [.ewma] },
       { metricName := "packet_loss_percent"
         extract := extractPing fun m => .loss ⟨m.sent, m.received⟩
         detectors := [.betaB] }]
    | .trace =>
      [{ metricName := "asn_path_hash", extract := extractTrace fun m => .text m.asnPathHash
         detectors := [.freq] },
       { metricName := "link_path_hash", extract := extractTrace fun m => .text m.linkPathHash
         detectors := [.freq] }]
    | .other _ => []

end Cepheus.Argus
