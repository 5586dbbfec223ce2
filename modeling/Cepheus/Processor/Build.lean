import Cepheus.Argus.Registry
import Cepheus.Processor.Stats

/-!
# From a report to its rows and metrics

`buildStamp` of `services/stamp-processor/processor.go` and `buildPing` of
`services/ping-processor/processor.go`: the row of the measurement, the rows of its probes, and the
metrics that are published for argus.

A column that is not `Valid` is `NULL`, here `none`. The id of the measurement is filled in later,
when the rows are stored. `uuid.Parse` is a parameter: the id it gives for a text, if it accepts it.
The result `none` is a panic: an index out of range, or a nil pointer that is dereferenced.
-/

namespace Cepheus.Processor

variable {U : Type} (parseUUID : String → Option U)

/-- `*parsedAgentConfigId`. What `uuid.Parse` rejects is logged, and leaves a nil pointer. -/
def agentConfigID : Option String → Option (Option U)
  | none => some none
  | some s => (parseUUID s).map some

end Cepheus.Processor

namespace Cepheus.StampProcessor

open Infra Processor

/-- `common.StampProbeData`. -/
structure StampProbeData where
  tx : Time
  isLost : Bool
  rx : Time
  rtt : Duration
  forwardDelay : Duration
  backwardDelay : Duration
deriving DecidableEq, Repr

/-- `common.StampData`. -/
structure StampData where
  target : String
  port : Int
  sent : Int
  received : Int
  loss : ℚ
  probes : List StampProbeData
  timestamp : Time
deriving DecidableEq, Repr

/-- `InsertStampMeasurementParams`. -/
structure InsertStampMeasurementParams (U : Type) where
  timestamp : Time
  serialID : String
  agentConfigID : Option U
  target : String
  port : Int
  sent : Int
  received : Int
  loss : ℚ
  rttP95Ns : Int
  bwdP95Ns : Int
  fwdP95Ns : Int
deriving DecidableEq, Repr

/-- `InsertStampProbesParams`. -/
structure InsertStampProbesParams where
  tx : Time
  isLost : Bool
  rx : Option Time
  rtt : Option Int
  forwardDelay : Option Int
  backwardDelay : Option Int
deriving DecidableEq, Repr

/-- A column that is `NULL` for a probe without an answer. -/
def StampProbeData.answered {α : Type} (probe : StampProbeData) (a : α) : Option α :=
  if probe.isLost then none else some a

/-- The row of a probe. -/
def StampProbeData.row (probe : StampProbeData) : InsertStampProbesParams where
  tx := probe.tx
  isLost := probe.isLost
  rx := probe.answered probe.rx
  rtt := probe.answered probe.rtt
  forwardDelay := probe.answered probe.forwardDelay
  backwardDelay := probe.answered probe.backwardDelay

/-- The probes with an answer. -/
def StampData.replies (data : StampData) : List StampProbeData :=
  data.probes.filter fun probe => !probe.isLost

def buildStamp {U : Type} (parseUUID : String → Option U) (serialId : String)
    (agentConfigId : Option String) (data : StampData) :
    Option (InsertStampMeasurementParams U × List InsertStampProbesParams ×
      Argus.StampMetrics) := do
  let rttStats ← computeStats (data.replies.map StampProbeData.rtt)
  let fwdStats ← computeStats (data.replies.map StampProbeData.forwardDelay)
  let bwdStats ← computeStats (data.replies.map StampProbeData.backwardDelay)
  let agentConfigID ← agentConfigID parseUUID agentConfigId
  let measurement :=
    { timestamp := data.timestamp
      serialID := serialId
      agentConfigID
      target := data.target
      port := int32 data.port
      sent := int32 data.sent
      received := int32 data.received
      loss := data.loss
      rttP95Ns := rttStats.p95
      fwdP95Ns := fwdStats.p95
      bwdP95Ns := bwdStats.p95 }
  let metrics :=
    { rttP95Ns := rttStats.p95
      fwdP95Ns := fwdStats.p95
      bwdP95Ns := bwdStats.p95
      sent := data.sent
      received := data.received }
  some (measurement, data.probes.map StampProbeData.row, metrics)

end Cepheus.StampProcessor

namespace Cepheus.PingProcessor

open Infra Processor

/-- The times in a report of scamper. -/
structure Timeval where
  sec : Int
  usec : Int
deriving DecidableEq, Repr

/-- An element of `Responses`, with what is read of it. The round trip is in milliseconds. -/
structure Response where
  seq : Int
  tx : Timeval
  rx : Timeval
  rtt : ℚ
deriving DecidableEq, Repr

/-- `Statistics`, with what is read of it. The times are in milliseconds. -/
structure Statistics where
  replies : Int
  min : ℚ
  max : ℚ
  avg : ℚ
  stddev : ℚ
deriving DecidableEq, Repr

/-- `common.PingDataPayload`, with what is read of it. -/
structure PingDataPayload where
  dst : String
  pingSent : Int
  responses : List Response
  statistics : Statistics
deriving DecidableEq, Repr

/-- `InsertPingMeasurementParams`. -/
structure InsertPingMeasurementParams (U : Type) where
  timestamp : Time
  serialID : String
  agentConfigID : Option U
  target : String
  sent : Int
  received : Int
  loss : ℚ
  rttMinNs : Int
  rttAvgNs : Int
  rttMaxNs : Int
  rttP50Ns : Int
  rttP95Ns : Int
  rttStddevNs : Int
deriving DecidableEq, Repr

/-- `InsertPingProbesParams`. -/
structure InsertPingProbesParams where
  tx : Time
  rx : Option Time
  isLost : Bool
  seq : Option Int
  rtt : Option Int
deriving DecidableEq, Repr

def msToDuration (ms : ℚ) : Duration := truncate (ms * 1000000)

def Timeval.time (t : Timeval) : Time := Time.ofUnix t.sec (int64 (t.usec * 1000))

/-- The row of an answer. -/
def Response.row (r : Response) : InsertPingProbesParams where
  tx := r.tx.time
  rx := some r.rx.time
  isLost := false
  seq := some (int32 r.seq)
  rtt := some (msToDuration r.rtt)

/-- The row of a probe without an answer. Scamper does not report when it was sent. -/
def lostRow (timestamp : Time) : InsertPingProbesParams where
  tx := timestamp
  rx := none
  isLost := true
  seq := none
  rtt := none

def buildPing {U : Type} (parseUUID : String → Option U) (serialId : String)
    (agentConfigId : Option String) (timestamp : Time) (data : PingDataPayload) :
    Option (InsertPingMeasurementParams U × List InsertPingProbesParams × Argus.PingMetrics) := do
  let stats ← computeStats (data.responses.map fun r => msToDuration r.rtt)
  let sent := int32 data.pingSent
  let received := int32 data.statistics.replies
  let loss : ℚ := if 0 < sent then 1 - received / sent else 0
  let agentConfigID ← agentConfigID parseUUID agentConfigId
  let measurement :=
    { timestamp
      serialID := serialId
      agentConfigID
      target := data.dst
      sent
      received
      loss
      rttMinNs := msToDuration data.statistics.min
      rttAvgNs := msToDuration data.statistics.avg
      rttMaxNs := msToDuration data.statistics.max
      rttP50Ns := stats.p50
      rttP95Ns := stats.p95
      rttStddevNs := msToDuration data.statistics.stddev }
  let lostCount := int32 (sent - received)
  let probeRows :=
    data.responses.map Response.row ++ List.replicate lostCount.toNat (lostRow timestamp)
  let metrics := { rttP95Ns := stats.p95, sent, received }
  some (measurement, probeRows, metrics)

end Cepheus.PingProcessor
