import Cepheus.Common.Publish
import Cepheus.Common.Types
import Cepheus.Processor.Delivery

/-!
# The consumers

`Start` and `publishMeasurement` of `services/stamp-processor/processor.go` and of
`services/ping-processor/processor.go`: a report is decoded, its measurement is published for argus,
and then it is put into the channel of the flusher. A report that cannot be decoded or whose event
cannot be published is rejected, and is delivered again. A panic ends the process.

The attempts to publish an event are moves of their own; the flusher goes on in between, and the
stream goes on delivering.
-/

namespace Cepheus.Processor

open Infra Common TraceProcessor

variable {M P : Type}

/-- What comes of a report. -/
inductive Decoded (M P : Type) where
  | rejected
  | panics
  /-- The rows, and the event for argus. -/
  | built (measurement : M) (probes : List P) (event : Message)

/-- What comes of the report whose event is being published. -/
structure Publishing (M P : Type) where
  measurement : M
  probes : List P
  event : Outgoing

/-- Where the loop over the reports is: at the first of those that have been fetched. -/
inductive Stage (M P : Type) where
  | fetching
  | publishing (p : Publishing M P)
  /-- At the `select` behind `publishMeasurement`. -/
  | handing (p : Publishing M P)

structure Consumer (M P : Type) where
  stage : Stage M P
  subscription : Subscription
  ingest : Ingest M P

namespace Consumer

inductive Move where
  /-- The process fetches a report. -/
  | deliver (report : Nat)
  /-- The next report is decoded. -/
  | take
  /-- The next attempt to publish its event. -/
  | attempt (reply : Reply)
  /-- The report is put into the channel. -/
  | hand
  /-- The flusher takes a report out of the channel. -/
  | receive (faults : Faults) (fate : Fate)
  | tick (faults : Faults) (fate : Fate)
  | crash
  /-- The server has not been asked for reports. -/
  | lapse

def start : Consumer M P := { stage := .fetching, subscription := {}, ingest := {} }

/-- A process that has died is started again. -/
def restart (s : Consumer M P) (stored : Nat) (ingest : Ingest M P) : Consumer M P where
  stage := .fetching
  subscription := s.subscription.restart stored
  ingest := ingest

def survive (s : Consumer M P) (stored : Nat) (fate : Fate) (ingest : Ingest M P) :
    Consumer M P :=
  if fate.dies = none then { s with ingest } else s.restart stored ingest

/-- One step of a processor, and the messages that it stores. There are `stored` reports in the
stream, `decoded` is what comes of the report with a number, and `kept` what the columns keep. -/
def step (kept : M → M)
    (runFlusher : Faults → Nat → Flusher M P → Event M P → Flusher M P × List (Effect M P))
    (stored : Nat) (decoded : Nat → Decoded M P) (s : Consumer M P) :
    Move → Consumer M P × List Message
  | .deliver report =>
    if s.subscription.Delivers stored report then
      ({ s with ingest := s.ingest.step kept runFlusher (.deliver report) }, [])
    else (s, [])
  | .take =>
    match s.stage, s.ingest.intake.fetched with
    | .fetching, msg :: _ =>
      match decoded msg.report with
      | .rejected => ({ s with ingest := s.ingest.step kept runFlusher .reject }, [])
      | .panics => (s.restart stored (s.ingest.step kept runFlusher .crash), [])
      | .built measurement probes event =>
        ({ s with stage := .publishing { measurement, probes, event := event.outgoing } }, [])
    | _, _ => (s, [])
  | .attempt reply =>
    match s.stage with
    | .publishing p =>
      match p.event.attempt reply with
      | .answered => ({ s with stage := .handing p }, p.event.stored reply)
      | .again event => ({ s with stage := .publishing { p with event } }, p.event.stored reply)
      | .failed =>
        ({ s with stage := .fetching, ingest := s.ingest.step kept runFlusher .reject },
          p.event.stored reply)
    | _ => (s, [])
  | .hand =>
    match s.stage with
    | .handing p =>
      if s.ingest.HasRoom then
        ({ s with
           stage := .fetching
           ingest := s.ingest.step kept runFlusher (.hand p.measurement p.probes) }, [])
      else (s, [])
    | _ => (s, [])
  | .receive faults fate =>
    if s.ingest.pending.isEmpty then (s, [])
    else (s.survive stored fate (s.ingest.step kept runFlusher (.receive faults fate)), [])
  | .tick faults fate =>
    (s.survive stored fate (s.ingest.step kept runFlusher (.tick faults fate)), [])
  | .crash => (s.restart stored (s.ingest.step kept runFlusher .crash), [])
  | .lapse => ({ s with subscription := s.subscription.lapse }, [])

end Consumer

/-- `publishMeasurement`, up to `retry.Do`. -/
def eventMessage (zone : Time → Rfc3339.Zone) (e : Common.Event) (subject : String) :
    Option Message :=
  (e.marshal zone).map fun json => { subject, text := json.print }

end Cepheus.Processor

namespace Cepheus.StampProcessor

open Infra Common Processor

/-- What the columns of `stamp_measurements` keep: a `TIMESTAMPTZ` has microseconds. -/
def kept {U : Type} (m : InsertStampMeasurementParams U) : InsertStampMeasurementParams U :=
  { m with timestamp := Time.micros m.timestamp }

variable {U : Type} (zone : Time → Rfc3339.Zone) (parseFloat : Json.Number → Option ℚ)
  (parseUUID : String → Option U)

/-- The event of a measurement. -/
def event (serialId : String) (data : StampData) (metrics : Argus.StampMetrics) : Common.Event where
  type := .stamp
  serialID := serialId
  target := data.target
  port := int32 data.port
  src := ""
  timestamp := data.timestamp
  metrics := .value (marshalStampMetrics metrics)

/-- A report, up to `publishMeasurement`. The data are written once more before they are read. -/
def decode (text : List Char) :
    Decoded (InsertStampMeasurementParams U) InsertStampProbesParams :=
  match (Json.parse text).bind ReportPayload.unmarshal with
  | none => .rejected
  | some payload =>
    if payload.payload.probeType ≠ .stamp then .rejected
    else
      match payload.payload.data.marshal.bind (unmarshalStampData parseFloat) with
      | none => .rejected
      | some data =>
        match buildStamp parseUUID payload.serialID (some payload.agentConfigId) data with
        | none => .panics
        | some (measurement, probes, metrics) =>
          match eventMessage zone (event payload.serialID data metrics)
              ("cepheus.measurement.stamp." ++ payload.serialID) with
          | none => .rejected
          | some message => .built measurement probes message

end Cepheus.StampProcessor

namespace Cepheus.PingProcessor

open Infra Common Processor

/-- What the columns of `ping_measurements` keep: a `TIMESTAMPTZ` has microseconds. -/
def kept {U : Type} (m : InsertPingMeasurementParams U) : InsertPingMeasurementParams U :=
  { m with timestamp := Time.micros m.timestamp }

variable {U : Type} (zone : Time → Rfc3339.Zone) (parseFloat : Json.Number → Option ℚ)
  (parseUUID : String → Option U)

/-- The event of a measurement. -/
def event (serialId : String) (timestamp : Time) (data : PingDataPayload)
    (metrics : Argus.PingMetrics) : Common.Event where
  type := .ping
  serialID := serialId
  target := data.dst
  port := 0
  src := ""
  timestamp := timestamp
  metrics := .value (marshalPingMetrics metrics)

/-- A report, up to `publishMeasurement`. -/
def decode (text : List Char) :
    Decoded (InsertPingMeasurementParams U) InsertPingProbesParams :=
  match (Json.parse text).bind ReportPayload.unmarshal with
  | none => .rejected
  | some payload =>
    if payload.payload.probeType ≠ .ping then .rejected
    else
      match payload.payload.data.unmarshal.bind (unmarshalPingData parseFloat) with
      | none => .rejected
      | some data =>
        match buildPing parseUUID payload.serialID (some payload.agentConfigId)
            payload.payload.timestamp data with
        | none => .panics
        | some (measurement, probes, metrics) =>
          match eventMessage zone
              (event payload.serialID payload.payload.timestamp data metrics)
              ("cepheus.measurement.ping." ++ payload.serialID) with
          | none => .rejected
          | some message => .built measurement probes message

end Cepheus.PingProcessor
