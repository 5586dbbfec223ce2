import Cepheus.Common.Publish
import Cepheus.Common.Types
import Cepheus.Infra.Utf8
import Cepheus.Processor.Delivery

/-!
# The consumer of traces

`Start` of `services/trace-processor/processor.go`: a report is decoded and processed, and then
acknowledged or rejected. Here a report is one step: nothing else reads what is written in between,
except for the events that are published.
-/

namespace Cepheus.TraceProcessor

open Infra Common Processor

variable {A U : Type}

/-- What comes of a report. -/
inductive Decoded where
  | rejected
  /-- It is of type `tracelb`, which is not implemented. -/
  | skipped
  | trace (report : Report)

def decode (parseFloat : Json.Number → Option ℚ) (text : List Char) : Decoded :=
  match (Json.parse text).bind ReportPayload.unmarshal with
  | none => .rejected
  | some payload =>
    if payload.payload.probeType ≠ .trace then .rejected
    else
      match payload.payload.data.unmarshal.bind TraceData.unmarshal with
      | none => .rejected
      | some data =>
        if data.format ≠ "json" then .rejected
        else if data.type = "trace" then
          .trace
            { serialId := payload.serialID
              agentConfigId := payload.agentConfigId
              timestamp := payload.payload.timestamp
              type := data.type
              method := data.method
              raw := data.data
              data := ((ofUtf8 data.data).bind Json.parse).bind (unmarshalTrace parseFloat) }
        else if data.type = "tracelb" then .skipped
        else .rejected

/-- `common.MeasurementEvent` for a trace. -/
def TraceEvent.event (e : TraceEvent) : Common.Event where
  type := .trace
  serialID := e.serialID
  target := e.target
  port := 0
  src := e.src
  timestamp := e.timestamp
  metrics := .value (marshalTraceMetrics
    { asnPathHash := e.asnPathHash, linkPathHash := e.linkPathHash })

/-- The message of an event. -/
def TraceEvent.message (zone : Time → Rfc3339.Zone) (e : TraceEvent) : Option Message :=
  (e.event.marshal zone).map fun json =>
    { subject := "cepheus.measurement.trace." ++ e.serialID, text := json.print }

/-- What the columns keep: a `TIMESTAMPTZ` has microseconds, an `INET` has no zone, and a `JSONB` is
not the text that was written. -/
def TraceRows.kept (netip : Netip A) (jsonb : List UInt8 → List UInt8) (rows : TraceRows A U) :
    TraceRows A U :=
  { rows with
    measurement :=
      { rows.measurement with
        timestamp := Time.micros rows.measurement.timestamp
        src := netip.withoutZone rows.measurement.src
        dst := netip.withoutZone rows.measurement.dst
        raw := jsonb rows.measurement.raw }
    hops := rows.hops.map fun hop =>
      { hop with timestamp := Time.micros hop.timestamp, ip := hop.ip.map netip.withoutZone }
    links := rows.links.map fun link =>
      { link with
        timestamp := Time.micros link.timestamp
        srcIp := link.srcIp.map netip.withoutZone
        dstIp := link.dstIp.map netip.withoutZone } }

/-- The tables of the traces, and what the stream knows of their reports. -/
structure Tracer (A U : Type) where
  intake : Intake (TraceRows A U)
  subscription : Subscription
  asDetails : Table A AsDetails

def Tracer.start : Tracer A U := { intake := {}, subscription := {}, asDetails := ∅ }

/-- The effects of a report that has been processed. An error behind the commit leaves the rows. -/
def Processed.effects (p : Processed A U) (id : Nat) (msg : Msg) :
    List (Effect (TraceRows A U) Unit) :=
  (match p.committed with
    | none => []
    | some rows => [.committed { measurements := [{ id, msg, measurement := rows }] }]) ++
  [if p.error = none then .ack msg else .nak msg]

/-- A transaction that can write its event: `publishMeasurement` returns an error before its first
attempt if the time of the event cannot be written. -/
def Outside.writing (outside : Outside) (writes : Bool) : Outside :=
  { outside with publish := fun i => if writes then outside.publish i else .failed }

section

variable [DecidableEq A] (netip : Netip A) (jsonb : List UInt8 → List UInt8)
  (parseUUID : String → Option U) (zone : Time → Rfc3339.Zone)

/-- The effects of a report on the tables and on the stream, in which there are `stored` reports. A
process that has died is started again. -/
def Tracer.settle (s : Tracer A U) (stored : Nat) (fetched : List Msg) (fate : Fate)
    (effects : List (Effect (TraceRows A U) Unit)) : Tracer A U :=
  { s with
    intake := { s.intake with fetched }.settle (TraceRows.kept netip jsonb) fate effects
    subscription := if fate.dies = none then s.subscription else s.subscription.restart stored }

/-- A report that has been decoded, and the messages that are stored. -/
def Tracer.handle (s : Tracer A U) (stored : Nat) (msg : Msg) (fetched : List Msg) (fate : Fate)
    (outside : Outside) (rt : Runtime) : Decoded → Tracer A U × List Message
  | .rejected => (s.settle netip jsonb stored fetched fate [.nak msg], [])
  | .skipped => (s.settle netip jsonb stored fetched fate [.ack msg], [])
  | .trace data =>
    let outside := outside.writing (Rfc3339.format (zone data.timestamp) data.timestamp).isSome
    let processed := processNormalTrace netip parseUUID outside rt s.asDetails data
    ({ s.settle netip jsonb stored fetched fate (processed.effects s.intake.nextID msg) with
       -- a process that dies before its first effect has not committed
       asDetails :=
         if fate.dies = some 0 then s.asDetails
         else (processed.committed.map (·.asDetails)).getD s.asDetails },
      processed.published.filterMap (TraceEvent.message zone))

inductive Tracer.Move where
  /-- The process fetches a report. -/
  | deliver (report : Nat)
  /-- The next report is dealt with. -/
  | take (outside : Outside) (rt : Runtime) (fate : Fate)
  | crash
  /-- The server has not been asked for reports. -/
  | lapse

/-- One step of the trace processor, and the messages that it stores. There are `stored` reports in
the stream, and `decoded` is what comes of the report with a number. -/
def Tracer.step (stored : Nat) (decoded : Nat → Decoded) (s : Tracer A U) :
    Tracer.Move → Tracer A U × List Message
  | .deliver report =>
    if s.subscription.Delivers stored report then
      ({ s with intake := s.intake.deliver report }, [])
    else (s, [])
  | .take outside rt fate =>
    match s.intake.fetched with
    | [] => (s, [])
    | msg :: fetched =>
      s.handle netip jsonb parseUUID zone stored msg fetched fate outside rt (decoded msg.report)
  | .crash =>
    ({ s with intake := s.intake.crash, subscription := s.subscription.restart stored }, [])
  | .lapse => ({ s with subscription := s.subscription.lapse }, [])

end

end Cepheus.TraceProcessor
