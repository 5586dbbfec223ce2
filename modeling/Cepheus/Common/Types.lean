import Cepheus.Infra.Base64
import Cepheus.Infra.JsonStruct
import Cepheus.Argus.Registry
import Cepheus.Processor.Build
import Cepheus.TraceProcessor.Process

/-!
# The messages between the services

`libs/common/types.go`: what the agents send to the processors and these to argus, and how
`encoding/json` writes and reads it. Here a message is a JSON value; `none` is an error. Every error
is the same to the callers, so they are not told apart.

A time is written in the zone that it was made in, which is an argument. Numbers of type `float64`
are rationals; how they are written and read is an argument too.

An array that occurs twice in an object is read from the last occurrence alone. (Go fills elements
again that it has read before.)
-/

namespace Cepheus.Argus.ProbeType

/-- The text of a `common.ProbeType`. -/
def text : ProbeType → String
  | stamp => "stamp"
  | trace => "trace"
  | ping => "ping"
  | other text => text

def ofText (s : String) : ProbeType :=
  if s = "stamp" then stamp
  else if s = "trace" then trace
  else if s = "ping" then ping
  else other s

/-- There is one value for each text. -/
def Proper (t : ProbeType) : Prop := ofText t.text = t

instance (t : ProbeType) : Decidable t.Proper := inferInstanceAs (Decidable (_ = _))

end Cepheus.Argus.ProbeType

namespace Cepheus.Common

open Infra

/-- `json.RawMessage`, with what its text means. -/
inductive RawMessage where
  /-- There is no text. -/
  | nil
  | value (json : Json)
  /-- The text is not that of a JSON value. -/
  | malformed

namespace RawMessage

/-- It is written as it is, and as `null` if there is none. -/
def marshal : RawMessage → Option Json
  | nil => some .null
  | value json => some json
  | malformed => none

/-- `json.Unmarshal` of its text. -/
def unmarshal : RawMessage → Option Json
  | value json => some json
  | _ => none

/-- A field of this type takes any value, also `null`. -/
def field : String → List (String × Json) → Option RawMessage :=
  Json.collect (fun _ json => some (value json)) nil

end RawMessage

/-- A field of type `float64`. -/
def realField (parseFloat : Json.Number → Option ℚ) : String → List (String × Json) → Option ℚ :=
  Json.field (fun | .number n => parseFloat n | _ => none) 0

/-- An element that is a struct. -/
def element {α : Type} (decode : List (String × Json) → Option α) (json : Json) : Option α :=
  json.members.bind decode

/-- A field of type `[]string`. -/
def stringsField : String → List (String × Json) → Option (List String) :=
  Json.arrayField fun
    | .null => some ""
    | .string s => some s
    | _ => none

/-! ## Reports -/

structure ProbeResult where
  taskID : String
  probeType : Argus.ProbeType
  kind : String
  timestamp : Time
  data : RawMessage

structure ReportPayload where
  payload : ProbeResult
  serialID : String
  sentTimestamp : Time
  agentConfigId : String

section

variable (zone : Time → Rfc3339.Zone)

def ProbeResult.marshal (r : ProbeResult) : Option Json := do
  let timestamp ← Json.ofTime (zone r.timestamp) r.timestamp
  let data ← r.data.marshal
  return .object [("task_id", .string r.taskID), ("probe_type", .string r.probeType.text),
    ("kind", .string r.kind), ("timestamp", timestamp), ("data", data)]

def ReportPayload.marshal (p : ReportPayload) : Option Json := do
  let payload ← p.payload.marshal zone
  let sentTimestamp ← Json.ofTime (zone p.sentTimestamp) p.sentTimestamp
  return .object [("payload", payload), ("serial_id", .string p.serialID),
    ("sent_timestamp", sentTimestamp), ("agent_config_id", .string p.agentConfigId)]

end

def ProbeResult.unmarshal (members : List (String × Json)) : Option ProbeResult := do
  let taskID ← Json.stringField "task_id" members
  let probeType ← Json.stringField "probe_type" members
  let kind ← Json.stringField "kind" members
  let timestamp ← Json.timeField "timestamp" members
  let data ← RawMessage.field "data" members
  return { taskID, probeType := .ofText probeType, kind, timestamp, data }

def ReportPayload.unmarshal (json : Json) : Option ReportPayload := do
  let members ← json.members
  let payload ← (Json.nested "payload" members).bind ProbeResult.unmarshal
  let serialID ← Json.stringField "serial_id" members
  let sentTimestamp ← Json.timeField "sent_timestamp" members
  let agentConfigId ← Json.stringField "agent_config_id" members
  return { payload, serialID, sentTimestamp, agentConfigId }

/-! ## STAMP -/

section

open StampProcessor

/-- A field with `omitempty`. -/
def omitZero (name : String) (n : Int) : List (String × Json) :=
  if n = 0 then [] else [(name, .ofInt n)]

variable (zone : Time → Rfc3339.Zone) (formatFloat : ℚ → Json.Number)

/-- A time is never empty. -/
def marshalProbe (p : StampProbeData) : Option Json := do
  let tx ← Json.ofTime (zone p.tx) p.tx
  let rx ← Json.ofTime (zone p.rx) p.rx
  return .object ([("tx", tx), ("is_lost", .bool p.isLost), ("rx", rx)] ++ omitZero "rtt" p.rtt ++
    omitZero "forward_delay" p.forwardDelay ++ omitZero "backward_delay" p.backwardDelay)

def marshalStampData (d : StampData) : Option Json := do
  let probes ← d.probes.mapM (marshalProbe zone)
  let timestamp ← Json.ofTime (zone d.timestamp) d.timestamp
  return .object [("target", .string d.target), ("port", .ofInt d.port), ("sent", .ofInt d.sent),
    ("received", .ofInt d.received), ("loss", .number (formatFloat d.loss)),
    ("probes", .array probes), ("timestamp", timestamp)]

variable (parseFloat : Json.Number → Option ℚ)

def unmarshalProbe (members : List (String × Json)) : Option StampProbeData := do
  let tx ← Json.timeField "tx" members
  let isLost ← Json.boolField "is_lost" members
  let rx ← Json.timeField "rx" members
  let rtt ← Json.intField "rtt" members
  let forwardDelay ← Json.intField "forward_delay" members
  let backwardDelay ← Json.intField "backward_delay" members
  return {
    tx
    isLost
    rx
    rtt := rtt.toInt
    forwardDelay := forwardDelay.toInt
    backwardDelay := backwardDelay.toInt }

def unmarshalStampData (json : Json) : Option StampData := do
  let members ← json.members
  let target ← Json.stringField "target" members
  let port ← Json.intField "port" members
  let sent ← Json.intField "sent" members
  let received ← Json.intField "received" members
  let loss ← realField parseFloat "loss" members
  let probes ← Json.arrayField (element unmarshalProbe) "probes" members
  let timestamp ← Json.timeField "timestamp" members
  return {
    target
    port := port.toInt
    sent := sent.toInt
    received := received.toInt
    loss
    probes
    timestamp }

end

/-! ## Ping -/

section

open PingProcessor

variable (parseFloat : Json.Number → Option ℚ)

def unmarshalTimeval (members : List (String × Json)) : Option Timeval := do
  let sec ← Json.intField "sec" members
  let usec ← Json.intField "usec" members
  return { sec := sec.toInt, usec := usec.toInt }

def unmarshalResponse (members : List (String × Json)) : Option Response := do
  Json.stringFields ["from", "reply_proto", "ifname"] members
  Json.intFields ["reply_size", "reply_ttl", "icmp_id", "icmp_seq", "probe_ipid", "reply_ipid",
    "reply_tos", "icmp_type", "icmp_code"] members
  let seq ← Json.intField "seq" members
  let tx ← (Json.nested "tx" members).bind unmarshalTimeval
  let rx ← (Json.nested "rx" members).bind unmarshalTimeval
  let rtt ← realField parseFloat "rtt" members
  return { seq := seq.toInt, tx, rx, rtt }

def unmarshalStatistics (members : List (String × Json)) : Option Statistics := do
  let replies ← Json.intField "replies" members
  let _ ← realField parseFloat "loss" members
  let min ← realField parseFloat "min" members
  let max ← realField parseFloat "max" members
  let avg ← realField parseFloat "avg" members
  let stddev ← realField parseFloat "stddev" members
  return { replies := replies.toInt, min, max, avg, stddev }

/-- The fields that are not used have to be of the right type too. -/
def unmarshalPingData (json : Json) : Option PingDataPayload := do
  let members ← json.members
  Json.stringFields ["type", "version", "method", "src", "stop_reason"] members
  Json.intFields ["stop_data", "probe_size", "userid", "ttl", "tos", "wait", "timeout"] members
  let _ ← (Json.nested "start" members).bind unmarshalTimeval
  let _ ← Json.arrayField some "no_responses" members
  let dst ← Json.stringField "dst" members
  let pingSent ← Json.intField "ping_sent" members
  let responses ← Json.arrayField (element (unmarshalResponse parseFloat)) "responses" members
  let statistics ← (Json.nested "statistics" members).bind (unmarshalStatistics parseFloat)
  return { dst, pingSent := pingSent.toInt, responses, statistics }

end

/-! ## Traces -/

section

open TraceProcessor

/-- `TraceData`. -/
structure TraceData where
  type : String
  method : String
  format : String
  data : List UInt8
deriving DecidableEq, Repr

def TraceData.marshal (d : TraceData) : Json :=
  .object [("type", .string d.type), ("method", .string d.method), ("format", .string d.format),
    ("data", .string (String.ofList (Base64.encode d.data)))]

/-- A field of type `[]byte`. -/
def bytesField : String → List (String × Json) → Option (List UInt8) :=
  Json.collect
    (fun _ json =>
      match json with
      | .null => some []
      | .string s => Base64.decode s.toList
      | _ => none)
    []

def TraceData.unmarshal (json : Json) : Option TraceData := do
  let members ← json.members
  let type ← Json.stringField "type" members
  let method ← Json.stringField "method" members
  let format ← Json.stringField "format" members
  let data ← bytesField "data" members
  return { type, method, format, data }

variable (parseFloat : Json.Number → Option ℚ)

def unmarshalHop (members : List (String × Json)) : Option Hop := do
  Json.intFields ["probe_size", "reply_tos", "reply_ipid", "reply_size", "icmp_q_ttl", "icmp_q_ipl",
    "icmp_q_tos"] members
  let _ ← (Json.nested "tx" members).bind unmarshalTimeval
  let _ ← stringsField "flags" members
  let addr ← Json.stringField "addr" members
  let probeTTL ← Json.intField "probe_ttl" members
  let probeID ← Json.intField "probe_id" members
  let rtt ← realField parseFloat "rtt" members
  let replyTTL ← Json.intField "reply_ttl" members
  let icmpType ← Json.intField "icmp_type" members
  let icmpCode ← Json.intField "icmp_code" members
  return {
    addr
    probeTTL := probeTTL.toInt
    probeID := probeID.toInt
    rtt
    replyTTL := replyTTL.toInt
    icmpType := icmpType.toInt
    icmpCode := icmpCode.toInt }

def unmarshalNoHop (members : List (String × Json)) : Option NoHop := do
  let _ ← Json.intField "probe_size" members
  let _ ← (Json.nested "tx" members).bind unmarshalTimeval
  let probeTTL ← Json.intField "probe_ttl" members
  let probeID ← Json.intField "probe_id" members
  return { probeTTL := probeTTL.toInt, probeID := probeID.toInt }

/-- `TraceDataTracePayload`. -/
def unmarshalTrace (json : Json) : Option Trace := do
  let members ← json.members
  Json.stringFields ["type", "version", "method"] members
  Json.intFields ["userid", "icmp_sum", "stop_data", "attempts", "hoplimit", "firsthop", "wait",
    "wait_probe", "tos", "probe_size", "probe_count"] members
  let start ← Json.nested "start" members
  Json.intFields ["sec", "usec"] start
  Json.stringFields ["ftime"] start
  let _ ← stringsField "flags" members
  let src ← Json.stringField "src" members
  let dst ← Json.stringField "dst" members
  let stopReason ← Json.stringField "stop_reason" members
  let hopCount ← Json.intField "hop_count" members
  let hops ← Json.arrayField (element (unmarshalHop parseFloat)) "hops" members
  let noHops ← Json.arrayField (element unmarshalNoHop) "no_hops" members
  return { hops, noHops, src, dst, stopReason, hopCount := hopCount.toInt }

end

/-! ## Measurements -/

section

open Argus

def marshalPingMetrics (m : PingMetrics) : Json :=
  .object [("rtt_p95_ns", .ofInt m.rttP95Ns), ("sent", .ofInt m.sent),
    ("received", .ofInt m.received)]

def unmarshalPingMetrics (json : Json) : Option PingMetrics := do
  let members ← json.members
  let rttP95Ns ← Json.intField "rtt_p95_ns" members
  let sent ← Json.intField "sent" members
  let received ← Json.intField "received" members
  return { rttP95Ns := rttP95Ns.toInt, sent := sent.toInt, received := received.toInt }

def marshalStampMetrics (m : StampMetrics) : Json :=
  .object [("rtt_p95_ns", .ofInt m.rttP95Ns), ("fwd_p95_ns", .ofInt m.fwdP95Ns),
    ("bwd_p95_ns", .ofInt m.bwdP95Ns), ("sent", .ofInt m.sent), ("received", .ofInt m.received)]

def unmarshalStampMetrics (json : Json) : Option StampMetrics := do
  let members ← json.members
  let rttP95Ns ← Json.intField "rtt_p95_ns" members
  let fwdP95Ns ← Json.intField "fwd_p95_ns" members
  let bwdP95Ns ← Json.intField "bwd_p95_ns" members
  let sent ← Json.intField "sent" members
  let received ← Json.intField "received" members
  return {
    rttP95Ns := rttP95Ns.toInt
    fwdP95Ns := fwdP95Ns.toInt
    bwdP95Ns := bwdP95Ns.toInt
    sent := sent.toInt
    received := received.toInt }

def marshalTraceMetrics (m : TraceMetrics) : Json :=
  .object [("asn_path_hash", .string m.asnPathHash), ("link_path_hash", .string m.linkPathHash)]

def unmarshalTraceMetrics (json : Json) : Option TraceMetrics := do
  let members ← json.members
  let asnPathHash ← Json.stringField "asn_path_hash" members
  let linkPathHash ← Json.stringField "link_path_hash" members
  return { asnPathHash, linkPathHash }

/-- `MeasurementEvent`. -/
structure Event where
  type : ProbeType
  serialID : String
  target : String
  port : Int
  src : String
  timestamp : Time
  metrics : RawMessage

def Event.marshal (zone : Time → Rfc3339.Zone) (e : Event) : Option Json := do
  let timestamp ← Json.ofTime (zone e.timestamp) e.timestamp
  let metrics ← e.metrics.marshal
  return .object ([("type", .string e.type.text), ("serial_id", .string e.serialID),
      ("target", .string e.target)] ++ omitZero "port" e.port ++
    (if e.src = "" then [] else [("src", .string e.src)]) ++
    [("timestamp", timestamp), ("metrics", metrics)])

def Event.unmarshal (json : Json) : Option Event := do
  let members ← json.members
  let type ← Json.stringField "type" members
  let serialID ← Json.stringField "serial_id" members
  let target ← Json.stringField "target" members
  let port ← Json.int32Field "port" members
  let src ← Json.stringField "src" members
  let timestamp ← Json.timeField "timestamp" members
  let metrics ← RawMessage.field "metrics" members
  return { type := .ofText type, serialID, target, port, src, timestamp, metrics }

end

end Cepheus.Common
