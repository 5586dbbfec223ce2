import Cepheus.Argus.Pipeline
import Cepheus.Common.Properties.Messages
import Cepheus.Common.Publish
import Cepheus.Infra.JsonRoundtrip
import Cepheus.Infra.Utf8

/-!
# The events that argus reads

The decoders of `encoding/json` for `common.MeasurementEvent` and for the metrics in it, and what
the router makes of an event that one of the processors has written.
-/

namespace Cepheus.Argus

open Infra Common

/-! ## Decoders -/

/-- `json.Unmarshal`. -/
def unmarshalText {α : Type} (unmarshal : Json → Option α) (data : List UInt8) : Option α :=
  ((ofUtf8 data).bind Json.parse).bind unmarshal

@[simp] theorem unmarshalText_print {α : Type} (unmarshal : Json → Option α) (json : Json) :
    unmarshalText unmarshal (utf8 json.print) = unmarshal json := by
  simp [unmarshalText, Json.parse_print]

/-- The text of a raw message. The code keeps it as it stands in the message around it, with the
blanks, which `json.Unmarshal` skips. -/
def metricsText : RawMessage → List UInt8
  | .value json => utf8 json.print
  | _ => []

def measurementEvent (e : Common.Event) : MeasurementEvent where
  type := e.type
  serialId := e.serialID
  target := e.target
  port := e.port
  src := e.src
  timestamp := e.timestamp
  metrics := metricsText e.metrics

def jsonCodec : Codec where
  event := unmarshalText fun json => (Event.unmarshal json).map measurementEvent
  ping := unmarshalText unmarshalPingMetrics
  stamp := unmarshalText unmarshalStampMetrics
  trace := unmarshalText unmarshalTraceMetrics

/-- The service, with the messages of a stream. -/
def Pipeline.reading {V S : Type} (q : Pipeline V S) (messages : List Message) : Pipeline V S :=
  { q with
    codec := jsonCodec
    data := fun id => (messages[id]?.map fun m => utf8 m.text).getD [] }

/-! ## Events -/

section

variable {V S : Type} {q : Pipeline V S} {messages : List Message} {id : MsgId} {m : Message}
  {zone : Time → Rfc3339.Zone} {e : Common.Event} {json : Json}

theorem Event.proper_type {series : DiscoveredSeries}
    (h : seriesFromEvent (measurementEvent e) = some series) : e.type.Proper := by
  cases htype : e.type with
  | other text => simp [seriesFromEvent, measurementEvent, htype] at h
  | _ => rfl

/-- An event is read as it was written. -/
theorem Pipeline.decode_reading (hid : messages[id]? = some m) (hm : m.text = json.print)
    (hjson : e.marshal zone = some json) (hport : -2147483648 ≤ e.port ∧ e.port < 2147483648)
    {metrics : Json} (hmetrics : e.metrics = .value metrics) {series : DiscoveredSeries}
    (hseries : seriesFromEvent (measurementEvent e) = some series) {row : Metrics}
    (hrow : jsonCodec.decodeMetrics (measurementEvent e) = some row) :
    (q.reading messages).decode id = some (series, { ts := e.timestamp, row }) := by
  have hread := Event.unmarshal_marshal hjson (Event.proper_type hseries) hport
  rw [show e.metrics.sent = e.metrics by rw [hmetrics]; rfl] at hread
  have hevent : (q.reading messages).codec.event ((q.reading messages).data id) =
      some (measurementEvent e) := by
    simp [Pipeline.reading, hid, hm, jsonCodec, hread]
  have hdecode : (q.reading messages).codec.decodeMetrics (measurementEvent e) = some row := hrow
  simp only [Pipeline.decode, hevent, hseries, hdecode]
  rfl

end

end Cepheus.Argus
