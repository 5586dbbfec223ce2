import Cepheus.Argus.Messages
import Cepheus.DataPlane.Properties.Measured
import Cepheus.Processor.Properties.Quantiles

/-!
# What argus reads

Argus does not read the tables: it gets an event for each measurement, and the processors publish
that event before they store the row. Along every run the two agree. Each event can be read, and
it is about a result that an agent has measured; and for each row an event was published with the
same series and the same metrics, and with the time of the row, up to the microsecond.

The round trips of a ping are floats that become a `time.Duration`; that they are in range is an
assumption.
-/

namespace Cepheus.DataPlane

open Infra Common Agent Processor TraceProcessor

/-! ## Numbers -/

/-- A percentile is between two of the values. -/
theorem fitsInt64_p95 {values : List Duration} {stats : LatencyStats}
    (h : computeStats values = some stats) (hvalues : ∀ v ∈ values, FitsInt64 v) :
    FitsInt64 stats.p95 := by
  by_cases hne : values = []
  · subst hne
    obtain rfl := Option.some.inj h
    exact ⟨by decide, by decide⟩
  · rw [computeStats_eq hne] at h
    obtain rfl := Option.some.inj h
    obtain ⟨⟨low, hlow, hle⟩, high, hhigh, hge⟩ :=
      (isQuantile_quantile hne (p := 95 / 100) (by norm_num) (by norm_num)).exists_mem
    exact ⟨le_trans (hvalues low hlow).1 hle, lt_of_le_of_lt hge (hvalues high hhigh).2⟩

/-- The round trips of a ping are in range. -/
def PingFits (parseFloat : Json.Number → Option ℚ) (r : ProbeResult) : Prop :=
  r.probeType = .ping → ∀ data, r.data.marshal.bind (unmarshalPingData parseFloat) = some data →
    ∀ response ∈ data.responses, FitsInt64 (PingProcessor.msToDuration response.rtt)

/-! ## Series -/

/-- The series of a row. -/
def stampSeries {U : Type} (m : StampProcessor.InsertStampMeasurementParams U) :
    Argus.DiscoveredSeries :=
  { type := .stamp, serialId := m.serialID, target := m.target, port := m.port, src := "" }

def pingSeries {U : Type} (m : PingProcessor.InsertPingMeasurementParams U) :
    Argus.DiscoveredSeries :=
  { type := .ping, serialId := m.serialID, target := m.target, port := 0, src := "" }

def traceSeries {A U : Type} (netip : Netip A) (m : MeasurementParams A U) :
    Argus.DiscoveredSeries :=
  { type := .trace, serialId := m.serialID, target := netip.string m.dst, port := 0,
    src := netip.string m.src }

/-- The metrics of a row, as they are announced. The columns for the packets are narrower. -/
structure StampMetricsOf {U : Type} (m : StampProcessor.InsertStampMeasurementParams U)
    (metrics : Argus.StampMetrics) : Prop where
  rttP95Ns : metrics.rttP95Ns = m.rttP95Ns
  fwdP95Ns : metrics.fwdP95Ns = m.fwdP95Ns
  bwdP95Ns : metrics.bwdP95Ns = m.bwdP95Ns
  sent : int32 metrics.sent = m.sent
  received : int32 metrics.received = m.received

def pingMetricsOf {U : Type} (m : PingProcessor.InsertPingMeasurementParams U) :
    Argus.PingMetrics :=
  { rttP95Ns := m.rttP95Ns, sent := m.sent, received := m.received }

def traceMetricsOf {A U : Type} (m : MeasurementParams A U) : Argus.TraceMetrics :=
  { asnPathHash := m.asnPathHash, linkPathHash := m.linkPathHash }

/-! ## Events are read as they were written -/

section

variable {U V S : Type} {parseUUID : String → Option U} {q : Argus.Pipeline V S}
  {messages : List Message} {i : Argus.MsgId} {event : Message} {zone : Time → Rfc3339.Zone}
  {serialID subject : String} {id : Option String}

theorem decode_stamp {data : StampProcessor.StampData} (hdata : DataFits data)
    {m : StampProcessor.InsertStampMeasurementParams U}
    {probes : List StampProcessor.InsertStampProbesParams} {metrics : Argus.StampMetrics}
    (hbuild : StampProcessor.buildStamp parseUUID serialID id data = some (m, probes, metrics))
    (hevent : eventMessage zone (StampProcessor.event serialID data metrics) subject = some event)
    (hi : messages[i]? = some event) :
    StampMetricsOf m metrics ∧ (q.reading messages).decode i =
      some (stampSeries m, { ts := m.timestamp, row := .stamp metrics }) := by
  obtain ⟨json, hjson, rfl⟩ := Option.map_eq_some_iff.1 hevent
  simp only [StampProcessor.buildStamp, Option.bind_eq_bind, Option.bind_eq_some_iff,
    Option.some.injEq, Prod.mk.injEq] at hbuild
  obtain ⟨rtt, hrtt, fwd, hfwd, bwd, hbwd, uuid, -, rfl, -, rfl⟩ := hbuild
  have hreply : ∀ p ∈ data.replies, ProbeFits p :=
    fun p hp => hdata.probes p (List.mem_of_mem_filter hp)
  have hstats : ∀ {f : StampProcessor.StampProbeData → Duration} {stats : LatencyStats},
      computeStats (data.replies.map f) = some stats → (∀ p, ProbeFits p → FitsInt64 (f p)) →
      FitsInt64 stats.p95 := by
    intro f stats hstats hf
    refine fitsInt64_p95 hstats fun v hv => ?_
    obtain ⟨p, hp, rfl⟩ := List.mem_map.1 hv
    exact hf p (hreply p hp)
  have hread := unmarshalStampMetrics_marshal
    (m := { rttP95Ns := rtt.p95, fwdP95Ns := fwd.p95, bwdP95Ns := bwd.p95, sent := data.sent,
            received := data.received })
    (hstats hrtt fun p hp => hp.rtt) (hstats hfwd fun p hp => hp.forwardDelay)
    (hstats hbwd fun p hp => hp.backwardDelay) hdata.sent hdata.received
  refine ⟨⟨rfl, rfl, rfl, rfl, rfl⟩, ?_⟩
  refine Argus.Pipeline.decode_reading hi rfl hjson (int32_bounds data.port) rfl rfl ?_
  simp [Argus.Codec.decodeMetrics, Argus.measurementEvent, StampProcessor.event, Argus.jsonCodec,
    Argus.metricsText, hread]

theorem decode_ping {timestamp : Time} {data : PingProcessor.PingDataPayload}
    (hdata : ∀ r ∈ data.responses, FitsInt64 (PingProcessor.msToDuration r.rtt))
    {m : PingProcessor.InsertPingMeasurementParams U}
    {probes : List PingProcessor.InsertPingProbesParams} {metrics : Argus.PingMetrics}
    (hbuild : PingProcessor.buildPing parseUUID serialID id timestamp data =
      some (m, probes, metrics))
    (hevent : eventMessage zone (PingProcessor.event serialID timestamp data metrics) subject =
      some event)
    (hi : messages[i]? = some event) :
    metrics = pingMetricsOf m ∧ (q.reading messages).decode i =
      some (pingSeries m, { ts := m.timestamp, row := .ping metrics }) := by
  obtain ⟨json, hjson, rfl⟩ := Option.map_eq_some_iff.1 hevent
  simp only [PingProcessor.buildPing, Option.bind_eq_bind, Option.bind_eq_some_iff,
    Option.some.injEq, Prod.mk.injEq] at hbuild
  obtain ⟨stats, hstats, uuid, -, rfl, -, rfl⟩ := hbuild
  have hp95 : FitsInt64 stats.p95 := by
    refine fitsInt64_p95 hstats fun v hv => ?_
    obtain ⟨r, hr, rfl⟩ := List.mem_map.1 hv
    exact hdata r hr
  have hread := unmarshalPingMetrics_marshal
    (m := { rttP95Ns := stats.p95, sent := int32 data.pingSent,
            received := int32 data.statistics.replies })
    hp95 (fitsInt64_int32 _) (fitsInt64_int32 _)
  have hport : (-2147483648 : Int) ≤ 0 ∧ (0 : Int) < 2147483648 := by decide
  refine ⟨rfl, ?_⟩
  refine Argus.Pipeline.decode_reading hi rfl hjson hport rfl rfl ?_
  simp [Argus.Codec.decodeMetrics, Argus.measurementEvent, PingProcessor.event, Argus.jsonCodec,
    Argus.metricsText, hread]

theorem decode_trace {A : Type} {netip : Netip A} {m : MeasurementParams A U}
    (hevent : (m.event netip).message zone = some event) (hi : messages[i]? = some event) :
    (q.reading messages).decode i =
      some (traceSeries netip m, { ts := m.timestamp, row := .trace (traceMetricsOf m) }) := by
  obtain ⟨json, hjson, rfl⟩ := Option.map_eq_some_iff.1 hevent
  have hread := unmarshalTraceMetrics_marshal (traceMetricsOf m)
  have hport : (-2147483648 : Int) ≤ 0 ∧ (0 : Int) < 2147483648 := by decide
  refine Argus.Pipeline.decode_reading hi rfl hjson hport rfl rfl ?_
  simpa [Argus.Codec.decodeMetrics, Argus.measurementEvent, TraceEvent.event, Argus.jsonCodec,
    Argus.metricsText, MeasurementParams.event, traceMetricsOf] using hread

end

namespace System

variable {D A U V S : Type} [DecidableEq A] {p : Plant D A U} {s : System D A U}

/-- What an event tells argus: the series and the metrics of a result of one of the agents. -/
inductive Tells (p : Plant D A U) (s : System D A U) :
    Argus.DiscoveredSeries → Argus.RawSample → Prop
  | stamp {d : D} {r : ProbeResult} {id : String} {data : StampProcessor.StampData}
      {m : StampProcessor.InsertStampMeasurementParams U}
      {probes : List StampProcessor.InsertStampProbesParams} {metrics : Argus.StampMetrics}
      (hmeasured : s.Measured d .stamp r id)
      (hdata : r.data.marshal.bind (unmarshalStampData p.parseFloat) = some data)
      (hbuild : StampProcessor.buildStamp p.parseUUID (p.serial d) (some id) data =
        some (m, probes, metrics)) :
      Tells p s (stampSeries m) { ts := m.timestamp, row := .stamp metrics }
  | ping {d : D} {r : ProbeResult} {id : String} {data : PingProcessor.PingDataPayload}
      {m : PingProcessor.InsertPingMeasurementParams U}
      {probes : List PingProcessor.InsertPingProbesParams} {metrics : Argus.PingMetrics}
      (hmeasured : s.Measured d .ping r id)
      (hdata : r.data.marshal.bind (unmarshalPingData p.parseFloat) = some data)
      (hbuild : PingProcessor.buildPing p.parseUUID (p.serial d) (some id) r.timestamp data =
        some (m, probes, metrics)) :
      Tells p s (pingSeries m) { ts := m.timestamp, row := .ping metrics }
  | trace {d : D} {r : ProbeResult} {id : String} {data : TraceData} {outside : Outside}
      {rt : Runtime} {asDetails : Table A AsDetails} {prepared : Prepared A U}
      (hmeasured : s.Measured d .trace r id)
      (hdata : r.data.marshal.bind TraceData.unmarshal = some data)
      (hprepare : prepare p.netip p.parseUUID outside rt asDetails (traceReport p d id r data) =
        .ok prepared) :
      Tells p s (traceSeries p.netip prepared.measurement)
        { ts := prepared.measurement.timestamp
          row := .trace (traceMetricsOf prepared.measurement) }

variable {q : Argus.Pipeline V S} {messages : List Message} {i : Argus.MsgId} {event : Message}

theorem StampOf.decode {m : StampProcessor.InsertStampMeasurementParams U}
    (h : s.StampOf p m event) (hi : messages[i]? = some event) :
    ∃ metrics, StampMetricsOf m metrics ∧
      (q.reading messages).decode i =
        some (stampSeries m, { ts := m.timestamp, row := .stamp metrics }) ∧
      s.Tells p (stampSeries m) { ts := m.timestamp, row := .stamp metrics } := by
  obtain ⟨d, r, id, data, probes, metrics, hmeasured, hdata, hbuild, hevent⟩ := h
  obtain ⟨json, -, hjson⟩ := Option.bind_eq_some_iff.1 hdata
  obtain ⟨hmetrics, hdecode⟩ := decode_stamp (dataFits_of_unmarshal hjson) hbuild hevent hi
  exact ⟨metrics, hmetrics, hdecode, .stamp hmeasured hdata hbuild⟩

theorem PingOf.decode {m : PingProcessor.InsertPingMeasurementParams U} (h : s.PingOf p m event)
    (hfits : ∀ d, ∀ r ∈ (s.agents d).measured, PingFits p.parseFloat r)
    (hi : messages[i]? = some event) :
    (q.reading messages).decode i =
        some (pingSeries m, { ts := m.timestamp, row := .ping (pingMetricsOf m) }) ∧
      s.Tells p (pingSeries m) { ts := m.timestamp, row := .ping (pingMetricsOf m) } := by
  obtain ⟨d, r, id, data, probes, metrics, hmeasured, hdata, hbuild, hevent⟩ := h
  have hresponses := hfits d r hmeasured.measured hmeasured.type data hdata
  obtain ⟨rfl, hdecode⟩ := decode_ping hresponses hbuild hevent hi
  exact ⟨hdecode, .ping hmeasured hdata hbuild⟩

theorem TraceOf.decode {prepared : Prepared A U} (h : s.TraceOf p prepared event)
    (hi : messages[i]? = some event) :
    (q.reading messages).decode i =
        some (traceSeries p.netip prepared.measurement,
          { ts := prepared.measurement.timestamp
            row := .trace (traceMetricsOf prepared.measurement) }) ∧
      s.Tells p (traceSeries p.netip prepared.measurement)
        { ts := prepared.measurement.timestamp
          row := .trace (traceMetricsOf prepared.measurement) } := by
  obtain ⟨d, r, id, data, outside, rt, asDetails, hmeasured, hdata, hprepare, hevent⟩ := h
  exact ⟨decode_trace hevent hi, .trace hmeasured hdata hprepare⟩

/-- Each event tells argus about a result. -/
theorem Sound.tells (h : s.Sound p)
    (hfits : ∀ d, ∀ r ∈ (s.agents d).measured, PingFits p.parseFloat r)
    (hi : i < (s.streams .measurements).length) :
    ∃ series sample,
      (q.reading (s.streams .measurements)).decode i = some (series, sample) ∧
      s.Tells p series sample := by
  have hi := List.getElem?_eq_getElem hi
  have hevent := h.filed.events _ (List.mem_of_getElem? hi)
  cases hevent with
  | stamp hb =>
    obtain ⟨metrics, -, hdecode, htells⟩ := (h.stampOf hb).decode hi
    exact ⟨_, _, hdecode, htells⟩
  | ping hb =>
    obtain ⟨hdecode, htells⟩ := (h.pingOf hb).decode hfits hi
    exact ⟨_, _, hdecode, htells⟩
  | trace hb =>
    obtain ⟨hdecode, htells⟩ := (h.traceOf hb).decode hi
    exact ⟨_, _, hdecode, htells⟩

/-! ## Results -/

variable [DecidableEq D]

theorem fits_of_moves {moves : List (Move D)}
    (hfits : ∀ d done leaves r, .agent d (.insert done leaves r) ∈ moves →
      PingFits p.parseFloat r) :
    ∀ d, ∀ r ∈ ((run (step p) (start p) moves).agents d).measured, PingFits p.parseFloat r := by
  intro d r hr
  rcases inserted_of_measured moves hr with hr | ⟨done, leaves, hmem⟩
  · cases hr
  · exact hfits d done leaves r hmem

/-- **Argus can read every event.** After every run, whatever the interleaving, each message in the
stream of the measurements is decoded, and it tells argus the series and the metrics of a result
that one of the agents has measured. -/
theorem announced_as_measured (q : Argus.Pipeline V S) (p : Plant D A U) (moves : List (Move D))
    (hfits : ∀ d done leaves r, .agent d (.insert done leaves r) ∈ moves →
      PingFits p.parseFloat r) :
    let s := run (step p) (start p) moves
    ∀ i < (s.streams .measurements).length, ∃ series sample,
      (q.reading (s.streams .measurements)).decode i = some (series, sample) ∧
      s.Tells p series sample := by
  intro s i hi
  have h : s.Sound p := sound_run moves
  exact h.tells (fits_of_moves hfits) hi

/-- One agent, and a broker without faults. -/
def onePlant : Plant Unit Netip.V4 String where
  serial _ := "agent-1"
  streamSize := 10
  configuration _ := "6ba7b810-9dad-11d1-80b4-00c04fd430c8"
  agentZone _ _ := Rfc3339.utc
  zone _ := Rfc3339.utc
  parseFloat n := some (n.mantissa / 10 ^ n.scale)
  parseUUID := some
  netip := Netip.v4
  jsonb := id

/-- What scamper says about a ping with one answer. -/
def onePing : ProbeResult where
  taskID := "ping"
  probeType := .ping
  kind := "ping"
  timestamp := Argus.newYear
  data := .value (.object [("dst", .string "10.0.0.1"), ("ping_sent", .ofInt 1),
    ("responses", .array
      [.object [("seq", .ofInt 0), ("rtt", .number { mantissa := 15, scale := 1 })]]),
    ("statistics", .object [("replies", .ofInt 1)])])

/-- The way of a result from its task to the table. -/
def onePingMoves : List (Move Unit) :=
  [.agent () (.insert false false onePing), .agent () .receive, .agent () (.prepare Argus.newYear),
    .agent () (.attempt .done), .ping (.deliver 0), .ping .take, .ping (.attempt .done),
    .ping .hand, .ping (.receive {} {}), .ping (.tick {} {})]

theorem onePing_fits (d : Unit) (done leaves : Bool) (r : ProbeResult)
    (h : .agent d (.insert done leaves r) ∈ onePingMoves) : PingFits onePlant.parseFloat r := by
  obtain ⟨-, -, rfl⟩ : done = false ∧ leaves = false ∧ r = onePing := by
    simpa [onePingMoves] using h
  intro _ data hdata
  have hread : onePing.data.marshal.bind (unmarshalPingData onePlant.parseFloat) =
      some { dst := "10.0.0.1", pingSent := 1
             responses := [{ seq := 0, tx := ⟨0, 0⟩, rx := ⟨0, 0⟩, rtt := 3 / 2 }]
             statistics := { replies := 1, min := 0, max := 0, avg := 0, stddev := 0 } } := by
    decide +kernel
  obtain rfl := Option.some.inj (hread.symm.trans hdata)
  intro response hresponse
  obtain rfl := List.mem_singleton.1 hresponse
  exact ⟨by decide +kernel, by decide +kernel⟩

theorem ping_announced_as_measured :
    let s := run (step onePlant) (start onePlant) onePingMoves
    0 < (s.streams .measurements).length ∧ ∃ series sample,
      ((Argus.pingPipeline []).reading (s.streams .measurements)).decode 0 = some (series, sample) ∧
      s.Tells onePlant series sample := by
  have hlength : 0 < ((run (step onePlant) (start onePlant) onePingMoves).streams
      .measurements).length := by
    decide +kernel
  exact ⟨hlength, announced_as_measured (Argus.pingPipeline []) onePlant onePingMoves onePing_fits 0
    hlength⟩

end System

end Cepheus.DataPlane
