import Cepheus.Common.Types

/-!
# Messages are read as they were written

Every message of `libs/common/types.go` that one service writes and another reads is read as it was
written, if the numbers in it fit into the types of their fields. A raw message without a text
arrives as `null`.
-/

namespace Cepheus.Common

open Infra Argus

variable {zone : Time → Rfc3339.Zone}

/-- What a raw message is after it was sent. -/
def RawMessage.sent : RawMessage → RawMessage
  | nil => value .null
  | m => m

theorem RawMessage.marshal_eq_some {m : RawMessage} {json : Json} (h : m.marshal = some json) :
    m.sent = value json := by
  cases m with
  | nil => exact congrArg value (Option.some.inj h)
  | value => exact congrArg value (Option.some.inj h)
  | malformed => cases h

/-- The number is a value of type `int64`. -/
def FitsInt64 (n : Int) : Prop := -9223372036854775808 ≤ n ∧ n < 9223372036854775808

theorem fitsInt64_toInt (n : Int64) : FitsInt64 n.toInt := ⟨n.le_toInt, n.toInt_lt⟩

theorem toInt_ofInt {n : Int} (h : FitsInt64 n) : (Int64.ofInt n).toInt = n :=
  Int64.toInt_ofInt_of_le h.1 h.2

theorem int32_bounds (x : Int) : -2147483648 ≤ Infra.int32 x ∧ Infra.int32 x < 2147483648 := by
  have hlow := Int.le_bmod (x := x) (m := 2 ^ 32) (by decide)
  have hhigh := Int.bmod_lt (x := x) (m := 2 ^ 32) (by decide)
  unfold Infra.int32
  omega

theorem fitsInt64_int32 (x : Int) : FitsInt64 (Infra.int32 x) := by
  have h := int32_bounds x
  unfold FitsInt64
  omega

/-! ## Reports -/

theorem ProbeResult.unmarshal_marshal {r : ProbeResult} {json : Json}
    (h : r.marshal zone = some json) (hr : r.probeType.Proper) :
    ∃ members, json = .object members ∧
      ProbeResult.unmarshal members = some { r with data := r.data.sent } := by
  simp only [marshal, Option.bind_eq_bind, Option.bind_eq_some_iff, Option.pure_def,
    Option.some.injEq] at h
  obtain ⟨timestamp, htimestamp, data, hdata, rfl⟩ := h
  obtain ⟨s, rfl, hs⟩ := Json.ofTime_eq_some htimestamp
  have htype : ProbeType.ofText r.probeType.text = r.probeType := hr
  refine ⟨_, rfl, ?_⟩
  rw [RawMessage.marshal_eq_some hdata]
  simp +decide [unmarshal, Json.stringField, Json.timeField, RawMessage.field, Json.field_cons,
    Json.collect_cons, hs, htype]

theorem ReportPayload.unmarshal_marshal {p : ReportPayload} {json : Json}
    (h : p.marshal zone = some json) (hp : p.payload.probeType.Proper) :
    ReportPayload.unmarshal json =
      some { p with payload := { p.payload with data := p.payload.data.sent } } := by
  simp only [marshal, Option.bind_eq_bind, Option.bind_eq_some_iff, Option.pure_def,
    Option.some.injEq] at h
  obtain ⟨payload, hpayload, sent, hsent, rfl⟩ := h
  obtain ⟨members, rfl, hmembers⟩ := ProbeResult.unmarshal_marshal hpayload hp
  obtain ⟨s, rfl, hs⟩ := Json.ofTime_eq_some hsent
  simp +decide [unmarshal, Json.members, Json.nested, Json.stringField, Json.timeField,
    Json.field_cons, Json.collect_cons, hs, hmembers]

/-! ## Metrics -/

theorem unmarshalPingMetrics_marshal {m : PingMetrics} (hrtt : FitsInt64 m.rttP95Ns)
    (hsent : FitsInt64 m.sent) (hreceived : FitsInt64 m.received) :
    unmarshalPingMetrics (marshalPingMetrics m) = some m := by
  simp +decide [unmarshalPingMetrics, marshalPingMetrics, Json.members, Json.intField, Json.ofInt,
    Json.field_cons, hrtt.1, hrtt.2, hsent.1, hsent.2, hreceived.1, hreceived.2, toInt_ofInt hrtt,
    toInt_ofInt hsent, toInt_ofInt hreceived]

theorem unmarshalStampMetrics_marshal {m : StampMetrics} (hrtt : FitsInt64 m.rttP95Ns)
    (hfwd : FitsInt64 m.fwdP95Ns) (hbwd : FitsInt64 m.bwdP95Ns)
    (hsent : FitsInt64 m.sent) (hreceived : FitsInt64 m.received) :
    unmarshalStampMetrics (marshalStampMetrics m) = some m := by
  simp +decide [unmarshalStampMetrics, marshalStampMetrics, Json.members, Json.intField, Json.ofInt,
    Json.field_cons, hrtt.1, hrtt.2, hfwd.1, hfwd.2, hbwd.1, hbwd.2, hsent.1, hsent.2, hreceived.1,
    hreceived.2, toInt_ofInt hrtt, toInt_ofInt hfwd, toInt_ofInt hbwd, toInt_ofInt hsent,
    toInt_ofInt hreceived]

theorem unmarshalTraceMetrics_marshal (m : TraceMetrics) :
    unmarshalTraceMetrics (marshalTraceMetrics m) = some m := by
  simp +decide [unmarshalTraceMetrics, marshalTraceMetrics, Json.members, Json.stringField,
    Json.field_cons]

/-! ## Events -/

theorem Event.unmarshal_marshal {e : Event} {json : Json} (h : e.marshal zone = some json)
    (htype : e.type.Proper) (hport : -2147483648 ≤ e.port ∧ e.port < 2147483648) :
    Event.unmarshal json = some { e with metrics := e.metrics.sent } := by
  simp only [marshal, Option.bind_eq_bind, Option.bind_eq_some_iff, Option.pure_def,
    Option.some.injEq] at h
  obtain ⟨timestamp, htimestamp, metrics, hmetrics, rfl⟩ := h
  obtain ⟨s, rfl, hs⟩ := Json.ofTime_eq_some htimestamp
  have htype : ProbeType.ofText e.type.text = e.type := htype
  obtain ⟨type, serialID, target, port, src, timestamp, metrics⟩ := e
  rw [RawMessage.marshal_eq_some hmetrics]
  -- the port and the source are left out if they are empty
  by_cases hzero : port = 0 <;> by_cases hempty : src = ""
  all_goals
    simp +decide [unmarshal, omitZero, hzero, hempty, Json.members, Json.stringField,
      Json.int32Field, Json.timeField, Json.ofInt, RawMessage.field, Json.field_cons,
      Json.collect_cons, hs, htype, hport.1, hport.2]

/-! ## Data of probes -/

section

open StampProcessor

/-- The delays fit into a `time.Duration`. -/
structure ProbeFits (p : StampProbeData) : Prop where
  rtt : FitsInt64 p.rtt
  forwardDelay : FitsInt64 p.forwardDelay
  backwardDelay : FitsInt64 p.backwardDelay

theorem unmarshalProbe_marshal {p : StampProbeData} {json : Json}
    (h : marshalProbe zone p = some json) (hp : ProbeFits p) :
    element unmarshalProbe json = some p := by
  simp only [marshalProbe, Option.bind_eq_bind, Option.bind_eq_some_iff, Option.pure_def,
    Option.some.injEq] at h
  obtain ⟨tx, htx, rx, hrx, rfl⟩ := h
  obtain ⟨s, rfl, hs⟩ := Json.ofTime_eq_some htx
  obtain ⟨s', rfl, hs'⟩ := Json.ofTime_eq_some hrx
  obtain ⟨tx, isLost, rx, rtt, fwd, bwd⟩ := p
  obtain ⟨hrtt, hfwd, hbwd⟩ := hp
  have h0 : (0 : Int64).toInt = 0 := by decide
  by_cases h1 : rtt = 0 <;> by_cases h2 : fwd = 0 <;> by_cases h3 : bwd = 0
  all_goals
    simp +decide [element, unmarshalProbe, omitZero, h1, h2, h3, Json.members, Json.timeField,
      Json.boolField, Json.intField, Json.ofInt, Json.field_cons, hs, hs', hrtt.1, hrtt.2, hfwd.1,
      hfwd.2, hbwd.1, hbwd.2, toInt_ofInt hrtt, toInt_ofInt hfwd, toInt_ofInt hbwd, h0]

/-- The numbers fit into the types of their fields. -/
structure DataFits (d : StampData) : Prop where
  port : FitsInt64 d.port
  sent : FitsInt64 d.sent
  received : FitsInt64 d.received
  probes : ∀ p ∈ d.probes, ProbeFits p

theorem unmarshalProbes_marshal : ∀ {probes : List StampProbeData} {elements : List Json},
    probes.mapM (marshalProbe zone) = some elements → (∀ p ∈ probes, ProbeFits p) →
      elements.mapM (element unmarshalProbe) = some probes
  | [], elements, h, _ => by
    obtain rfl : [] = elements := by simpa using h
    rfl
  | p :: probes, elements, h, hfits => by
    rw [List.mapM_cons] at h
    simp only [Option.bind_eq_bind, Option.bind_eq_some_iff, Option.pure_def,
      Option.some.injEq] at h
    obtain ⟨json, hjson, rest, hrest, rfl⟩ := h
    rw [List.mapM_cons, unmarshalProbe_marshal hjson (hfits p List.mem_cons_self),
      unmarshalProbes_marshal hrest fun q hq => hfits q (List.mem_cons_of_mem _ hq)]
    rfl

/-- The loss becomes what its text says. -/
theorem unmarshalStampData_marshal {formatFloat : ℚ → Json.Number}
    {parseFloat : Json.Number → Option ℚ} {d : StampData} {json : Json} {loss : ℚ}
    (h : marshalStampData zone formatFloat d = some json) (hd : DataFits d)
    (hloss : parseFloat (formatFloat d.loss) = some loss) :
    unmarshalStampData parseFloat json = some { d with loss } := by
  simp only [marshalStampData, Option.bind_eq_bind, Option.bind_eq_some_iff, Option.pure_def,
    Option.some.injEq] at h
  obtain ⟨probes, hprobes, timestamp, htimestamp, rfl⟩ := h
  obtain ⟨s, rfl, hs⟩ := Json.ofTime_eq_some htimestamp
  have hread := unmarshalProbes_marshal hprobes hd.probes
  simp +decide [unmarshalStampData, Json.members, Json.stringField, Json.intField, realField,
    Json.arrayField, Json.timeField, Json.ofInt, Json.field_cons, Json.collect_cons, hs, hloss,
    hread, hd.port.1, hd.port.2, hd.sent.1, hd.sent.2, hd.received.1, hd.received.2,
    toInt_ofInt hd.port, toInt_ofInt hd.sent, toInt_ofInt hd.received]

theorem probeFits_of_unmarshal {json : Json} {p : StampProbeData}
    (h : element unmarshalProbe json = some p) : ProbeFits p := by
  simp only [element, unmarshalProbe, Option.bind_eq_bind, Option.bind_eq_some_iff,
    Option.pure_def, Option.some.injEq] at h
  obtain ⟨members, -, tx, -, isLost, -, rx, -, rtt, -, fwd, -, bwd, -, rfl⟩ := h
  exact ⟨fitsInt64_toInt rtt, fitsInt64_toInt fwd, fitsInt64_toInt bwd⟩

theorem dataFits_of_unmarshal {parseFloat : Json.Number → Option ℚ} {json : Json} {d : StampData}
    (h : unmarshalStampData parseFloat json = some d) : DataFits d := by
  simp only [unmarshalStampData, Option.bind_eq_bind, Option.bind_eq_some_iff, Option.pure_def,
    Option.some.injEq] at h
  obtain ⟨members, -, target, -, port, -, sent, -, received, -, loss, -, probes, hprobes, timestamp,
    -, rfl⟩ := h
  exact
    { port := fitsInt64_toInt port
      sent := fitsInt64_toInt sent
      received := fitsInt64_toInt received
      probes := Json.forall_mem_arrayField (fun _ _ hp => probeFits_of_unmarshal hp) hprobes }

end

section

open TraceProcessor

theorem TraceData.unmarshal_marshal (d : TraceData) : TraceData.unmarshal d.marshal = some d := by
  simp +decide [unmarshal, marshal, Json.members, Json.stringField, bytesField, Json.field_cons,
    Json.collect_cons, Base64.decode_encode]

end

end Cepheus.Common
