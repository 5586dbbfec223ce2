import Cepheus.Common.Properties.Messages
import Cepheus.DataPlane.Properties.Streams
import Cepheus.Infra.JsonRoundtrip

/-!
# What is stored was measured

A row of one of the tables is built from a result that an agent has measured: with the serial of
that agent, with a configuration that it has had, and with the data as the agent has written them.
Neither the texts of the messages nor the order of the moves can change that. And a report is
acknowledged when there is such a row of it, and not earlier.
-/

namespace Cepheus.DataPlane.System

open Infra Common Agent Processor TraceProcessor

variable {D A U : Type} [DecidableEq A] {p : Plant D A U} {s : System D A U}

/-! ## Reports -/

omit [DecidableEq A] in
variable (s) in
/-- A result that an agent has measured, and the id of a configuration that it has had. -/
structure Measured (d : D) (type : Argus.ProbeType) (r : ProbeResult) (id : String) : Prop where
  measured : r ∈ (s.agents d).measured
  configured : id ∈ (s.agents d).configurations
  type : r.probeType = type

/-- A report says what was measured. -/
theorem Sound.payload (h : s.Sound p) {stream : Stream} (hstream : stream ≠ .measurements) {i : Nat}
    {text : List Char} (htext : s.text stream i = some text) {payload : ReportPayload}
    (hpayload : (Json.parse text).bind ReportPayload.unmarshal = some payload) :
    ∃ d r id now json, s.Measured d payload.payload.probeType r id ∧ r.data.marshal = some json ∧
      payload =
        { payload := { r with data := .value json }
          serialID := p.serial d
          sentTimestamp := now
          agentConfigId := id } := by
  obtain ⟨m, hm, rfl⟩ := Option.map_eq_some_iff.1 htext
  have hmem := List.mem_of_getElem? hm
  obtain ⟨d, r, hr, id, hid, now, json, hjson, rfl⟩ := h.filed.reports stream hstream m hmem
  have htype := Stream.ofType_of_takes (h.filed.taken stream _ hmem)
  have hproper : r.probeType.Proper := by
    cases hr : r.probeType with
    | other text => rw [hr] at htype; cases htype
    | _ => rfl
  rw [Json.parse_print, Option.bind_some, ReportPayload.unmarshal_marshal hjson hproper] at hpayload
  obtain rfl := Option.some.inj hpayload
  obtain ⟨data, hdata⟩ : ∃ data, r.data.marshal = some data := by
    simp only [ReportPayload.marshal, ProbeResult.marshal, Option.bind_eq_bind,
      Option.bind_eq_some_iff] at hjson
    obtain ⟨_, ⟨_, _, data, hdata, _⟩, _⟩ := hjson
    exact ⟨data, hdata⟩
  refine ⟨d, r, id, now, data, ⟨hr, hid, rfl⟩, hdata, ?_⟩
  rw [RawMessage.marshal_eq_some hdata]

/-! ## Rows -/

variable (p s) in
/-- The row of a STAMP session, and what argus is told about it. -/
def StampOf (m : StampProcessor.InsertStampMeasurementParams U) (event : Message) : Prop :=
  ∃ d r id data probes metrics, s.Measured d .stamp r id ∧
    r.data.marshal.bind (unmarshalStampData p.parseFloat) = some data ∧
    StampProcessor.buildStamp p.parseUUID (p.serial d) (some id) data =
      some (m, probes, metrics) ∧
    eventMessage p.zone (StampProcessor.event (p.serial d) data metrics)
      ("cepheus.measurement.stamp." ++ p.serial d) = some event

variable (p s) in
/-- The row of a ping, and what argus is told about it. -/
def PingOf (m : PingProcessor.InsertPingMeasurementParams U) (event : Message) : Prop :=
  ∃ d r id data probes metrics, s.Measured d .ping r id ∧
    r.data.marshal.bind (unmarshalPingData p.parseFloat) = some data ∧
    PingProcessor.buildPing p.parseUUID (p.serial d) (some id) r.timestamp data =
      some (m, probes, metrics) ∧
    eventMessage p.zone (PingProcessor.event (p.serial d) r.timestamp data metrics)
      ("cepheus.measurement.ping." ++ p.serial d) = some event

omit [DecidableEq A] in
variable (p) in
/-- The report of a trace. -/
def traceReport (d : D) (id : String) (r : ProbeResult) (data : TraceData) : Report where
  serialId := p.serial d
  agentConfigId := id
  timestamp := r.timestamp
  type := data.type
  method := data.method
  raw := data.data
  data := ((ofUtf8 data.data).bind Json.parse).bind (unmarshalTrace p.parseFloat)

variable (p s) in
/-- A trace that is about to be stored, and what argus is told about it. -/
def TraceOf (prepared : Prepared A U) (event : Message) : Prop :=
  ∃ d r id data outside rt asDetails, s.Measured d .trace r id ∧
    r.data.marshal.bind TraceData.unmarshal = some data ∧
    prepare p.netip p.parseUUID outside rt asDetails (traceReport p d id r data) = .ok prepared ∧
    (prepared.measurement.event p.netip).message p.zone = some event

theorem Sound.stampOf (h : s.Sound p) {report : Nat}
    {m : StampProcessor.InsertStampMeasurementParams U}
    {probes : List StampProcessor.InsertStampProbesParams} {event : Message}
    (hb : s.BuildsStamp p report m probes event) : s.StampOf p m event := by
  obtain ⟨text, htext, hdecode⟩ := Option.map_eq_some_iff.1 hb
  obtain ⟨payload, data, metrics, hpayload, htype, hdata, hbuild, hevent⟩ :=
    StampProcessor.decode_eq_built hdecode
  obtain ⟨d, r, id, now, json, hmeasured, hjson, rfl⟩ := h.payload (by decide) htext hpayload
  rw [htype] at hmeasured
  exact ⟨d, r, id, data, probes, metrics, hmeasured, by rw [hjson]; exact hdata, hbuild, hevent⟩

theorem Sound.pingOf (h : s.Sound p) {report : Nat}
    {m : PingProcessor.InsertPingMeasurementParams U}
    {probes : List PingProcessor.InsertPingProbesParams} {event : Message}
    (hb : s.BuildsPing p report m probes event) : s.PingOf p m event := by
  obtain ⟨text, htext, hdecode⟩ := Option.map_eq_some_iff.1 hb
  obtain ⟨payload, data, metrics, hpayload, htype, hdata, hbuild, hevent⟩ :=
    PingProcessor.decode_eq_built hdecode
  obtain ⟨d, r, id, now, json, hmeasured, hjson, rfl⟩ := h.payload (by decide) htext hpayload
  rw [htype] at hmeasured
  exact ⟨d, r, id, data, probes, metrics, hmeasured, by rw [hjson]; exact hdata, hbuild, hevent⟩

theorem Sound.traceOf (h : s.Sound p) {report : Nat} {prepared : Prepared A U} {event : Message}
    (hb : s.BuildsTrace p report prepared event) : s.TraceOf p prepared event := by
  obtain ⟨text, report, outside, rt, asDetails, htext, hdecode, hprepare, hevent⟩ := hb
  obtain ⟨payload, data, hpayload, htype, hdata, rfl⟩ := decode_eq_trace hdecode
  obtain ⟨d, r, id, now, json, hmeasured, hjson, rfl⟩ := h.payload (by decide) htext hpayload
  rw [htype] at hmeasured
  exact ⟨d, r, id, data, outside, rt, asDetails, hmeasured, by rw [hjson]; exact hdata, hprepare,
    hevent⟩

variable [DecidableEq D]

/-- What the moves of an agent keep, a run keeps. -/
theorem agent_run {I : Reporter → Prop} {d : D} {moves : List (Move D)} (hs : I (s.agents d))
    (hstep : ∀ agent m, .agent d m ∈ moves → I agent →
      I (agent.step (p.agentZone d) (p.serial d) p.streamSize m).1) :
    I ((run (step p) s moves).agents d) := by
  have hinv : ∀ (s : System D A U) m, I (s.agents d) → m ∈ moves → I ((s.step p m).agents d) := by
    intro s m h hm
    cases m with
    | agent d' m =>
      change I (Function.update s.agents d' _ d)
      by_cases hd : d = d'
      · subst hd
        rw [Function.update_self]
        exact hstep _ m hm h
      · rw [Function.update_of_ne hd]
        exact h
    | stamp m => exact h
    | ping m => exact h
    | trace m => exact h
    | expire =>
      simp only [step]
      split <;> exact h
  exact run_invariant hinv hs (along_of_mem fun m hm => hm)

/-- What the agents have measured is what their tasks have inserted. -/
theorem inserted_of_measured {d : D} {r : ProbeResult} (moves : List (Move D))
    (h : r ∈ ((run (step p) s moves).agents d).measured) :
    r ∈ (s.agents d).measured ∨ ∃ done leaves, .agent d (.insert done leaves r) ∈ moves := by
  let I (agent : Reporter) := ∀ r ∈ agent.measured,
    r ∈ (s.agents d).measured ∨ ∃ done leaves, .agent d (.insert done leaves r) ∈ moves
  have hstart : I (s.agents d) := fun r hr => .inl hr
  refine agent_run (I := I) hstart (fun agent m hm hagent r hr => ?_) r h
  rcases Reporter.measured_step hr with hr | ⟨done, leaves, rfl⟩
  · exact hagent r hr
  · exact .inr ⟨done, leaves, hm⟩

/-- The configurations of an agent are those that it begins with and those that it pulls. -/
theorem identified_of_moves {moves : List (Move D)}
    (hstart : ∀ d, (p.parseUUID (p.configuration d)).isSome)
    (hids : ∀ d id, .agent d (.configure id) ∈ moves ∨ .agent d (.restart id) ∈ moves →
      (p.parseUUID id).isSome) (d : D) :
    ∀ id ∈ ((run (step p) (start p) moves).agents d).configurations, (p.parseUUID id).isSome := by
  let I (agent : Reporter) := ∀ id ∈ agent.configurations, (p.parseUUID id).isSome
  have hbegin : I ((start p).agents d) := fun id hid => List.mem_singleton.1 hid ▸ hstart d
  refine agent_run (I := I) hbegin fun agent m hm hagent id hid => ?_
  rcases Reporter.configurations_step hid with hid | rfl | rfl
  · exact hagent id hid
  · exact hids d id (.inl hm)
  · exact hids d id (.inr hm)

/-! ## Results -/

/-- **What is stored was measured.** After every run, each row is what the columns keep of an insert
that is built from a result of the agent whose serial it has, and its configuration is one that this
agent has had. -/
theorem stored_as_measured (p : Plant D A U) (moves : List (Move D)) :
    let s := run (step p) (start p) moves
    (∀ row ∈ s.stamp.ingest.intake.rows, ∃ d r id data m probes metrics, s.Measured d .stamp r id ∧
      r.data.marshal.bind (unmarshalStampData p.parseFloat) = some data ∧
      StampProcessor.buildStamp p.parseUUID (p.serial d) (some id) data =
        some (m, probes, metrics) ∧
      row.measurement = StampProcessor.kept m) ∧
    (∀ row ∈ s.ping.ingest.intake.rows, ∃ d r id data m probes metrics, s.Measured d .ping r id ∧
      r.data.marshal.bind (unmarshalPingData p.parseFloat) = some data ∧
      PingProcessor.buildPing p.parseUUID (p.serial d) (some id) r.timestamp data =
        some (m, probes, metrics) ∧
      row.measurement = PingProcessor.kept m) ∧
    ∀ row ∈ s.trace.intake.rows, ∃ d r id data outside rt asDetails prepared,
      s.Measured d .trace r id ∧ r.data.marshal.bind TraceData.unmarshal = some data ∧
      prepare p.netip p.parseUUID outside rt asDetails (traceReport p d id r data) = .ok prepared ∧
      row.measurement = (prepared.rows p.netip).kept p.netip p.jsonb := by
  have h : (run (step p) (start p) moves).Sound p := sound_run moves
  refine ⟨fun row hrow => ?_, fun row hrow => ?_, fun row hrow => ?_⟩
  · obtain ⟨m, ⟨probes, event, hb, -⟩, hkept⟩ := h.stamp.ingest.intake.rows row hrow
    obtain ⟨d, r, id, data, probes, metrics, hm, hdata, hbuild, -⟩ := h.stampOf hb
    exact ⟨d, r, id, data, m, probes, metrics, hm, hdata, hbuild, hkept⟩
  · obtain ⟨m, ⟨probes, event, hb, -⟩, hkept⟩ := h.ping.ingest.intake.rows row hrow
    obtain ⟨d, r, id, data, probes, metrics, hm, hdata, hbuild, -⟩ := h.pingOf hb
    exact ⟨d, r, id, data, m, probes, metrics, hm, hdata, hbuild, hkept⟩
  · obtain ⟨-, ⟨prepared, event, hb, rfl, -⟩, hkept⟩ := h.trace.rows row hrow
    obtain ⟨d, r, id, data, outside, rt, asDetails, hm, hdata, hprepare, -⟩ := h.traceOf hb
    exact ⟨d, r, id, data, outside, rt, asDetails, prepared, hm, hdata, hprepare, hkept⟩

/-- **What is acknowledged is stored and announced.** After every run, a report that is not
delivered any more has a row that was built from it, and the event of that row has been stored in
the stream of the measurements. The only exception are the traces of type `tracelb`. -/
theorem acknowledged_is_stored (p : Plant D A U) (moves : List (Move D)) :
    let s := run (step p) (start p) moves
    (∀ report ∈ s.stamp.ingest.intake.acked, ∃ row ∈ s.stamp.ingest.intake.rows, ∃ m probes event,
      row.msg.report = report ∧ s.BuildsStamp p report m probes event ∧
      row.measurement = StampProcessor.kept m ∧ event ∈ s.streams .measurements) ∧
    (∀ report ∈ s.ping.ingest.intake.acked, ∃ row ∈ s.ping.ingest.intake.rows, ∃ m probes event,
      row.msg.report = report ∧ s.BuildsPing p report m probes event ∧
      row.measurement = PingProcessor.kept m ∧ event ∈ s.streams .measurements) ∧
    ∀ report ∈ s.trace.intake.acked,
      (∃ row ∈ s.trace.intake.rows, ∃ prepared event, row.msg.report = report ∧
        s.BuildsTrace p report prepared event ∧
        row.measurement = (prepared.rows p.netip).kept p.netip p.jsonb ∧
        event ∈ s.streams .measurements) ∨
      Skipped p.parseFloat (s.text .probeTrace) report := by
  have h : (run (step p) (start p) moves).Sound p := sound_run moves
  refine ⟨fun report hreport => ?_, fun report hreport => ?_, fun report hreport => ?_⟩
  · obtain ⟨row, hrow, rfl⟩ := (h.stamp.ingest.intake.acked report hreport).resolve_right id
    obtain ⟨m, ⟨probes, event, hb, hs⟩, hkept⟩ := h.stamp.ingest.intake.rows row hrow
    exact ⟨row, hrow, m, probes, event, rfl, hb, hkept, hs⟩
  · obtain ⟨row, hrow, rfl⟩ := (h.ping.ingest.intake.acked report hreport).resolve_right id
    obtain ⟨m, ⟨probes, event, hb, hs⟩, hkept⟩ := h.ping.ingest.intake.rows row hrow
    exact ⟨row, hrow, m, probes, event, rfl, hb, hkept, hs⟩
  · refine (h.trace.acked report hreport).imp_left ?_
    rintro ⟨row, hrow, rfl⟩
    obtain ⟨-, ⟨prepared, event, hb, rfl, hs⟩, hkept⟩ := h.trace.rows row hrow
    exact ⟨row, hrow, prepared, event, rfl, hb, hkept, hs⟩

end Cepheus.DataPlane.System
