import Cepheus.Agent.Properties.Delays
import Cepheus.DataPlane.Properties.Announced

/-!
# A session from its packets to its row

The report of a STAMP session is encoded twice on its way: its data are a raw message in the report,
and the processor encodes them once more before it reads them. Nothing is lost on the way: the row
of a session counts the packets that were sent and those that came back, and its percentiles are
those of the delays of the latter. The loss is what the text of the float says.
-/

namespace Cepheus.DataPlane

open Infra Common Agent Processor TraceProcessor StampProcessor

/-! ## The numbers of a session -/

theorem fitsInt64_sub (t u : Time) : FitsInt64 (Time.sub t u) := by
  show FitsInt64 (max (-2 ^ 63) (min (2 ^ 63 - 1) ((t : Int) - u)))
  unfold FitsInt64
  omega

theorem fitsInt64_int64 (x : Int) : FitsInt64 (int64 x) := by
  have hlow := Int.le_bmod (x := x) (m := 2 ^ 64) (by decide)
  have hhigh := Int.bmod_lt (x := x) (m := 2 ^ 64) (by decide)
  unfold FitsInt64 int64
  omega

theorem probeFits_lostProbe (start : Time) : ProbeFits (lostProbe start) := by
  have hzero : FitsInt64 0 := ⟨by decide, by decide⟩
  exact ⟨hzero, hzero, hzero⟩

theorem probeFits_receivedProbe {clockFormat : Stamp.TimestampClockFormat}
    {pkt : Stamp.ReflectorPacket} {t4 : Time} {probe : StampProbeData}
    (h : receivedProbe clockFormat pkt t4 = .ok probe) : ProbeFits probe := by
  simp only [receivedProbe, bind_eq_ok_iff, pure, Except.pure, Except.ok.injEq] at h
  obtain ⟨t1, -, t2, -, t3, -, rfl⟩ := h
  exact ⟨fitsInt64_int64 _, fitsInt64_sub _ _, fitsInt64_sub _ _⟩

theorem probeFits_probed {clockFormat : Stamp.TimestampClockFormat} {a : Attempt}
    {sender : Stamp.Sender} {probe : StampProbeData} (h : Probed clockFormat a sender probe) :
    ProbeFits probe := by
  cases hlost : probe.isLost with
  | true =>
    rw [(h.lost hlost).1]
    exact probeFits_lostProbe a.start
  | false =>
    obtain ⟨pkt, -, hprobe⟩ := h.received hlost
    exact probeFits_receivedProbe hprobe

section

variable {config : Stamp.Config} {params : StampSenderParams} {dial : Option String}
  {startTimestamp : Time} {env : Nat → Attempt} {data : StampData}

theorem count_lt (params : StampSenderParams) : (params.count : Int) < 9223372036854775808 := by
  unfold StampSenderParams.count
  have h := params.packetCount.toInt_lt
  split <;> omega

/-- What is reported about a session besides its probes. -/
theorem fields_of_execute
    (h : stampSenderExecute config (some (.stampSender params)) dial startTimestamp env =
      .ok data) :
    data.target = params.target ∧ data.port = params.targetPort.toInt ∧
      data.timestamp = startTimestamp := by
  unfold stampSenderExecute at h
  simp only at h
  split at h
  · cases h
  · obtain ⟨done, -, hdata⟩ := (bind_eq_ok_iff ..).1 h
    obtain rfl := Except.ok.inj hdata
    exact ⟨rfl, rfl, rfl⟩

theorem receivedCount_le (probes : List StampProbeData) :
    0 ≤ receivedCount probes ∧ receivedCount probes ≤ probes.length :=
  ⟨Int.natCast_nonneg _, Int.ofNat_le.2 (List.length_filter_le _ _)⟩

/-- The numbers of a session fit into the types of their fields. -/
theorem dataFits_of_execute
    (h : stampSenderExecute config (some (.stampSender params)) dial startTimestamp env =
      .ok data) : DataFits data := by
  obtain ⟨hprobes, hsent, hreceived⟩ := report_probed h
  obtain ⟨-, hport, -⟩ := fields_of_execute h
  have hlength : data.probes.length = params.count := by
    rw [← hprobes.length_eq, List.length_map, List.length_range]
  have hcount := count_lt params
  have hbounds := receivedCount_le data.probes
  refine
    { port := by rw [hport]; exact fitsInt64_toInt _
      sent := by rw [hsent]; unfold FitsInt64; omega
      received := by rw [hreceived]; unfold FitsInt64; omega
      probes := fun probe hprobe => ?_ }
  obtain ⟨i, hi, rfl⟩ := List.mem_iff_getElem.1 hprobe
  obtain ⟨hlen, hall⟩ := List.forall₂_iff_get.1 hprobes
  obtain ⟨sender, hprobed⟩ := hall i (hlen ▸ hi) hi
  exact probeFits_probed hprobed

end

/-! ## Results of sessions -/

/-- A result of a session, as `Execute` returns it. The float is written and read with functions of
the library. -/
structure Session (zone : Time → Rfc3339.Zone) (formatFloat : ℚ → Json.Number) (r : ProbeResult)
    (params : StampSenderParams) (startTimestamp : Time) (data : StampData) : Prop where
  executes : ∃ config dial env,
    stampSenderExecute config (some (.stampSender params)) dial startTimestamp env = .ok data
  data : ∃ json, marshalStampData zone formatFloat data = some json ∧ r.data = .value json

/-- The row of a session, as it is in the table. -/
structure SessionRow {U : Type} (serialID : String) (params : StampSenderParams)
    (startTimestamp : Time) (data : StampData) (m : InsertStampMeasurementParams U) : Prop where
  serialID : m.serialID = serialID
  timestamp : m.timestamp = Time.micros startTimestamp
  target : m.target = params.target
  port : m.port = int32 params.targetPort.toInt
  sent : m.sent = int32 params.count
  received : m.received = int32 (receivedCount data.probes)
  rttP95Ns : (computeStats (data.replies.map StampProbeData.rtt)).map LatencyStats.p95 =
    some m.rttP95Ns
  fwdP95Ns : (computeStats (data.replies.map StampProbeData.forwardDelay)).map LatencyStats.p95 =
    some m.fwdP95Ns
  bwdP95Ns : (computeStats (data.replies.map StampProbeData.backwardDelay)).map LatencyStats.p95 =
    some m.bwdP95Ns

theorem sessionRow_of_build {U : Type} {parseUUID : String → Option U} {serialID : String}
    {id : Option String} {config : Stamp.Config} {params : StampSenderParams}
    {dial : Option String} {startTimestamp : Time} {env : Nat → Attempt} {data : StampData}
    (h : stampSenderExecute config (some (.stampSender params)) dial startTimestamp env =
      .ok data) {loss : ℚ} {m : InsertStampMeasurementParams U}
    {probes : List InsertStampProbesParams} {metrics : Argus.StampMetrics}
    (hbuild : buildStamp parseUUID serialID id { data with loss } = some (m, probes, metrics)) :
    SessionRow serialID params startTimestamp data (kept m) := by
  obtain ⟨-, hsent, hreceived⟩ := report_probed h
  obtain ⟨htarget, hport, htimestamp⟩ := fields_of_execute h
  simp only [buildStamp, Option.bind_eq_bind, Option.bind_eq_some_iff, Option.some.injEq,
    Prod.mk.injEq] at hbuild
  obtain ⟨rtt, hrtt, fwd, hfwd, bwd, hbwd, uuid, -, rfl, -⟩ := hbuild
  exact
    { serialID := rfl
      timestamp := congrArg Time.micros htimestamp
      target := htarget
      port := congrArg int32 hport
      sent := congrArg int32 hsent
      received := congrArg int32 hreceived
      rttP95Ns := Option.map_eq_some_iff.2 ⟨rtt, hrtt, rfl⟩
      fwdP95Ns := Option.map_eq_some_iff.2 ⟨fwd, hfwd, rfl⟩
      bwdP95Ns := Option.map_eq_some_iff.2 ⟨bwd, hbwd, rfl⟩ }

namespace System

variable {D A U : Type} [DecidableEq A] [DecidableEq D]

/-- A row goes back to a result that was inserted, and if that is the one of a session, the row is
the one of the session. -/
theorem inserted_of_stampRow {p : Plant D A U} (formatFloat : ℚ → Json.Number)
    (hfloat : ∀ x, (p.parseFloat (formatFloat x)).isSome) {moves : List (Move D)}
    {row : MeasurementRow (InsertStampMeasurementParams U)}
    (hrow : row ∈ (run (step p) (start p) moves).stamp.ingest.intake.rows) :
    ∃ d done leaves r, .agent d (.insert done leaves r) ∈ moves ∧ r.probeType = .stamp ∧
      ∀ params startTimestamp data,
        Session (p.agentZone d) formatFloat r params startTimestamp data →
        SessionRow (p.serial d) params startTimestamp data row.measurement := by
  have h : (run (step p) (start p) moves).Sound p := sound_run moves
  obtain ⟨m, ⟨probes, event, hb, -⟩, hkept⟩ := h.stamp.ingest.intake.rows row hrow
  obtain ⟨d, r, id, data', probes, metrics, hmeasured, hdata, hbuild, -⟩ := h.stampOf hb
  obtain ⟨done, leaves, hmem⟩ : ∃ done leaves, .agent d (.insert done leaves r) ∈ moves :=
    (inserted_of_measured moves hmeasured.measured).resolve_left List.not_mem_nil
  refine ⟨d, done, leaves, r, hmem, hmeasured.type, fun params startTimestamp data hsession => ?_⟩
  obtain ⟨config, dial, env, hexecute⟩ := hsession.executes
  obtain ⟨json, hjson, hr⟩ := hsession.data
  obtain ⟨loss, hloss⟩ := Option.isSome_iff_exists.1 (hfloat data.loss)
  -- the processor reads the data of the session
  have hread := unmarshalStampData_marshal hjson (dataFits_of_execute hexecute) hloss
  obtain rfl : { data with loss } = data' := by
    rw [hr] at hdata
    exact Option.some.inj (hread.symm.trans hdata)
  rw [hkept]
  exact sessionRow_of_build hexecute hbuild

/-- **A session is stored as it went.** If the STAMP results that the tasks insert are those of
sessions, then after every run each row of the table is that of a session of the agent whose serial
it has: with the target and the port of the task, the packets that were sent and that came back, and
the percentiles of the delays. -/
theorem sessions_as_stored (p : Plant D A U) (formatFloat : ℚ → Json.Number)
    (hfloat : ∀ x, (p.parseFloat (formatFloat x)).isSome) (moves : List (Move D))
    (hsessions : ∀ d done leaves r, .agent d (.insert done leaves r) ∈ moves →
      r.probeType = .stamp → ∃ params startTimestamp data,
        Session (p.agentZone d) formatFloat r params startTimestamp data) :
    let s := run (step p) (start p) moves
    ∀ row ∈ s.stamp.ingest.intake.rows, ∃ d done leaves r params startTimestamp data,
      .agent d (.insert done leaves r) ∈ moves ∧
      Session (p.agentZone d) formatFloat r params startTimestamp data ∧
      SessionRow (p.serial d) params startTimestamp data row.measurement := by
  intro s row hrow
  obtain ⟨d, done, leaves, r, hmem, htype, hrowOf⟩ := inserted_of_stampRow formatFloat hfloat hrow
  obtain ⟨params, startTimestamp, data, hsession⟩ := hsessions d done leaves r hmem htype
  exact ⟨d, done, leaves, r, params, startTimestamp, data, hmem, hsession,
    hrowOf params startTimestamp data hsession⟩

/-! ## A session of two packets -/

/-- A task with two packets. -/
def twoPackets : StampSenderParams where
  target := "10.0.0.2"
  targetPort := 862
  sourceIP := ""
  dscp := 0
  requireClockSync := false
  packetCount := 2
  packetInterval := 0

/-- The first packet comes back, the second is lost. -/
def twoAttempts (i : Nat) : Attempt where
  ctxErr := none
  start := Argus.newYear
  send :=
    { now := Argus.newYear
      write := none
      read :=
        if i = 0 then
          .ok (reply Argus.newYear (Argus.newYear + 2000000) (Argus.newYear + 3000000)).encode
        else .error "timeout" }
  t4 := Argus.newYear + 5000000
  waitErr := none

def twoProbes : StampData where
  target := "10.0.0.2"
  port := 862
  sent := 2
  received := 1
  loss := 1 / 2
  probes :=
    [{ tx := Argus.newYear, isLost := false, rx := Argus.newYear + 5000000, rtt := 4000000
       forwardDelay := 1999999, backwardDelay := 2000001 }, lostProbe Argus.newYear]
  timestamp := Argus.newYear

/-- One digit behind the point. -/
def formatTenths (x : ℚ) : Json.Number := { mantissa := truncate (x * 10), scale := 1 }

/-- The result of the session. -/
def twoPacketsResult : ProbeResult where
  taskID := "stamp"
  probeType := .stamp
  kind := "stamp-sender"
  timestamp := Argus.newYear
  data := .value ((marshalStampData (fun _ => Rfc3339.utc) formatTenths twoProbes).getD .null)

theorem session_twoPackets :
    Session (fun _ => Rfc3339.utc) formatTenths twoPacketsResult twoPackets Argus.newYear
      twoProbes where
  executes := ⟨Stamp.stampConfig, none, twoAttempts, by decide +kernel⟩
  data := by
    obtain ⟨json, hjson⟩ : ∃ json,
        marshalStampData (fun _ => Rfc3339.utc) formatTenths twoProbes = some json :=
      Option.isSome_iff_exists.1 (by decide +kernel)
    exact ⟨json, hjson, by rw [twoPacketsResult, hjson]; rfl⟩

def twoPacketsMoves : List (Move Unit) :=
  [.agent () (.insert false false twoPacketsResult), .agent () .receive,
    .agent () (.prepare Argus.newYear), .agent () (.attempt .done), .stamp (.deliver 0),
    .stamp .take, .stamp (.attempt .done), .stamp .hand, .stamp (.receive {} {}),
    .stamp (.tick {} {})]

theorem twoPackets_as_stored :
    let s := run (step onePlant) (start onePlant) twoPacketsMoves
    s.stamp.ingest.intake.rows.length = 1 ∧ ∀ row ∈ s.stamp.ingest.intake.rows,
      ∃ d done leaves r params startTimestamp data,
        .agent d (.insert done leaves r) ∈ twoPacketsMoves ∧
        Session (onePlant.agentZone d) formatTenths r params startTimestamp data ∧
        SessionRow (onePlant.serial d) params startTimestamp data row.measurement := by
  refine ⟨by decide +kernel, sessions_as_stored onePlant formatTenths (fun _ => rfl) twoPacketsMoves
    fun d done leaves r hmem _ => ?_⟩
  obtain ⟨-, -, rfl⟩ : done = false ∧ leaves = false ∧ r = twoPacketsResult := by
    simpa [twoPacketsMoves] using hmem
  exact ⟨twoPackets, Argus.newYear, twoProbes, session_twoPackets⟩

end System

end Cepheus.DataPlane
