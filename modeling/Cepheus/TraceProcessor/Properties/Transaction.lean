import Cepheus.Infra.Uuid
import Cepheus.TraceProcessor.Properties.AsnHash
import Cepheus.TraceProcessor.Properties.Enrichment

/-!
# A trace is stored and published, or neither

`processNormalTrace` rolls its transaction back when it returns an error, and the message is
delivered again. What has to hold for the event to be published is `Prepares`, and what has to hold
after it for the transaction to be committed is `Finishes`. If only the latter fails, the event is
not taken back, and it is published again with each delivery.

So nothing is left of an error if and only if whatever is published is published once, and nothing
fails after it (`all_or_nothing_iff`).
-/

namespace Cepheus.TraceProcessor

open Infra

/-! ## Attempts -/

/-- One attempt is answered, and those before it have no effect. -/
inductive SentOnce : List Reply → Prop
  | done (rest : List Reply) : SentOnce (.done :: rest)
  | failed {rest : List Reply} (h : SentOnce rest) : SentOnce (.failed :: rest)

theorem attempts_eq_zero_iff : ∀ {replies : List Reply},
    attempts replies = (0, false) ↔ ∀ reply ∈ replies, reply = .failed
  | [] => by simp [attempts]
  | .done :: _ => by simp [attempts]
  | .failed :: rest => by
    have ih : attempts rest = (0, false) ↔ ∀ reply ∈ rest, reply = .failed := attempts_eq_zero_iff
    simp [attempts, ih]
  | .lost :: _ => by simp [attempts]

/-- What is answered is published. -/
theorem attempts_pos (replies : List Reply) (h : (attempts replies).2 = true) :
    0 < (attempts replies).1 := by
  induction replies with
  | nil => cases h
  | cons reply rest ih =>
    cases reply with
    | done => exact Nat.one_pos
    | failed => exact ih h
    | lost => exact Nat.succ_pos _

theorem attempts_eq_one_iff : ∀ {replies : List Reply},
    attempts replies = (1, true) ↔ SentOnce replies
  | [] => ⟨nofun, nofun⟩
  | .done :: rest => ⟨fun _ => .done rest, fun _ => rfl⟩
  | .failed :: _ => by
    rw [attempts, attempts_eq_one_iff]
    exact ⟨.failed, fun | .failed h => h⟩
  | .lost :: rest => by
    refine ⟨fun h => ?_, nofun⟩
    -- the answer would be to a second event
    rw [attempts, Prod.mk.injEq, Nat.add_eq_right] at h
    exact absurd h.1 (attempts_pos rest h.2).ne'

section

variable {A U : Type} {netip : Netip A} {parseUUID : String → Option U} {outside : Outside}
  {rt : Runtime} {asDetails : Table A AsDetails} {report : Report}

/-! ## Hops and links -/

variable (netip) in
/-- The text of a hop is empty or an address. -/
def Hop.Readable (hop : Hop) : Prop := hop.addr = "" ∨ (netip.parseAddr hop.addr).isSome

theorem hopIP_eq_ok_iff (hop : Hop) (ip : Option A) :
    hopIP netip hop = .ok ip ↔ hop.Readable netip ∧ ip = hop.address netip := by
  unfold hopIP Hop.Readable Hop.address
  by_cases haddr : hop.addr = ""
  · simp [haddr, @eq_comm _ ip]
  · cases hparse : netip.parseAddr hop.addr with
    | none => simp [haddr, orError, Except.map]
    | some a => simp [haddr, orError, Except.map, @eq_comm _ ip]

variable (netip) in
/-- The ends of a link that answered have addresses. -/
structure TraceLink.Readable (link : TraceLink) : Prop where
  src : ∀ addr ∈ link.srcIP, (netip.parseAddr addr).isSome
  dst : ∀ addr ∈ link.dstIP, (netip.parseAddr addr).isSome

variable (netip) in
/-- The row of a link. -/
def TraceLink.row (timestamp : Time) (link : TraceLink) : TraceLinkParams A where
  timestamp := timestamp
  probeID := int32 link.probeID
  srcIp := link.srcIP.bind netip.parseAddr
  dstIp := link.dstIP.bind netip.parseAddr
  ttlGap := int32 link.ttlGap
  diffRtt := link.diffRTT
  isSrcRespond := link.isSrcRespond
  isDstRespond := link.isDstRespond

theorem linkIP_eq_ok_iff {addr : Option String} {e : String → ProcessError} {ip : Option A} :
    linkIP netip addr e = .ok ip ↔
      (∀ text ∈ addr, (netip.parseAddr text).isSome) ∧ ip = addr.bind netip.parseAddr := by
  cases addr with
  | none => simp [linkIP, @eq_comm _ ip]
  | some text =>
    cases hparse : netip.parseAddr text with
    | none => simp [linkIP, hparse, orError, Except.map]
    | some a => simp [linkIP, hparse, orError, Except.map, @eq_comm _ ip]

theorem linkRow_eq_ok_iff (timestamp : Time) (link : TraceLink) (row : TraceLinkParams A) :
    linkRow netip timestamp link = .ok row ↔
      link.Readable netip ∧ row = link.row netip timestamp := by
  simp only [linkRow, bind_eq_ok_iff, linkIP_eq_ok_iff, pure, Except.pure, Except.ok.injEq]
  constructor
  · rintro ⟨_, ⟨hsrc, rfl⟩, _, ⟨hdst, rfl⟩, rfl⟩
    exact ⟨⟨hsrc, hdst⟩, rfl⟩
  · rintro ⟨⟨hsrc, hdst⟩, rfl⟩
    exact ⟨_, ⟨hsrc, rfl⟩, _, ⟨hdst, rfl⟩, rfl⟩

/-! ## Up to the event -/

variable [DecidableEq A]

variable (netip outside asDetails) in
/-- The numbers of the systems are found, and stored. -/
structure Enriches (ips : List (Option A)) : Prop where
  results : ∃ results,
    outside.lookup (missingIPs netip (existingIPs netip asDetails ips) ips) = some results ∧
      (∀ r ∈ results, (netip.parseAddr r.ip).isSome) ∧
      KeepsKey netip asDetails (results.filterMap (AsnResult.row netip))
  upsertAsDetails : outside.upsertAsDetails = true

theorem enrichMissingHops_isOk_iff {ips : List (Option A)} :
    (∃ table, enrichMissingHops netip outside asDetails (existingIPs netip asDetails ips) ips =
      .ok table) ↔ Enriches netip outside asDetails ips := by
  simp only [enrichMissingHops, bind_eq_ok_iff, missingRows_eq_ok_iff, query_eq_ok_iff,
    orError_eq_ok_iff]
  constructor
  · rintro ⟨table, _, ⟨results, hlookup, hparse, rfl⟩, _, hupsert, hcopy⟩
    have hkey := copyAsDetails_isSome_iff.mp (Option.isSome_of_mem hcopy)
    exact ⟨⟨results, hlookup, hparse, hkey⟩, hupsert⟩
  · rintro ⟨⟨results, hlookup, hparse, hkey⟩, hupsert⟩
    obtain ⟨table, hcopy⟩ := Option.isSome_iff_exists.mp (copyAsDetails_isSome_iff.mpr hkey)
    exact ⟨table, _, ⟨results, hlookup, hparse, rfl⟩, (), hupsert, hcopy⟩

variable (netip parseUUID outside asDetails report) in
/-- All that has to hold for the event to be published. -/
structure Prepares (trace : Trace) : Prop where
  data : report.data = some trace
  src : (netip.parseAddr trace.src).isSome
  dst : (netip.parseAddr trace.dst).isSome
  beginTx : outside.beginTx = true
  agentConfigID : (parseUUID report.agentConfigId).isSome
  insertTraceMeasurement : outside.insertTraceMeasurement = true
  hops : ∀ hop ∈ trace.hops, hop.Readable netip
  getExistingIPs : outside.getExistingIPs = true
  enriches : Enriches netip outside asDetails (trace.hops.map (Hop.address netip))
  getASNForIPs : outside.getASNForIPs = true

variable (netip rt report) in
/-- What is prepared for a report. -/
structure Prepared.For (prepared : Prepared A U) : Prop where
  data : report.data = some prepared.trace
  serialID : prepared.measurement.serialID = report.serialId
  timestamp : prepared.measurement.timestamp = report.timestamp
  links : prepared.links = extractLinks rt prepared.trace.toTraceDataTracePayload
  hops : prepared.hops.map (fun row => (row.ip, row.ttl, row.isNoHop)) =
    prepared.trace.hops.map fun hop => (hop.address netip, int32 hop.probeTTL, false)
  asnPathHash : prepared.measurement.asnPathHash = hopsHash netip
    (getIPToASNMap netip prepared.asDetails (prepared.trace.hops.map (Hop.address netip)))
    prepared.trace.hops
  linkPathHash : prepared.measurement.linkPathHash = fingerprint (linkText prepared.links)

theorem prepare_ok {prepared : Prepared A U}
    (h : prepare netip parseUUID outside rt asDetails report = .ok prepared) :
    Prepares netip parseUUID outside asDetails report prepared.trace ∧
      prepared.For netip rt report := by
  simp only [prepare, bind_eq_ok_iff, orError_eq_ok_iff, query_eq_ok_iff,
    mapM_eq_ok_iff hopIP_eq_ok_iff, pure, Except.pure, Except.ok.injEq] at h
  obtain ⟨trace, hdata, src, hsrc, dst, hdst, _, hbegin, id, hid, _, hinsert, _, ⟨hhops, rfl⟩, _,
    hexisting, table, henrich, _, hnumbers, rfl⟩ := h
  have henriches := enrichMissingHops_isOk_iff.mp ⟨table, henrich⟩
  refine ⟨⟨hdata, Option.isSome_of_mem hsrc, Option.isSome_of_mem hdst, hbegin,
    Option.isSome_of_mem hid, hinsert, hhops, hexisting, henriches, hnumbers⟩,
    ⟨hdata, rfl, rfl, rfl, ?_, ?_, rfl⟩⟩
  · rw [List.zipWith_map_right, List.zipWith_self, List.map_map]
    rfl
  · rw [List.map_map]
    rfl

theorem Prepares.prepare_isOk {trace : Trace}
    (h : Prepares netip parseUUID outside asDetails report trace) (rt : Runtime) :
    ∃ prepared, prepare netip parseUUID outside rt asDetails report = .ok prepared := by
  obtain ⟨src, hsrc⟩ := Option.isSome_iff_exists.mp h.src
  obtain ⟨dst, hdst⟩ := Option.isSome_iff_exists.mp h.dst
  obtain ⟨id, hid⟩ := Option.isSome_iff_exists.mp h.agentConfigID
  obtain ⟨table, henrich⟩ := enrichMissingHops_isOk_iff.mpr h.enriches
  simp only [prepare, bind_eq_ok_iff, orError_eq_ok_iff, query_eq_ok_iff,
    mapM_eq_ok_iff hopIP_eq_ok_iff, pure, Except.pure, Except.ok.injEq]
  exact ⟨_, trace, h.data, src, hsrc, dst, hdst, (), h.beginTx, id, hid, (),
    h.insertTraceMeasurement, _, ⟨h.hops, rfl⟩, (), h.getExistingIPs, table, henrich, (),
    h.getASNForIPs, rfl⟩

/-! ## From the event on -/

variable (netip outside) in
/-- All that has to hold, once the event is published, for the transaction to be committed. -/
structure Finishes (links : List TraceLink) : Prop where
  upsertFingerprintHash : outside.upsertFingerprintHash = true
  insertTraceHop : outside.insertTraceHop = true
  links : ∀ link ∈ links, link.Readable netip
  insertTraceLink : outside.insertTraceLink = true

variable (netip) in
/-- What the transaction writes then. -/
def Prepared.rows (prepared : Prepared A U) : TraceRows A U where
  measurement := prepared.measurement
  hops := prepared.hops ++ prepared.trace.noHops.map (noHopRow prepared.measurement.timestamp)
  links := prepared.links.map (TraceLink.row netip prepared.measurement.timestamp)
  asDetails := prepared.asDetails

omit [DecidableEq A] in
theorem finish_eq_ok_iff {prepared : Prepared A U} {rows : TraceRows A U} :
    finish netip outside prepared = .ok rows ↔
      Finishes netip outside prepared.links ∧ rows = prepared.rows netip := by
  simp only [finish, bind_eq_ok_iff, query_eq_ok_iff, mapM_eq_ok_iff (linkRow_eq_ok_iff _), pure,
    Except.pure, Except.ok.injEq]
  constructor
  · rintro ⟨_, hupsert, _, hhop, _, ⟨hlinks, rfl⟩, _, hlink, rfl⟩
    exact ⟨⟨hupsert, hhop, hlinks, hlink⟩, rfl⟩
  · rintro ⟨h, rfl⟩
    exact ⟨(), h.upsertFingerprintHash, (), h.insertTraceHop, _, ⟨h.links, rfl⟩, (),
      h.insertTraceLink, rfl⟩

/-- The attempts to publish. -/
def Outside.replies (outside : Outside) : List Reply :=
  [outside.publish 0, outside.publish 1, outside.publish 2]

variable (netip outside) in
/-- All that has to hold, once the trace is prepared, for no error to be returned. -/
structure Succeeds (links : List TraceLink) : Prop where
  answered : (attempts outside.replies).2 = true
  finishes : Finishes netip outside links
  commit : outside.commit = .done

variable (netip outside) in
/-- **What comes of a trace that is prepared.** -/
structure Processed.Follows (prepared : Prepared A U) (processed : Processed A U) : Prop where
  error : processed.error = none ↔ Succeeds netip outside prepared.links
  published : processed.published =
    List.replicate (attempts outside.replies).1 (prepared.measurement.event netip)
  committed : processed.error = none → processed.committed = some (prepared.rows netip)
  unanswered : (attempts outside.replies).2 = false → processed.committed = none

theorem processNormalTrace_follows {prepared : Prepared A U}
    (hprepare : prepare netip parseUUID outside rt asDetails report = .ok prepared) :
    (processNormalTrace netip parseUUID outside rt asDetails report).Follows netip outside
      prepared := by
  have hpublish : publishMeasurement outside = attempts outside.replies := rfl
  unfold processNormalTrace
  simp only [hprepare, hpublish]
  cases hanswered : (attempts outside.replies).2 with
  | false =>
    exact ⟨⟨nofun, fun h => by simp [h.answered] at hanswered⟩, rfl, nofun, fun _ => rfl⟩
  | true =>
    simp only [Bool.not_true, Bool.false_eq_true, if_false]
    cases hfinish : finish netip outside prepared with
    | error e =>
      refine ⟨⟨nofun, fun h => ?_⟩, rfl, nofun, fun h => by simp [hanswered] at h⟩
      rw [finish_eq_ok_iff.mpr ⟨h.finishes, rfl⟩] at hfinish
      cases hfinish
    | ok rows =>
      obtain ⟨hfinishes, rfl⟩ := finish_eq_ok_iff.mp hfinish
      have hno : ¬ (attempts outside.replies).2 = false := by simp [hanswered]
      cases hcommit : outside.commit with
      | done =>
        exact ⟨⟨fun _ => ⟨hanswered, hfinishes, hcommit⟩, fun _ => rfl⟩, rfl, fun _ => rfl,
          fun h => absurd h hno⟩
      | failed =>
        exact ⟨⟨nofun, fun h => by simp [h.commit] at hcommit⟩, rfl, nofun, fun h => absurd h hno⟩
      | lost =>
        exact ⟨⟨nofun, fun h => by simp [h.commit] at hcommit⟩, rfl, nofun, fun h => absurd h hno⟩

/-! ## All or nothing -/

variable (netip rt report) in
/-- There is the measurement, and a row for each hop, whether it answered or not, and for each
link. -/
structure TraceRows.Of (rows : TraceRows A U) (trace : Trace) : Prop where
  serialID : rows.measurement.serialID = report.serialId
  timestamp : rows.measurement.timestamp = report.timestamp
  hops : rows.hops.map (fun row => (row.ip, row.ttl, row.isNoHop)) =
    trace.hops.map (fun hop => (hop.address netip, int32 hop.probeTTL, false)) ++
      trace.noHops.map fun hop => (none, int32 hop.probeTTL, true)
  links : rows.links = (extractLinks rt trace.toTraceDataTracePayload).map
    (TraceLink.row netip report.timestamp)

variable (netip rt report) in
/-- An error leaves nothing behind; otherwise all is stored, and published once. -/
structure AllOrNothing (processed : Processed A U) : Prop where
  error : processed.error ≠ none → processed.published = [] ∧ processed.committed = none
  success : processed.error = none → ∃ trace rows, report.data = some trace ∧
    processed.committed = some rows ∧ rows.Of netip rt report trace ∧
    processed.published = [rows.measurement.event netip]

theorem Prepared.For.rows {prepared : Prepared A U} (h : prepared.For netip rt report) :
    (prepared.rows netip).Of netip rt report prepared.trace where
  serialID := h.serialID
  timestamp := h.timestamp
  hops := by
    rw [Prepared.rows, List.map_append, h.hops, List.map_map]
    rfl
  links := by rw [Prepared.rows, h.links, h.timestamp]

/-- Whatever is published is published once, and nothing fails after it. -/
theorem Processed.Follows.allOrNothing_iff {prepared : Prepared A U} {processed : Processed A U}
    (h : processed.Follows netip outside prepared) (hfor : prepared.For netip rt report) :
    AllOrNothing netip rt report processed ↔
      attempts outside.replies = (0, false) ∨
        (attempts outside.replies = (1, true) ∧ Finishes netip outside prepared.links ∧
          outside.commit = .done) := by
  constructor
  · intro hall
    by_cases herror : processed.error = none
    · obtain ⟨hanswered, hfinishes, hcommit⟩ := h.error.mp herror
      obtain ⟨-, rows, -, -, -, honce⟩ := hall.success herror
      have htimes := congrArg List.length (h.published.symm.trans honce)
      rw [List.length_replicate] at htimes
      exact .inr ⟨Prod.ext htimes hanswered, hfinishes, hcommit⟩
    · have hnone := h.published.symm.trans (hall.error herror).1
      have htimes := (List.replicate_eq_nil_iff _).mp hnone
      have hanswered := mt (attempts_pos outside.replies) (by omega)
      exact .inl (Prod.ext htimes (Bool.eq_false_of_not_eq_true hanswered))
  · rintro (hsent | ⟨hsent, hfinishes, hcommit⟩)
    · have herror : processed.error ≠ none := fun hnone => by
        simpa [hsent] using (h.error.mp hnone).answered
      refine ⟨fun _ => ⟨?_, h.unanswered (by rw [hsent])⟩, fun hnone => absurd hnone herror⟩
      rw [h.published, hsent]
      rfl
    · have herror := h.error.mpr ⟨by rw [hsent], hfinishes, hcommit⟩
      refine ⟨fun hne => absurd herror hne, fun _ => ?_⟩
      refine ⟨prepared.trace, prepared.rows netip, hfor.data, h.committed herror, hfor.rows, ?_⟩
      rw [h.published, hsent]
      rfl

/-- **A trace is stored and published, or neither,** if and only if, once it is prepared, all the
attempts to publish the event fail without an effect, or one of them is answered before another has
an effect and nothing fails after it. -/
theorem all_or_nothing_iff (netip : Netip A) (parseUUID : String → Option U) (outside : Outside)
    (rt : Runtime) (asDetails : Table A AsDetails) (report : Report) :
    AllOrNothing netip rt report
        (processNormalTrace netip parseUUID outside rt asDetails report) ↔
      ∀ trace, Prepares netip parseUUID outside asDetails report trace →
        (∀ reply ∈ outside.replies, reply = .failed) ∨
          (SentOnce outside.replies ∧
            Finishes netip outside (extractLinks rt trace.toTraceDataTracePayload) ∧
            outside.commit = .done) := by
  cases hprepare : prepare netip parseUUID outside rt asDetails report with
  | error e =>
    have hprocess : processNormalTrace netip parseUUID outside rt asDetails report =
        { error := some e, published := [], committed := none } := by
      rw [processNormalTrace, hprepare]
    rw [hprocess]
    refine ⟨fun _ trace hprepares => ?_, fun _ => ⟨fun _ => ⟨rfl, rfl⟩, nofun⟩⟩
    obtain ⟨prepared, hok⟩ := hprepares.prepare_isOk rt
    rw [hprepare] at hok
    cases hok
  | ok prepared =>
    obtain ⟨hprepares, hfor⟩ := prepare_ok hprepare
    rw [(processNormalTrace_follows hprepare).allOrNothing_iff hfor, attempts_eq_zero_iff,
      attempts_eq_one_iff, hfor.links]
    refine ⟨fun h trace htrace => ?_, fun h => h prepared.trace hprepares⟩
    obtain rfl := Option.some.inj (hprepares.data.symm.trans htrace.data)
    exact h

end

/-! A trace over two routers. -/

/-- A trace with hops of these addresses, which answer to one probe. -/
def traceOver (addrs : List String) : Trace where
  src := "10.0.0.1"
  dst := "8.8.4.4"
  stopReason := ""
  hopCount := 0
  hops := addrs.mapIdx fun i addr => answer addr (i + 1) 1
  noHops := []

/-- The same in JSON. -/
def tracePayload (addrs : List String) : String :=
  let hops := addrs.mapIdx fun i addr =>
    "\x7b\"addr\":\"" ++ addr ++ "\",\"probe_ttl\":" ++ toString (i + 1) ++
      ",\"probe_id\":1,\"rtt\":" ++ toString (i + 1) ++ ",\"reply_ttl\":64,\"icmp_type\":11\x7d"
  "\x7b\"src\":\"10.0.0.1\",\"dst\":\"8.8.4.4\",\"hops\":[" ++ ",".intercalate hops ++ "]\x7d"

def traceReport (addrs : List String) : Report where
  serialId := "agent-1"
  agentConfigId := "6ba7b810-9dad-11d1-80b4-00c04fd430c8"
  timestamp := 0
  type := "trace"
  method := "icmp-paris"
  raw := octets (tracePayload addrs)
  data := some (traceOver addrs)

/-- What comes of it, with nothing in `as_details`. -/
def processOver (outside : Outside) (addrs : List String) : Processed Netip.V4 Octets :=
  processNormalTrace .v4 Uuid.parse outside .ascending ∅ (traceReport addrs)

def twoHops (outside : Outside) : Processed Netip.V4 Octets :=
  processOver outside ["8.8.8.8", "8.8.4.4"]

def commitFails : Outside := { allWell with commit := .failed }

def answerLost : Outside := { allWell with publish := fun n => if n = 0 then .lost else .done }

/-- The commit fails after the event is published; or the answer to the first attempt is lost, and
the event is published twice. -/
theorem published_and_not_stored :
    (twoHops commitFails).error = some .commit ∧
      (twoHops commitFails).published.map TraceEvent.target = ["8.8.4.4"] ∧
      (twoHops commitFails).committed.isNone ∧
      (twoHops answerLost).error = none ∧
      (twoHops answerLost).published.length = 2 ∧
      ¬ AllOrNothing .v4 .ascending (traceReport ["8.8.8.8", "8.8.4.4"]) (twoHops commitFails) := by
  have hpublished : (twoHops commitFails).published.map TraceEvent.target = ["8.8.4.4"] := by
    decide +kernel
  have herror : (twoHops commitFails).error = some .commit := by decide +kernel
  refine ⟨herror, hpublished, by decide +kernel, by decide +kernel, by decide +kernel, fun h => ?_⟩
  have hnone := (h.error (by rw [herror]; nofun)).1
  rw [hnone] at hpublished
  cases hpublished

end Cepheus.TraceProcessor
