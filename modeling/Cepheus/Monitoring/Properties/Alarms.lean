import Cepheus.Argus.Properties.Deployed
import Cepheus.Argus.Properties.Grounds
import Cepheus.Argus.Properties.Reading
import Cepheus.DataPlane.Properties.Announced
import Cepheus.Monitoring.System

/-!
# Alarms are about measurements

Argus reads a stream that grows while it runs. Where it gets to is where it would get to with all
messages in the stream from the beginning, so that whatever is true of argus and any stream is true
here. With what is known about the events in the stream, each alarm goes back to a result that an
agent has measured.

* `System.Projected` - argus has taken a run of its own
* `alarms_as_measured` - there are no others than these alarms
-/

namespace Cepheus.Monitoring

open Infra

namespace System

variable {D A U V S : Type} [DecidableEq D] [DecidableEq A] {p : DataPlane.Plant D A U}
  {q : Argus.Pipeline V S} {s : System D A U V S}

/-! ## The two parts of a run -/

theorem plane_run (p : DataPlane.Plant D A U) (q : Argus.Pipeline V S) (moves : List (Move D))
    (s : System D A U V S) :
    (run (step p q) s moves).plane =
      run (DataPlane.System.step p) s.plane (moves.filterMap Move.plane?) := by
  induction moves generalizing s with
  | nil => rfl
  | cons m moves ih =>
    rw [run_cons, ih]
    cases m with
    | plane m => rfl
    | argus m =>
      simp only [step, Move.plane?]
      split <;> rfl

/-- Argus has taken a run of its own, the one that it would take in every stream that begins with
the messages that are there. -/
structure Projected (q : Argus.Pipeline V S) (s : System D A U V S) : Prop where
  delivered : ∀ id ∈ s.argus.db.delivered, id < s.messages.length
  run : ∃ moves, ∀ messages, s.messages <+: messages →
    s.argus = Infra.run (Argus.System.step (q.reading messages)) (.boot .empty) moves

omit [DecidableEq D] [DecidableEq A] in
theorem Projected.fetched (h : s.Projected q) : ∀ id ∈ s.argus.fetched, id < s.messages.length := by
  obtain ⟨moves, hrun⟩ := h.run
  have hprov := (Argus.System.grounded_run (q.reading s.messages) moves).provenance
  rw [← hrun s.messages (List.prefix_refl _)] at hprov
  exact fun id hid => h.delivered id (hprov.fetched id hid)

theorem Projected.step (h : s.Projected q) (m : Move D) : (s.step p q m).Projected q := by
  obtain ⟨moves, hrun⟩ := h.run
  cases m with
  | plane m =>
    have hgrown := DataPlane.System.streams_step p s.plane m .measurements
    exact ⟨fun id hid => lt_of_lt_of_le (h.delivered id hid) hgrown.length_le,
      moves, fun messages hmessages => hrun messages (hgrown.trans hmessages)⟩
  | argus m =>
    simp only [System.step]
    split
    case isFalse => exact h
    case isTrue hallows =>
      refine ⟨fun id hid => ?_, moves ++ [m], fun messages hmessages => ?_⟩
      · rcases Argus.System.delivered_step m hid with hid | rfl
        · exact h.delivered id hid
        · exact (of_decide_eq_true hallows).2
      · have hdecode : ∀ id ∈ s.argus.fetched,
            (q.reading s.messages).decode id = (q.reading messages).decode id :=
          fun id hid => Argus.Pipeline.decode_reading_grown hmessages (h.fetched id hid)
        have hstep : s.argus.step (q.reading s.messages) m =
            s.argus.step (q.reading messages) m := by
          refine Argus.System.step_congr ?_ ?_ hdecode m <;> rfl
        rw [run_append, ← hrun messages hmessages, hstep]
        rfl

theorem projected_run (p : DataPlane.Plant D A U) (q : Argus.Pipeline V S)
    (moves : List (Move D)) : (run (step p q) (start p) moves).Projected q := by
  have hstep : ∀ (s : System D A U V S) m, s.Projected q → (s.step p q m).Projected q :=
    fun s m h => h.step m
  exact run_always hstep ⟨fun id hid => absurd hid (Finset.notMem_empty id), [], fun _ _ => rfl⟩

/-! ## Alarms -/

/-- A detector has found something in what an agent has measured. -/
structure Found (p : DataPlane.Plant D A U) (q : Argus.Pipeline V S) (s : System D A U V S)
    (key : Argus.SeriesKey) (finding : Argus.Finding) : Prop where
  of_measured : ∃ series sample, s.plane.Tells p series sample ∧
    ∃ watch ∈ q.worker.watches series.type, key = watch.key series ∧
      ∃ state next, Argus.stepSample watch.extractor watch.detector state sample =
        some (next, some finding)

/-- Everything in the tables of argus was found in what an agent has measured. -/
theorem holds_run (p : DataPlane.Plant D A U) (q : Argus.Pipeline V S) (moves : List (Move D))
    (hfits : ∀ d done leaves r, .plane (.agent d (.insert done leaves r)) ∈ moves →
      DataPlane.PingFits p.parseFloat r) :
    let s := run (step p q) (start p) moves
    s.argus.db.world.db.Holds (s.Found p q) := by
  intro s
  have hproj : s.Projected q := projected_run p q moves
  obtain ⟨argusMoves, hrun⟩ := hproj.run
  have hgrounded := Argus.System.grounded_run (q.reading s.messages) argusMoves
  rw [← hrun s.messages (List.prefix_refl _)] at hgrounded
  have hplane : s.plane =
      run (DataPlane.System.step p) (.start p) (moves.filterMap Move.plane?) :=
    plane_run p q moves _
  refine hgrounded.tables.imp fun key finding hreports => ?_
  obtain ⟨id, hid, series, sample, hdecode, hwatch⟩ := hreports.of_message
  have hlength := hproj.delivered id hid
  -- the message is one of the events of the data plane, and each of them tells about a result
  have hmeasured : ∀ d, ∀ r ∈ (s.plane.agents d).measured, DataPlane.PingFits p.parseFloat r := by
    rw [hplane]
    refine DataPlane.System.fits_of_moves fun d done leaves r hmem => hfits d done leaves r ?_
    obtain ⟨m, hm, he⟩ := List.mem_filterMap.mp hmem
    cases m with
    | plane m => rwa [Option.some.inj he] at hm
    | argus m => cases he
  have hsound : s.plane.Sound p := by
    rw [hplane]
    exact DataPlane.System.sound_run _
  obtain ⟨series', sample', htold, htells⟩ := hsound.tells hmeasured hlength
  obtain ⟨rfl, rfl⟩ := Prod.mk.inj (Option.some.inj (htold.symm.trans hdecode))
  exact ⟨series', sample', htells, hwatch⟩

variable (root : Root) (log10 : ℚ → ℚ)

/-- An alarm about what an agent has measured: the step of a deployed detector on one of its metrics
reports the finding, which has the time and the value of the sample. -/
def Alarm (p : DataPlane.Plant D A U) (plane : DataPlane.System D A U) (key : Argus.SeriesKey)
    (finding : Argus.Finding) : Prop :=
  ∃ series sample extractor state next, plane.Tells p series sample ∧
    extractor ∈ Argus.createDefaultRegistry.getExtractors series.type ∧
    key = series.monitorKey extractor.metricName key.detector ∧
    Argus.Deployed root log10 extractor state sample key.detector next (some finding) ∧
    finding.ts = sample.ts ∧
    Argus.Unusual extractor sample key.detector finding.value finding.severity

variable {root log10} in
omit [DecidableEq D] in
theorem Found.alarm {s : System D A U Argus.Extracted Argus.Baseline} {key : Argus.SeriesKey}
    {finding : Argus.Finding} (h : s.Found p (Argus.deployed root log10) key finding) :
    Alarm root log10 p s.plane key finding := by
  obtain ⟨series, sample, htells, watch, hwatch, rfl, state, next, hstep⟩ := h.of_measured
  have hdeployed := Argus.deployed_of_stepSample hwatch hstep
  obtain ⟨hts, hunusual⟩ := hdeployed.unusual rfl
  exact ⟨series, sample, watch.extractor, state, next, htells,
    (Argus.mem_watches_deployed hwatch).1, rfl, hdeployed, hts, hunusual⟩

/-- **There are no other alarms.** After every run of the agents, the processors and the deployed
argus, whatever the interleaving, whatever fails and whenever argus ends: each finding in its table
is one that a deployed detector reports for a result that an agent has measured, with the series of
the result, its time and the value of one of its metrics; and each event was opened on such a
finding. -/
theorem alarms_as_measured (p : DataPlane.Plant D A U) (moves : List (Move D))
    (hfits : ∀ d done leaves r, .plane (.agent d (.insert done leaves r)) ∈ moves →
      DataPlane.PingFits p.parseFloat r) :
    let s := run (step p (Argus.deployed root log10)) (start p) moves
    (∀ id row, s.argus.db.world.db.findings.lookup id = some row →
      ∃ key finding, Alarm root log10 p s.plane key finding ∧ row.Of key finding) ∧
    ∀ id row, s.argus.db.world.db.events.lookup id = some row →
      ∃ key finding, Alarm root log10 p s.plane key finding ∧ row.OpenedOn key finding := by
  intro s
  have hholds : s.argus.db.world.db.Holds (Alarm root log10 p s.plane) :=
    (holds_run p _ moves hfits).imp fun _ _ hfound => hfound.alarm
  exact ⟨hholds.findings, hholds.events⟩

/-! ## A loss -/

/-- What scamper says about a ping to which so many answers came. -/
def pingResult (timestamp : Time) (replies : Int) : Common.ProbeResult where
  taskID := "ping"
  probeType := .ping
  kind := "ping"
  timestamp := timestamp
  data := .value (.object [("dst", .string "10.0.0.1"), ("ping_sent", .ofInt 50),
    ("responses", .array []), ("statistics", .object [("replies", .ofInt replies)])])

/-- A result is measured, announced and stored. -/
def announce (i : Nat) (r : Common.ProbeResult) : List (Move Unit) :=
  [.agent () (.insert false false r), .agent () .receive, .agent () (.prepare r.timestamp),
    .agent () (.attempt .done), .ping (.deliver i), .ping .take, .ping (.attempt .done),
    .ping .hand, .ping (.receive {} {}), .ping (.tick {} {})].map .plane

def lossSeries : Argus.DiscoveredSeries :=
  { type := .ping, serialId := "agent-1", target := "10.0.0.1", port := 0, src := "" }

/-- Argus hands a message to the worker of the series, which does what it does next. -/
def watch (i : Nat) (ticks : List Argus.Tick) : List (Move Unit) :=
  (Argus.Move.deliver i ++ ticks.map (Argus.Move.work lossSeries)).map .argus

/-- All answers come, and then none. -/
def lossResults : List Common.ProbeResult :=
  [pingResult Argus.newYear 50, pingResult (Argus.newYear + second) 0]

def lossMoves : List (Move Unit) :=
  announce 0 (pingResult Argus.newYear 50) ++
  watch 0 [.load .ok, .load .ok, .load .ok, .receive, .drain, .fold, .save .ok, .fold, .save .ok,
    .ack true, .ack true] ++
  announce 1 (pingResult (Argus.newYear + second) 0) ++
  watch 1 [.receive, .drain, .fold, .save .ok, .fold, .insert 0 .ok]

/-- Without responses there is no round trip that could be out of range. -/
theorem lossMoves_fits (d : Unit) (done leaves : Bool) (r : Common.ProbeResult)
    (h : .plane (.agent d (.insert done leaves r)) ∈ lossMoves) :
    DataPlane.PingFits DataPlane.System.onePlant.parseFloat r := by
  have hr : r ∈ lossResults := by
    simp only [lossMoves, announce, watch, Argus.Move.deliver, List.map_append, List.map_cons,
      List.map_nil, List.mem_append, List.mem_cons, Move.plane.injEq, DataPlane.Move.agent.injEq,
      Agent.Reporter.Move.insert.injEq, reduceCtorEq, List.not_mem_nil] at h
    simp only [lossResults, List.mem_cons, List.not_mem_nil]
    tauto
  have hempty : ∀ r ∈ lossResults, (r.data.marshal.bind
      (Common.unmarshalPingData DataPlane.System.onePlant.parseFloat)).map
        (fun data => data.responses) = some [] := by
    decide +kernel
  intro _ data hdata response hresponse
  have hnil : some data.responses = some [] := by simpa [hdata] using hempty r hr
  rw [Option.some.inj hnil] at hresponse
  cases hresponse

theorem loss_as_measured :
    let s := run (step DataPlane.System.onePlant (Argus.deployed .floor fun _ => -6))
      (start DataPlane.System.onePlant) lossMoves
    ∃ row, s.argus.db.world.db.findings.lookup 0 = some row ∧ row.value = 1 ∧
      ∃ key finding, Alarm .floor (fun _ => -6) DataPlane.System.onePlant s.plane key finding ∧
        row.Of key finding := by
  have hrow : ((run (step DataPlane.System.onePlant (Argus.deployed .floor fun _ => -6))
      (start DataPlane.System.onePlant) lossMoves).argus.db.world.db.findings.lookup 0).map
      Argus.FindingRow.value = some 1 := by
    decide +kernel
  obtain ⟨row, hrow, hvalue⟩ := Option.map_eq_some_iff.mp hrow
  have hmeasured := (alarms_as_measured .floor (fun _ => -6) DataPlane.System.onePlant lossMoves
    lossMoves_fits).1
  exact ⟨row, hrow, hvalue, hmeasured 0 row hrow⟩

end System

end Cepheus.Monitoring
