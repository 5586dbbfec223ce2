import Cepheus.Argus.Properties.Provenance
import Cepheus.Argus.Properties.Reference

/-!
# What findings and events are about

* `Pipeline.Reports` - a detector has found something in a message that the stream has handed out
* `Database.Holds` - every finding and every event of the tables goes back to such a report
* `System.Grounded` - and so does what the workers are about to write

Neither a failed statement nor the end of the process puts anything else into the tables.
-/

namespace Cepheus.Argus

open Infra

/-! ## Rows -/

/-- The row is the one of the finding, attached to an event or not. -/
def FindingRow.Of (row : FindingRow) (key : SeriesKey) (finding : Finding) : Prop :=
  { row with eventId := none } = { finding.row key with ts := Time.micros finding.ts }

/-- The event was opened on the finding. -/
structure EventRow.OpenedOn (row : EventRow) (key : SeriesKey) (finding : Finding) : Prop where
  serialId : row.serialId = key.serialId
  target : row.target = key.target
  port : row.port = key.port
  metric : row.metric = key.metric
  openedAt : row.openedAt = Time.micros finding.ts

/-- Every finding of the table is one of `P`, and every event was opened on one of them. -/
structure Database.Holds (P : SeriesKey → Finding → Prop) (db : Database) : Prop where
  findings : ∀ id row, db.findings.lookup id = some row → ∃ key finding, P key finding ∧
    row.Of key finding
  events : ∀ e row, db.events.lookup e = some row → ∃ key finding, P key finding ∧
    row.OpenedOn key finding

section

variable {P Q : SeriesKey → Finding → Prop} {cfg : PolicyEngineConfig} {db tx : Database}
  {w : World} {k : SeriesKey} {finding : Finding} {s : PolicyState}

theorem Database.Holds.imp (h : db.Holds P) (himp : ∀ key finding, P key finding → Q key finding) :
    db.Holds Q := by
  refine ⟨fun id row hrow => ?_, fun e row hrow => ?_⟩
  · obtain ⟨key, finding, hp, hof⟩ := h.findings id row hrow
    exact ⟨key, finding, himp _ _ hp, hof⟩
  · obtain ⟨key, finding, hp, hof⟩ := h.events e row hrow
    exact ⟨key, finding, himp _ _ hp, hof⟩

theorem Database.holds_empty : Database.empty.Holds P := by
  constructor <;> simp [Database.empty]

/-! ## Statements -/

theorem Database.Holds.attach (h : db.Holds P) (e id : Uuid) :
    (db.attachFindingToEvent e id).Holds P := by
  refine ⟨fun i row hrow => ?_, h.events⟩
  simp only [Database.attachFindingToEvent, Table.lookup_adjust] at hrow
  split at hrow
  · obtain ⟨row₀, hrow₀, rfl⟩ := Option.map_eq_some_iff.mp hrow
    exact h.findings _ row₀ hrow₀
  · exact h.findings i row hrow

theorem Database.Holds.closeEvent (h : db.Holds P) (e : Uuid) (now : Time) :
    (db.closeEvent e now).Holds P := by
  refine ⟨h.findings, fun e' row hrow => ?_⟩
  simp only [Database.closeEvent, Table.lookup_adjust] at hrow
  split at hrow
  · obtain ⟨row₀, hrow₀, rfl⟩ := Option.map_eq_some_iff.mp hrow
    obtain ⟨key, finding, hp, hof⟩ := h.events _ row₀ hrow₀
    exact ⟨key, finding, hp, hof.serialId, hof.target, hof.port, hof.metric, hof.openedAt⟩
  · exact h.events e' row hrow

theorem Database.Holds.insertFinding (h : db.Holds P) (hp : P k finding) {id : Uuid}
    (hd : db.insertFinding id (finding.row k) = some tx) : tx.Holds P := by
  rw [(Database.insertFinding_eq_some hd).2]
  refine ⟨fun i row hrow => ?_, h.events⟩
  rw [Table.lookup_insert_if] at hrow
  split at hrow
  · obtain rfl := Option.some.inj hrow
    exact ⟨k, finding, hp, rfl⟩
  · exact h.findings i row hrow

theorem Database.Holds.saved (h : db.Holds P) (o : Outcome) : (saved o k s db).Holds P :=
  ⟨by simpa using h.findings, by simpa using h.events⟩

theorem OpensEvent.holds {env : ApplyEnv} (htx : OpensEvent env k s finding db tx)
    (h : db.Holds P) (hp : P k finding) : tx.Holds P := by
  refine ⟨fun id row hrow => ?_, fun e row hrow => ?_⟩
  · rw [htx.findings] at hrow
    split at hrow
    · obtain ⟨row₀, hrow₀, rfl⟩ := Option.map_eq_some_iff.mp hrow
      exact h.findings id row₀ hrow₀
    · exact h.findings id row hrow
  · rw [htx.events, Table.lookup_insert_if] at hrow
    split at hrow
    · obtain rfl := Option.some.inj hrow
      exact ⟨k, finding, hp, rfl, rfl, rfl, rfl, rfl⟩
    · exact h.events e row hrow

/-! ## Calls -/

theorem Applied.holds {env : ApplyEnv} {id : Uuid} {r : PolicyState × Database × Option Halt}
    (ha : Applied cfg env k finding id s db r) (h : db.Holds P) (hp : P k finding) :
    r.2.1.Holds P := by
  cases ha with
  | orphaned tx _ _ _ htx _ | opened tx _ _ _ htx _ => exact (openEventTx_ok htx).holds h hp
  | attach e _ _ | stuck e _ _ _ =>
    dsimp only
    split
    · exact h.attach e id
    · exact h
  | refire e _ _ _ => exact h.attach e id
  | _ => exact h

theorem Swept.holds {now : Time} {o : Outcome} {r : PolicyState × Database × Option Halt}
    (hs : Swept cfg now o s db r) (h : db.Holds P) : r.2.1.Holds P := by
  cases hs with
  | close e _ _ _ => exact h.closeEvent e now
  | unclosed e _ _ _ =>
    dsimp only
    split
    · exact h.closeEvent e now
    · exact h
  | _ => exact h

theorem Database.Holds.insertFinding_call (h : w.db.Holds P) (hp : P k finding) (o : Outcome)
    (id : Uuid) : (Argus.insertFinding o id k finding w).1.db.Holds P := by
  rcases insertFinding_cases o id k finding w with he | ⟨db, hd, he⟩
  · rw [he]
    exact h
  · rw [he]
    exact h.insertFinding hp hd

theorem Database.Holds.applyFinding (h : w.db.Holds P) (hp : P k finding)
    (cfg : PolicyEngineConfig) (env : ApplyEnv) (id : Uuid) :
    (applyFinding cfg env k finding id w).1.db.Holds P := by
  rcases applyFinding_cases cfg env k finding id w with
    ⟨x, -, he⟩ | ⟨s, s', db, -, ⟨x, happ, he⟩ | ⟨happ, he⟩⟩
  · rw [he]
    exact h
  · rw [he]
    exact happ.holds h hp
  · rw [he]
    exact (happ.holds h hp).saved _

theorem Database.Holds.sweepOne (h : w.db.Holds P) (env : SweepEnv) (k : SeriesKey) :
    (sweepOne cfg env k w).1.db.Holds P := by
  rcases sweepOne_cases cfg env k w with ⟨-, he⟩ | ⟨s, s', db, -, ⟨x, hsw, he⟩ | ⟨hsw, he⟩⟩
  · rw [he]
    exact h
  · rw [he]
    exact hsw.holds h
  · rw [he]
    exact (hsw.holds h).saved _

theorem Database.Holds.sweep (h : w.db.Holds P) (cfg : PolicyEngineConfig) (env : SweepEnv) :
    (sweep cfg env w).1.db.Holds P := by
  by_cases hlist : env.listNonClean = .ok
  · rw [sweep_of_listed hlist]
    have hround : ∀ (w : World) k, w.db.Holds P → (Argus.sweepOne cfg env k w).1.db.Holds P :=
      fun w k hw => hw.sweepOne env k
    exact sweepLoop_invariant hround (w := w.hydrated env.rows) h
  · rw [sweep_of_not_listed hlist]
    exact h

end

/-! ## Reports -/

variable {V S : Type}

/-- A message that the stream has handed out tells a sample of a series, and a detector that
watches a metric of the series finds something in it. -/
structure Pipeline.Reports (p : Pipeline V S) (delivered : Finset MsgId) (key : SeriesKey)
    (finding : Finding) : Prop where
  of_message : ∃ id ∈ delivered, ∃ series sample, p.decode id = some (series, sample) ∧
    ∃ watch ∈ p.worker.watches series.type, key = watch.key series ∧
      ∃ state next, stepSample watch.extractor watch.detector state sample =
        some (next, some finding)

theorem Pipeline.Reports.mono {p : Pipeline V S} {delivered delivered' : Finset MsgId}
    {key : SeriesKey} {finding : Finding} (h : p.Reports delivered key finding)
    (hsub : delivered ⊆ delivered') : p.Reports delivered' key finding := by
  obtain ⟨id, hid, hrest⟩ := h.of_message
  exact ⟨id, hsub hid, hrest⟩

/-- The findings that a worker is about to write are reported. -/
def Phase.Reporting (P : SeriesKey → Finding → Prop) : Phase V S → Prop
  | .insert _ key finding => P key finding
  | .apply _ key finding _ => P key finding
  | _ => True

section Step

variable {P Q : SeriesKey → Finding → Prop} {p : Pipeline V S} {series : DiscoveredSeries}
  {g g' : Goroutine V S} {db db' : Stores S} {tick : Tick} {ev : Option (Event V S)}
  {halt : Option Halt}

theorem Phase.Reporting.imp {phase : Phase V S} (h : phase.Reporting P)
    (himp : ∀ key finding, P key finding → Q key finding) : phase.Reporting Q := by
  cases phase with
  | insert _ key finding | apply _ key finding _ => exact himp key finding h
  | _ => trivial

theorem Goroutine.reporting_enter (batch : List Item) (i : Nat) :
    (g.enter batch i).Reporting P := by
  unfold enter
  cases g.monitors[i]? <;> trivial

/-- What a monitor finds in an item of its worker is a report. -/
theorem Goroutine.Provenance.reports {delivered : Finset MsgId}
    (h : g.Provenance p delivered series) {m : Monitor V S} (hm : m ∈ g.monitors) {it : Item}
    (hit : it ∈ g.items) {finding : Finding} (hf : (m.foldSample it.sample).2 = some finding) :
    p.Reports delivered m.key finding := by
  obtain ⟨watch, hwatch, hw⟩ := h.monitors m hm
  have hof := h.items it hit
  rcases m.foldSample_cases it.sample with ⟨next, found, -, hstep, he⟩ | ⟨-, he⟩
  · rw [he] at hf
    rw [show found = some finding from hf, Monitor.stepSample, hw.extractor, hw.detector] at hstep
    exact ⟨it.msg, hof.delivered, series, it.sample, hof.decode, watch, hwatch, hw.key, m.state,
      next, hstep⟩
  · rw [he] at hf
    cases hf

/-- **What a move of a worker writes, and what it is about to write.** -/
theorem Goroutine.Step.grounded (hstep : g.Step p series db tick ev g' db' halt)
    {delivered : Finset MsgId} (hprov : g.Provenance p delivered series)
    (hphase : g.phase.Reporting (p.Reports delivered))
    (hdb : db.world.db.Holds (p.Reports delivered)) :
    g'.phase.Reporting (p.Reports delivered) ∧ db'.world.db.Holds (p.Reports delivered) := by
  cases hstep with
  | idle | unloaded => exact ⟨hphase, hdb⟩
  | closed _ _ | unsaved _ _ _ _ => exact ⟨g.reporting_enter _ _, hdb⟩
  | saved _ _ _ _ =>
    rw [saveBaseline_eq]
    exact ⟨g.reporting_enter _ _, hdb⟩
  | @folded point m it rows hp hr hm =>
    refine ⟨?_, hdb⟩
    have hit : it ∈ g.phase.taken point.index := by
      simp [hp, Phase.taken, FoldPoint.rowsOf, hr]
    have hmem : it ∈ g.items := List.mem_append_left _ (hprov.taken _ hit)
    unfold foldItem
    cases hf : (m.foldSample it.sample).2 with
    | none => trivial
    | some finding => exact hprov.reports (List.mem_of_getElem? hm) hmem hf
  | @inserted _ key finding id o _ _ hp hw | @refused _ key finding id o _ _ hp hw =>
    rw [hp] at hphase
    have hreports : p.Reports delivered key finding := hphase
    have hholds := hdb.insertFinding_call hreports o id
    rw [hw] at hholds
    exact ⟨by first | exact hreports | trivial, hholds⟩
  | @applied _ key finding findingId env _ _ hp hw =>
    rw [hp] at hphase
    have hreports : p.Reports delivered key finding := hphase
    have hholds := hdb.applyFinding hreports p.config env findingId
    rw [hw] at hholds
    exact ⟨trivial, hholds⟩
  | acked _ =>
    refine ⟨trivial, ?_⟩
    split <;> exact hdb
  | _ => exact ⟨trivial, hdb⟩

end Step

/-! ## The service -/

/-- Everything that is found goes back to a message of the stream. -/
structure System.Grounded (p : Pipeline V S) (s : System V S) : Prop where
  provenance : s.Provenance p
  workers : s.Workers fun _ g => g.phase.Reporting (p.Reports s.db.delivered)
  tables : s.db.world.db.Holds (p.Reports s.db.delivered)

section

variable {p : Pipeline V S} {s s' : System V S} {move : Move} {ev : Option (Event V S)}

theorem System.grounded_boot {db : Stores S} (h : db.world.db.Holds (p.Reports db.delivered)) :
    (System.boot db : System V S).Grounded p :=
  ⟨provenance_boot p db, workers_boot _ _, h⟩

theorem System.Grounded.next (h : s.Grounded p) (hnext : s.Next p move ev s') :
    s'.Grounded p := by
  have hsub := hnext.delivered_subset
  have hmono : ∀ key finding, p.Reports s.db.delivered key finding →
      p.Reports s'.db.delivered key finding := fun _ _ hr => hr.mono hsub
  refine ⟨h.provenance.next hnext, ?_, ?_⟩
  · refine hnext.workers (P := fun series g => g.Provenance p s.db.delivered series ∧
      g.phase.Reporting (p.Reports s.db.delivered)) ?_ (fun _ _ hg => hg.2.imp hmono)
      (fun _ => trivial) (fun _ _ _ _ hg => hg.2.imp hmono) ?_
    · exact fun series g hg => ⟨h.provenance.workers series g hg, h.workers series g hg⟩
    · intro series tick g g' halt _ _ hstep _ hg
      exact (hstep.grounded hg.1 hg.2 h.tables).1.imp hmono
  · cases hnext with
    | worked hg hstep _ =>
      exact (hstep.grounded (h.provenance.workers _ _ hg) (h.workers _ _ hg) h.tables).2.imp hmono
    | @swept env _ _ hw _ =>
      have hholds := h.tables.sweep p.config env
      rw [hw] at hholds
      exact hholds
    | _ => exact h.tables.imp hmono

theorem System.Grounded.death (h : s.Grounded p) (hdeath : s.Death p move ev s') :
    s'.Grounded p := by
  cases hdeath with
  | worked hg hstep _ =>
    have hholds :=
      (hstep.grounded (h.provenance.workers _ _ hg) (h.workers _ _ hg) h.tables).2
    refine grounded_boot ?_
    show Database.Holds (p.Reports _) _
    rw [hstep.delivered]
    exact hholds
  | @swept env _ _ hw _ =>
    have hholds := h.tables.sweep p.config env
    rw [hw] at hholds
    exact grounded_boot hholds
  | crashed => exact grounded_boot h.tables

theorem System.Grounded.step (h : s.Grounded p) (move : Move) : (s.step p move).Grounded p := by
  by_cases hd : s.Dies p move
  · exact h.death (s.step_death p move hd)
  · exact h.next (s.step_next p move hd)

/-- **Whatever fails and whenever the process ends, everything that argus finds goes back to a
message of the stream.** -/
theorem System.grounded_run (p : Pipeline V S) (moves : List Move) :
    (run (step p) (boot Stores.empty) moves).Grounded p := by
  have hstep : ∀ (s : System V S) m, s.Grounded p → (s.step p m).Grounded p :=
    fun s m h => h.step m
  exact run_always hstep (grounded_boot Database.holds_empty)

end

end Cepheus.Argus
