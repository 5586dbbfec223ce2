import Cepheus.Argus.Properties.Alarm
import Cepheus.Argus.Properties.Sweep

/-!
# Calls that succeed

What is left of the ways through the code when every statement of a call succeeds: four for
`ApplyFinding`, and a loop of `Sweep` that visits every entry.

* `step_applyFinding` - one way of `AppliedOk`, and the state is saved
* `step_sweep` - every entry of the map is swept and saved
* `step_sweep_invariant` - so a property of worlds is carried over a sweep by its rounds
-/

namespace Cepheus.Argus

open Infra

/-- The ways through `ApplyFinding` that do not fail. -/
inductive AppliedOk (cfg : PolicyEngineConfig) (env : ApplyEnv) (k : SeriesKey) (finding : Finding)
    (id : Uuid) (state : PolicyState) (db : Database) : PolicyState × Database → Prop
  | watch (hs : state.Quiet) (hc : ¬ state.CrossesOpen cfg finding) :
    AppliedOk cfg env k finding id state db (state.watch cfg finding id, db)
  | opened (tx : Database) (hs : state.Quiet) (hc : state.CrossesOpen cfg finding)
      (htx : OpensEvent env k (state.watch cfg finding id) finding db tx) :
    AppliedOk cfg env k finding id state db
      ((state.watch cfg finding id).fire finding env.eventId, tx)
  | attach (e : Uuid) (hs : state.status = .firing) (he : state.openEventId = some e) :
    AppliedOk cfg env k finding id state db
      (state.score cfg finding, db.attachFindingToEvent e id)
  | refire (e : Uuid) (hs : state.status = .recovering) (he : state.openEventId = some e) :
    AppliedOk cfg env k finding id state db
      ((state.score cfg finding).enter .firing finding.ts, db.attachFindingToEvent e id)

section

variable {cfg : PolicyEngineConfig} {w : World}

/-- A call whose statements succeed takes one of these ways. -/
theorem Applied.succeeds {env : ApplyEnv} {k : SeriesKey} {finding : Finding} {id : Uuid}
    {s : PolicyState} {a : Alarm} {r : PolicyState × Database × Option Halt}
    (h : Applied cfg env k finding id s w.db r) (henv : env.Succeeds w) (hs : s.Shows a) :
    r.2.2 = none ∧ AppliedOk cfg env k finding id s w.db (r.1, r.2.1) := by
  cases h with
  | watch hq hc => exact ⟨rfl, .watch hq hc⟩
  | refused x _ hq hc hr =>
    obtain ⟨tx, htx⟩ := openEventTx_of_succeeds henv k (s.watch cfg finding id) finding
    refine absurd ?_ (hr henv.begin tx htx)
    rw [henv.commit]
    trivial
  | orphaned tx _ _ _ _ hl =>
    rw [henv.commit] at hl
    cases hl
  | opened tx hq hc _ htx _ => exact ⟨rfl, .opened tx hq hc (openEventTx_ok htx)⟩
  | attach e hst he =>
    simp only [henv.attachFinding, Outcome.halt, Outcome.Applies, if_true, true_and]
    exact .attach e hst he
  | refire e hst he => exact ⟨rfl, .refire e hst he⟩
  | stuck _ _ _ ha => exact absurd henv.attachFinding ha
  | missing _ hst he => exact absurd he (hs.event_of_alarmed hst)
  | other text hst =>
    have hc := hs.status
    rw [hst] at hc
    cases a <;> simp [Alarm.status] at hc

/-- **`InsertFinding`, when nothing fails**: a row is added, unless there is one for the finding
already. -/
theorem step_insertFinding (k : SeriesKey) (finding : Finding) (id : Uuid) :
    step cfg w (.insertFinding k finding id .ok) =
      { w with db := (w.db.insertFinding id (finding.row k)).getD w.db } := by
  cases hd : w.db.insertFinding id (finding.row k) with
  | none =>
    have hres : insertFinding .ok id k finding w =
        (w, .error (.error (.database .insertFinding))) := by
      simp [insertFinding, hd, Outcome.halt]
    rw [step, hres]
    simp [haltOf, World.settle, Halt.Fatal]
  | some db =>
    have hres : insertFinding .ok id k finding w = ({ w with db }, .ok id) := by
      simp [insertFinding, hd]
    rw [step, hres]
    simp [haltOf]

/-- **`ApplyFinding`, when nothing fails.** -/
theorem step_applyFinding (hw : ShowsAlarms w) {env : ApplyEnv} (henv : env.Succeeds w)
    (k : SeriesKey) (finding : Finding) (id : Uuid) :
    ∃ s s' db, loadState env k w = .ok s ∧ AppliedOk cfg env k finding id s w.db (s', db) ∧
      step cfg w (.applyFinding k finding id env) =
        { states := w.states.insert k s', db := db.upsertPolicyState k.rowKey s'.row } := by
  obtain ⟨s, hld⟩ := loadState_of_succeeds henv k
  obtain ⟨a, ha⟩ := hw.loaded hld
  obtain ⟨s', db, ⟨h, happ, -⟩ | ⟨happ, he⟩⟩ := applyFinding_loaded cfg finding id hld
  · cases (happ.succeeds henv ha).1
  · refine ⟨s, s', db, hld, (happ.succeeds henv ha).2, ?_⟩
    simp [step, he, henv.upsert, saved, Outcome.Applies, Outcome.halt]

/-- The ways through a round of `Sweep` that do not fail. -/
inductive SweptOk (cfg : PolicyEngineConfig) (now : Time) (state : PolicyState) (db : Database) :
    PolicyState × Database → Prop
  | drain (hs : ¬ (state.status = .watching ∧
        cfg.confirmWindow < Time.sub now state.statusUpdatedAt))
      (hf : state.status = .firing → (cfg.bucket.decay state.bucketState now).crossedClose = false)
      (hr : state.CloseDue cfg now → state.openEventId = none) :
    SweptOk cfg now state db (state.drain cfg now, db)
  | expire (hs : state.status = .watching)
      (hw : cfg.confirmWindow < Time.sub now state.statusUpdatedAt) :
    SweptOk cfg now state db ((state.drain cfg now).expire now, db)
  | recover (hs : state.status = .firing)
      (hc : (cfg.bucket.decay state.bucketState now).crossedClose = true) :
    SweptOk cfg now state db ((state.drain cfg now).enter .recovering now, db)
  | close (e : Uuid) (hs : state.CloseDue cfg now) (he : state.openEventId = some e) :
    SweptOk cfg now state db ((state.drain cfg now).close now, db.closeEvent e now)

theorem Swept.succeeds {now : Time} {s : PolicyState} {db : Database}
    {r : PolicyState × Database × Option Halt} (h : Swept cfg now .ok s db r) :
    r.2.2 = none ∧ SweptOk cfg now s db (r.1, r.2.1) := by
  cases h with
  | drain hs hf hr => exact ⟨rfl, .drain hs hf hr⟩
  | expire hs hw => exact ⟨rfl, .expire hs hw⟩
  | recover hs hc => exact ⟨rfl, .recover hs hc⟩
  | close e hs he => exact ⟨rfl, .close e hs he⟩
  | unclosed _ _ _ ho => exact absurd rfl ho

/-- A round of `Sweep`, when nothing fails. -/
theorem sweepOne_succeeds {env : SweepEnv} (henv : env.Succeeds) {k : SeriesKey} {s : PolicyState}
    (hs : w.states.lookup k = some s) :
    ∃ s' db, SweptOk cfg env.now s w.db (s', db) ∧
      sweepOne cfg env k w =
        ({ states := w.states.insert k s', db := db.upsertPolicyState k.rowKey s'.row }, none) := by
  have ho : env.closeEvent k = .ok := henv.closeEvent k
  rcases sweepOne_cases cfg env k w with ⟨hn, -⟩ | ⟨s₀, s', db, hs₀, ⟨x, hsw, -⟩ | ⟨hsw, he⟩⟩
  · rw [hs] at hn
    cases hn
  · rw [ho] at hsw
    cases hsw.succeeds.1
  · obtain rfl : s = s₀ := Option.some.inj (hs ▸ hs₀)
    rw [ho] at hsw
    refine ⟨s', db, hsw.succeeds.2, ?_⟩
    rw [he]
    simp [henv.upsert k, saved, Outcome.Applies]

theorem SweepEnv.Succeeds.unblocked {env : SweepEnv} (henv : env.Succeeds)
    (order : List SeriesKey) (w : World) : Unblocked cfg env order w := fun k _ s _ =>
  ⟨fun hb => hb.2.2 (henv.closeEvent k), by simp [henv.upsert k]⟩

/-- A sweep in which nothing fails is its loop. -/
theorem step_sweep_eq {env : SweepEnv} (hl : env.Legal w) (henv : env.Succeeds) :
    step cfg w (.sweep env) = (sweepLoop cfg env env.order (w.hydrated env.rows)).1 := by
  have hn := (sweepLoop_sweepsAll hl.order_nodup
    (@SweepEnv.Succeeds.unblocked cfg env henv env.order (w.hydrated env.rows))).1
  simp [step, sweep_of_listed henv.listNonClean, hn]

/-- A property of worlds is carried over a sweep in which nothing fails by its rounds. -/
theorem step_sweep_invariant {env : SweepEnv} (hl : env.Legal w) (henv : env.Succeeds)
    {Inv : World → Prop} (hread : Inv (w.hydrated env.rows))
    (hround : ∀ w k s s' db, Inv w → w.states.lookup k = some s →
      SweptOk cfg env.now s w.db (s', db) →
        Inv { states := w.states.insert k s', db := db.upsertPolicyState k.rowKey s'.row }) :
    Inv (step cfg w (.sweep env)) := by
  rw [step_sweep_eq hl henv]
  refine sweepLoop_invariant ?_ hread
  intro w k hw
  cases hs : w.states.lookup k with
  | none =>
    rw [sweepOne_of_none hs]
    exact hw
  | some s =>
    obtain ⟨s', db, hsw, hone⟩ := @sweepOne_succeeds cfg w env henv k s hs
    rw [hone]
    exact hround w k s s' db hw hs hsw

/-- **`Sweep`, when nothing fails**: every entry of the map is swept. -/
theorem step_sweep {env : SweepEnv} (hl : env.Legal w) (henv : env.Succeeds) :
    SweepsAll cfg env env.order (w.hydrated env.rows) (step cfg w (.sweep env)) := by
  rw [step_sweep_eq hl henv]
  exact (sweepLoop_sweepsAll hl.order_nodup (henv.unblocked _ _)).2

/-- The entries a legal sweep visits are those of the map. -/
theorem SweepEnv.Legal.mem_order {env : SweepEnv} (hl : env.Legal w) {k : SeriesKey} :
    k ∈ env.order ↔ ∃ s, (w.hydrated env.rows).states.lookup k = some s := by
  rw [← List.mem_toFinset, hl.order_eq, Table.mem_keys]

/-- Every entry after a sweep is what the sweep made of an entry before it. -/
theorem step_sweep_states {env : SweepEnv} (hl : env.Legal w) (henv : env.Succeeds)
    (k : SeriesKey) :
    (step cfg w (.sweep env)).states.lookup k =
      ((w.hydrated env.rows).states.lookup k).map (·.swept cfg env.now .ok) := by
  rw [(step_sweep hl henv).states k, henv.closeEvent k]
  split
  · rfl
  · next hk =>
    cases hs : (w.hydrated env.rows).states.lookup k with
    | none => rfl
    | some s => exact absurd (hl.mem_order.mpr ⟨s, hs⟩) hk

end

end Cepheus.Argus
