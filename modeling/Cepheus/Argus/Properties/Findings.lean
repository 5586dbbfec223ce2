import Cepheus.Infra.Ownership
import Cepheus.Argus.Properties.Alarm
import Cepheus.Argus.Properties.Provenance

/-!
# What becomes of a finding

A worker records a finding with `InsertFinding` and then hands it to `ApplyFinding`. Between the two
calls the worker is the only one who knows about it: when the message comes again, the unique index
keeps `InsertFinding` from returning the finding.

* `System.InFlight` - the findings between the two calls
* `Ledger` - the service, and the findings that the engine has taken in
* `findings_applied_once` - if no finding is dropped between the calls, every finding is applied
  once
* `crash_loses_finding` - a process that ends between the calls drops one
-/

namespace Cepheus.Argus

open Infra

variable {V S : Type}

/-! ## The calls of the engine -/

section Engine

variable {cfg : PolicyEngineConfig} {env : ApplyEnv} {k : SeriesKey} {finding : Finding} {id : Uuid}
  {w : World}

theorem Database.mem_findings_attach (db : Database) (e id i : Uuid) :
    i ∈ (db.attachFindingToEvent e id).findings ↔ i ∈ db.findings := by
  rw [← Finmap.lookup_isSome, ← Finmap.lookup_isSome]
  simp only [Database.attachFindingToEvent, Table.lookup_adjust]
  split <;> simp

theorem OpensEvent.mem_findings {s : PolicyState} {db tx : Database}
    (h : OpensEvent env k s finding db tx) (i : Uuid) : i ∈ tx.findings ↔ i ∈ db.findings := by
  rw [← Finmap.lookup_isSome, ← Finmap.lookup_isSome, h.findings]
  split <;> simp

/-- `ApplyFinding` neither adds a finding nor removes one. -/
theorem Applied.mem_findings {s : PolicyState} {db : Database}
    {r : PolicyState × Database × Option Halt} (h : Applied cfg env k finding id s db r)
    (i : Uuid) :
    i ∈ r.2.1.findings ↔ i ∈ db.findings := by
  cases h with
  | watch | refused | missing | other => exact Iff.rfl
  | orphaned tx _ _ _ htx => exact (openEventTx_ok htx).mem_findings i
  | opened tx _ _ _ htx => exact (openEventTx_ok htx).mem_findings i
  | refire e => exact Database.mem_findings_attach _ _ _ _
  | attach e | stuck e =>
    dsimp only
    split
    · exact Database.mem_findings_attach _ _ _ _
    · exact Iff.rfl

theorem mem_findings_applyFinding (i : Uuid) :
    i ∈ (applyFinding cfg env k finding id w).1.db.findings ↔ i ∈ w.db.findings := by
  rcases applyFinding_cases cfg env k finding id w with ⟨h, -, he⟩ | ⟨s, s', db, -, hs⟩
  · rw [he]
  · rcases hs with ⟨h, happ, he⟩ | ⟨happ, he⟩
    · rw [he]
      exact happ.mem_findings i
    · rw [he]
      show i ∈ (saved env.upsert k s' db).findings ↔ _
      rw [saved_findings]
      exact happ.mem_findings i

theorem Swept.findings {now : Time} {o : Outcome} {s : PolicyState} {db : Database}
    {r : PolicyState × Database × Option Halt} (h : Swept cfg now o s db r) :
    r.2.1.findings = db.findings := by
  cases h with
  | unclosed =>
    dsimp only
    split <;> rfl
  | _ => rfl

/-- A sweep does not touch the findings. -/
theorem findings_sweep (cfg : PolicyEngineConfig) (env : SweepEnv) (w : World) :
    (sweep cfg env w).1.db.findings = w.db.findings := by
  unfold sweep
  split
  · rfl
  · refine @sweepLoop_invariant cfg env (fun w' => w'.db.findings = w.db.findings) ?_ _ _ rfl
    intro w' k hw'
    rcases sweepOne_cases cfg env k w' with ⟨-, he⟩ | ⟨s, s', db, -, hs⟩
    · rw [he]
      exact hw'
    · rcases hs with ⟨h, hsw, he⟩ | ⟨hsw, he⟩
      · rw [he]
        exact hsw.findings.trans hw'
      · rw [he]
        show (saved (env.upsert k) k s' db).findings = _
        rw [saved_findings]
        exact hsw.findings.trans hw'

theorem mem_findings_swept {env : SweepEnv} {w' : World} {h : Option Halt}
    (hx : sweep cfg env w = (w', h)) (i : Uuid) : i ∈ w'.db.findings ↔ i ∈ w.db.findings := by
  have hf := findings_sweep cfg env w
  rw [hx] at hf
  show i ∈ w'.db.findings ↔ _
  rw [hf]

theorem PolicyState.mem_pending_watch (s : PolicyState) :
    id ∈ (s.watch cfg finding id).pendingFindings.map PendingFinding.id := by
  unfold PolicyState.watch
  split <;> simp [PolicyState.startWatching, PolicyState.keepWatching]

theorem Database.eventOf_attach {db : Database} {e : Uuid} (h : id ∈ db.findings) :
    (db.attachFindingToEvent e id).eventOf id = some e := by
  obtain ⟨row, hrow⟩ := Option.isSome_iff_exists.mp (Finmap.lookup_isSome.mpr h)
  unfold Database.eventOf
  simp only [Database.attachFindingToEvent, Table.lookup_adjust, if_true, hrow]
  rfl

/-- A way of `ApplyFinding` that has an event to attach the finding to and does so, or has none,
takes the finding in. -/
theorem Applied.takenIn {s s' : PolicyState} {db db' : Database} {h : Option Halt} {a : Alarm}
    (happ : Applied cfg env k finding id s db (s', db', h)) (hs : s.Shows a)
    (hid : id ∈ db.findings) (hattach : s.Alarmed → env.attachFinding.Applies) :
    id ∈ s'.pendingFindings.map PendingFinding.id ∨
      ∃ e ∈ s'.openEventId, db'.eventOf id = some e := by
  generalize hr : (s', db', h) = r at happ
  cases happ with
  | watch | refused | orphaned =>
    cases hr
    exact .inl s.mem_pending_watch
  | opened tx hq hc hb htx hl =>
    cases hr
    refine .inr ⟨_, rfl, ?_⟩
    obtain ⟨row, hrow⟩ := Option.isSome_iff_exists.mp (Finmap.lookup_isSome.mpr hid)
    unfold Database.eventOf
    rw [(openEventTx_ok htx).findings, if_pos s.mem_pending_watch, hrow]
    rfl
  | attach e hst he =>
    cases hr
    rw [if_pos (hattach (.inl hst))]
    exact .inr ⟨e, he, Database.eventOf_attach hid⟩
  | refire e hst he ha =>
    cases hr
    exact .inr ⟨e, he, Database.eventOf_attach hid⟩
  | stuck e hst he ha =>
    cases hr
    rw [if_pos (hattach (.inr hst))]
    exact .inr ⟨e, he, Database.eventOf_attach hid⟩
  | missing text hal he =>
    exact absurd he (hs.event_of_alarmed hal)
  | other text hst =>
    have hmem := hs.sound.status_mem
    rw [hst] at hmem
    simp at hmem

/-- The state of the series can be loaded, and if it has an event the finding can be attached. -/
def World.Receives (w : World) (env : ApplyEnv) (k : SeriesKey) : Prop :=
  ∃ s ∈ (loadState env k w).toOption, s.Alarmed → env.attachFinding.Applies

instance (w : World) (env : ApplyEnv) (k : SeriesKey) : Decidable (w.Receives env k) :=
  inferInstanceAs (Decidable (∃ s ∈ (loadState env k w).toOption, _))

/-- **`ApplyFinding` takes the finding in**, whatever else fails. -/
theorem applyFinding_takenIn (hw : ShowsAlarms w) (hid : id ∈ w.db.findings)
    (hrec : w.Receives env k) : (applyFinding cfg env k finding id w).1.TakenIn k id := by
  obtain ⟨s, hload, hattach⟩ := hrec
  have hload : loadState env k w = .ok s := by
    cases hl : loadState env k w with
    | error h => simp [hl, Except.toOption] at hload
    | ok s₀ =>
      simp only [hl, Except.toOption, Option.mem_some_iff] at hload
      rw [hload]
  obtain ⟨a, ha⟩ := hw.loaded hload
  obtain ⟨s', db, ⟨h, happ, he⟩ | ⟨happ, he⟩⟩ := applyFinding_loaded cfg finding id hload
  · rw [he]
    exact ⟨s', Finmap.lookup_insert _, happ.takenIn ha hid hattach⟩
  · rw [he]
    refine ⟨s', Finmap.lookup_insert _, ?_⟩
    unfold Database.eventOf
    show _ ∨ ∃ e ∈ s'.openEventId,
      ((saved env.upsert k s' db).findings.lookup id).bind FindingRow.eventId = some e
    rw [saved_findings]
    exact happ.takenIn ha hid hattach

end Engine

/-! ## Findings in flight -/

/-- The finding that a worker has recorded and not applied yet. -/
def Phase.inFlight : Phase V S → Option Uuid
  | .apply _ _ _ findingId => some findingId
  | _ => none

@[simp] theorem Goroutine.inFlight_enter (g : Goroutine V S) (batch : List Item) (i : Nat) :
    (g.enter batch i).inFlight = none := by
  unfold enter
  cases g.monitors[i]? <;> rfl

@[simp] theorem Goroutine.inFlight_foldItem (g : Goroutine V S) (point : FoldPoint)
    (m : Monitor V S) (it : Item) (rows : List Item) :
    (g.foldItem point m it rows).phase.inFlight = none := by
  unfold foldItem
  cases (m.foldSample it.sample).2 <;> rfl

/-- The series to which the engine is about to apply a finding. -/
def Phase.applying : Phase V S → Option SeriesKey
  | .apply _ key _ _ => some key
  | _ => none

/-- The worker of the series has recorded the finding and not applied it yet. -/
def System.Carries (s : System V S) (series : DiscoveredSeries) (id : Uuid) : Prop :=
  ∃ g ∈ s.routes.lookup series, g.phase.inFlight = some id

/-- The finding is recorded, and is still to be applied. -/
def System.InFlight (s : System V S) (id : Uuid) : Prop :=
  ∃ series ∈ s.routes.keys, s.Carries series id

instance (s : System V S) (series : DiscoveredSeries) (id : Uuid) :
    Decidable (s.Carries series id) :=
  inferInstanceAs (Decidable (∃ g ∈ s.routes.lookup series, g.phase.inFlight = some id))

instance (s : System V S) (id : Uuid) : Decidable (s.InFlight id) :=
  inferInstanceAs (Decidable (∃ series ∈ s.routes.keys, s.Carries series id))

theorem System.inFlight_of_carries {s : System V S} {series : DiscoveredSeries} {id : Uuid}
    (h : s.Carries series id) : s.InFlight id := by
  have hc := h
  obtain ⟨g, hg, -⟩ := hc
  exact ⟨series, Table.mem_keys.mpr ⟨g, hg⟩, h⟩

/-- The service, and the findings that the engine has taken in so far, in all its processes. -/
structure Ledger (V S : Type) where
  sys : System V S
  applied : List Uuid

/-- The finding that a move has applied. -/
def Event.finding : Event V S → Option Uuid
  | .applied _ findingId => some findingId
  | _ => none

/-- One step of the service with its ledger. -/
def Ledger.step (p : Pipeline V S) (l : Ledger V S) (move : Move) : Ledger V S :=
  { sys := l.sys.step p move
    applied := l.applied ++ ((l.sys.observe p move).bind Event.finding).toList }

/-- Every finding in the table, except those that are on their way, has been applied once. -/
def AppliedOnce (l : Ledger V S) : Prop :=
  ∀ id ∈ l.sys.db.world.db.findings.keys, ¬ l.sys.InFlight id → l.applied.count id = 1

instance (l : Ledger V S) : Decidable (AppliedOnce l) :=
  inferInstanceAs (Decidable (∀ id ∈ l.sys.db.world.db.findings.keys,
    ¬ l.sys.InFlight id → l.applied.count id = 1))

/-! ## The condition -/

/-- A finding that is recorded gets to the worker, and from there to the engine. -/
def Goroutine.Conveys (g : Goroutine V S) (w : World) : Tick → Prop
  | .insert _ o => o ≠ .lost
  | .apply env => ∀ key ∈ g.phase.applying, w.Receives env key
  | _ => True

instance (g : Goroutine V S) (w : World) (tick : Tick) : Decidable (g.Conveys w tick) :=
  match tick with
  | .insert _ o => inferInstanceAs (Decidable (o ≠ .lost))
  | .apply env => inferInstanceAs (Decidable (∀ key ∈ g.phase.applying, w.Receives env key))
  | .load _ => inferInstanceAs (Decidable True)
  | .receive => inferInstanceAs (Decidable True)
  | .drain => inferInstanceAs (Decidable True)
  | .fold => inferInstanceAs (Decidable True)
  | .save _ => inferInstanceAs (Decidable True)
  | .ack _ => inferInstanceAs (Decidable True)

/-- The worker that makes a call of `ApplyFinding`. -/
def Move.applies : Move → Option DiscoveredSeries
  | .work series (.apply _) => some series
  | _ => none

/-- A move that ends the process finds no finding in flight, except one that it applies. -/
def System.DropsNone (p : Pipeline V S) (s : System V S) (move : Move) : Prop :=
  s.Dies p move → ∀ series ∈ s.routes.keys, ∀ g ∈ s.routes.lookup series,
    g.phase.inFlight.isSome → move.applies = some series

/-- Nothing gets lost between the two calls. -/
def System.Conveys (p : Pipeline V S) (s : System V S) : Move → Prop
  | .work series tick => (∀ g ∈ s.routes.lookup series, g.Conveys s.db.world tick) ∧
      s.DropsNone p (.work series tick)
  | .sweep env => env.Legal s.db.world ∧ s.DropsNone p (.sweep env)
  | .crash => s.DropsNone p .crash
  | _ => True

instance (p : Pipeline V S) (s : System V S) (move : Move) : Decidable (s.DropsNone p move) :=
  inferInstanceAs (Decidable (s.Dies p move → ∀ series ∈ s.routes.keys,
    ∀ g ∈ s.routes.lookup series, g.phase.inFlight.isSome → move.applies = some series))

instance (p : Pipeline V S) (s : System V S) (move : Move) : Decidable (s.Conveys p move) :=
  match move with
  | .work series tick => inferInstanceAs (Decidable
      ((∀ g ∈ s.routes.lookup series, g.Conveys s.db.world tick) ∧
        s.DropsNone p (.work series tick)))
  | .sweep env => inferInstanceAs (Decidable (env.Legal s.db.world ∧ s.DropsNone p (.sweep env)))
  | .crash => inferInstanceAs (Decidable (s.DropsNone p .crash))
  | .fetch _ => inferInstanceAs (Decidable True)
  | .dispatch => inferInstanceAs (Decidable True)
  | .send => inferInstanceAs (Decidable True)

/-! ## What a move does to the findings -/

section Step

variable {p : Pipeline V S} {series : DiscoveredSeries} {g g' : Goroutine V S} {db db' : Stores S}
  {tick : Tick} {ev : Option (Event V S)} {halt : Option Halt}

/-- What a move of a worker does to the findings. -/
inductive Goroutine.Reported (series : DiscoveredSeries) (g g' : Goroutine V S) (db db' : Stores S)
    (tick : Tick) (ev : Option (Event V S)) (halt : Option Halt) : Prop
  /-- None is recorded, and none is applied. -/
  | none (hflight : g'.phase.inFlight = g.phase.inFlight)
      (hrows : ∀ i, i ∈ db'.world.db.findings ↔ i ∈ db.world.db.findings)
      (hev : ev.bind Event.finding = none)
      (hhalt : (∃ x ∈ halt, x.Fatal) → (Move.work series tick).applies = Option.none)
  | recorded (id : Uuid) (hold : g.phase.inFlight = Option.none)
      (hflight : g'.phase.inFlight = some id) (hnew : id ∉ db.world.db.findings)
      (hrows : ∀ i, i ∈ db'.world.db.findings ↔ i ∈ db.world.db.findings ∨ i = id)
      (hev : ev.bind Event.finding = Option.none) (hhalt : halt = Option.none)
  | applied (id : Uuid) (hold : g.phase.inFlight = some id)
      (hflight : g'.phase.inFlight = Option.none)
      (hrows : ∀ i, i ∈ db'.world.db.findings ↔ i ∈ db.world.db.findings)
      (hev : ShowsAlarms db.world → id ∈ db.world.db.findings → ev.bind Event.finding = some id)

/-- `InsertFinding` returns the id of a row that was not there before. -/
theorem insertFinding_ok {o : Outcome} {id findingId : Uuid} {k : SeriesKey} {finding : Finding}
    {w w' : World} (h : insertFinding o id k finding w = (w', .ok findingId)) :
    findingId ∉ w.db.findings ∧
      ∀ i, i ∈ w'.db.findings ↔ i ∈ w.db.findings ∨ i = findingId := by
  unfold insertFinding at h
  split at h
  · cases h
  · next db hdb =>
    obtain ⟨hnone, hdb⟩ := Database.insertFinding_eq_some hdb
    split at h
    · cases h
    · next db₁ hx =>
      obtain ⟨rfl, hid⟩ := Prod.mk.inj h
      obtain rfl := Except.ok.inj hid
      cases o with
      | ok =>
        have hdb₁ : db = db₁ := congrArg Prod.fst hx
        rw [← hdb₁, hdb]
        refine ⟨Finmap.lookup_eq_none.mp hnone, fun i => ?_⟩
        rw [Finmap.mem_insert]
        exact or_comm
      | failed | lost | crash => simp [Outcome.exec, Outcome.halt] at hx

/-- When `InsertFinding` returns no id and no answer was lost, nothing was recorded. -/
theorem insertFinding_error {o : Outcome} {id : Uuid} {k : SeriesKey} {finding : Finding}
    {w w' : World} {h : Halt} (ho : o ≠ .lost)
    (hw : insertFinding o id k finding w = (w', .error h)) : w' = w := by
  unfold insertFinding at hw
  split at hw
  · exact (Prod.mk.inj hw).1.symm
  · next db hdb =>
    split at hw
    · next db₁ h₁ hx =>
      obtain ⟨rfl, -⟩ := Prod.mk.inj hw
      cases o with
      | lost => exact absurd rfl ho
      | ok => simp [Outcome.exec, Outcome.halt] at hx
      | failed | crash =>
        have hdb₁ : w.db = db₁ := congrArg Prod.fst hx
        rw [← hdb₁]
    · cases hw

theorem Goroutine.Step.reported (hstep : g.Step p series db tick ev g' db' halt)
    (hc : g.Conveys db.world tick) : g.Reported series g' db db' tick ev halt := by
  cases hstep with
  | inserted hp hw =>
    obtain ⟨hnew, hrows⟩ := insertFinding_ok hw
    exact .recorded _ (by rw [hp]; rfl) rfl hnew hrows rfl rfl
  | refused hp hw =>
    rw [insertFinding_error hc hw]
    exact .none (by rw [hp]; rfl) (fun _ => Iff.rfl) rfl (fun _ => rfl)
  | @applied point key finding findingId env world halt hp hw =>
    have hworld : world = (applyFinding p.config env key finding findingId db.world).1 := by
      rw [hw]
    refine .applied findingId (by rw [hp]; rfl) rfl ?_ ?_
    · intro i
      show i ∈ world.db.findings ↔ _
      rw [hworld]
      exact mem_findings_applyFinding i
    · intro hshows hid
      have hrec : db.world.Receives env key := hc key (by rw [hp]; rfl)
      rw [hworld, if_pos (applyFinding_takenIn hshows hid hrec)]
      rfl
  | idle tick => exact .none rfl (fun _ => Iff.rfl) rfl (fun h => by simp at h)
  | unloaded _ => exact .none rfl (fun _ => Iff.rfl) rfl (fun _ => rfl)
  | loaded hp _ => exact .none (by rw [hp]; rfl) (fun _ => Iff.rfl) rfl (fun _ => rfl)
  | planned _ hp | skipped hp _ | received hp _ | drained hp _ | finished hp =>
    exact .none (by rw [hp]; rfl) (fun _ => Iff.rfl) rfl (fun _ => rfl)
  | closed hp _ | unsaved hp _ _ _ =>
    exact .none (by rw [inFlight_enter, hp]; rfl) (fun _ => Iff.rfl) rfl (fun _ => rfl)
  | saved hp _ _ _ =>
    refine .none (by rw [inFlight_enter, hp]; rfl) (fun i => ?_) rfl (fun _ => rfl)
    rw [saveBaseline_eq]
  | @folded point m it rows hp _ _ =>
    refine .none (by rw [inFlight_foldItem, hp]; rfl) (fun _ => Iff.rfl) ?_ (fun _ => rfl)
    cases (m.foldSample it.sample).2 <;> rfl
  | acked hp =>
    refine .none (by rw [hp]; rfl) (fun i => ?_) rfl (fun _ => rfl)
    split <;> rfl

/-- A worker calls the engine, or leaves it alone. -/
theorem Goroutine.Step.shows (hstep : g.Step p series db tick ev g' db' halt)
    (hw : ShowsAlarms db.world) : ShowsAlarms (db'.world.settle halt) := by
  have hsettle : ∀ h, ShowsAlarms (db.world.settle h) := by
    intro h
    rcases db.world.settle_cases h with he | he <;> rw [he]
    · exact hw
    · exact @ShowsAlarms.step p.config _ .restart hw trivial
  cases hstep with
  | @inserted point key finding id o world findingId _ hx =>
    have h := @ShowsAlarms.step p.config _ (.insertFinding key finding id o) hw trivial
    rw [Argus.step, hx] at h
    exact h
  | @refused point key finding id o world halt _ hx =>
    have h := @ShowsAlarms.step p.config _ (.insertFinding key finding id o) hw trivial
    rw [Argus.step, hx] at h
    exact h
  | @applied point key finding findingId env world halt _ hx =>
    have h := @ShowsAlarms.step p.config _ (.applyFinding key finding findingId env) hw trivial
    rw [Argus.step, hx] at h
    exact h
  | saved _ _ _ _ =>
    rw [saveBaseline_eq]
    exact hsettle _
  | acked _ => split <;> exact hsettle _
  | _ => exact hsettle _

end Step

/-- The server lists what there is. -/
def System.Lists (s : System V S) : Move → Prop
  | .sweep env => env.Legal s.db.world
  | _ => True

theorem System.Next.shows {p : Pipeline V S} {s s' : System V S} {move : Move}
    {ev : Option (Event V S)} (hnext : s.Next p move ev s') (hw : ShowsAlarms s.db.world)
    (hl : s.Lists move) : ShowsAlarms s'.db.world := by
  cases hnext with
  | worked _ hstep hh =>
    have h := hstep.shows hw
    rw [World.settle, if_neg hh] at h
    exact h
  | @swept env world h hx hh =>
    have h := @ShowsAlarms.step p.config _ (.sweep env) hw hl
    rw [Argus.step, hx, World.settle, if_neg hh] at h
    exact h
  | _ => exact hw

theorem System.Death.shows {p : Pipeline V S} {s s' : System V S} {move : Move}
    {ev : Option (Event V S)} (hdeath : s.Death p move ev s') (hw : ShowsAlarms s.db.world)
    (hl : s.Lists move) : ShowsAlarms s'.db.world := by
  cases hdeath with
  | worked _ hstep hh =>
    have h := hstep.shows hw
    rw [World.settle, if_pos hh] at h
    exact h
  | @swept env world h hx hh =>
    have h := @ShowsAlarms.step p.config _ (.sweep env) hw hl
    rw [Argus.step, hx, World.settle, if_pos hh] at h
    exact h
  | crashed => exact @ShowsAlarms.step p.config _ .restart hw trivial

/-! ## The invariant -/

/-- The findings in flight are those that are recorded and not applied. -/
structure Ledger.Balanced (l : Ledger V S) : Prop where
  owned : Owned l.sys.Carries fun id => id ∈ l.sys.db.world.db.findings ∧ id ∉ l.applied
  nodup : l.applied.Nodup
  recorded : ∀ id ∈ l.applied, id ∈ l.sys.db.world.db.findings

theorem Ledger.Balanced.appliedOnce {l : Ledger V S} (h : l.Balanced) : AppliedOnce l := by
  intro id hid hflight
  refine List.count_eq_one_of_mem h.nodup ?_
  by_contra hnot
  obtain ⟨series, hc⟩ := h.owned.owned id ⟨Finmap.mem_keys.mp hid, hnot⟩
  exact hflight (System.inFlight_of_carries hc)

/-- What a worker carries after a move of its own, or of another one. -/
theorem System.carries_insert (s : System V S) (series : DiscoveredSeries) (g' : Goroutine V S)
    (db : Stores S) (series' : DiscoveredSeries) (id : Uuid) :
    ({ s with routes := s.routes.insert series g', db } : System V S).Carries series' id ↔
      if series' = series then g'.phase.inFlight = some id else s.Carries series' id := by
  unfold System.Carries
  rw [Table.lookup_insert_if]
  split <;> simp

theorem System.carries_of_lookup {s : System V S} {series : DiscoveredSeries} {g : Goroutine V S}
    (hg : s.routes.lookup series = some g) (id : Uuid) :
    s.Carries series id ↔ g.phase.inFlight = some id := by
  unfold System.Carries
  rw [hg]
  simp

section Balanced

variable {p : Pipeline V S} {s s' : System V S} {applied : List Uuid} {move : Move}
  {ev : Option (Event V S)}

/-- A move that leaves the findings alone. -/
theorem Ledger.Balanced.quiet (h : Ledger.Balanced { sys := s, applied })
    (hcarries : ∀ series id, s'.Carries series id ↔ s.Carries series id)
    (hrows : ∀ i, i ∈ s'.db.world.db.findings ↔ i ∈ s.db.world.db.findings) :
    Ledger.Balanced { sys := s', applied } := by
  refine ⟨h.owned.congr hcarries ?_, h.nodup, fun id hid => (hrows id).mpr (h.recorded id hid)⟩
  intro id
  show id ∈ s'.db.world.db.findings ∧ id ∉ applied ↔ id ∈ s.db.world.db.findings ∧ id ∉ applied
  rw [hrows]

/-- A process in which nothing is in flight ends. -/
theorem Ledger.Balanced.ended (h : Ledger.Balanced { sys := s, applied }) (db : Stores S)
    (hflight : ∀ series id, ¬ s.Carries series id)
    (hrows : ∀ i, i ∈ db.world.db.findings ↔ i ∈ s.db.world.db.findings) :
    Ledger.Balanced { sys := (System.boot db : System V S), applied } := by
  refine h.quiet ?_ hrows
  intro series id
  refine iff_of_false ?_ (hflight series id)
  rintro ⟨g, hg, -⟩
  cases hg

/-- A worker moves. -/
theorem Ledger.Balanced.worked (h : Ledger.Balanced { sys := s, applied })
    {series : DiscoveredSeries} {g g' : Goroutine V S} {db : Stores S} {tick : Tick}
    {halt : Option Halt} (hg : s.routes.lookup series = some g) (hshows : ShowsAlarms s.db.world)
    (hrep : g.Reported series g' s.db db tick ev halt) :
    Ledger.Balanced { sys := { s with routes := s.routes.insert series g', db },
                      applied := applied ++ (ev.bind Event.finding).toList } := by
  have hcarries := s.carries_insert series g' db
  have hown := s.carries_of_lookup hg
  cases hrep with
  | none hflight hrows hev _ =>
    rw [hev, Option.toList_none, List.append_nil]
    refine h.quiet ?_ hrows
    intro series' id
    rw [hcarries]
    split
    case isTrue he => rw [he, hown, hflight]
    case isFalse => exact Iff.rfl
  | recorded id hold hflight hnew hrows hev _ =>
    rw [hev, Option.toList_none, List.append_nil]
    have hnot : id ∉ applied := fun hid => hnew (h.recorded id hid)
    refine ⟨h.owned.acquire (k := series) (e := id) (fun hl => hnew hl.1) ?_ ?_, h.nodup, ?_⟩
    · intro series' id'
      rw [hcarries]
      split
      case isTrue he =>
        subst he
        rw [hown, hold, hflight]
        simp [eq_comm]
      case isFalse he => simp [he]
    · intro id'
      show id' ∈ db.world.db.findings ∧ id' ∉ applied ↔ _
      rw [hrows]
      constructor
      · rintro ⟨hid | rfl, hn⟩
        · exact .inl ⟨hid, hn⟩
        · exact .inr rfl
      · rintro (⟨hid, hn⟩ | rfl)
        · exact ⟨.inl hid, hn⟩
        · exact ⟨.inr rfl, hnot⟩
    · exact fun id' hid' => (hrows id').mpr (.inl (h.recorded id' hid'))
  | applied id hold hflight hrows hev =>
    obtain ⟨hid, hnot⟩ := h.owned.live series id ((hown id).mpr hold)
    rw [hev hshows hid, Option.toList_some]
    refine ⟨h.owned.release (k := series) (e := id) ((hown id).mpr hold) ?_ ?_ ?_, ?_, ?_⟩
    · intro id' hc
      rw [hown, hold] at hc
      exact (Option.some.inj hc).symm
    · intro series' id'
      rw [hcarries]
      split
      case isTrue he => simp [he, hflight]
      case isFalse he => simp [he]
    · intro id'
      show id' ∈ db.world.db.findings ∧ id' ∉ applied ++ [id] ↔ _
      rw [hrows]
      simp only [List.mem_append, List.mem_singleton, not_or, and_assoc]
    · refine List.nodup_append.mpr ⟨h.nodup, List.nodup_singleton id, ?_⟩
      rintro a ha b hb rfl
      exact hnot (List.mem_singleton.mp hb ▸ ha)
    · intro id' hid'
      refine (hrows id').mpr ?_
      rcases List.mem_append.mp hid' with hid' | hid'
      · exact h.recorded id' hid'
      · exact List.mem_singleton.mp hid' ▸ hid

theorem System.Conveys.lists (h : s.Conveys p move) : s.Lists move := by
  cases move with
  | sweep env => exact h.1
  | _ => trivial

theorem System.Conveys.dropsNone (h : s.Conveys p move) : s.DropsNone p move := by
  cases move with
  | work series tick => exact h.2
  | sweep env => exact h.2
  | crash => exact h
  | _ => exact fun hd => by simp [System.Dies, System.halt] at hd

theorem System.DropsNone.carries (h : s.DropsNone p move) (hd : s.Dies p move)
    {series : DiscoveredSeries} {id : Uuid} (hc : s.Carries series id) :
    move.applies = some series := by
  obtain ⟨g, hg, hf⟩ := hc
  exact h hd series (Table.mem_keys.mpr ⟨g, hg⟩) g hg (by rw [hf]; rfl)

theorem Move.applies_work {series series' : DiscoveredSeries} {tick : Tick}
    (h : (Move.work series tick).applies = some series') : series' = series := by
  cases tick with
  | apply env => exact (Option.some.inj h).symm
  | _ => cases h

/-- **What one move preserves, while the process goes on.** -/
theorem Ledger.Balanced.next (h : Ledger.Balanced { sys := s, applied })
    (hshows : ShowsAlarms s.db.world) (hnext : s.Next p move ev s') (hc : s.Conveys p move) :
    Ledger.Balanced { sys := s', applied := applied ++ (ev.bind Event.finding).toList } := by
  cases hnext with
  | idle | fetched _ | terminated _ _ _ =>
    rw [Option.bind_none, Option.toList_none, List.append_nil]
    exact h.quiet (fun _ _ => Iff.rfl) (fun _ => Iff.rfl)
  | @swept env world halt hx _ =>
    rw [Option.bind_none, Option.toList_none, List.append_nil]
    exact h.quiet (fun _ _ => Iff.rfl) (mem_findings_swept hx)
  | @dispatched id rest series sample _ _ _ =>
    rw [Option.bind_none, Option.toList_none, List.append_nil]
    refine h.quiet ?_ (fun _ => Iff.rfl)
    intro series' id
    unfold System.Carries
    rw [lookup_started]
    split
    case isTrue he =>
      -- a worker that is started now has nothing in flight
      subst he
      cases s.routes.lookup series' <;> simp [Pipeline.start, Phase.inFlight]
    case isFalse => exact Iff.rfl
  | @sent series it g _ hg _ =>
    show Ledger.Balanced { sys := _, applied := applied ++ [] }
    rw [List.append_nil]
    refine h.quiet ?_ (fun _ => Iff.rfl)
    intro series' id
    unfold System.Carries
    rw [Table.lookup_insert_if]
    split
    case isTrue he =>
      subst he
      rw [hg]
      simp
    case isFalse => exact Iff.rfl
  | worked hg hstep _ => exact h.worked hg hshows (hstep.reported (hc.1 _ hg))

/-- **What the end of the process preserves**, if nothing else is in flight. -/
theorem Ledger.Balanced.death (h : Ledger.Balanced { sys := s, applied })
    (hshows : ShowsAlarms s.db.world) (hdeath : s.Death p move ev s') (hdies : s.Dies p move)
    (hc : s.Conveys p move) :
    Ledger.Balanced { sys := s', applied := applied ++ (ev.bind Event.finding).toList } := by
  have hdrops : ∀ series id, s.Carries series id → move.applies = some series :=
    fun _ _ hcar => hc.dropsNone.carries hdies hcar
  have hnone : move.applies = none → ∀ series id, ¬ s.Carries series id := by
    intro hm series id hcar
    rw [hdrops series id hcar] at hm
    cases hm
  cases hdeath with
  | crashed =>
    rw [Option.bind_none, Option.toList_none, List.append_nil]
    exact h.ended _ (hnone rfl) (fun _ => Iff.rfl)
  | @swept env world halt hx _ =>
    rw [Option.bind_none, Option.toList_none, List.append_nil]
    have hrows := mem_findings_swept hx
    exact h.ended _ (hnone rfl) hrows
  | @worked series tick _ g g' db halt hg hstep hh =>
    have hrep := hstep.reported (hc.1 _ hg)
    refine (h.worked hg hshows hrep).ended _ ?_ (fun _ => Iff.rfl)
    intro series' id hcar
    rw [s.carries_insert] at hcar
    split at hcar
    case isFalse hne => exact hne (Move.applies_work (hdrops series' id hcar))
    case isTrue he =>
      subst he
      cases hrep with
      | none hflight _ _ hhalt =>
        rw [hflight] at hcar
        exact hnone (hhalt hh) _ _ ((s.carries_of_lookup hg id).mpr hcar)
      | recorded id' _ _ _ _ _ hhalt =>
        rw [hhalt] at hh
        simp at hh
      | applied id' _ hflight _ _ =>
        rw [hflight] at hcar
        cases hcar

end Balanced

/-! ## Runs -/

/-- The states that a run goes through. -/
structure Ledger.Kept (l : Ledger V S) : Prop where
  shows : ShowsAlarms l.sys.db.world
  balanced : l.Balanced

theorem Ledger.Kept.step {p : Pipeline V S} {l : Ledger V S} (h : l.Kept) (move : Move)
    (hc : l.sys.Conveys p move) : (l.step p move).Kept := by
  by_cases hd : l.sys.Dies p move
  · have hdeath := l.sys.step_death p move hd
    exact ⟨hdeath.shows h.shows hc.lists, h.balanced.death h.shows hdeath hd hc⟩
  · have hnext := l.sys.step_next p move hd
    exact ⟨hnext.shows h.shows hc.lists, h.balanced.next h.shows hnext hc⟩

/--
**Every finding is applied exactly once, if none is dropped between its two calls.**

In every run in which the answer to an `InsertFinding` that took effect is not lost, `ApplyFinding`
can load the state of its series and attach the finding if the series has an event, and the process
does not end while another finding is recorded and not applied: at every point, every finding in
the table that is not on its way has been on the pending list of its series, or was attached to the
event of its series, by exactly one call. Everything else may fail, and the process may end at any
other point.
-/
theorem findings_applied_once (p : Pipeline V S) (db : Stores S) (hinit : db.world = World.init)
    (moves : List Move)
    (h : Along (Ledger.step p) (fun l move => l.sys.Conveys p move)
      { sys := System.boot db, applied := [] } moves) :
    Throughout (Ledger.step p) AppliedOnce { sys := System.boot db, applied := [] } moves := by
  have hboot : (⟨System.boot db, []⟩ : Ledger V S).Kept := by
    have hworld : (System.boot db : System V S).db.world = World.init := hinit
    refine ⟨by rw [hworld]; exact Pointwise.init _ _, ⟨?_, ?_, ?_⟩, List.nodup_nil, ?_⟩
    · rintro series id ⟨g, hg, -⟩
      cases hg
    · rintro series _ id ⟨g, hg, -⟩
      cases hg
    · rintro id ⟨hid, -⟩
      rw [hworld] at hid
      exact absurd hid Finmap.notMem_empty
    · exact fun _ hid => absurd hid List.not_mem_nil
  exact (throughout_of_invariant (fun _ move hl hm => hl.step move hm) hboot h).imp
    fun _ hl => hl.balanced.appliedOnce

/-- The finding of the first measurement is applied; that of the second one cannot be recorded. -/
theorem pingMoves_applied_once :
    (run (Ledger.step (pingPipeline ["000001000", "000002000"]))
      { sys := System.boot Stores.empty, applied := [] } pingMoves).applied = [0] ∧
    Throughout (Ledger.step (pingPipeline ["000001000", "000002000"])) AppliedOnce
      { sys := System.boot Stores.empty, applied := [] } pingMoves :=
  ⟨by decide +kernel, findings_applied_once _ Stores.empty rfl pingMoves (by decide +kernel)⟩

/-- The process ends between `InsertFinding` and `ApplyFinding`. The measurement comes again, and
everything is done as far as it goes. -/
def crashBetween : List Move :=
  Move.deliver 0 ++
    Move.ping [.load .ok, .load .ok, .receive, .drain, .fold, .insert 0 .ok] ++
    [.crash] ++ Move.deliver 0 ++
    Move.ping [.load .ok, .load .ok, .receive, .drain, .fold, .insert 1 .ok, .save .ok, .ack true,
      .ack true]

/-- The finding is in the table, and has never been applied. -/
theorem crash_loses_finding :
    ¬ Throughout (Ledger.step (pingPipeline ["000001000"])) AppliedOnce
      { sys := System.boot Stores.empty, applied := [] } crashBetween := by
  intro h
  exact absurd h.last (by decide +kernel)

end Cepheus.Argus
