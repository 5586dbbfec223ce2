import Cepheus.Argus.Run

/-!
# What a call can do

The transitions of one state machine, as relations with one constructor for each way through the
code. Every later proof goes by cases on them instead of unfolding the functions.

* `Applied` - `onFinding`, the `switch` of `ApplyFinding`
* `Swept` - `sweepState`, the `switch` of `Sweep`
* `openEventTx_ok`, `attachAll_ok` - what a transaction of `openEvent` writes
-/

namespace Cepheus.Argus

open Infra

/-! ## Outcomes -/

@[simp] theorem Outcome.halt_eq_none {o : Outcome} {q : Query} : o.halt q = none ↔ o = .ok := by
  cases o <;> simp [Outcome.halt]

@[simp] theorem Outcome.exec_ok (q : Query) (db db' : Database) :
    Outcome.exec .ok q db db' = (db', none) := by
  simp [Outcome.exec, Outcome.Applies, Outcome.halt]

theorem Outcome.execTx_eq_ok {o : Outcome} {q : Query} {tx : Option Database} {db : Database} :
    o.execTx q tx = .ok db ↔ o = .ok ∧ tx = some db := by
  cases o <;> cases tx <;> simp [Outcome.execTx, Outcome.halt]

/-- The halt comes from the database or the process, not from a check of the engine. -/
def Halt.External : Halt → Prop
  | .error (.text _) => False
  | _ => True

theorem Outcome.halt_external {o : Outcome} {q : Query} {h : Halt} (hh : o.halt q = some h) :
    h.External := by
  cases o <;> simp only [Outcome.halt, Option.some.injEq, reduceCtorEq] at hh <;> subst hh <;>
    trivial

theorem Outcome.execTx_external {o : Outcome} {q : Query} {tx : Option Database} {h : Halt}
    (hh : o.execTx q tx = .error h) : h.External := by
  unfold Outcome.execTx at hh
  split at hh
  · next h' hx =>
    simp only [Except.error.injEq] at hh
    exact hh ▸ Outcome.halt_external hx
  · simp only [Except.error.injEq] at hh
    subst hh
    trivial
  · cases hh

/-! ## The transaction of openEvent -/

/-- What the tables look like once every pending finding is attached. -/
theorem attachAll_ok {outcome : Nat → Outcome} {e : Uuid} :
    ∀ {pending : List PendingFinding} {i : Nat} {db tx : Database},
      attachAll outcome e i pending db = .ok tx →
      tx.policyStates = db.policyStates ∧ tx.events = db.events ∧
        ∀ id, tx.findings.lookup id =
          if id ∈ pending.map PendingFinding.id
          then (db.findings.lookup id).map fun row => { row with eventId := some e }
          else db.findings.lookup id
  | [], i, db, tx, h => by
    simp only [attachAll, Except.ok.injEq] at h
    subst h
    simp
  | pf :: rest, i, db, tx, h => by
    simp only [attachAll] at h
    split at h
    · cases h
    · next db' hx =>
      obtain ⟨-, hdb⟩ := Outcome.execTx_eq_ok.mp hx
      simp only [Option.some.injEq] at hdb
      obtain ⟨hp, he, hf⟩ := attachAll_ok h
      subst hdb
      refine ⟨hp, he, ?_⟩
      intro id
      rw [hf id]
      simp only [Database.attachFindingToEvent, Table.lookup_adjust, List.map_cons, List.mem_cons]
      -- attaching a finding twice to one event is attaching it once
      by_cases h1 : id ∈ rest.map PendingFinding.id <;> by_cases h2 : id = pf.id <;>
        simp [h1, h2, Option.map_map, Function.comp_def]

theorem attachAll_of_ok {outcome : Nat → Outcome} {e : Uuid} (ho : ∀ i, outcome i = .ok) :
    ∀ (pending : List PendingFinding) (i : Nat) (db : Database),
      ∃ tx, attachAll outcome e i pending db = .ok tx
  | [], _, db => ⟨db, rfl⟩
  | pf :: rest, i, db => by
    simp only [attachAll, ho i, Outcome.execTx, Outcome.halt]
    exact attachAll_of_ok ho rest _ _

theorem attachAll_external {outcome : Nat → Outcome} {e : Uuid} :
    ∀ {pending : List PendingFinding} {i : Nat} {db : Database} {h : Halt},
      attachAll outcome e i pending db = .error h → h.External
  | [], _, _, _, hh => by cases hh
  | pf :: rest, i, db, h, hh => by
    simp only [attachAll] at hh
    split at hh
    · next h' hx =>
      simp only [Except.error.injEq] at hh
      exact hh ▸ Outcome.execTx_external hx
    · exact attachAll_external hh

/-- The peak is reached by the finding or by a pending one in memory, and none of them is higher. -/
theorem peakSeverity_spec (finding : Finding) (pending : List PendingFinding) :
    (peakSeverity finding pending = finding.severity ∨
        ∃ pf ∈ pending, ∃ f ∈ pf.finding, f.severity = peakSeverity finding pending) ∧
      finding.severity ≤ peakSeverity finding pending ∧
        ∀ pf ∈ pending, ∀ f ∈ pf.finding, f.severity ≤ peakSeverity finding pending := by
  induction pending generalizing finding with
  | nil => exact ⟨.inl rfl, le_refl _, by simp⟩
  | cons pf rest ih =>
    cases hf : pf.finding with
    | none =>
      have hpeak : peakSeverity finding (pf :: rest) = peakSeverity finding rest := by
        simp [peakSeverity, hf]
      obtain ⟨hmem, hle, hall⟩ := ih finding
      rw [hpeak]
      refine ⟨hmem.imp_right fun ⟨pf', hpf', h⟩ => ⟨pf', by simp [hpf'], h⟩, hle, ?_⟩
      intro pf' hpf' f hf'
      rcases List.mem_cons.mp hpf' with rfl | hpf'
      · rw [hf] at hf'
        cases hf'
      · exact hall pf' hpf' f hf'
    | some g =>
      -- the rest of the loop starts from the higher of the two
      have hpeak : peakSeverity finding (pf :: rest) =
          peakSeverity { finding with severity := max finding.severity g.severity } rest := by
        simp only [peakSeverity, List.foldl_cons, hf]
        congr 1
        split
        · next hlt => exact (max_eq_right hlt.le).symm
        · next hge => exact (max_eq_left (not_lt.mp hge)).symm
      obtain ⟨hmem, hle, hall⟩ := ih { finding with severity := max finding.severity g.severity }
      rw [hpeak]
      refine ⟨?_, le_trans (le_max_left _ _) hle, ?_⟩
      · rcases hmem with hmem | ⟨pf', hpf', h⟩
        · rcases max_choice finding.severity g.severity with hm | hm
          · exact .inl (hmem.trans hm)
          · exact .inr ⟨pf, by simp, g, hf, (hmem.trans hm).symm⟩
        · exact .inr ⟨pf', by simp [hpf'], h⟩
      · intro pf' hpf' f hf'
        rcases List.mem_cons.mp hpf' with rfl | hpf'
        · rw [hf] at hf'
          exact Option.some.inj hf' ▸ le_trans (le_max_right _ _) hle
        · exact hall pf' hpf' f hf'

/-- The row `openEvent` inserts. -/
def openedRow (k : SeriesKey) (state : PolicyState) (finding : Finding) : EventRow :=
  { serialId := k.serialId, target := k.target, port := k.port, metric := k.metric
    status := .«open», openedAt := Time.micros finding.ts, lastSeenAt := Time.micros finding.ts
    closedAt := none, findingCount := int32 state.pendingFindings.length
    peakSeverity := peakSeverity finding state.pendingFindings, detectors := [k.detector] }

/-- What a transaction of `openEvent` writes. -/
structure OpensEvent (env : ApplyEnv) (k : SeriesKey) (state : PolicyState) (finding : Finding)
    (db tx : Database) : Prop where
  fresh : env.eventId ∉ db.events
  policyStates : tx.policyStates = db.policyStates
  events : tx.events = db.events.insert env.eventId (openedRow k state finding)
  findings : ∀ id, tx.findings.lookup id =
    if id ∈ state.pendingFindings.map PendingFinding.id
    then (db.findings.lookup id).map fun row => { row with eventId := some env.eventId }
    else db.findings.lookup id

theorem openEventTx_ok {env : ApplyEnv} {k : SeriesKey} {state : PolicyState} {finding : Finding}
    {db tx : Database} (h : openEventTx env k state finding db = .ok tx) :
    OpensEvent env k state finding db tx := by
  unfold openEventTx at h
  split at h
  · cases h
  · next db' hx =>
    obtain ⟨-, hdb⟩ := Outcome.execTx_eq_ok.mp hx
    obtain ⟨hp, he, hf⟩ := attachAll_ok h
    unfold Database.openEvent at hdb
    split at hdb
    · cases hdb
    · next hfresh =>
      simp only [Option.some.injEq] at hdb
      subst hdb
      exact ⟨hfresh, hp, he, hf⟩

theorem openEventTx_external {env : ApplyEnv} {k : SeriesKey} {state : PolicyState}
    {finding : Finding} {db : Database} {h : Halt}
    (hh : openEventTx env k state finding db = .error h) : h.External := by
  unfold openEventTx at hh
  split at hh
  · next h' hx =>
    simp only [Except.error.injEq] at hh
    exact hh ▸ Outcome.execTx_external hx
  · exact attachAll_external hh

/-- With nothing in its way, the transaction gets as far as the commit. -/
theorem openEventTx_of_succeeds {env : ApplyEnv} {w : World} (henv : env.Succeeds w)
    (k : SeriesKey) (state : PolicyState) (finding : Finding) :
    ∃ tx, openEventTx env k state finding w.db = .ok tx := by
  unfold openEventTx
  simp only [Database.openEvent, if_neg henv.fresh, henv.openEvent, Outcome.execTx, Outcome.halt]
  exact attachAll_of_ok henv.attachPending _ _ _

/-! ## ApplyFinding -/

/-- The state once it has entered another status. -/
def PolicyState.enter (state : PolicyState) (status : PolicyStateStatus) (ts : Time) :
    PolicyState :=
  { state with status, statusUpdatedAt := ts }

/-- The state once the finding is the only one pending. -/
def PolicyState.startWatching (state : PolicyState) (finding : Finding) (findingId : Uuid) :
    PolicyState :=
  { state with
    status := .watching
    statusUpdatedAt := finding.ts
    pendingFindings := [{ id := findingId, finding := some finding }] }

/-- The state once the finding is the last one pending. -/
def PolicyState.keepWatching (state : PolicyState) (finding : Finding) (findingId : Uuid) :
    PolicyState :=
  { state with
    pendingFindings := state.pendingFindings ++ [{ id := findingId, finding := some finding }] }

/-- The state once the clean or the watching branch has noted the finding. -/
def PolicyState.watch (cfg : PolicyEngineConfig) (state : PolicyState) (finding : Finding)
    (findingId : Uuid) : PolicyState :=
  if state.status = .clean then (state.score cfg finding).startWatching finding findingId
  else (state.score cfg finding).keepWatching finding findingId

/-- The state once the event `e` has been opened for it. -/
def PolicyState.fire (state : PolicyState) (finding : Finding) (e : Uuid) : PolicyState :=
  { state with
    status := .firing
    openEventId := some e
    pendingFindings := []
    statusUpdatedAt := finding.ts }

/-- The state once its findings are forgotten and the score is reset. -/
def PolicyState.expire (state : PolicyState) (now : Time) : PolicyState :=
  { state with
    status := .clean
    pendingFindings := []
    statusUpdatedAt := now
    bucketState := { score := 0, scoreUpdatedAt := now } }

/-- The state once its event is closed. The score stays what it is. -/
def PolicyState.close (state : PolicyState) (now : Time) : PolicyState :=
  { state with
    status := .clean
    openEventId := none
    pendingFindings := []
    statusUpdatedAt := now }

/-- The finding lifts the score over the opening threshold. -/
def PolicyState.CrossesOpen (cfg : PolicyEngineConfig) (state : PolicyState) (finding : Finding) :
    Prop :=
  (cfg.bucket.add state.bucketState finding.severity finding.ts).crossedOpen = true

instance (cfg : PolicyEngineConfig) (state : PolicyState) (finding : Finding) :
    Decidable (state.CrossesOpen cfg finding) :=
  inferInstanceAs (Decidable (_ = true))

/-- A series with no event. -/
def PolicyState.Quiet (state : PolicyState) : Prop :=
  state.status = .clean ∨ state.status = .watching

/-- A series with an event: firing or recovering. -/
def PolicyState.Alarmed (state : PolicyState) : Prop :=
  state.status = .firing ∨ state.status = .recovering

instance (state : PolicyState) : Decidable state.Quiet := inferInstanceAs (Decidable (_ ∨ _))

instance (state : PolicyState) : Decidable state.Alarmed := inferInstanceAs (Decidable (_ ∨ _))

theorem PolicyState.Quiet.not_alarmed {state : PolicyState} (h : state.Quiet) :
    ¬ state.Alarmed := by
  rcases h with h | h <;> simp [PolicyState.Alarmed, h]

section

variable {cfg : PolicyEngineConfig} {finding : Finding} {id : Uuid} {s : PolicyState}

@[simp] theorem PolicyState.watch_bucketState :
    (s.watch cfg finding id).bucketState =
      (cfg.bucket.add s.bucketState finding.severity finding.ts).newState := by
  unfold PolicyState.watch
  split <;> rfl

@[simp] theorem PolicyState.watch_openEventId :
    (s.watch cfg finding id).openEventId = s.openEventId := by
  unfold PolicyState.watch
  split <;> rfl

theorem PolicyState.watch_status (hq : s.Quiet) : (s.watch cfg finding id).status = .watching := by
  unfold PolicyState.watch
  split
  · rfl
  · next hc => exact hq.resolve_left hc

end

/-- The ways through the `switch` of `ApplyFinding`. -/
inductive Applied (cfg : PolicyEngineConfig) (env : ApplyEnv) (k : SeriesKey) (finding : Finding)
    (id : Uuid) (state : PolicyState) (db : Database) :
    PolicyState × Database × Option Halt → Prop
  /-- The finding is noted and the threshold is not crossed. -/
  | watch (hs : state.Quiet) (hc : ¬ state.CrossesOpen cfg finding) :
    Applied cfg env k finding id state db (state.watch cfg finding id, db, none)
  /-- The event cannot be opened and nothing of it is left in the tables. -/
  | refused (h : Halt) (hh : h.External) (hs : state.Quiet) (hc : state.CrossesOpen cfg finding)
      (hr : env.begin = .ok → ∀ tx,
        openEventTx env k (state.watch cfg finding id) finding db = .ok tx →
          ¬ env.commit.Applies) :
    Applied cfg env k finding id state db (state.watch cfg finding id, db, some h)
  /-- The event is committed, but the engine is told otherwise. -/
  | orphaned (tx : Database) (hs : state.Quiet) (hc : state.CrossesOpen cfg finding)
      (hb : env.begin = .ok)
      (htx : openEventTx env k (state.watch cfg finding id) finding db = .ok tx)
      (hl : env.commit = .lost) :
    Applied cfg env k finding id state db
      (state.watch cfg finding id, tx, some (.error (.database .commit)))
  /-- The event is opened. -/
  | opened (tx : Database) (hs : state.Quiet) (hc : state.CrossesOpen cfg finding)
      (hb : env.begin = .ok)
      (htx : openEventTx env k (state.watch cfg finding id) finding db = .ok tx)
      (hl : env.commit = .ok) :
    Applied cfg env k finding id state db
      ((state.watch cfg finding id).fire finding env.eventId, tx, none)
  /-- A firing series hands the finding to its event. -/
  | attach (e : Uuid) (hs : state.status = .firing) (he : state.openEventId = some e) :
    Applied cfg env k finding id state db
      (state.score cfg finding,
        if env.attachFinding.Applies then db.attachFindingToEvent e id else db,
        env.attachFinding.halt .attachFindingToEvent)
  /-- A recovering series hands the finding to its event and fires again. -/
  | refire (e : Uuid) (hs : state.status = .recovering) (he : state.openEventId = some e)
      (ha : env.attachFinding = .ok) :
    Applied cfg env k finding id state db
      ((state.score cfg finding).enter .firing finding.ts, db.attachFindingToEvent e id, none)
  /-- A recovering series cannot hand over the finding, and stays what it is. -/
  | stuck (e : Uuid) (hs : state.status = .recovering) (he : state.openEventId = some e)
      (ha : env.attachFinding ≠ .ok) :
    Applied cfg env k finding id state db
      (state.score cfg finding,
        if env.attachFinding.Applies then db.attachFindingToEvent e id else db,
        env.attachFinding.halt .attachFindingToEvent)
  /-- A series that should have an event has none. -/
  | missing (text : String) (hs : state.Alarmed) (he : state.openEventId = none) :
    Applied cfg env k finding id state db
      (state.score cfg finding, db, some (.error (.text text)))
  /-- A status that is none of the four is left alone. -/
  | other (text : String) (hs : state.status = .other text) :
    Applied cfg env k finding id state db (state.score cfg finding, db, none)

section

variable {cfg : PolicyEngineConfig} {env : ApplyEnv} {k : SeriesKey} {finding : Finding}
  {id : Uuid} {state : PolicyState} {db : Database}

/-- `openEvent` on the state that has just noted the finding. -/
theorem openEvent_applied (hs : state.Quiet) (hc : state.CrossesOpen cfg finding) :
    Applied cfg env k finding id state db
      (openEvent env k (state.watch cfg finding id) finding db) := by
  unfold openEvent
  cases hb : env.begin with
  | crash => exact .refused _ trivial hs hc (by simp [hb])
  | failed => exact .refused _ trivial hs hc (by simp [hb])
  | lost => exact .refused _ trivial hs hc (by simp [hb])
  | ok =>
    cases htx : openEventTx env k (state.watch cfg finding id) finding db with
    | error h => exact .refused _ (openEventTx_external htx) hs hc (by simp [htx])
    | ok tx =>
      cases hl : env.commit with
      | crash => exact .refused _ trivial hs hc (by simp [hl, Outcome.Applies])
      | failed => exact .refused _ trivial hs hc (by simp [hl, Outcome.Applies])
      | lost => exact .orphaned tx hs hc hb htx hl
      | ok => exact .opened tx hs hc hb htx hl

/-- **`onFinding` takes one of the ways of `Applied`.** -/
theorem onFinding_applied :
    Applied cfg env k finding id state db (onFinding cfg env k finding id state db) := by
  unfold onFinding
  cases hs : state.status with
  | clean =>
    have hst : (state.score cfg finding).status = .clean := hs
    have hw : state.watch cfg finding id = (state.score cfg finding).startWatching finding id :=
      if_pos hs
    simp only [PolicyState.startWatching] at hw
    simp only [hst]
    split
    · next hc => exact hw ▸ openEvent_applied (.inl hs) hc
    · next hc => exact hw ▸ .watch (.inl hs) hc
  | watching =>
    have hst : (state.score cfg finding).status = .watching := hs
    have hw : state.watch cfg finding id = (state.score cfg finding).keepWatching finding id :=
      if_neg (by simp [hs])
    simp only [PolicyState.keepWatching, hst] at hw
    simp only [hst]
    split
    · next hc => exact hw ▸ openEvent_applied (.inr hs) hc
    · next hc => exact hw ▸ .watch (.inr hs) hc
  | firing =>
    have hst : (state.score cfg finding).status = .firing := hs
    simp only [hst]
    cases he : state.openEventId with
    | none =>
      have hev : (state.score cfg finding).openEventId = none := he
      simp only [hev]
      exact .missing _ (.inl hs) he
    | some e =>
      have hev : (state.score cfg finding).openEventId = some e := he
      simp only [hev]
      exact .attach e hs he
  | recovering =>
    have hst : (state.score cfg finding).status = .recovering := hs
    simp only [hst]
    cases he : state.openEventId with
    | none =>
      have hev : (state.score cfg finding).openEventId = none := he
      simp only [hev]
      exact .missing _ (.inr hs) he
    | some e =>
      have hev : (state.score cfg finding).openEventId = some e := he
      simp only [hev]
      split
      · next db' h hx =>
        simp only [attachFindingToEvent, Outcome.exec, Prod.mk.injEq] at hx
        obtain ⟨rfl, hh⟩ := hx
        rw [← hh]
        exact .stuck e hs he (by rintro ha; simp [ha, Outcome.halt] at hh)
      · next db' hx =>
        simp only [attachFindingToEvent, Outcome.exec, Prod.mk.injEq,
          Outcome.halt_eq_none] at hx
        obtain ⟨rfl, ha⟩ := hx
        rw [if_pos (by simp [ha, Outcome.Applies]), ← hev]
        exact .refire e hs he ha
  | other text =>
    have hst : (state.score cfg finding).status = .other text := hs
    simp only [hst]
    exact .other text hs

end

/-! ## Sweep -/

/-- The close of the series' event is due. -/
def PolicyState.CloseDue (cfg : PolicyEngineConfig) (state : PolicyState) (now : Time) : Prop :=
  state.status = .recovering ∧ cfg.quietPeriod < Time.sub now state.statusUpdatedAt

instance (cfg : PolicyEngineConfig) (state : PolicyState) (now : Time) :
    Decidable (state.CloseDue cfg now) :=
  inferInstanceAs (Decidable (_ ∧ _))

/-- The ways through the `switch` of `Sweep`. -/
inductive Swept (cfg : PolicyEngineConfig) (now : Time) (o : Outcome) (state : PolicyState)
    (db : Database) : PolicyState × Database × Option Halt → Prop
  /-- Nothing but the score changes. -/
  | drain (hs : ¬ (state.status = .watching ∧
        cfg.confirmWindow < Time.sub now state.statusUpdatedAt))
      (hf : state.status = .firing → (cfg.bucket.decay state.bucketState now).crossedClose = false)
      (hr : state.CloseDue cfg now → state.openEventId = none) :
    Swept cfg now o state db (state.drain cfg now, db, none)
  /-- The confirm window is over. -/
  | expire (hs : state.status = .watching)
      (hw : cfg.confirmWindow < Time.sub now state.statusUpdatedAt) :
    Swept cfg now o state db ((state.drain cfg now).expire now, db, none)
  /-- The score has fallen under the closing threshold. -/
  | recover (hs : state.status = .firing)
      (hc : (cfg.bucket.decay state.bucketState now).crossedClose = true) :
    Swept cfg now o state db ((state.drain cfg now).enter .recovering now, db, none)
  /-- The quiet period is over and the event is closed. -/
  | close (e : Uuid) (hs : state.CloseDue cfg now) (he : state.openEventId = some e)
      (ho : o = .ok) :
    Swept cfg now o state db ((state.drain cfg now).close now, db.closeEvent e now, none)
  /-- The quiet period is over and the event cannot be closed. -/
  | unclosed (e : Uuid) (hs : state.CloseDue cfg now) (he : state.openEventId = some e)
      (ho : o ≠ .ok) :
    Swept cfg now o state db
      (state.drain cfg now, if o.Applies then db.closeEvent e now else db, o.halt .closeEvent)

section

variable {cfg : PolicyEngineConfig} {now : Time} {o : Outcome} {state : PolicyState}
  {db : Database}

/-- **`sweepState` takes one of the ways of `Swept`.** -/
theorem sweepState_swept : Swept cfg now o state db (sweepState cfg now o state db) := by
  unfold sweepState
  cases hs : state.status with
  | clean =>
    have hst : (state.drain cfg now).status = .clean := hs
    simp only [hst]
    exact .drain (by simp [hs]) (by simp [hs]) (by simp [PolicyState.CloseDue, hs])
  | watching =>
    have hst : (state.drain cfg now).status = .watching := hs
    simp only [hst]
    split
    · next hw => exact .expire hs hw
    · next hw => exact .drain (fun h => hw h.2) (by simp [hs]) (by simp [PolicyState.CloseDue, hs])
  | firing =>
    have hst : (state.drain cfg now).status = .firing := hs
    simp only [hst]
    split
    · next hc => exact .recover hs hc
    · next hc =>
      exact .drain (by simp [hs]) (fun _ => by simpa using hc) (by simp [PolicyState.CloseDue, hs])
  | recovering =>
    have hst : (state.drain cfg now).status = .recovering := hs
    simp only [hst]
    cases he : state.openEventId with
    | none =>
      have hev : (state.drain cfg now).openEventId = none := he
      simp only [hev]
      exact .drain (by simp [hs]) (by simp [hs]) (fun _ => he)
    | some e =>
      have hev : (state.drain cfg now).openEventId = some e := he
      simp only [hev]
      split
      · next hq =>
        split
        · next db' h hx =>
          simp only [Outcome.exec, Prod.mk.injEq] at hx
          obtain ⟨rfl, hh⟩ := hx
          rw [← hh]
          exact .unclosed e ⟨hs, hq⟩ he (by rintro ho; simp [ho, Outcome.halt] at hh)
        · next db' hx =>
          simp only [Outcome.exec, Prod.mk.injEq, Outcome.halt_eq_none] at hx
          obtain ⟨rfl, ho⟩ := hx
          rw [if_pos (by simp [ho, Outcome.Applies])]
          exact .close e ⟨hs, hq⟩ he ho
      · next hq => exact .drain (by simp [hs]) (by simp [hs]) (fun h => absurd h.2 hq)
  | other text =>
    have hst : (state.drain cfg now).status = .other text := hs
    simp only [hst]
    exact .drain (by simp [hs]) (by simp [hs]) (by simp [PolicyState.CloseDue, hs])

end

end Cepheus.Argus
