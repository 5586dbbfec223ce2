import Cepheus.Argus.Properties.Call

/-!
# What a failed call leaves behind

`openEvent` and `ApplyFinding` when a statement of theirs fails and the process goes on.

`openEvent` writes to the state at its very end, and to the tables in one transaction. It is all or
nothing, but for two holes: a transaction that cannot be started is rolled back all the same, which
panics, and a commit whose answer is lost has taken effect.

`ApplyFinding` writes to the state before it sends its first statement. An error leaves the score,
the pending findings and the status behind as if there had been none, and the finding counts twice
when it is applied again.

* `openEvent_cases` - the ways through `openEvent`
* `openEvent_all_or_nothing` - when it is all or nothing
* `applyFinding_atomic_iff` - when an error of `ApplyFinding` leaves the series as it was
-/

namespace Cepheus.Argus

open Infra

/-- The process outlives the call: every statement comes to an end, good or bad. -/
structure ApplyEnv.Survives (env : ApplyEnv) : Prop where
  getPolicyState : env.getPolicyState ≠ .crash
  begin : env.begin ≠ .crash
  openEvent : env.openEvent ≠ .crash
  attachPending : ∀ i, env.attachPending i ≠ .crash
  commit : env.commit ≠ .crash
  attachFinding : env.attachFinding ≠ .crash
  upsert : env.upsert ≠ .crash

/-- A statement that fails while the process goes on is reported as an error. -/
theorem Outcome.halt_of_survives {o : Outcome} {q : Query} (hs : o ≠ .crash) (ho : o ≠ .ok) :
    o.halt q = some (.error (.database q)) := by
  cases o with
  | ok => exact absurd rfl ho
  | failed | lost => rfl
  | crash => exact absurd rfl hs

theorem Outcome.not_fatal {o : Outcome} {q : Query} (hs : o ≠ .crash) :
    ∀ h ∈ o.halt q, ¬ h.Fatal := by
  intro h hh
  cases o with
  | ok => cases hh
  | failed | lost =>
    cases hh
    exact id
  | crash => exact absurd rfl hs

/-! ## The transaction of openEvent -/

/-- Every statement between the start of the transaction and the commit succeeds. -/
structure ApplyEnv.ReachesCommit (env : ApplyEnv) (state : PolicyState) (db : Database) : Prop where
  openEvent : env.openEvent = .ok
  fresh : env.eventId ∉ db.events
  attachPending : ∀ i < state.pendingFindings.length, env.attachPending i = .ok

/-- Every statement of `openEvent` succeeds. -/
structure ApplyEnv.Opens (env : ApplyEnv) (state : PolicyState) (db : Database) : Prop where
  begin : env.begin = .ok
  reachesCommit : env.ReachesCommit state db
  commit : env.commit = .ok

theorem Outcome.execTx_some (o : Outcome) (q : Query) (tx : Database) (hs : o ≠ .crash) :
    o.execTx q (some tx) = if o = .ok then .ok tx else .error (.error (.database q)) := by
  cases o with
  | crash => exact absurd rfl hs
  | ok | failed | lost => rfl

/-- The loop over the pending findings gets to its end exactly if every finding is attached;
otherwise it ends with an error. -/
theorem attachAll_spec {outcome : Nat → Outcome} {e : Uuid} (hs : ∀ i, outcome i ≠ .crash) :
    ∀ (pending : List PendingFinding) (i : Nat) (db : Database),
      if ∀ j < pending.length, outcome (i + j) = .ok
      then ∃ tx, attachAll outcome e i pending db = .ok tx
      else ∃ x, attachAll outcome e i pending db = .error (.error x)
  | [], i, db => by
    rw [if_pos (by simp)]
    exact ⟨db, rfl⟩
  | pf :: rest, i, db => by
    have ih := attachAll_spec (e := e) hs rest (i + 1) (db.attachFindingToEvent e pf.id)
    -- the first finding is the one at `i`, the others are those behind it
    have hall : (∀ j < (pf :: rest).length, outcome (i + j) = .ok) ↔
        outcome i = .ok ∧ ∀ j < rest.length, outcome (i + 1 + j) = .ok := by
      constructor
      · intro h
        refine ⟨h 0 (by simp), ?_⟩
        intro j hj
        have hj' := h (j + 1) (by simpa using hj)
        rwa [show i + (j + 1) = i + 1 + j by omega] at hj'
      · rintro ⟨h0, h⟩ j hj
        cases j with
        | zero => exact h0
        | succ j =>
          rw [show i + (j + 1) = i + 1 + j by omega]
          exact h j (by simpa using hj)
    simp only [hall, attachAll, Outcome.execTx_some _ _ _ (hs i)]
    by_cases h0 : outcome i = .ok
    · simpa only [h0, if_true, true_and] using ih
    · simp only [h0, if_false, false_and]
      exact ⟨_, rfl⟩

/-- The statements before the commit either all succeed, or the first that does not is reported. -/
theorem openEventTx_spec {env : ApplyEnv} (hs : env.Survives) (k : SeriesKey)
    (state : PolicyState) (finding : Finding) (db : Database) :
    (env.ReachesCommit state db ∧ ∃ tx, openEventTx env k state finding db = .ok tx) ∨
      ¬ env.ReachesCommit state db ∧
        ∃ x, openEventTx env k state finding db = .error (.error x) := by
  unfold openEventTx Database.openEvent
  by_cases hf : env.eventId ∈ db.events
  · refine .inr ⟨fun h => h.fresh hf, ?_⟩
    rw [if_pos hf]
    by_cases ho : env.openEvent = .ok
    · exact ⟨.database .openEvent, by simp only [ho, Outcome.execTx, Outcome.halt]⟩
    · exact ⟨.database .openEvent, by
        simp only [Outcome.execTx, Outcome.halt_of_survives hs.openEvent ho]⟩
  · simp only [if_neg hf, Outcome.execTx_some _ _ _ hs.openEvent]
    by_cases ho : env.openEvent = .ok
    · simp only [ho, if_true]
      have hloop := attachAll_spec (e := env.eventId) hs.attachPending state.pendingFindings 0
        { db with
          events := db.events.insert env.eventId (openedRow k state finding) }
      simp only [Nat.zero_add] at hloop
      split at hloop
      · next hall => exact .inl ⟨⟨ho, hf, hall⟩, hloop⟩
      · next hall => exact .inr ⟨fun h => hall h.attachPending, hloop⟩
    · refine .inr ⟨fun h => ho h.openEvent, ?_⟩
      simp only [ho, if_false]
      exact ⟨_, rfl⟩

/-- The ways through `openEvent`, when the process goes on. -/
theorem openEvent_cases {env : ApplyEnv} (hs : env.Survives) (k : SeriesKey)
    (state : PolicyState) (finding : Finding) (db : Database) :
    (env.begin ≠ .ok ∧ openEvent env k state finding db = (state, db, some .panic)) ∨
      (env.begin = .ok ∧ (¬ env.ReachesCommit state db ∨ env.commit = .failed) ∧
        ∃ x, openEvent env k state finding db = (state, db, some (.error x))) ∨
      (env.begin = .ok ∧ env.ReachesCommit state db ∧
        ∃ tx, OpensEvent env k state finding db tx ∧
          (env.commit = .lost ∧
              openEvent env k state finding db = (state, tx, some (.error (.database .commit))) ∨
            env.commit = .ok ∧
              openEvent env k state finding db = (state.fire finding env.eventId, tx, none))) := by
  unfold openEvent
  cases hb : env.begin with
  | crash => exact absurd hb hs.begin
  | failed | lost => exact .inl ⟨nofun, rfl⟩
  | ok =>
    refine .inr ?_
    rcases openEventTx_spec hs k state finding db with ⟨hr, tx, htx⟩ | ⟨hr, x, htx⟩
    · rw [htx]
      have hopens := openEventTx_ok htx
      cases hc : env.commit with
      | crash => exact absurd hc hs.commit
      | failed => exact .inl ⟨rfl, .inr rfl, _, rfl⟩
      | lost => exact .inr ⟨rfl, hr, tx, hopens, .inl ⟨rfl, rfl⟩⟩
      | ok => exact .inr ⟨rfl, hr, tx, hopens, .inr ⟨rfl, rfl⟩⟩
    · rw [htx]
      exact .inl ⟨rfl, .inl hr, x, rfl⟩

/-- A transaction that opens an event changes the tables. -/
theorem OpensEvent.ne {env : ApplyEnv} {k : SeriesKey} {state : PolicyState} {finding : Finding}
    {db tx : Database} (h : OpensEvent env k state finding db tx) : tx ≠ db := by
  rintro rfl
  apply h.fresh
  rw [h.events]
  exact Finmap.mem_insert.mpr (.inl rfl)

/--
How `openEvent` is meant to end. If a statement fails, it reports an error, and neither the state
nor the tables have changed. Otherwise there is one new open event, exactly the pending findings
have been attached to it, and the series fires with it.
-/
inductive AllOrNothing (env : ApplyEnv) (k : SeriesKey) (state : PolicyState) (finding : Finding)
    (db : Database) : PolicyState × Database × Option Halt → Prop
  | nothing (x : EngineError) (hf : ¬ env.Opens state db) :
    AllOrNothing env k state finding db (state, db, some (.error x))
  | all (tx : Database) (ho : env.Opens state db) (htx : OpensEvent env k state finding db tx) :
    AllOrNothing env k state finding db (state.fire finding env.eventId, tx, none)

/-- A call that does not end well reports an error, and has changed nothing. -/
theorem AllOrNothing.of_halt {env : ApplyEnv} {k : SeriesKey} {state : PolicyState}
    {finding : Finding} {db : Database} {r : PolicyState × Database × Option Halt} {h : Halt}
    (ha : AllOrNothing env k state finding db r) (hh : r.2.2 = some h) :
    (∃ x, h = .error x) ∧ r.1 = state ∧ r.2.1 = db := by
  cases ha with
  | nothing x _ => exact ⟨⟨x, (Option.some.inj hh).symm⟩, rfl, rfl⟩
  | all => cases hh

/-- **`openEvent` is all or nothing** exactly if its transaction can be started and no commit takes
effect unnoticed. -/
theorem openEvent_all_or_nothing {env : ApplyEnv} (hs : env.Survives) (k : SeriesKey)
    (state : PolicyState) (finding : Finding) (db : Database) :
    AllOrNothing env k state finding db (openEvent env k state finding db) ↔
      env.begin = .ok ∧ ¬ (env.ReachesCommit state db ∧ env.commit = .lost) := by
  rcases openEvent_cases hs k state finding db with
    ⟨hb, heq⟩ | ⟨hb, hf, x, heq⟩ | ⟨hb, hr, tx, htx, ⟨hc, heq⟩ | ⟨hc, heq⟩⟩
  · rw [heq]
    refine ⟨?_, fun h => absurd h.1 hb⟩
    intro h
    obtain ⟨x, hx⟩ := (h.of_halt rfl).1
    cases hx
  · rw [heq]
    refine ⟨fun _ => ⟨hb, ?_⟩, fun _ => .nothing x ?_⟩
    · rintro ⟨hr, hl⟩
      rcases hf with hf | hf
      · exact hf hr
      · exact absurd (hf.symm.trans hl) nofun
    · rintro ho
      rcases hf with hf | hf
      · exact hf ho.reachesCommit
      · exact absurd (hf.symm.trans ho.commit) nofun
  · rw [heq]
    refine ⟨?_, fun h => absurd ⟨hr, hc⟩ h.2⟩
    intro h
    -- the event is in the tables, though an error is reported
    exact absurd (h.of_halt rfl).2.2 htx.ne
  · rw [heq]
    refine ⟨fun _ => ⟨hb, ?_⟩, fun _ => .all tx ⟨hb, hr, hc⟩ htx⟩
    rintro ⟨-, hl⟩
    exact absurd (hc.symm.trans hl) nofun

/-- Nothing fails, for a while. -/
theorem ApplyEnv.survives_ok (now : Time) (e : Uuid) : (ApplyEnv.ok now e).Survives :=
  ⟨nofun, nofun, nofun, fun _ => nofun, nofun, nofun, nofun⟩

/-- Agent "a" has two findings pending. -/
def watchingTwo : PolicyState :=
  { status := .watching, statusUpdatedAt := 1000 * second
    bucketState := { score := 6, scoreUpdatedAt := 1001 * second }, openEventId := none
    pendingFindings := [{ id := 0, finding := none }, { id := 1, finding := none }] }

/-- The pool has no connection: `Begin` returns no transaction, and the one that is rolled back is
nil. -/
theorem openEvent_without_connection :
    ¬ ∀ (env : ApplyEnv), env.Survives → ∀ (k : SeriesKey) (state : PolicyState)
      (finding : Finding) (db : Database),
        AllOrNothing env k state finding db (openEvent env k state finding db) := by
  intro h
  have hs : ApplyEnv.Survives { ApplyEnv.ok (1001 * second) 0 with begin := .failed } :=
    { ApplyEnv.survives_ok (1001 * second) 0 with begin := nofun }
  have hcall := h _ hs (pingKey "a") watchingTwo
    { ts := 1001 * second, value := 0, severity := 1 } Database.empty
  obtain ⟨x, hx⟩ := (hcall.of_halt rfl).1
  cases hx

/-- The second finding cannot be attached: nothing is left of the event. -/
theorem openEvent_second_attach_fails :
    AllOrNothing
      { ApplyEnv.ok (1001 * second) 0 with
        attachPending := fun i => if i = 1 then .failed else .ok }
      (pingKey "a") watchingTwo { ts := 1001 * second, value := 0, severity := 1 } Database.empty
      (openEvent
        { ApplyEnv.ok (1001 * second) 0 with
          attachPending := fun i => if i = 1 then .failed else .ok }
        (pingKey "a") watchingTwo { ts := 1001 * second, value := 0, severity := 1 }
        Database.empty) := by
  refine (openEvent_all_or_nothing ?_ _ _ _ _).mpr ⟨rfl, ?_⟩
  · refine { ApplyEnv.survives_ok (1001 * second) 0 with attachPending := ?_ }
    intro i
    dsimp only
    split <;> nofun
  · rintro ⟨-, hl⟩
    cases hl

/-! ## ApplyFinding -/

section

variable (cfg : PolicyEngineConfig) (env : ApplyEnv) (k : SeriesKey) (finding : Finding)
  (id : Uuid) (w : World)

/-- The engine's memory once the state has been loaded, or could not be. -/
def loadedStates : Table SeriesKey PolicyState :=
  match loadState env k w with
  | .error _ => w.states
  | .ok s => w.states.insert k s

/--
What an error of `ApplyFinding` is to mean: the call returns, every state in memory is what it was
before or what was loaded or created for the call, and the same finding can be applied again with
the effect that the first attempt would have had.
-/
structure AtomicOnError : Prop where
  returns : ∀ h ∈ (applyFinding cfg env k finding id w).2, ¬ h.Fatal
  unchanged : ∀ x, (applyFinding cfg env k finding id w).2 = some (.error x) →
    (applyFinding cfg env k finding id w).1.states = loadedStates env k w
  retry : ∀ x, (applyFinding cfg env k finding id w).2 = some (.error x) →
    ∀ env' : ApplyEnv, env'.Succeeds w →
      applyFinding cfg env' k finding id (applyFinding cfg env k finding id w).1 =
        applyFinding cfg env' k finding id w

/-- Every statement that the call sends for the loaded state `s` succeeds, and the state has the
event that its status calls for. -/
structure ApplyEnv.Serves (s : PolicyState) : Prop where
  quiet : s.Quiet → s.CrossesOpen cfg finding → env.Opens (s.watch cfg finding id) w.db
  alarmed : s.Alarmed → s.openEventId ≠ none ∧ env.attachFinding = .ok
  upsert : env.upsert = .ok

/-- The call leaves the loaded state `s` as it is: the series has an event or an unknown status, the
finding adds nothing to a score of its own instant, and a recovering series does not get to fire
again. -/
structure ApplyEnv.Idles (s : PolicyState) : Prop where
  busy : ¬ s.Quiet
  score : (cfg.bucket.add s.bucketState finding.severity finding.ts).newState = s.bucketState
  recovering : s.status = .recovering → s.openEventId = none ∨ env.attachFinding ≠ .ok

end

/-! ### Statements that are sent again -/

theorem Database.attachFindingToEvent_self (db : Database) (e id : Uuid) :
    (db.attachFindingToEvent e id).attachFindingToEvent e id = db.attachFindingToEvent e id := by
  unfold Database.attachFindingToEvent
  refine Database.ext rfl rfl (Finmap.ext_lookup ?_)
  intro i
  simp only [Table.lookup_adjust]
  by_cases h : i = id <;> simp [h, Option.map_map, Function.comp_def]

theorem Database.upsertPolicyState_self (db : Database) (r : RowKey) (row row' : PolicyRow) :
    (db.upsertPolicyState r row).upsertPolicyState r row' = db.upsertPolicyState r row' := by
  unfold Database.upsertPolicyState
  exact Database.ext (Finmap.insert_insert _) rfl rfl

/-! ### The ways in which a call ends -/

section

variable {cfg : PolicyEngineConfig} {env : ApplyEnv} {k : SeriesKey} {finding : Finding}
  {id : Uuid} {w : World} {s : PolicyState}

/-- The clean and the watching branch note the finding. -/
theorem PolicyState.watch_ne (hq : s.Quiet) : s.watch cfg finding id ≠ s := by
  intro h
  rcases hq with hc | hw
  · have hst : (s.watch cfg finding id).status = .watching := PolicyState.watch_status (.inl hc)
    rw [h, hc] at hst
    cases hst
  · have hp := congrArg (fun s => s.pendingFindings.length) h
    simp [PolicyState.watch, hw, PolicyState.keepWatching, PolicyState.score] at hp

/-- A way through the `switch` that ends with the state it began with idles. -/
theorem Applied.idles {db : Database} {r : PolicyState × Database × Option Halt}
    (ha : Applied cfg env k finding id s db r) (hr : r.1 = s) : env.Idles cfg finding s := by
  cases ha with
  | watch hq _ => exact absurd hr (PolicyState.watch_ne hq)
  | refused _ _ hq _ _ => exact absurd hr (PolicyState.watch_ne hq)
  | orphaned _ hq _ _ _ _ => exact absurd hr (PolicyState.watch_ne hq)
  | opened _ hq _ _ _ _ =>
    have hst : s.status = .firing := (congrArg PolicyState.status hr).symm
    exact absurd (.inl hst) hq.not_alarmed
  | attach e hst he =>
    refine ⟨fun hq => hq.not_alarmed (.inl hst), congrArg PolicyState.bucketState hr, ?_⟩
    intro hrec
    rw [hst] at hrec
    cases hrec
  | refire e hst he _ =>
    have hf : s.status = .firing := (congrArg PolicyState.status hr).symm
    rw [hst] at hf
    cases hf
  | stuck e hst he hne =>
    exact ⟨fun hq => hq.not_alarmed (.inr hst), congrArg PolicyState.bucketState hr,
      fun _ => .inr hne⟩
  | missing _ hst he =>
    exact ⟨fun hq => hq.not_alarmed hst, congrArg PolicyState.bucketState hr, fun _ => .inl he⟩
  | other _ hst =>
    refine ⟨?_, congrArg PolicyState.bucketState hr, ?_⟩
    · rintro (hq | hq) <;> rw [hst] at hq <;> cases hq
    · intro hrec
      rw [hst] at hrec
      cases hrec

/-- What has succeeded when the `switch` is left without an error. -/
theorem Applied.serves (hs : env.Survives) {r : PolicyState × Database × Option Halt}
    (ha : Applied cfg env k finding id s w.db r) (hn : r.2.2 = none) (hu : env.upsert = .ok) :
    env.Serves cfg finding id w s := by
  cases ha with
  | watch hq hc => exact ⟨fun _ h => absurd h hc, fun h => absurd h hq.not_alarmed, hu⟩
  | refused => cases hn
  | orphaned => cases hn
  | opened tx hq hc hb htx hl =>
    refine ⟨fun _ _ => ⟨hb, ?_, hl⟩, fun h => absurd h hq.not_alarmed, hu⟩
    rcases openEventTx_spec hs k (s.watch cfg finding id) finding w.db with ⟨hr, -⟩ | ⟨-, x, hx⟩
    · exact hr
    · rw [htx] at hx
      cases hx
  | attach e hst he =>
    refine ⟨fun hq => absurd (.inl hst) hq.not_alarmed, fun _ => ⟨?_, ?_⟩, hu⟩
    · simp [he]
    · exact Outcome.halt_eq_none.mp hn
  | refire e hst he hok =>
    exact ⟨fun hq => absurd (.inr hst) hq.not_alarmed, fun _ => ⟨by simp [he], hok⟩, hu⟩
  | stuck e hst he hne => exact absurd (Outcome.halt_eq_none.mp hn) hne
  | missing => cases hn
  | other text hst =>
    refine ⟨?_, ?_, hu⟩
    · rintro (hq | hq) <;> rw [hst] at hq <;> cases hq
    · rintro (hq | hq) <;> rw [hst] at hq <;> cases hq

/-- A `switch` whose statements succeed is left without an error. -/
theorem ApplyEnv.Serves.halt_eq_none (hv : env.Serves cfg finding id w s) (hs : env.Survives)
    {r : PolicyState × Database × Option Halt}
    (ha : Applied cfg env k finding id s w.db r) : r.2.2 = none := by
  cases ha with
  | watch => rfl
  | refused x _ hq hc hr =>
    have ho := hv.quiet hq hc
    rcases openEventTx_spec hs k (s.watch cfg finding id) finding w.db with
      ⟨-, tx, htx⟩ | ⟨hno, -⟩
    · refine absurd ?_ (hr ho.begin tx htx)
      rw [ho.commit]
      trivial
    · exact absurd ho.reachesCommit hno
  | orphaned tx hq hc _ _ hl =>
    have hok := (hv.quiet hq hc).commit
    rw [hl] at hok
    cases hok
  | opened => rfl
  | attach e hst he => exact Outcome.halt_eq_none.mpr (hv.alarmed (.inl hst)).2
  | refire => rfl
  | stuck e hst he hne => exact absurd (hv.alarmed (.inr hst)).2 hne
  | missing _ hst he => exact absurd he (hv.alarmed hst).1
  | other => rfl

/-- A call that idles ends with the state it began with. -/
theorem ApplyEnv.Idles.state_eq (hi : env.Idles cfg finding s) {db : Database}
    {r : PolicyState × Database × Option Halt} (ha : Applied cfg env k finding id s db r) :
    r.1 = s := by
  have hscore : s.score cfg finding = s := by
    unfold PolicyState.score
    rw [hi.score]
  cases ha with
  | watch hq | refused _ _ hq | orphaned _ hq | opened _ hq => exact absurd hq hi.busy
  | attach | stuck | missing | other => exact hscore
  | refire e hst he hok =>
    rcases hi.recovering hst with hno | hne
    · rw [he] at hno
      cases hno
    · exact absurd hok hne

/-- The tables once a series with an event has handed the finding over to it. -/
def PolicyState.handOver (s : PolicyState) (id : Uuid) (db : Database) : Database :=
  if s.Alarmed then
    match s.openEventId with
    | none => db
    | some e => db.attachFindingToEvent e id
  else db

theorem PolicyState.handOver_self (db : Database) :
    s.handOver id (s.handOver id db) = s.handOver id db := by
  unfold PolicyState.handOver
  split
  · split
    · rfl
    · exact Database.attachFindingToEvent_self _ _ _
  · rfl

theorem PolicyState.handOver_upsert (db : Database) (r : RowKey) (row : PolicyRow) :
    s.handOver id (db.upsertPolicyState r row) = (s.handOver id db).upsertPolicyState r row := by
  unfold PolicyState.handOver
  split
  · split <;> rfl
  · rfl

/-- The `switch` for a series that is neither clean nor watching, when its statement succeeds: what
becomes of the state and whether there is an error do not depend on the tables. -/
theorem onFinding_busy (hq : ¬ s.Quiet) (ha : env.attachFinding = .ok) :
    ∃ s' h, (h ≠ none → s.Alarmed ∧ s.openEventId = none) ∧
      ∀ db, onFinding cfg env k finding id s db = (s', s.handOver id db, h) := by
  cases hst : s.status with
  | clean => exact absurd (.inl hst) hq
  | watching => exact absurd (.inr hst) hq
  | firing =>
    cases he : s.openEventId with
    | none =>
      refine ⟨s.score cfg finding,
        some (.error (.text "missing open id but policy state in firing")),
        fun _ => ⟨.inl hst, rfl⟩, fun db => ?_⟩
      simp [onFinding, PolicyState.score, hst, he, PolicyState.handOver]
    | some e =>
      refine ⟨s.score cfg finding, none, fun h => absurd rfl h, fun db => ?_⟩
      simp [onFinding, PolicyState.score, hst, he, PolicyState.handOver, PolicyState.Alarmed,
        attachFindingToEvent, ha]
  | recovering =>
    cases he : s.openEventId with
    | none =>
      refine ⟨s.score cfg finding,
        some (.error (.text "missing open id but policy state in recovering")),
        fun _ => ⟨.inr hst, rfl⟩, fun db => ?_⟩
      simp [onFinding, PolicyState.score, hst, he, PolicyState.handOver]
    | some e =>
      refine ⟨(s.score cfg finding).enter .firing finding.ts, none, fun h => absurd rfl h,
        fun db => ?_⟩
      simp [onFinding, PolicyState.score, PolicyState.enter, hst, he, PolicyState.handOver,
        PolicyState.Alarmed, attachFindingToEvent, ha]
  | other text =>
    refine ⟨s.score cfg finding, none, fun h => absurd rfl h, fun db => ?_⟩
    simp [onFinding, PolicyState.score, hst, PolicyState.handOver, PolicyState.Alarmed]

/-- A call for such a series attaches the finding or does not. -/
theorem Applied.handOver {db : Database} {r : PolicyState × Database × Option Halt}
    (ha : Applied cfg env k finding id s db r) (hq : ¬ s.Quiet) :
    r.2.1 = db ∨ r.2.1 = s.handOver id db := by
  have hatt : ∀ e, s.Alarmed → s.openEventId = some e →
      (if env.attachFinding.Applies then db.attachFindingToEvent e id else db) = db ∨
        (if env.attachFinding.Applies then db.attachFindingToEvent e id else db) =
          s.handOver id db := by
    intro e hal he
    simp only [PolicyState.handOver, if_pos hal, he]
    split
    · exact .inr rfl
    · exact .inl rfl
  cases ha with
  | watch h | refused _ _ h | orphaned _ h | opened _ h => exact absurd h hq
  | attach e hst he => exact hatt e (.inl hst) he
  | refire e hst he =>
    refine .inr ?_
    simp only [PolicyState.handOver, if_pos (show s.Alarmed from .inr hst), he]
  | stuck e hst he => exact hatt e (.inr hst) he
  | missing => exact .inl rfl
  | other => exact .inl rfl

/-- What is loaded for a series that has left the clean state does not depend on the clock. -/
theorem loadState_again {env' : ApplyEnv} (hl : loadState env k w = .ok s) (hq : ¬ s.Quiet)
    (hg : env'.getPolicyState = .ok) : loadState env' k w = .ok s := by
  rcases loadState_cases hl with hmem | ⟨hnone, ⟨row, hrow, rfl⟩ | ⟨-, rfl⟩⟩
  · exact loadState_of_lookup hmem
  · simp [loadState, hnone, hg, Outcome.halt, Database.getPolicyState, hrow]
  · exact absurd (.inl rfl) hq

/-- The tables that the first attempt leaves take the second one to where it would have got at
once. -/
theorem PolicyState.handOver_of_handOver {db d : Database}
    (hd : d = db ∨ d = s.handOver id db) : s.handOver id d = s.handOver id db := by
  rcases hd with rfl | rfl
  · rfl
  · exact PolicyState.handOver_self db

/-- A series that should have an event and has none is refused. -/
theorem Applied.ne_none_of_missing {db : Database} {r : PolicyState × Database × Option Halt}
    (ha : Applied cfg env k finding id s db r) (hal : s.Alarmed) (he : s.openEventId = none) :
    r.2.2 ≠ none := by
  cases ha with
  | watch h | opened _ h => exact absurd hal h.not_alarmed
  | refused | orphaned | missing => nofun
  | attach e hst he' | refire e hst he' | stuck e hst he' =>
    rw [he] at he'
    cases he'
  | other text hst => rcases hal with h | h <;> rw [hst] at h <;> cases h

/-- **After a call that idles, the same finding has the effect it would have had.** -/
theorem ApplyEnv.Idles.retry (hi : env.Idles cfg finding s) (hl : loadState env k w = .ok s)
    {env' : ApplyEnv} (henv : env'.Succeeds w) :
    applyFinding cfg env' k finding id (applyFinding cfg env k finding id w).1 =
      applyFinding cfg env' k finding id w := by
  obtain ⟨s₁, h, hmiss, hbusy⟩ :=
    @onFinding_busy cfg env' k finding id s hi.busy henv.attachFinding
  have hw : loadState env' k w = .ok s := loadState_again hl hi.busy henv.getPolicyState
  have hlookup : ∀ d, loadState env' k { states := w.states.insert k s, db := d } = .ok s :=
    fun d => loadState_of_lookup (Finmap.lookup_insert _)
  -- one case for each way in which the first attempt ends
  obtain ⟨s', d, ⟨x, ha, heq⟩ | ⟨ha, heq⟩⟩ := applyFinding_loaded cfg finding id hl
  · obtain rfl := (hi.state_eq ha).symm
    have hd := PolicyState.handOver_of_handOver (ha.handOver hi.busy)
    rw [heq]
    cases h with
    | some h => simp [applyFinding, hlookup, hw, hbusy, hd, Finmap.insert_insert]
    | none => simp [applyFinding, hlookup, hw, hbusy, hd, Finmap.insert_insert]
  · obtain rfl := (hi.state_eq ha).symm
    have hd := PolicyState.handOver_of_handOver (ha.handOver hi.busy)
    rw [heq]
    cases h with
    | some h =>
      -- the first attempt would have been refused, too
      obtain ⟨hal, he⟩ := hmiss (Option.some_ne_none h)
      exact absurd rfl (ha.ne_none_of_missing hal he)
    | none =>
      simp only [applyFinding, hlookup, hw, hbusy, Finmap.insert_insert, savePolicyState,
        henv.upsert, Outcome.exec_ok, Prod.mk.injEq, World.mk.injEq, and_true, true_and]
      -- the row that the first attempt may have saved is written again
      unfold saved
      split
      · rw [PolicyState.handOver_upsert, hd, Database.upsertPolicyState_self]
      · rw [hd]

/-- An error that a series with an event meets is one that the call returns. -/
theorem Applied.not_fatal (hs : env.Survives) {db : Database}
    {r : PolicyState × Database × Option Halt} (ha : Applied cfg env k finding id s db r)
    (hq : ¬ s.Quiet) : ∀ h ∈ r.2.2, ¬ h.Fatal := by
  cases ha with
  | watch h | refused _ _ h | orphaned _ h | opened _ h => exact absurd h hq
  | attach | stuck => exact Outcome.not_fatal hs.attachFinding
  | refire | other => nofun
  | missing =>
    intro h hh
    cases hh
    exact fun hf => hf

/-- The state that an atomic call leaves with its error is the one that it has loaded. -/
theorem AtomicOnError.state_eq (hat : AtomicOnError cfg env k finding id w)
    (hl : loadState env k w = .ok s) {s' : PolicyState} {d : Database} {h : Halt}
    (heq : applyFinding cfg env k finding id w = ({ states := w.states.insert k s', db := d },
      some h)) : s' = s := by
  cases h with
  | panic => exact (hat.returns .panic (by rw [heq]; rfl) trivial).elim
  | crash => exact (hat.returns .crash (by rw [heq]; rfl) trivial).elim
  | error x =>
    have hst := hat.unchanged x (by rw [heq])
    rw [heq, loadedStates, hl] at hst
    have hk := congrArg (Finmap.lookup k) hst
    simpa using hk

/-- A call that cannot load its state returns an error, and nothing has changed. -/
theorem atomicOnError_of_load {h : Halt} (hs : env.Survives) (hl : loadState env k w = .error h) :
    AtomicOnError cfg env k finding id w := by
  have heq : applyFinding cfg env k finding id w = (w, some h) := by simp [applyFinding, hl]
  refine ⟨?_, ?_, ?_⟩
  · rw [heq, ← loadState_error hl]
    exact Outcome.not_fatal hs.getPolicyState
  · intro _ _
    rw [heq, loadedStates, hl]
  · intro _ _ _ _
    rw [heq]

/-- A call that idles is atomic. -/
theorem ApplyEnv.Idles.atomicOnError (hi : env.Idles cfg finding s) (hs : env.Survives)
    (hl : loadState env k w = .ok s) : AtomicOnError cfg env k finding id w := by
  obtain ⟨d, h, heq, hfatal⟩ : ∃ d h, applyFinding cfg env k finding id w =
      ({ states := w.states.insert k s, db := d }, h) ∧ ∀ x ∈ h, ¬ x.Fatal := by
    obtain ⟨s', d, ⟨x, ha, heq⟩ | ⟨ha, heq⟩⟩ := applyFinding_loaded cfg finding id hl
    · obtain rfl := (hi.state_eq ha).symm
      exact ⟨_, _, heq, ha.not_fatal hs hi.busy⟩
    · obtain rfl := (hi.state_eq ha).symm
      exact ⟨_, _, heq, Outcome.not_fatal hs.upsert⟩
  refine ⟨?_, ?_, fun _ _ _ henv => hi.retry hl henv⟩
  · rw [heq]
    exact hfatal
  · intro _ _
    rw [heq, loadedStates, hl]

/-- **An error of `ApplyFinding` leaves the series as it was** exactly if no statement fails once
the state is loaded, or there is nothing to change. -/
theorem applyFinding_atomic_iff (hs : env.Survives) :
    AtomicOnError cfg env k finding id w ↔
      ∀ s, loadState env k w = .ok s → env.Serves cfg finding id w s ∨ env.Idles cfg finding s := by
  constructor
  · intro hat s hl
    obtain ⟨s', d, ⟨x, ha, heq⟩ | ⟨ha, heq⟩⟩ := applyFinding_loaded cfg finding id hl
    · exact .inr (ha.idles (hat.state_eq hl heq))
    · cases hu : env.upsert.halt .upsertPolicyState with
      | none => exact .inl (ha.serves hs rfl (Outcome.halt_eq_none.mp hu))
      | some x =>
        rw [hu] at heq
        exact .inr (ha.idles (hat.state_eq hl heq))
  · intro hc
    cases hl : loadState env k w with
    | error h => exact atomicOnError_of_load hs hl
    | ok s =>
      rcases hc s hl with hv | hi
      · have hnone : (applyFinding cfg env k finding id w).2 = none := by
          obtain ⟨s', d, ⟨x, ha, heq⟩ | ⟨ha, heq⟩⟩ := applyFinding_loaded cfg finding id hl
          · exact absurd (hv.halt_eq_none hs ha) nofun
          · rw [heq]
            exact Outcome.halt_eq_none.mpr hv.upsert
        refine ⟨?_, ?_, ?_⟩ <;> rw [hnone] <;> nofun
      · exact hi.atomicOnError hs hl

end

/-- A finding that opens an event at once. -/
def severeFinding : Finding := { ts := 1000 * second, value := 0, severity := 6 }

/-- The server refuses the row of the event. -/
def eventRefused : ApplyEnv := { ApplyEnv.ok (1000 * second) 0 with openEvent := .failed }

theorem eventRefused_survives : eventRefused.Survives :=
  { ApplyEnv.survives_ok (1000 * second) 0 with openEvent := nofun }

/-- The series was clean, the call reports an error, and the series is watching. -/
theorem eventRefused_not_atomic :
    ¬ ∀ (cfg : PolicyEngineConfig) (env : ApplyEnv), env.Survives →
      ∀ (k : SeriesKey) (finding : Finding) (id : Uuid) (w : World),
        AtomicOnError cfg env k finding id w := by
  intro h
  have hat := h startConfig eventRefused eventRefused_survives (pingKey "a") severeFinding 0
    World.init
  have hst := hat.unchanged (.database .openEvent) (by decide +kernel)
  have hstatus := congrArg (fun t => (Finmap.lookup (pingKey "a") t).map PolicyState.status) hst
  revert hstatus
  decide +kernel

/-- The second attempt finds the score above the threshold already, and opens nothing. -/
example :
    (applyFinding startConfig (ApplyEnv.ok (1001 * second) 0) (pingKey "a") severeFinding 0
      (applyFinding startConfig eventRefused (pingKey "a") severeFinding 0
        World.init).1).1.db.events = ∅ := by
  decide +kernel

/-- The state of the series cannot be read: the call reports it, and nothing has changed. -/
theorem unread_state_atomic :
    (applyFinding startConfig { ApplyEnv.ok (1000 * second) 0 with getPolicyState := .failed }
        (pingKey "a") severeFinding 0 World.init).2 =
      some (.error (.database .getPolicyState)) ∧
    AtomicOnError startConfig { ApplyEnv.ok (1000 * second) 0 with getPolicyState := .failed }
      (pingKey "a") severeFinding 0 World.init := by
  refine ⟨by decide +kernel, (applyFinding_atomic_iff ?_).mpr ?_⟩
  · exact { ApplyEnv.survives_ok (1000 * second) 0 with getPolicyState := nofun }
  · intro s hl
    cases hl

end Cepheus.Argus
