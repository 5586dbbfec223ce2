import Cepheus.Argus.LeakyBucket
import Cepheus.Argus.Database

/-!
# The policy engine

`services/argus/policy_engine.go`. One state machine per series, held in memory and saved to
`argus_policy_state` after every change:

  clean → watching → firing ⇄ recovering → clean

`applyFinding` drives it with findings, `sweep` with the clock. Both run under the engine's
mutex, so a call is one step of the system; what the environment does during a call (the clock,
the outcome of every statement, the ids and orders the server and the runtime choose) comes in as
an `ApplyEnv` or a `SweepEnv`.

The states in the map are pointers. A call that returns early leaves behind whatever it has
already written to its state, and the functions below return that state in every case.
-/

namespace Cepheus.Argus

open Infra

/-- A finding waiting for its event. `finding` is nil when it was read back from the table. -/
structure PendingFinding where
  id : Uuid
  finding : Option Finding
deriving DecidableEq, Repr

/-- The state machine of one series. -/
structure PolicyState where
  status : PolicyStateStatus
  statusUpdatedAt : Time
  bucketState : BucketState
  openEventId : Option Uuid
  pendingFindings : List PendingFinding
deriving DecidableEq, Repr

/-- The part of `PolicyEngineConfig` that decides what the engine does. -/
structure PolicyEngineConfig where
  bucket : LeakyBucket
  quietPeriod : Duration
  confirmWindow : Duration
deriving DecidableEq, Repr

/-- The engine's memory and the database. -/
@[ext] structure World where
  states : Table SeriesKey PolicyState
  db : Database
deriving DecidableEq

/-- An engine that has just been built, over empty tables. -/
def World.init : World := { states := ∅, db := Database.empty }

/-- The process ends; the tables stay. -/
def World.restart (w : World) : World := { w with states := ∅ }

/-! ## States and rows -/

/-- The state of a series the table has no row for. -/
def PolicyState.fresh (now : Time) : PolicyState :=
  { status := .clean, statusUpdatedAt := now, bucketState := { score := 0, scoreUpdatedAt := 0 }
    openEventId := none, pendingFindings := [] }

/-- The columns `savePolicyState` writes for a state. -/
def PolicyState.row (state : PolicyState) : PolicyRow :=
  { status := state.status, score := state.bucketState.score
    scoreUpdatedAt := state.bucketState.scoreUpdatedAt, openEventId := state.openEventId
    pendingFindings := state.pendingFindings.map PendingFinding.id
    enteredStatusAt := state.statusUpdatedAt }

/-- The state that `Sweep` and `ApplyFinding` rebuild from a row; the findings themselves are not
in it. -/
def PolicyRow.hydrate (row : PolicyRow) : PolicyState :=
  { status := row.status, statusUpdatedAt := row.enteredStatusAt
    bucketState := { score := row.score, scoreUpdatedAt := row.scoreUpdatedAt }
    openEventId := row.openEventId
    pendingFindings := row.pendingFindings.map fun id => { id, finding := none } }

/-- `savePolicyState`. -/
def savePolicyState (o : Outcome) (k : SeriesKey) (state : PolicyState) (db : Database) :
    Database × Option Halt :=
  o.exec .upsertPolicyState db (db.upsertPolicyState k.rowKey state.row)

/-! ## ApplyFinding -/

/-- What happens around one call of `ApplyFinding`. -/
structure ApplyEnv where
  now : Time
  getPolicyState : Outcome
  begin : Outcome
  openEvent : Outcome
  /-- The id the server generates for a new event. -/
  eventId : Uuid
  /-- The outcome of attaching the pending finding at each position. -/
  attachPending : Nat → Outcome
  commit : Outcome
  attachFinding : Outcome
  upsert : Outcome

/-- `int32(n)`. -/
def int32 (n : Nat) : Int := Int.bmod n (2 ^ 32)

/-- The greatest severity among the findings that are still in memory. -/
def peakSeverity (finding : Finding) (pending : List PendingFinding) : ℚ :=
  pending.foldl (fun peak pf =>
    match pf.finding with
    | some f => if peak < f.severity then f.severity else peak
    | none => peak) finding.severity

/-- The loop of `openEvent` over the pending findings, from position `i` on. -/
def attachAll (outcome : Nat → Outcome) (eventId : Uuid) :
    Nat → List PendingFinding → Database → Except Halt Database
  | _, [], tx => .ok tx
  | i, pf :: rest, tx =>
    match (outcome i).execTx .attachFindingToEvent
        (some (tx.attachFindingToEvent eventId pf.id)) with
    | .error h => .error h
    | .ok tx => attachAll outcome eventId (i + 1) rest tx

/-- The statements of `openEvent` between the start of its transaction and the commit. -/
def openEventTx (env : ApplyEnv) (k : SeriesKey) (state : PolicyState) (finding : Finding)
    (db : Database) : Except Halt Database :=
  match env.openEvent.execTx .openEvent
      (db.openEvent env.eventId k.serialId k.target k.port k.metric finding.ts
        (int32 state.pendingFindings.length) (peakSeverity finding state.pendingFindings)
        [k.detector]) with
  | .error h => .error h
  | .ok tx => attachAll env.attachPending env.eventId 0 state.pendingFindings tx

/--
`openEvent`: insert an event, attach every pending finding to it, and go to firing.

When the transaction cannot be started, `tx` is nil and the `tx.Rollback` of the error path
panics.
-/
def openEvent (env : ApplyEnv) (k : SeriesKey) (state : PolicyState) (finding : Finding)
    (db : Database) : PolicyState × Database × Option Halt :=
  match env.begin with
  | .crash => (state, db, some .crash)
  | .failed => (state, db, some .panic)
  | .lost => (state, db, some .panic)
  | .ok =>
    match openEventTx env k state finding db with
    | .error h => (state, db, some h)
    | .ok tx =>
      match env.commit.exec .commit db tx with
      | (db, some h) => (state, db, some h)
      | (db, none) =>
        ({ state with
           status := .firing
           openEventId := some env.eventId
           pendingFindings := []
           statusUpdatedAt := finding.ts }, db, none)

/-- `attachFindingToEvent`. -/
def attachFindingToEvent (o : Outcome) (eventId findingId : Uuid) (db : Database) :
    Database × Option Halt :=
  o.exec .attachFindingToEvent db (db.attachFindingToEvent eventId findingId)

/-- The state `ApplyFinding` works on: from memory, from the table, or a fresh one. -/
def loadState (env : ApplyEnv) (k : SeriesKey) (w : World) : Except Halt PolicyState :=
  match w.states.lookup k with
  | some state => .ok state
  | none =>
    match env.getPolicyState.halt .getPolicyState with
    | some h => .error h
    | none =>
      match w.db.getPolicyState k.rowKey with
      | none => .ok (PolicyState.fresh env.now)
      | some row => .ok row.hydrate

/-- The state with the score a finding leaves. -/
def PolicyState.score (cfg : PolicyEngineConfig) (state : PolicyState) (finding : Finding) :
    PolicyState :=
  { state with
    bucketState := (cfg.bucket.add state.bucketState finding.severity finding.ts).newState }

/-- The `switch` of `ApplyFinding`, from the update of the score to the save. -/
def onFinding (cfg : PolicyEngineConfig) (env : ApplyEnv) (k : SeriesKey) (finding : Finding)
    (findingId : Uuid) (state : PolicyState) (db : Database) :
    PolicyState × Database × Option Halt :=
  let updateState := cfg.bucket.add state.bucketState finding.severity finding.ts
  let state := state.score cfg finding
  match state.status with
  | .clean =>
    let state :=
      { state with
        status := .watching
        statusUpdatedAt := finding.ts
        pendingFindings := [{ id := findingId, finding := some finding }] }
    if updateState.crossedOpen then openEvent env k state finding db else (state, db, none)
  | .watching =>
    let state :=
      { state with
        pendingFindings :=
          state.pendingFindings ++ [{ id := findingId, finding := some finding }] }
    if updateState.crossedOpen then openEvent env k state finding db else (state, db, none)
  | .firing =>
    match state.openEventId with
    | none => (state, db, some (.error (.text "missing open id but policy state in firing")))
    | some e =>
      match attachFindingToEvent env.attachFinding e findingId db with
      | (db, h) => (state, db, h)
  | .recovering =>
    match state.openEventId with
    | none => (state, db, some (.error (.text "missing open id but policy state in recovering")))
    | some e =>
      match attachFindingToEvent env.attachFinding e findingId db with
      | (db, some h) => (state, db, some h)
      | (db, none) =>
        ({ state with status := .firing, statusUpdatedAt := finding.ts }, db, none)
  | .other _ => (state, db, none)

/-- `ApplyFinding`. -/
def applyFinding (cfg : PolicyEngineConfig) (env : ApplyEnv) (k : SeriesKey) (finding : Finding)
    (findingId : Uuid) (w : World) : World × Option Halt :=
  match loadState env k w with
  | .error h => (w, some h)
  | .ok state =>
    match onFinding cfg env k finding findingId state w.db with
    | (state, db, some h) => ({ states := w.states.insert k state, db }, some h)
    | (state, db, none) =>
      match savePolicyState env.upsert k state db with
      | (db, h) => ({ states := w.states.insert k state, db }, h)

/-! ## Sweep -/

/-- What happens around one call of `Sweep`. -/
structure SweepEnv where
  now : Time
  listNonClean : Outcome
  /-- The rows of the table, in the order in which the server lists them. -/
  rows : List RowKey
  /-- The keys of `p.states`, in the order in which the map is iterated. -/
  order : List SeriesKey
  closeEvent : SeriesKey → Outcome
  upsert : SeriesKey → Outcome

/-- The first loop of `Sweep`: file every listed row whose key is not in the map. -/
def hydrateStates (states : Table SeriesKey PolicyState) :
    List (RowKey × PolicyRow) → Table SeriesKey PolicyState
  | [] => states
  | (r, row) :: rest =>
    if r.hydratedKey ∈ states then hydrateStates states rest
    else hydrateStates (states.insert r.hydratedKey row.hydrate) rest

/-- The state with its score drained up to `now`. -/
def PolicyState.drain (cfg : PolicyEngineConfig) (state : PolicyState) (now : Time) :
    PolicyState :=
  { state with bucketState := (cfg.bucket.decay state.bucketState now).newState }

/-- The body of the second loop up to the save: drain the score, then the `switch`. -/
def sweepState (cfg : PolicyEngineConfig) (now : Time) (o : Outcome) (state : PolicyState)
    (db : Database) : PolicyState × Database × Option Halt :=
  let updateState := cfg.bucket.decay state.bucketState now
  let state := state.drain cfg now
  match state.status with
  | .watching =>
    if cfg.confirmWindow < Time.sub now state.statusUpdatedAt then
      ({ state with
         status := .clean
         pendingFindings := []
         statusUpdatedAt := now
         bucketState := { score := 0, scoreUpdatedAt := now } }, db, none)
    else (state, db, none)
  | .firing =>
    if updateState.crossedClose then
      ({ state with status := .recovering, statusUpdatedAt := now }, db, none)
    else (state, db, none)
  | .recovering =>
    match state.openEventId with
    | none => (state, db, none)
    | some e =>
      if cfg.quietPeriod < Time.sub now state.statusUpdatedAt then
        match o.exec .closeEvent db (db.closeEvent e now) with
        | (db, some h) => (state, db, some h)
        | (db, none) =>
          ({ state with
             status := .clean
             openEventId := none
             pendingFindings := []
             statusUpdatedAt := now }, db, none)
      else (state, db, none)
  | .clean => (state, db, none)
  | .other _ => (state, db, none)

/-- One round of the second loop. An event that cannot be closed ends the sweep; a state that
cannot be saved does not. -/
def sweepOne (cfg : PolicyEngineConfig) (env : SweepEnv) (k : SeriesKey) (w : World) :
    World × Option Halt :=
  match w.states.lookup k with
  | none => (w, none)
  | some state =>
    match sweepState cfg env.now (env.closeEvent k) state w.db with
    | (state, db, some h) => ({ states := w.states.insert k state, db }, some h)
    | (state, db, none) =>
      match savePolicyState (env.upsert k) k state db with
      | (db, some .crash) => ({ states := w.states.insert k state, db }, some .crash)
      | (db, _) => ({ states := w.states.insert k state, db }, none)

/-- The second loop of `Sweep`. -/
def sweepLoop (cfg : PolicyEngineConfig) (env : SweepEnv) :
    List SeriesKey → World → World × Option Halt
  | [], w => (w, none)
  | k :: rest, w =>
    match sweepOne cfg env k w with
    | (w, some h) => (w, some h)
    | (w, none) => sweepLoop cfg env rest w

/-- The engine after the first loop of `Sweep`. -/
def World.hydrated (w : World) (rows : List RowKey) : World :=
  { w with states := hydrateStates w.states (w.db.listNonCleanPolicyStates rows) }

/-- `Sweep`. -/
def sweep (cfg : PolicyEngineConfig) (env : SweepEnv) (w : World) : World × Option Halt :=
  match env.listNonClean.halt .listNonCleanPolicyStates with
  | some h => (w, some h)
  | none => sweepLoop cfg env env.order (w.hydrated env.rows)

/-! ## InsertFinding -/

/-- The row `InsertFinding` writes. -/
def Finding.row (k : SeriesKey) (finding : Finding) : FindingRow :=
  { serialId := k.serialId, target := k.target, port := k.port, metric := k.metric
    detector := k.detector, ts := finding.ts, value := finding.value
    severity := finding.severity, eventId := none }

/-- `InsertFinding`, with the id the server generates for a new row. -/
def insertFinding (o : Outcome) (id : Uuid) (k : SeriesKey) (finding : Finding) (w : World) :
    World × Except Halt Uuid :=
  match w.db.insertFinding id (finding.row k) with
  | none => (w, .error ((o.halt .insertFinding).getD (.error (.database .insertFinding))))
  | some db =>
    match o.exec .insertFinding w.db db with
    | (db, some h) => ({ w with db }, .error h)
    | (db, none) => ({ w with db }, .ok id)

end Cepheus.Argus
