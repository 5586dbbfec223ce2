import Cepheus.Infra.Table
import Cepheus.Argus.Series

/-!
# The argus tables

The tables of `db/init/07-argus.sql` that the policy engine reads and writes, and the statements
of `db/queries/argus/queries.sql`, each as a function on the tables.

Columns nothing here reads (`details`, `created_at`, `updated_at`) are left out. A `timestamptz`
keeps microseconds, so every instant goes through `Time.micros` on its way into a row. Foreign
keys are not checked on a write: events are never deleted, and `Properties/Reference.lean` shows
that every event id the engine stores is that of a row.

How a statement can end is an `Outcome`. A lost answer is not a failed statement: the rows have
changed, and only the caller does not know.
-/

namespace Cepheus.Argus

open Infra

/-- An id made by `gen_random_uuid()`. -/
abbrev Uuid := Nat

/-- What a detector reports (`types.Finding`, without its details). -/
structure Finding where
  ts : Time
  value : ℚ
  severity : ℚ
deriving DecidableEq, Repr

/-- The status of a series (`PolicyStateStatus`). -/
inductive PolicyStateStatus
  | clean
  | watching
  | firing
  | recovering
  | other (text : String)
deriving DecidableEq, Repr

/-- The columns of `argus_policy_state` outside its primary key. -/
structure PolicyRow where
  status : PolicyStateStatus
  score : ℚ
  scoreUpdatedAt : Time
  openEventId : Option Uuid
  pendingFindings : List Uuid
  enteredStatusAt : Time
deriving DecidableEq, Repr

/-- The two values the engine writes into `argus_events.status`. -/
inductive EventStatus
  | «open»
  | closed
deriving DecidableEq, Repr

/-- A row of `argus_events`. -/
structure EventRow where
  serialId : String
  target : String
  port : Int
  metric : String
  status : EventStatus
  openedAt : Time
  lastSeenAt : Time
  closedAt : Option Time
  findingCount : Int
  peakSeverity : ℚ
  detectors : List DetectorType
deriving DecidableEq, Repr

/-- A row of `argus_findings`. -/
structure FindingRow where
  serialId : String
  target : String
  port : Int
  metric : String
  detector : DetectorType
  ts : Time
  value : ℚ
  severity : ℚ
  eventId : Option Uuid
deriving DecidableEq, Repr

/-- Two findings that the unique index of `argus_findings` does not tell apart. -/
def FindingRow.SameIndex (a b : FindingRow) : Prop :=
  a.serialId = b.serialId ∧ a.target = b.target ∧ a.port = b.port ∧ a.metric = b.metric ∧
    a.detector = b.detector ∧ a.ts = b.ts

instance (a b : FindingRow) : Decidable (a.SameIndex b) :=
  inferInstanceAs (Decidable (_ ∧ _))

/-- The three tables. -/
@[ext] structure Database where
  policyStates : Table RowKey PolicyRow
  events : Table Uuid EventRow
  findings : Table Uuid FindingRow
deriving DecidableEq

namespace Database

/-- Tables nothing has been written to. -/
def empty : Database := { policyStates := ∅, events := ∅, findings := ∅ }

variable (db : Database)

/-! ## Statements -/

/-- `GetPolicyState`; `none` is `pgx.ErrNoRows`. -/
def getPolicyState (r : RowKey) : Option PolicyRow := db.policyStates.lookup r

/-- `UpsertPolicyState`. -/
def upsertPolicyState (r : RowKey) (row : PolicyRow) : Database :=
  { db with
    policyStates := db.policyStates.insert r
      { row with
        scoreUpdatedAt := Time.micros row.scoreUpdatedAt
        enteredStatusAt := Time.micros row.enteredStatusAt } }

/-- `ListNonCleanPolicyStates`. The order of the answer is the server's choice: `rows` lists the
primary keys of the table in that order. -/
def listNonCleanPolicyStates (rows : List RowKey) : List (RowKey × PolicyRow) :=
  rows.filterMap fun r =>
    match db.policyStates.lookup r with
    | some row => if row.status = .clean then none else some (r, row)
    | none => none

/-- `OpenEvent`, with the id the server generates; an id in use breaks the primary key. -/
def openEvent (id : Uuid) (serialId target : String) (port : Int) (metric : String)
    (openedAt : Time) (findingCount : Int) (peakSeverity : ℚ) (detectors : List DetectorType) :
    Option Database :=
  if id ∈ db.events then none
  else some
    { db with
      events := db.events.insert id
        { serialId, target, port, metric, status := .«open»
          openedAt := Time.micros openedAt, lastSeenAt := Time.micros openedAt, closedAt := none
          findingCount, peakSeverity, detectors } }

/-- `AttachFindingToEvent`. -/
def attachFindingToEvent (eventId id : Uuid) : Database :=
  { db with findings := db.findings.adjust id fun row => { row with eventId := some eventId } }

/-- `CloseEvent`. -/
def closeEvent (id : Uuid) (closedAt : Time) : Database :=
  { db with
    events := db.events.adjust id fun row =>
      { row with status := .closed, closedAt := some (Time.micros closedAt) } }

/-- `InsertFinding`; `none` when the conflict clause leaves the table as it is, so that no id
comes back, and when the generated id is in use. -/
def insertFinding (id : Uuid) (row : FindingRow) : Option Database :=
  let row := { row with ts := Time.micros row.ts }
  if id ∈ db.findings ∨ ∃ i ∈ db.findings.keys, ∃ r ∈ db.findings.lookup i,
      r.SameIndex row then none
  else some { db with findings := db.findings.insert id row }

/-! ## What a statement reads back -/

variable {db}

/-- An event is open. -/
def IsOpen (db : Database) (e : Uuid) : Prop :=
  ∃ row ∈ db.events.lookup e, row.status = .«open»

instance (e : Uuid) : Decidable (db.IsOpen e) :=
  inferInstanceAs (Decidable (∃ row ∈ db.events.lookup e, row.status = .«open»))

/-- The event a finding is attached to. -/
def eventOf (db : Database) (id : Uuid) : Option Uuid :=
  (db.findings.lookup id).bind FindingRow.eventId

end Database

/-! ## How a statement ends -/

/-- The statements the engine sends. -/
inductive Query
  | getPolicyState
  | listNonCleanPolicyStates
  | upsertPolicyState
  | begin
  | openEvent
  | attachFindingToEvent
  | commit
  | closeEvent
  | insertFinding
deriving DecidableEq, Repr

/-- How one statement ends, on the server and for the engine. -/
inductive Outcome
  /-- It took effect and the engine is told so. -/
  | ok
  /-- It had no effect, and the engine gets an error. -/
  | failed
  /-- It took effect, but the answer is lost and the engine gets an error. -/
  | lost
  /-- The process dies before it sends the statement. -/
  | crash
deriving DecidableEq, Repr

/-- The errors a call of the engine returns. -/
inductive EngineError
  | database (q : Query)
  | text (s : String)
deriving DecidableEq, Repr

/-- Why a call ends before its last statement. -/
inductive Halt
  | error (e : EngineError)
  /-- A Go panic. Nothing recovers from it, so the process ends. -/
  | panic
  /-- The process is killed. -/
  | crash
deriving DecidableEq, Repr

/-- The process is gone, and its memory with it. -/
def Halt.Fatal : Halt → Prop
  | .error _ => False
  | .panic => True
  | .crash => True

instance : DecidablePred Halt.Fatal
  | .error _ => inferInstanceAs (Decidable False)
  | .panic => inferInstanceAs (Decidable True)
  | .crash => inferInstanceAs (Decidable True)

namespace Outcome

/-- The statement changed the tables. -/
def Applies : Outcome → Prop
  | .ok => True
  | .failed => False
  | .lost => True
  | .crash => False

instance : DecidablePred Outcome.Applies
  | .ok => inferInstanceAs (Decidable True)
  | .failed => inferInstanceAs (Decidable False)
  | .lost => inferInstanceAs (Decidable True)
  | .crash => inferInstanceAs (Decidable False)

/-- What the engine makes of the answer to `q`: nothing if all went well. -/
def halt (q : Query) : Outcome → Option Halt
  | .ok => none
  | .failed => some (.error (.database q))
  | .lost => some (.error (.database q))
  | .crash => some .crash

/-- Send one statement outside a transaction. -/
def exec (o : Outcome) (q : Query) (db db' : Database) : Database × Option Halt :=
  (if o.Applies then db' else db, o.halt q)

/-- Send one statement inside a transaction. Any error leads to a rollback, so it does not matter
whether the server got to it; a broken constraint (`none`) is an error too. -/
def execTx (o : Outcome) (q : Query) (tx : Option Database) : Except Halt Database :=
  match o.halt q, tx with
  | some h, _ => .error h
  | none, none => .error (.error (.database q))
  | none, some tx => .ok tx

end Outcome

end Cepheus.Argus
