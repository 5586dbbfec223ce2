import Cepheus.Infra.Run
import Cepheus.Argus.PolicyEngine

/-!
# Runs of the engine

A run is any list of calls, in any order, with any environment. A call during which the process
dies leaves only the tables, and the engine that is started next begins with an empty memory.

The hypotheses a result about runs may put on its calls:

* `Call.Legal` - the runtime and the server list what there is, once each
* `Call.Succeeds` - every statement of the call succeeds
* `Call.InOrder` - the clock does not run backwards
* `Call.NotFromFuture` - a finding is not newer than the moment it is applied
* `Reporting.Reports` - a finding is inserted before it is applied, and applied once
-/

namespace Cepheus.Argus

open Infra

/-- One call, with everything the environment does during it. -/
inductive Call
  | insertFinding (k : SeriesKey) (finding : Finding) (id : Uuid) (outcome : Outcome)
  | applyFinding (k : SeriesKey) (finding : Finding) (findingId : Uuid) (env : ApplyEnv)
  | sweep (env : SweepEnv)
  | restart

/-- What is left after a call: the memory is gone if the process died. -/
def World.settle (w : World) (h : Option Halt) : World :=
  if ∃ x ∈ h, x.Fatal then w.restart else w

/-- `InsertFinding` ends with an id or an error; only the error can stop the process. -/
def haltOf : Except Halt Uuid → Option Halt
  | .error h => some h
  | .ok _ => none

/-- The system takes one step. -/
def step (cfg : PolicyEngineConfig) (w : World) : Call → World
  | .insertFinding k finding id o =>
    (insertFinding o id k finding w).1.settle (haltOf (insertFinding o id k finding w).2)
  | .applyFinding k finding findingId env =>
    (applyFinding cfg env k finding findingId w).1.settle
      (applyFinding cfg env k finding findingId w).2
  | .sweep env => (sweep cfg env w).1.settle (sweep cfg env w).2
  | .restart => w.restart

/-! ## The environment -/

/-- Every statement of `ApplyFinding` succeeds, and the server generates an unused event id. -/
structure ApplyEnv.Succeeds (env : ApplyEnv) (w : World) : Prop where
  getPolicyState : env.getPolicyState = .ok
  begin : env.begin = .ok
  openEvent : env.openEvent = .ok
  fresh : env.eventId ∉ w.db.events
  attachPending : ∀ i, env.attachPending i = .ok
  commit : env.commit = .ok
  attachFinding : env.attachFinding = .ok
  upsert : env.upsert = .ok

/-- Every statement of `Sweep` succeeds. -/
structure SweepEnv.Succeeds (env : SweepEnv) : Prop where
  listNonClean : env.listNonClean = .ok
  closeEvent : ∀ k, env.closeEvent k = .ok
  upsert : ∀ k, env.upsert k = .ok

/-- The server lists every row once, and the runtime visits every entry of the map once. -/
structure SweepEnv.Legal (env : SweepEnv) (w : World) : Prop where
  rows_nodup : env.rows.Nodup
  rows_eq : env.rows.toFinset = w.db.policyStates.keys
  order_nodup : env.order.Nodup
  order_eq : env.order.toFinset = (w.hydrated env.rows).states.keys

instance (env : SweepEnv) (w : World) : Decidable (env.Legal w) :=
  decidable_of_iff
    (env.rows.Nodup ∧ env.rows.toFinset = w.db.policyStates.keys ∧ env.order.Nodup ∧
      env.order.toFinset = (w.hydrated env.rows).states.keys)
    ⟨fun ⟨a, b, c, d⟩ => ⟨a, b, c, d⟩, fun ⟨a, b, c, d⟩ => ⟨a, b, c, d⟩⟩

/-- An environment of `ApplyFinding` in which everything goes well. -/
def ApplyEnv.ok (now : Time) (eventId : Uuid) : ApplyEnv :=
  { now, getPolicyState := .ok, begin := .ok, openEvent := .ok, eventId
    attachPending := fun _ => .ok, commit := .ok, attachFinding := .ok, upsert := .ok }

theorem ApplyEnv.succeeds_ok {now : Time} {e : Uuid} {w : World} (h : e ∉ w.db.events) :
    (ApplyEnv.ok now e).Succeeds w :=
  ⟨rfl, rfl, rfl, h, fun _ => rfl, rfl, rfl, rfl⟩

/-- An environment of `Sweep` in which everything goes well. -/
def SweepEnv.ok (now : Time) (rows : List RowKey) (order : List SeriesKey) : SweepEnv :=
  { now, listNonClean := .ok, rows, order, closeEvent := fun _ => .ok, upsert := fun _ => .ok }

theorem SweepEnv.succeeds_ok (now : Time) (rows : List RowKey) (order : List SeriesKey) :
    (SweepEnv.ok now rows order).Succeeds :=
  ⟨rfl, fun _ => rfl, fun _ => rfl⟩

namespace Call

/-- The runtime and the server behave. -/
def Legal (w : World) : Call → Prop
  | .sweep env => env.Legal w
  | _ => True

instance (w : World) : DecidablePred (Legal w)
  | .insertFinding .. => inferInstanceAs (Decidable True)
  | .applyFinding .. => inferInstanceAs (Decidable True)
  | .sweep env => inferInstanceAs (Decidable (env.Legal w))
  | .restart => inferInstanceAs (Decidable True)

/-- Every statement of the call succeeds. -/
def Succeeds (w : World) : Call → Prop
  | .insertFinding _ _ _ o => o = .ok
  | .applyFinding _ _ _ env => env.Succeeds w
  | .sweep env => env.Succeeds
  | .restart => True

/-- The process keeps running. -/
def NotRestart : Call → Prop
  | .restart => False
  | _ => True

/-- The keys of findings are those of the worker's monitors. -/
def Planned : Call → Prop
  | .applyFinding k _ _ _ => k.Planned
  | _ => True

instance : DecidablePred Planned
  | .insertFinding .. => inferInstanceAs (Decidable True)
  | .applyFinding k _ _ _ => inferInstanceAs (Decidable k.Planned)
  | .sweep _ => inferInstanceAs (Decidable True)
  | .restart => inferInstanceAs (Decidable True)

/-- The moment at which the call is made, where it matters. -/
def time : Call → Option Time
  | .applyFinding _ _ _ env => some env.now
  | .sweep env => some env.now
  | _ => none

/-- The call is not made before `clock`. -/
def InOrder (clock : Time) (c : Call) : Prop := ∀ t ∈ c.time, clock ≤ t

instance (clock : Time) (c : Call) : Decidable (c.InOrder clock) :=
  inferInstanceAs (Decidable (∀ t ∈ c.time, clock ≤ t))

/-- A finding has at least the given severity. -/
def SeverityAtLeast (bound : ℚ) : Call → Prop
  | .applyFinding _ finding _ _ => bound ≤ finding.severity
  | _ => True

instance (bound : ℚ) : DecidablePred (SeverityAtLeast bound)
  | .insertFinding .. => inferInstanceAs (Decidable True)
  | .applyFinding _ finding _ _ => inferInstanceAs (Decidable (bound ≤ finding.severity))
  | .sweep _ => inferInstanceAs (Decidable True)
  | .restart => inferInstanceAs (Decidable True)

/-- A finding is not newer than the moment it is applied. -/
def NotFromFuture : Call → Prop
  | .applyFinding _ finding _ env => finding.ts ≤ env.now
  | _ => True

instance : DecidablePred NotFromFuture
  | .insertFinding .. => inferInstanceAs (Decidable True)
  | .applyFinding _ finding _ env => inferInstanceAs (Decidable (finding.ts ≤ env.now))
  | .sweep _ => inferInstanceAs (Decidable True)
  | .restart => inferInstanceAs (Decidable True)

end Call

/-! ## The system with a clock -/

/-- The system, and the moment of its last call. -/
structure Clocked where
  world : World
  clock : Time

/-- One step of the system with its clock. -/
def Clocked.step (cfg : PolicyEngineConfig) (s : Clocked) (c : Call) : Clocked :=
  { world := Argus.step cfg s.world c, clock := c.time.getD s.clock }

/-! ## The system with the reports of the workers -/

/-- The system, and the findings that a worker has inserted and not applied yet. -/
structure Reporting where
  world : World
  inFlight : Table Uuid (SeriesKey × Finding)

/-- One step of the system with its reports (`Worker.report`): an insert that returns an id puts a
finding in flight, and applying it takes it out. -/
def Reporting.step (cfg : PolicyEngineConfig) (s : Reporting) (c : Call) : Reporting :=
  { world := Argus.step cfg s.world c
    inFlight :=
      match c with
      | .insertFinding k finding id o =>
        match (insertFinding o id k finding s.world).2 with
        | .ok id => s.inFlight.insert id (k, finding)
        | .error _ => s.inFlight
      | .applyFinding _ _ id _ => s.inFlight.erase id
      | .sweep _ => s.inFlight
      | .restart => ∅ }

/-- A finding is applied with the id that its insert returned, and once. -/
def Reporting.Reports (s : Reporting) : Call → Prop
  | .applyFinding k finding id _ => s.inFlight.lookup id = some (k, finding)
  | _ => True

instance (s : Reporting) : DecidablePred s.Reports
  | .insertFinding .. => inferInstanceAs (Decidable True)
  | .applyFinding k finding id _ =>
    inferInstanceAs (Decidable (s.inFlight.lookup id = some (k, finding)))
  | .sweep _ => inferInstanceAs (Decidable True)
  | .restart => inferInstanceAs (Decidable True)

/-! ## The engine of Argus.Start -/

/-- The settings `Argus.Start` gives the engine. -/
def startConfig : PolicyEngineConfig :=
  { bucket := { openThreshold := 5, closeThreshold := 3, decayPerSecond := 1 / 10 }
    quietPeriod := 120 * second, confirmWindow := 60 * second }

/-- The key of the monitor that watches the round trips of an agent's pings. -/
def pingKey (serialId : String) : SeriesKey :=
  DiscoveredSeries.monitorKey
    { type := .ping, serialId, target := "10.0.0.1", port := 0, src := "" } "rtt_p95_ns" .ewma

/-- A finding of the given severity that is applied when it is observed, with no trouble; `e` is
the id of the event, should one be opened. -/
def Call.report (k : SeriesKey) (ts : Time) (severity : ℚ) (findingId e : Uuid) : Call :=
  .applyFinding k { ts, value := 0, severity } findingId (ApplyEnv.ok ts e)

/-- The pings of agent "a" fire at 1000 s and recover at 1040 s, those of agent "b" fire at 1150 s.
Then the process is restarted. -/
def twoAlarms : List Call :=
  [.report (pingKey "a") (1000 * second) 6 0 0, .restart,
   .sweep (SweepEnv.ok (1040 * second) [(pingKey "a").rowKey] [(pingKey "a").rowKey.hydratedKey]),
   .report (pingKey "b") (1150 * second) 6 1 1, .restart]

/-- The first sweep of the new process, in which the event of agent "a" cannot be closed. -/
def unclosedSweep (order : List SeriesKey) : SweepEnv :=
  { SweepEnv.ok (1200 * second) [(pingKey "a").rowKey, (pingKey "b").rowKey] order with
    closeEvent := fun k => if k.serialId = "a" then .failed else .ok }

end Cepheus.Argus
