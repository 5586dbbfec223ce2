import Cepheus.Infra.Table
import Cepheus.Server.AgentConfig
import Cepheus.Dashboard.Tasks

/-!
# Sessions that save tasks

Any number of sessions of `DeviceLive` with the tables `agent_config` and `agent_task`. To save its
rows a session first reads the ids that are in use and builds the tasks (`build_tasks`), and then
inserts them in a transaction of its own (`Dashboard.add_tasks`). Other sessions may do as much in
between.

The transaction takes the row of `agent_config` first, so two of them for one configuration do not
overlap, and each of them is one step here. The table `agent_task` has no constraint on `task_id`,
and nothing deletes from it.
-/

namespace Cepheus.Dashboard

open Infra Server

variable {S U : Type} [DecidableEq S] [DecidableEq U]

/-! ## The tables -/

structure Database (U : Type) where
  /-- `agent_config`: the generations. -/
  agentConfig : Table U Int32
  /-- `agent_task`: every row with its `agent_config_id`. -/
  agentTask : List (U × TaskRow)

/-- The rows that belong to a configuration. -/
def ofConfig (config : U) (rows : List (U × TaskRow)) : List TaskRow :=
  (rows.filter (·.1 = config)).map (·.2)

namespace Database

variable (db : Database U)

def listTasksForConfig (config : U) : List TaskRow := ofConfig config db.agentTask

/-- The ids that `build_tasks` reads. -/
def taskIDs (config : U) : List String := (db.listTasksForConfig config).map (·.taskID)

/-- The integer fits into a column of type `INT`. -/
def FitsInt (n : Int) : Prop := -2 ^ 31 ≤ n ∧ n < 2 ^ 31

instance (n : Int) : Decidable (FitsInt n) := inferInstanceAs (Decidable (_ ∧ _))

/-- The row that is inserted for a task. -/
def insertRow (generation : Int32) (t : Task) : TaskRow where
  taskID := t.taskID
  type := t.type.value
  enabled := true
  generation
  scheduleIntervalSeconds := Int32.ofInt t.scheduleIntervalSeconds
  scheduleJitterPercent := Int32.ofInt t.scheduleJitterPercent
  scheduleEnabled := t.scheduleEnabled
  params := t.params

/-- The tables after the transaction of `add_tasks`, unless one of its statements fails: the first
if there is no such configuration or the generation has reached its greatest value, one of the
others if an integer does not fit. -/
def addTasks (config : U) (tasks : List Task) : Option (Database U) :=
  match db.agentConfig.lookup config with
  | none => none
  | some generation =>
    if FitsInt (generation.toInt + 1) ∧
        ∀ t ∈ tasks, FitsInt t.scheduleIntervalSeconds ∧ FitsInt t.scheduleJitterPercent then
      some
        { agentConfig := db.agentConfig.insert config (generation + 1)
          agentTask :=
            db.agentTask ++ tasks.map fun t => (config, insertRow (generation + 1) t) }
    else none

end Database

/-! ## Sessions -/

/-- What a session has assigned to its socket, and where it is in `save_tasks`. -/
structure Session (U : Type) where
  /-- `device.agent_config_id`. -/
  config : U
  /-- `task_rows`. -/
  rows : List Row
  /-- What `build_tasks` has returned, from then until `add_tasks` has returned. -/
  built : Option (List Task)
  /-- How many rows `agent_task` had when `build_tasks` read it. The code has no such variable. -/
  seen : Nat

/-- `mount` and `handle_params`. -/
def Session.mount (config : U) : Session U :=
  { config, rows := [], built := none, seen := 0 }

/-- `save_tasks`, up to the call of `add_tasks`. -/
def Session.build (inspect : String → String) (db : Database U) (x : Session U) : Session U :=
  match buildTasks inspect x.rows (db.taskIDs x.config) with
  | .ok tasks => { x with built := some tasks, seen := db.agentTask.length }
  | .error _ => x

/-- What comes of the transaction of `add_tasks`, as far as the statements do not decide it. -/
inductive Outcome where
  | committed
  /-- The connection fails before the commit. -/
  | failed
  /-- It fails after the commit, and `add_tasks` returns an error. -/
  | unanswered
deriving DecidableEq, Repr

inductive Move (S U : Type) where
  | mount (s : S) (config : U)
  /-- `add_task_row`, `remove_task_row` and `task_form_change`. -/
  | edit (s : S) (rows : List Row)
  | build (s : S)
  | add (s : S) (outcome : Outcome)
  /-- The process of the session ends, whatever it was doing. -/
  | close (s : S)

structure System (S U : Type) where
  db : Database U
  sessions : Table S (Session U)

/-- A transaction that is committed. -/
structure Commit (U : Type) where
  session : Session U
  tasks : List Task
  db : Database U

namespace System

def start (db : Database U) : System S U := { db, sessions := ∅ }

variable (inspect : String → String) (st : System S U)

/-- The transaction that a session commits. -/
def commit (s : S) (outcome : Outcome) : Option (Commit U) := do
  let session ← st.sessions.lookup s
  let tasks ← session.built
  if outcome = .failed then none
  else (st.db.addTasks session.config tasks).map fun db => { session, tasks, db }

def step : Move S U → System S U
  | .mount s config => { st with sessions := st.sessions.insert s (.mount config) }
  | .edit s rows =>
    -- a process handles one event after the other
    { st with
      sessions := st.sessions.adjust s fun x => if x.built.isNone then { x with rows } else x }
  | .build s =>
    { st with
      sessions := st.sessions.adjust s fun x =>
        if x.built.isNone then x.build inspect st.db else x }
  | .add s outcome =>
    match st.commit s outcome with
    | some c =>
      { db := c.db
        sessions := st.sessions.insert s
          { c.session with
            rows := if outcome = .committed then [] else c.session.rows
            built := none } }
    | none => { st with sessions := st.sessions.adjust s fun x => { x with built := none } }
  | .close s => { st with sessions := st.sessions.erase s }

end System

end Cepheus.Dashboard
