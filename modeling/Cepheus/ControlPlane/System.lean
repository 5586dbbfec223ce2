import Cepheus.Server.Handler
import Cepheus.Agent.Run
import Cepheus.Dashboard.Sessions

/-!
# The control plane and an agent

The sessions of the dashboard, which save tasks, the server, which answers the requests of an agent
from the tables, and the process of the agent: `frontend/lib/cepheus_web/live/device_live.ex`,
`frontend/lib/cepheus/dashboard.ex`, `services/server/handler/agent_config.go`,
`services/agent/agent.go` and the supervisor. The agent has one request at a time under way, which
the server answers from one snapshot of the tables. Sessions may save tasks before the answer
arrives, before the agent calls `SetDesiredTasks`, and while the call is in progress.

Nothing writes to `device`, and nothing else writes to the tables of tasks. Agents only read them,
so one agent is enough.
-/

namespace Cepheus.ControlPlane

open Infra Server

/-- What does not change in a run. -/
structure Deployment (U : Type) where
  /-- `Kernel.inspect`. -/
  inspect : String → String
  parseFloat : Json.Number → Option UInt64
  /-- `device`: every serial id with its `agent_config_id`. -/
  device : Table String U
  /-- The columns of `agent_config` besides `generation` and `updated_at`. -/
  columns : U → ConfigRow
  /-- The serial id of the agent. -/
  serialID : String

/-- The rows of a configuration that a query has read, and how many rows `agent_task` had then. The
code has no such variable. -/
structure Snapshot where
  rows : List TaskRow
  seen : Nat

def Snapshot.empty : Snapshot := { rows := [], seen := 0 }

/-- The answer of the server to a request, until it arrives. -/
structure Answer where
  response : Except HandlerError AgentV1.AgentConfig
  read : Snapshot

inductive Move (S U : Type) where
  | dashboard (m : Dashboard.Move S U)
  /-- The server answers the request of the agent. A query without `ORDER BY` gives the rows in any
  order. -/
  | answer (order : List Nat) (updatedAt : Int64) (fetch : Fetch)
  /-- The answer arrives. -/
  | receive
  /-- No answer arrives in time. -/
  | lose
  | connect (ok : Bool)
  | setDesiredTasks (order visit : List String)
  | supervise (m : Agent.Move)
  | returned
  | tick
  | quit
  /-- A new process of the agent, when the last one has ended. -/
  | restart

structure System (S U : Type) where
  dashboard : Dashboard.System S U
  agent : Agent.Process
  answer : Option Answer
  /-- What `agentConfig` was made of, and what the last call of `SetDesiredTasks` had. The code has
  no such variables. -/
  pulled : Snapshot
  called : Snapshot

/-- The elements of a list in an order that is given by their places. -/
def arrange {α : Type} (order : List Nat) (l : List α) : List α := order.filterMap (l[·]?)

variable {S U : Type} [DecidableEq S] [DecidableEq U]

namespace Deployment

variable (d : Deployment U)

/-- The configuration of the agent. -/
def config : Option U := d.device.lookup d.serialID

/-- The rows of `agent_task` for a configuration, if there is one. -/
def tasksOf (db : Dashboard.Database U) (config : Option U) : List TaskRow :=
  config.elim [] db.listTasksForConfig

/-- The rows of the query in `loadAgentConfig`. -/
def select (db : Dashboard.Database U) (updatedAt : Int64) (tasks : List TaskRow) : List Row :=
  match d.config with
  | none => []
  | some config =>
    match db.agentConfig.lookup config with
    | none => []
    | some generation => selectRows { d.columns config with generation, updatedAt } tasks

/-- The server answers from the tables. -/
def respond (db : Dashboard.Database U) (order : List Nat) (updatedAt : Int64) (fetch : Fetch) :
    Answer :=
  let rows := arrange order (tasksOf db d.config)
  { response :=
      getAgentConfig d.parseFloat d.serialID (fetch.query (d.select db updatedAt rows))
    read := { rows, seen := db.agentTask.length } }

end Deployment

namespace System

def start (db : Dashboard.Database U) : System S U where
  dashboard := .start db
  agent := .start
  answer := none
  pulled := .empty
  called := .empty

variable (d : Deployment U) (st : System S U)

/-- The tables. -/
def db : Dashboard.Database U := st.dashboard.db

/-- The tasks of the agent in the tables. -/
def tasks : List TaskRow := Deployment.tasksOf st.db d.config

/-- The agent is waiting for the answer to a request. -/
def Waiting : Prop := ∃ failed, st.agent.stage = .pulling failed

instance : Decidable st.Waiting :=
  match h : st.agent.stage with
  | .pulling failed => isTrue ⟨failed, h⟩
  | .connecting | .pulled | .setting | .ticking | .stopped =>
    isFalse fun ⟨_, hf⟩ => by rw [h] at hf; cases hf

/-- A move of the agent. -/
def agentStep (m : Move S U) : System S U :=
  match m with
  | .answer order updatedAt fetch =>
    if st.Waiting ∧ order.Perm (List.range (st.tasks d).length) then
      { st with answer := some (d.respond st.db order updatedAt fetch) }
    else st
  | .receive =>
    match st.agent.stage, st.answer with
    | .pulling _, some a =>
      let result := Agent.pullConfiguration a.response
      { st with
        agent := st.agent.attempt result
        answer := none
        pulled := if result.toBool then a.read else st.pulled }
    | _, _ => st
  | .lose =>
    { st with agent := st.agent.attempt (E := HandlerError) (.error .unreachable), answer := none }
  | .connect ok => { st with agent := st.agent.connect ok }
  | .setDesiredTasks order visit =>
    if st.agent.Calls order visit then
      { st with agent := st.agent.setDesiredTasks order visit, called := st.pulled }
    else st
  | .supervise m => { st with agent := st.agent.supervise m }
  | .returned => { st with agent := st.agent.returned }
  | .tick => { st with agent := st.agent.tick }
  | .quit => { st with agent := st.agent.quit }
  | .dashboard _ | .restart => st

def step (m : Move S U) : System S U :=
  match m with
  | .dashboard m => { st with dashboard := st.dashboard.step d.inspect m }
  | .restart =>
    if st.agent.Ended then
      { st with agent := .start, answer := none, pulled := .empty, called := .empty }
    else st
  | m => if st.agent.Ended then st else st.agentStep d m

end System

end Cepheus.ControlPlane
