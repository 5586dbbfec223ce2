import Cepheus.Agent.Config
import Cepheus.Agent.Supervisor

/-!
# The process of an agent

`Run`, `pullAgentConfiguration` and `pullConfiguration` of `services/agent/agent.go`. The first pull
of the configuration decides whether the agent starts at all. Then a goroutine pulls it again at
every tick, and hands its tasks to the supervisor. The goroutine is started when the first call of
`SetDesiredTasks` has returned, and it calls one function after the other, so that `Run` and the
goroutine are in one place at a time.
-/

namespace Cepheus.Agent

open Infra

/-- `retry.Attempts(3)`. -/
def pullAttempts : Nat := 3

/-- The executors that `Run` registers. -/
def executors : TaskType → Bool
  | .stampSender | .stampReflector | .trace | .ping => true
  | .traceLb => false

/-- Why an attempt to pull the configuration fails. `E` are the errors of the control plane. -/
inductive PullError (E : Type) where
  /-- No answer, or none in time. -/
  | unreachable
  | answered (e : E)
  | decode (e : ConfigError)
deriving DecidableEq, Repr

/-- `pullConfiguration`, with the answer of the control plane. -/
def pullConfiguration {E : Type} (answer : Except E AgentV1.AgentConfig) :
    Except (PullError E) AgentConfig :=
  match answer with
  | .error e => .error (.answered e)
  | .ok msg =>
    match agentConfigFromProto (some msg) with
    | .error e => .error (.decode e)
    | .ok config => .ok config

/-- Where `Run` is, or its goroutine. -/
inductive Stage where
  /-- In `pullAgentConfiguration`, with so many attempts that have failed. -/
  | pulling (failed : Nat)
  /-- After the first pull: the broker, the dispatcher and scamper are started. -/
  | connecting
  /-- Before the call of `SetDesiredTasks`. -/
  | pulled
  /-- In `SetDesiredTasks`. -/
  | setting
  /-- At the ticker. -/
  | ticking
  /-- The process has ended. -/
  | stopped
deriving DecidableEq, Repr

structure Process where
  stage : Stage
  /-- The supervisor has been created. -/
  supervised : Bool
  /-- Nothing sets it. -/
  generation : Int64
  agentConfig : Option AgentConfig
  supervisor : Supervisor

namespace Process

def start : Process where
  stage := .pulling 0
  supervised := false
  generation := 0
  agentConfig := none
  supervisor := newSupervisor

variable (p : Process)

/-- `pullAgentConfiguration` returns an error. The first time `Run` returns it, later the goroutine
goes on. -/
def giveUp : Process := { p with stage := if p.supervised then .ticking else .stopped }

/-- An attempt to pull the configuration has come to its end. -/
def attempt {E : Type} (result : Except (PullError E) AgentConfig) : Process :=
  match p.stage with
  | .pulling failed =>
    match result with
    | .ok config =>
      { p with
        agentConfig := if p.generation = 0 then some config else p.agentConfig
        stage := if p.supervised then .pulled else .connecting }
    | .error _ =>
      if failed + 1 < pullAttempts then { p with stage := .pulling (failed + 1) } else p.giveUp
  | _ => p

/-- What `Run` starts before the supervisor comes up, or `Run` returns. -/
def connect (ok : Bool) : Process :=
  if p.stage = .connecting then
    if ok then { p with stage := .pulled, supervised := true } else { p with stage := .stopped }
  else p

/-- The tasks that `SetDesiredTasks` is called with. -/
def tasks : List Task := (p.agentConfig.map (·.tasks)).getD []

/-- `SetDesiredTasks` can be called, with these orders of its loops over a map. -/
def Calls (order visit : List String) : Prop :=
  p.stage = .pulled ∧ p.supervisor.phase = .idle ∧ Visits order p.supervisor.running ∧
    Visits visit (desiredOf p.tasks)

instance (order visit : List String) : Decidable (p.Calls order visit) :=
  inferInstanceAs (Decidable (_ ∧ _))

/-- The call of `SetDesiredTasks`. -/
def setDesiredTasks (order visit : List String) : Process :=
  { p with
    stage := .setting
    supervisor := p.supervisor.step executors (.setDesiredTasks p.tasks order visit) }

/-- `SetDesiredTasks` goes on, or a goroutine of the supervisor does. -/
def supervise (m : Move) : Process :=
  match m with
  | .setDesiredTasks .. => p
  | m => { p with supervisor := p.supervisor.step executors m }

/-- `SetDesiredTasks` returns. -/
def returned : Process :=
  if p.stage = .setting ∧ p.supervisor.phase = .idle then { p with stage := .ticking } else p

/-- The ticker ticks. -/
def tick : Process := if p.stage = .ticking then { p with stage := .pulling 0 } else p

/-- When the context is done `Run` returns, wherever the goroutine is, and the process ends. -/
def quit : Process := if p.supervisor.ctxDone then { p with stage := .stopped } else p

/-- Nothing happens in it any more. -/
def Ended : Prop := p.stage = .stopped ∨ p.supervisor.crashed = true

instance : Decidable p.Ended := inferInstanceAs (Decidable (_ ∨ _))

end Process

end Cepheus.Agent
