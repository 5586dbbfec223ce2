import Cepheus.Infra.Traverse
import Cepheus.Agent.Config
import Cepheus.Agent.Properties.Tasks

/-!
# Tasks with the parameters of their type

`Task` is documented as carrying the typed variant for its type, and every executor asserts that it
does. The type and the parameters come from two fields of the message, an enumeration and a `oneof`,
and `taskFromProto` maps each without looking at the other: a task is accepted with the parameters
of another type, and without any.
-/

namespace Cepheus.AgentV1

/-- The type that the case of the `oneof` belongs to. -/
def TaskParams.type : TaskParams → TaskType
  | .ping _ => .ping
  | .trace _ => .trace
  | .traceLb _ => .traceLb
  | .stampSender _ => .stampSender
  | .stampReflector _ => .stampReflector

/-- The `oneof` is set, and to the case of the type. -/
def Task.Matched (t : Task) : Prop := t.params.map TaskParams.type = some t.type

instance (t : Task) : Decidable t.Matched := inferInstanceAs (Decidable (_ = _))

end Cepheus.AgentV1

namespace Cepheus.Agent

open Infra

/-- The assertion at the start of `Execute`, for the executor of the given type. There is none for
`tracelb` yet. -/
def TaskType.asserts : TaskType → TaskParams → Bool
  | .ping, .ping _ => true
  | .trace, .trace _ => true
  | .traceLb, .traceLb _ => true
  | .stampSender, .stampSender _ => true
  | .stampReflector, .stampReflector _ => true
  | _, _ => false

/-- The task has parameters, and they are those that its executor expects. -/
def Task.WellTyped (t : Task) : Prop := ∃ p, t.params = some p ∧ t.type.asserts p = true

instance (t : Task) : Decidable t.WellTyped :=
  decidable_of_iff (t.params.any t.type.asserts = true)
    (by simp [Option.any_eq_true, Task.WellTyped])

/-- The parameters keep their case. -/
theorem asserts_taskParamsFromProto {type : AgentV1.TaskType} {type' : TaskType}
    (h : taskTypeFromProto type = some type') (p : AgentV1.TaskParams) :
    type'.asserts (taskParamsFromProto p) = true ↔ p.type = type := by
  cases type <;> simp only [taskTypeFromProto, Option.some.injEq, reduceCtorEq] at h <;> subst h <;>
    cases p <;> simp [taskParamsFromProto, TaskType.asserts, AgentV1.TaskParams.type]

/-- What is read of an accepted task. -/
theorem taskFromProto_ok {pb : AgentV1.Task} {t : Task} (h : taskFromProto pb = .ok t) :
    taskTypeFromProto pb.type = some t.type ∧ t.params = pb.params.map taskParamsFromProto ∧
      t.schedule.intervalSeconds = (pb.schedule.getD {}).intervalSeconds.toInt64 ∧
      t.schedule.jitterPercent = (pb.schedule.getD {}).jitterPercent.toInt64 := by
  unfold taskFromProto at h
  cases htype : taskTypeFromProto pb.type with
  | none =>
    rw [htype] at h
    cases h
  | some type =>
    rw [htype] at h
    obtain rfl := Except.ok.inj h
    exact ⟨rfl, rfl, rfl, rfl⟩

theorem wellTyped_iff {pb : AgentV1.Task} {t : Task} (h : taskFromProto pb = .ok t) :
    t.WellTyped ↔ pb.Matched := by
  obtain ⟨htype, hparams, -⟩ := taskFromProto_ok h
  unfold Task.WellTyped AgentV1.Task.Matched
  rw [hparams]
  cases pb.params with
  | none => simp
  | some p =>
    rw [Option.map_some, Option.map_some, Option.some.injEq, ← asserts_taskParamsFromProto htype p]
    constructor
    · rintro ⟨p', hp', hasserts⟩
      obtain rfl := Option.some.inj hp'
      exact hasserts
    · exact fun hasserts => ⟨_, rfl, hasserts⟩

/-- The tasks of an accepted configuration are those of the message. -/
theorem agentConfigFromProto_ok {response : Option AgentV1.AgentConfig} {config : AgentConfig}
    (h : agentConfigFromProto response = .ok config) :
    ∃ pb, response = some pb ∧ pb.tasks.mapM taskFromProto = .ok config.tasks := by
  cases response with
  | none => cases h
  | some pb =>
    refine ⟨pb, rfl, ?_⟩
    rw [agentConfigFromProto] at h
    cases htasks : pb.tasks.mapM taskFromProto with
    | error e =>
      rw [htasks] at h
      cases h
    | ok tasks =>
      cases hactions : pb.pendingActions.mapM pendingActionFromProto with
      | error e =>
        rw [htasks, hactions] at h
        cases h
      | ok actions =>
        rw [htasks, hactions] at h
        obtain rfl := Except.ok.inj h
        rfl

/-- Every executor that is called finds the parameters that it asserts, whatever the calls with
tasks of the configuration. -/
def AgentConfig.Executes (config : AgentConfig) : Prop :=
  ∀ (executors : TaskType → Bool) (moves : List Move), (∀ m ∈ moves, m.Lists (· ∈ config.tasks)) →
    Throughout (Supervisor.step executors) (fun s => ∀ x ∈ s.executions, x.1.WellTyped)
      newSupervisor moves

theorem executes_of_wellTyped {config : AgentConfig} (h : ∀ t ∈ config.tasks, t.WellTyped) :
    config.Executes := by
  intro executors moves hmoves
  refine (Supervisor.throughout_allTasks executors hmoves).imp ?_
  intro s hs x hx
  exact h x.1 (hs.2.executed x hx).1

/-- **The tasks of an accepted configuration are well typed, and no executor fails its assertion, if
and only if the message sets every `oneof` to the case of its type.** -/
theorem tasks_well_typed_iff (response : Option AgentV1.AgentConfig) (config : AgentConfig)
    (h : agentConfigFromProto response = .ok config) :
    ((∀ t ∈ config.tasks, t.WellTyped) ∧ config.Executes) ↔
      ∀ pb, response = some pb → ∀ t ∈ pb.tasks, t.Matched := by
  obtain ⟨pb, rfl, htasks⟩ := agentConfigFromProto_ok h
  have hiff : (∀ t ∈ config.tasks, t.WellTyped) ↔ ∀ t ∈ pb.tasks, t.Matched := by
    constructor
    · intro hall t ht
      obtain ⟨t', ht', hok⟩ := forall_of_mapM_ok htasks t ht
      exact (wellTyped_iff hok).mp (hall t' ht')
    · intro hall t ht
      obtain ⟨t', ht', hok⟩ := (mem_of_mapM_ok htasks t).mp ht
      exact (wellTyped_iff hok).mpr (hall t' ht')
  constructor
  · rintro ⟨hall, -⟩ pb' hpb'
    obtain rfl := Option.some.inj hpb'
    exact hiff.mp hall
  · intro hmatched
    have hall := hiff.mpr (hmatched pb rfl)
    exact ⟨hall, executes_of_wellTyped hall⟩

/-! A configuration with one task of type ping. -/

def oneTask (params : Option AgentV1.TaskParams) : AgentV1.AgentConfig :=
  { tasks := [{ taskId := "edge", type := .ping, params }] }

def pingOnce : AgentV1.TaskParams :=
  .ping { target := "10.0.0.7", sourceIp := "10.0.0.6", count := 1, size := 64, dscp := 0,
          timeoutSeconds := 1 }

def traceOnce : AgentV1.TaskParams :=
  .trace { target := "10.0.0.7", sourceIp := "10.0.0.6", method := "icmp-paris", maxTtl := 30,
           firstTtl := 1, dscp := 0, waitSeconds := 1 }

/-- What the agent makes of it. -/
def oneTaskConfig (params : Option AgentV1.TaskParams) : AgentConfig where
  id := ""
  generation := 0
  reportEndpoint := ""
  reportBatchSize := 0
  reportIntervalSeconds := 0
  reportTimeoutSeconds := 0
  pendingActions := []
  tasks :=
    [{ taskID := "edge"
       type := .ping
       enabled := false
       generation := 0
       params := params.map taskParamsFromProto
       schedule := { enabled := false, intervalSeconds := 0, jitterPercent := 0 } }]
  updatedAt := 0
  scamperPPS := 0

theorem ping_task_well_typed :
    agentConfigFromProto (some (oneTask (some pingOnce))) = .ok (oneTaskConfig (some pingOnce)) ∧
      (((∀ t ∈ (oneTaskConfig (some pingOnce)).tasks, t.WellTyped) ∧
          (oneTaskConfig (some pingOnce)).Executes) ↔
        ∀ pb, some (oneTask (some pingOnce)) = some pb → ∀ t ∈ pb.tasks, t.Matched) ∧
      ∀ t ∈ (oneTask (some pingOnce)).tasks, t.Matched :=
  ⟨by decide +kernel, tasks_well_typed_iff _ _ (by decide +kernel), by decide +kernel⟩

/-- A task of type ping with the parameters of a trace is accepted, and handed to the executor for
ping; one without parameters is accepted too. -/
theorem mistyped_task_executed :
    (agentConfigFromProto (some (oneTask (some traceOnce))) = .ok (oneTaskConfig (some traceOnce)) ∧
      ∃ t ∈ (oneTaskConfig (some traceOnce)).tasks, ¬ t.WellTyped ∧
        ∃ x ∈ (run (Supervisor.step fun _ => true) newSupervisor (executeOnce t)).executions,
          ¬ x.1.WellTyped) ∧
      agentConfigFromProto (some (oneTask none)) = .ok (oneTaskConfig none) ∧
        ∃ t ∈ (oneTaskConfig none).tasks, ¬ t.WellTyped := by
  decide +kernel

end Cepheus.Agent
