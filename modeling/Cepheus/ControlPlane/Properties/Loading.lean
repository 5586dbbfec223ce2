import Cepheus.Server.Handler
import Cepheus.Agent.Run
import Cepheus.Agent.Properties.Config

/-!
# From the rows to the agent

The tasks of an agent are made of rows, through the message of the server. A row becomes a task
(`received`), or else it makes the whole configuration unusable. So the tasks of a configuration
that has been pulled are those of the rows that the server has read, one by one and without an
exception (`tasks_of_pulled`), and a configuration all of whose rows become tasks can be pulled
(`pulled_of_received`).
-/

namespace Cepheus.ControlPlane

open Infra Server Agent

variable {parseFloat : Json.Number → Option UInt64}

/-! ## One row -/

variable (parseFloat) in
/-- The task that the agent has of a row, if the server and the agent accept it. -/
def received (t : TaskRow) : Option Task := do
  let type ← storedType t.type
  let params ← (setTaskParams parseFloat t.type t.params).toOption
  return {
    taskID := t.taskID
    type
    enabled := t.enabled
    generation := t.generation.toInt64
    params := some (taskParamsFromProto params)
    schedule := {
      enabled := t.scheduleEnabled
      intervalSeconds := t.scheduleIntervalSeconds.toInt64
      jitterPercent := t.scheduleJitterPercent.toInt64 } }

theorem taskID_received {t : TaskRow} {task : Task} (h : received parseFloat t = some task) :
    task.taskID = t.taskID := by
  simp only [received, Option.bind_eq_bind, Option.bind_eq_some_iff] at h
  obtain ⟨type, -, params, -, hpure⟩ := h
  rw [← Option.some.inj hpure]

theorem generation_received {t : TaskRow} {task : Task} (h : received parseFloat t = some task) :
    task.generation = t.generation.toInt64 := by
  simp only [received, Option.bind_eq_bind, Option.bind_eq_some_iff] at h
  obtain ⟨type, -, params, -, hpure⟩ := h
  rw [← Option.some.inj hpure]

theorem schedule_received {t : TaskRow} {task : Task} (h : received parseFloat t = some task) :
    task.schedule =
      { enabled := t.scheduleEnabled
        intervalSeconds := t.scheduleIntervalSeconds.toInt64
        jitterPercent := t.scheduleJitterPercent.toInt64 } := by
  simp only [received, Option.bind_eq_bind, Option.bind_eq_some_iff] at h
  obtain ⟨type, -, params, -, hpure⟩ := h
  rw [← Option.some.inj hpure]

/-- The way of a row through the message, whatever configuration it belongs to. -/
theorem received_eq_some_iff {c : ConfigRow} {t : TaskRow} {task : Task} :
    received parseFloat t = some task ↔
      ∃ pb, loadTask parseFloat t.taskID (Row.of c (some t)) = .ok pb ∧
        taskFromProto pb = .ok task := by
  cases hset : setTaskParams parseFloat t.type t.params with
  | error err => simp [received, loadTask, Row.of, hset, Except.toOption]
  | ok params =>
    obtain ⟨ty, p, htype, hproto, -, -⟩ := setTaskParams_stored hset
    simp [received, loadTask, Row.of, hset, htype, hproto, taskFromProto, Except.toOption, pure,
      Except.pure]

/-! ## All rows -/

theorem received_of_mapM {c : ConfigRow} {ts : List TaskRow} :
    ∀ {pbs : List AgentV1.Task} {tasks : List Task},
      ts.mapM (fun t => loadTask parseFloat t.taskID (Row.of c (some t))) = .ok pbs →
      pbs.mapM taskFromProto = .ok tasks → ts.map (received parseFloat) = tasks.map some := by
  induction ts with
  | nil =>
    intro pbs tasks hpbs htasks
    obtain rfl := Except.ok.inj hpbs
    obtain rfl := Except.ok.inj htasks
    rfl
  | cons t ts ih =>
    intro pbs tasks hpbs htasks
    obtain ⟨pb, pbs', hpb, hpbs', rfl⟩ := mapM_cons_ok hpbs
    obtain ⟨task, tasks', htask, htasks', rfl⟩ := mapM_cons_ok htasks
    rw [List.map_cons, List.map_cons, received_eq_some_iff.mpr ⟨pb, hpb, htask⟩,
      ih hpbs' htasks']

/-- Rows that all become tasks are accepted by the server, and their messages by the agent. -/
theorem mapM_of_received (c : ConfigRow) {ts : List TaskRow} :
    ∀ {tasks : List Task}, ts.map (received parseFloat) = tasks.map some →
      ∃ pbs, ts.mapM (fun t => loadTask parseFloat t.taskID (Row.of c (some t))) = .ok pbs ∧
        pbs.mapM taskFromProto = .ok tasks := by
  induction ts with
  | nil =>
    intro tasks h
    obtain rfl : tasks = [] := by simpa using h.symm
    exact ⟨[], rfl, rfl⟩
  | cons t ts ih =>
    intro tasks h
    cases tasks with
    | nil => cases h
    | cons task tasks =>
      obtain ⟨htask, htasks⟩ := List.cons.inj h
      obtain ⟨pb, hpb, hfrom⟩ := (received_eq_some_iff (c := c)).mp htask
      obtain ⟨pbs, hpbs, hfroms⟩ := ih htasks
      refine ⟨pb :: pbs, ?_, ?_⟩
      · rw [List.mapM_cons, hpb, hpbs]
        rfl
      · rw [List.mapM_cons, hfrom, hfroms]
        rfl

/-- The tasks of a configuration that has been pulled are those of its rows. -/
theorem tasks_of_pulled {c : ConfigRow} {ts : List TaskRow} {pb : AgentV1.AgentConfig}
    {cfg : AgentConfig}
    (hload : loadAgentConfig parseFloat (.rows ((selectRows c ts).map .ok) none) = .ok pb)
    (hcfg : agentConfigFromProto (some pb) = .ok cfg) :
    ts.map (received parseFloat) = cfg.tasks.map some := by
  obtain ⟨pbs, hpbs, rfl⟩ := loadAgentConfig_of hload
  simp only [agentConfigFromProto, bind_eq_ok_iff, pure, Except.pure, Except.ok.injEq] at hcfg
  obtain ⟨tasks, htasks, -, -, rfl⟩ := hcfg
  exact received_of_mapM hpbs htasks

/-- The loop over rows that are all accepted. -/
theorem loadRows_of_mapM {c : ConfigRow} {ts : List TaskRow} :
    ∀ {tasks pbs : List AgentV1.Task},
      ts.mapM (fun t => loadTask parseFloat t.taskID (Row.of c (some t))) = .ok pbs →
      loadRows parseFloat (loadedConfig c tasks) (ts.map fun t => .ok (Row.of c (some t))) =
        .ok (loadedConfig c (tasks ++ pbs)) := by
  induction ts with
  | nil =>
    intro tasks pbs h
    obtain rfl : [] = pbs := Except.ok.inj h
    rw [List.append_nil]
    rfl
  | cons t ts ih =>
    intro tasks pbs h
    obtain ⟨pb, pbs', hpb, hpbs', rfl⟩ := mapM_cons_ok h
    rw [List.map_cons, loadRows, loadRow_of rfl rfl, hpb]
    show loadRows parseFloat (loadedConfig c (tasks ++ [pb])) _ = _
    rw [ih hpbs', List.append_assoc, List.singleton_append]

/-- The message for rows that are all accepted. -/
theorem loadAgentConfig_of_mapM {c : ConfigRow} {ts : List TaskRow} {pbs : List AgentV1.Task}
    (h : ts.mapM (fun t => loadTask parseFloat t.taskID (Row.of c (some t))) = .ok pbs) :
    loadAgentConfig parseFloat (.rows ((selectRows c ts).map .ok) none) =
      .ok (loadedConfig c pbs) := by
  have hrows : loadRows parseFloat {} ((selectRows c ts).map .ok) = .ok (loadedConfig c pbs) := by
    cases ts with
    | nil =>
      obtain rfl := Except.ok.inj h
      show Except.ok _ = Except.ok _
      simp [loadedConfig, Row.of]
    | cons t ts =>
      obtain ⟨pb, pbs', hpb, hpbs', rfl⟩ := mapM_cons_ok h
      rw [selectRows, List.map_map, List.map_cons, Function.comp_apply, loadRows,
        loadRow_of rfl rfl, hpb]
      exact loadRows_of_mapM hpbs'
      exact List.cons_ne_nil t ts
  have hne : ((selectRows c ts).map (Except.ok (ε := String))).isEmpty = false := by
    cases ts <;> rfl
  rw [loadAgentConfig, hrows]
  simp [hne]

/-- A configuration all of whose rows become tasks can be pulled. -/
theorem pulled_of_received (c : ConfigRow) {ts : List TaskRow} {tasks : List Task}
    (h : ts.map (received parseFloat) = tasks.map some) :
    ∃ pb cfg, loadAgentConfig parseFloat (.rows ((selectRows c ts).map .ok) none) = .ok pb ∧
      agentConfigFromProto (some pb) = .ok cfg ∧ cfg.tasks = tasks := by
  obtain ⟨pbs, hpbs, htasks⟩ := mapM_of_received c h
  have hcfg : ∃ cfg, agentConfigFromProto (some (loadedConfig c pbs)) = .ok cfg ∧
      cfg.tasks = tasks := by
    simp [agentConfigFromProto, loadedConfig, htasks, pure, Except.pure, bind, Except.bind]
  obtain ⟨cfg, hok, heq⟩ := hcfg
  exact ⟨_, cfg, loadAgentConfig_of_mapM hpbs, hok, heq⟩

/-! ## Failures of the database -/

/-- A row that cannot be scanned is the end of the loop, if it gets there. -/
theorem loadRows_scanFailed (err : String) (cfg : AgentV1.AgentConfig) :
    ∀ (rows : List Row) (pb : AgentV1.AgentConfig),
      loadRows parseFloat cfg (rows.map .ok ++ [.error err]) ≠ .ok pb := by
  intro rows
  induction rows generalizing cfg with
  | nil => simp [loadRows]
  | cons row rows ih =>
    intro pb
    rw [List.map_cons, List.cons_append, loadRows]
    split
    · exact ih _ pb
    · simp

/-- **A configuration that has been loaded in part is never sent.** -/
theorem complete_of_getAgentConfig {serialID : String} {rows : List Row} {fetch : Fetch}
    {pb : AgentV1.AgentConfig}
    (h : getAgentConfig parseFloat serialID (fetch.query rows) = .ok pb) :
    fetch = .complete ∧ loadAgentConfig parseFloat (.rows (rows.map .ok) none) = .ok pb := by
  have hload : loadAgentConfig parseFloat (fetch.query rows) = .ok pb := by
    unfold getAgentConfig at h
    split at h
    · cases h
    · split at h
      · next hload =>
        rw [hload, Except.ok.inj h]
      · cases h
      · cases h
  cases fetch with
  | complete => exact ⟨rfl, hload⟩
  | queryFailed err => cases hload
  | scanFailed n err =>
    unfold Fetch.query loadAgentConfig at hload
    simp only at hload
    split at hload
    · cases hload
    · next hrows => exact absurd hrows (loadRows_scanFailed err _ _ _)
  | rowsFailed n err =>
    unfold Fetch.query loadAgentConfig at hload
    simp only at hload
    split at hload <;> cases hload

end Cepheus.ControlPlane
