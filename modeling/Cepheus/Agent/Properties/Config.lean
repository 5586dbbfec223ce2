import Cepheus.Infra.Traverse
import Cepheus.Server.AgentConfig
import Cepheus.Agent.Config

/-!
# From the tables to the agent

What the tables store for an agent (`storedConfig`) and what the agent makes of the message of the
control plane are the same, but for two things. The column `scamper_pps` is not loaded, so that the
agent has zero. And the integers among the parameters of a task, which JSON gives with 64 bits, go
through `int32` fields without a check: those that do not fit come out as others.
-/

namespace Cepheus.Agent

open Infra Server

/-! ## What is stored -/

def storedType : String → Option TaskType
  | "ping" => some .ping
  | "trace" => some .trace
  | "tracelb" => some .traceLb
  | "stamp-sender" => some .stampSender
  | "stamp-reflector" => some .stampReflector
  | _ => none

/-- The integers of the parameters that go through `int32` fields. -/
def TaskParams.integers : TaskParams → List Int64
  | .ping p => [p.count, p.size, p.dscp, p.timeout]
  | .trace p => [p.maxTTL, p.firstTTL, p.dscp, p.waitSeconds]
  | .traceLb p => [p.maxTTL, p.firstTTL, p.dscp]
  | .stampSender p => [p.targetPort, p.dscp, p.packetCount]
  | .stampReflector p => [p.listenPort, p.dscp]

def TaskParams.Fits (p : TaskParams) : Prop := ∀ x ∈ p.integers, FitsInt32 x

section

open Json

variable (parseFloat : Json.Number → Option UInt64)

/-- The values in the column `params` of a task. -/
def storedParams (type : TaskType) (raw : Json) : Option TaskParams := do
  let ms ← raw.members
  match type with
  | .ping => return .ping {
      target := ← stringField "target" ms
      sourceIP := ← stringField "source_ip" ms
      count := ← intField "count" ms
      size := ← intField "size" ms
      dscp := ← intField "dscp" ms
      timeout := ← intField "timeout_seconds" ms }
  | .trace => return .trace {
      target := ← stringField "target" ms
      sourceIP := ← stringField "source_ip" ms
      method := ← stringField "method" ms
      maxTTL := ← intField "max_ttl" ms
      firstTTL := ← intField "first_ttl" ms
      dscp := ← intField "dscp" ms
      waitSeconds := ← intField "wait_seconds" ms }
  | .traceLb => return .traceLb {
      target := ← stringField "target" ms
      sourceIP := ← stringField "source_ip" ms
      maxTTL := ← intField "max_ttl" ms
      firstTTL := ← intField "first_ttl" ms
      dscp := ← intField "dscp" ms
      confidence := ← floatField parseFloat "confidence" ms }
  | .stampSender => return .stampSender {
      target := ← stringField "target" ms
      targetPort := ← intField "target_port" ms
      sourceIP := ← stringField "source_ip" ms
      dscp := ← intField "dscp" ms
      requireClockSync := ← boolField "require_clock_sync" ms
      packetCount := ← intField "packet_count" ms
      packetInterval := ← intField "packet_interval" ms }
  | .stampReflector => return .stampReflector {
      listenPort := ← intField "listen_port" ms
      sourceIP := ← stringField "source_ip" ms
      dscp := ← intField "dscp" ms
      requireClockSync := ← boolField "require_clock_sync" ms }

/-- The parameters of a type are what is stored, but for the way of their integers through the
fields of the message. -/
structure Mapped {α : Type} (type : TaskType) (raw : Json) (unmarshal : Option α)
    (toProto : α → AgentV1.TaskParams) (exact : α → TaskParams) : Prop where
  stored : storedParams parseFloat type raw = unmarshal.map exact
  fits : ∀ p, taskParamsFromProto (toProto p) = exact p ↔ (exact p).Fits

variable {parseFloat}

theorem Mapped.read {α : Type} {type : TaskType} {raw : Json} {unmarshal : Option α}
    {toProto : α → AgentV1.TaskParams} {exact : α → TaskParams}
    (h : Mapped parseFloat type raw unmarshal toProto exact) {pb : AgentV1.TaskParams}
    (hread : readParams unmarshal toProto = .ok pb) :
    ∃ p, storedParams parseFloat type raw = some p ∧ (taskParamsFromProto pb = p ↔ p.Fits) := by
  cases hu : unmarshal with
  | none =>
    rw [hu] at hread
    cases hread
  | some p =>
    rw [hu] at hread
    obtain rfl := Except.ok.inj hread
    exact ⟨exact p, by rw [h.stored, hu]; rfl, h.fits p⟩

theorem mapped_ping (raw : Json) :
    Mapped parseFloat .ping raw (PingFields.unmarshal raw) (fun p => .ping p.toProto)
      fun p => .ping ⟨p.target, p.sourceIP, p.count, p.size, p.dscp, p.timeout⟩ where
  stored := by simp [storedParams, PingFields.unmarshal, Option.map_bind]
  fits := fun p => by
    simp [taskParamsFromProto, PingFields.toProto, TaskParams.Fits, TaskParams.integers,
      toInt64_toInt32_eq_iff]

theorem mapped_trace (raw : Json) :
    Mapped parseFloat .trace raw (TraceFields.unmarshal raw) (fun p => .trace p.toProto)
      fun p => .trace
        ⟨p.target, p.sourceIP, p.method, p.maxTTL, p.firstTTL, p.dscp, p.waitSeconds⟩ where
  stored := by simp [storedParams, TraceFields.unmarshal, Option.map_bind]
  fits := fun p => by
    simp [taskParamsFromProto, TraceFields.toProto, TaskParams.Fits, TaskParams.integers,
      toInt64_toInt32_eq_iff]

theorem mapped_traceLb (raw : Json) :
    Mapped parseFloat .traceLb raw (TraceLbFields.unmarshal parseFloat raw)
      (fun p => .traceLb p.toProto)
      fun p => .traceLb
        ⟨p.target, p.sourceIP, p.maxTTL, p.firstTTL, p.dscp, p.confidence⟩ where
  stored := by simp [storedParams, TraceLbFields.unmarshal, Option.map_bind]
  fits := fun p => by
    simp [taskParamsFromProto, TraceLbFields.toProto, TaskParams.Fits, TaskParams.integers,
      toInt64_toInt32_eq_iff]

theorem mapped_stampSender (raw : Json) :
    Mapped parseFloat .stampSender raw (StampSenderFields.unmarshal raw)
      (fun p => .stampSender p.toProto)
      fun p => .stampSender
        ⟨p.target, p.targetPort, p.sourceIP, p.dscp, p.requireClockSync, p.packetCount,
          p.packetInterval⟩ where
  stored := by simp [storedParams, StampSenderFields.unmarshal, Option.map_bind]
  fits := fun p => by
    simp [taskParamsFromProto, StampSenderFields.toProto, TaskParams.Fits, TaskParams.integers,
      toInt64_toInt32_eq_iff, Protobuf.Duration.asDuration_new]

theorem mapped_stampReflector (raw : Json) :
    Mapped parseFloat .stampReflector raw (StampReflectorFields.unmarshal raw)
      (fun p => .stampReflector p.toProto)
      fun p => .stampReflector ⟨p.listenPort, p.sourceIP, p.dscp, p.requireClockSync⟩ where
  stored := by simp [storedParams, StampReflectorFields.unmarshal, Option.map_bind]
  fits := fun p => by
    simp [taskParamsFromProto, StampReflectorFields.toProto, TaskParams.Fits, TaskParams.integers,
      toInt64_toInt32_eq_iff]

/-- The parameters that `setTaskParams` sets, as the agent reads them. -/
theorem setTaskParams_stored {type : String} {raw : Json} {pb : AgentV1.TaskParams}
    (h : setTaskParams parseFloat type raw = .ok pb) :
    ∃ ty p, storedType type = some ty ∧ taskTypeFromProto (taskTypeToProto type) = some ty ∧
      storedParams parseFloat ty raw = some p ∧ (taskParamsFromProto pb = p ↔ p.Fits) := by
  unfold setTaskParams at h
  split at h
  · obtain ⟨p, hp⟩ := (mapped_ping raw).read h
    exact ⟨.ping, p, rfl, rfl, hp⟩
  · obtain ⟨p, hp⟩ := (mapped_trace raw).read h
    exact ⟨.trace, p, rfl, rfl, hp⟩
  · obtain ⟨p, hp⟩ := (mapped_traceLb raw).read h
    exact ⟨.traceLb, p, rfl, rfl, hp⟩
  · obtain ⟨p, hp⟩ := (mapped_stampSender raw).read h
    exact ⟨.stampSender, p, rfl, rfl, hp⟩
  · obtain ⟨p, hp⟩ := (mapped_stampReflector raw).read h
    exact ⟨.stampReflector, p, rfl, rfl, hp⟩
  · cases h

/-! ## Tasks -/

/-- The message for a configuration, with the tasks that have been loaded. -/
def loadedConfig (c : ConfigRow) (tasks : List AgentV1.Task) : AgentV1.AgentConfig where
  id := c.id
  generation := c.generation
  reportEndpoint := c.reportEndpoint
  reportBatchSize := c.reportBatchSize
  reportIntervalSeconds := c.reportIntervalSeconds
  reportTimeoutSeconds := c.reportTimeoutSeconds
  tasks := tasks
  updatedAt := c.updatedAt

/-- A row fills in the configuration, whether another row has done so before or not. -/
theorem loadRow_of {c : ConfigRow} {t : TaskRow} {cfg : AgentV1.AgentConfig}
    (hactions : cfg.pendingActions = []) (hpps : cfg.scamperPps = 0) :
    loadRow parseFloat cfg (Row.of c (some t)) =
      (loadTask parseFloat t.taskID (Row.of c (some t))).map
        fun pb => loadedConfig c (cfg.tasks ++ [pb]) := by
  show (loadTask parseFloat t.taskID (Row.of c (some t)) >>= _) = _
  cases loadTask parseFloat t.taskID (Row.of c (some t)) with
  | error err => rfl
  | ok pb =>
    show Except.ok _ = Except.ok _
    simp [loadedConfig, Row.of, hactions, hpps]

theorem loadRows_of {c : ConfigRow} {ts : List TaskRow} :
    ∀ {cfg pb : AgentV1.AgentConfig}, cfg.pendingActions = [] → cfg.scamperPps = 0 → ts ≠ [] →
      loadRows parseFloat cfg (ts.map fun t => .ok (Row.of c (some t))) = .ok pb →
      ∃ pbs, ts.mapM (fun t => loadTask parseFloat t.taskID (Row.of c (some t))) = .ok pbs ∧
        pb = loadedConfig c (cfg.tasks ++ pbs) := by
  induction ts with
  | nil => exact fun _ _ hne => absurd rfl hne
  | cons t ts ih =>
    intro cfg pb hactions hpps _ h
    rw [List.map_cons, loadRows, loadRow_of hactions hpps] at h
    cases ht : loadTask parseFloat t.taskID (Row.of c (some t)) with
    | error err =>
      rw [ht] at h
      cases h
    | ok task =>
      rw [ht] at h
      have h : loadRows parseFloat (loadedConfig c (cfg.tasks ++ [task])) _ = .ok pb := h
      by_cases hts : ts = []
      · subst hts
        obtain rfl := Except.ok.inj h
        refine ⟨[task], ?_, rfl⟩
        rw [List.mapM_cons, ht]
        rfl
      · obtain ⟨pbs, hpbs, rfl⟩ := ih rfl rfl hts h
        refine ⟨task :: pbs, ?_, ?_⟩
        · rw [List.mapM_cons, ht, hpbs]
          rfl
        · show loadedConfig c (cfg.tasks ++ [task] ++ pbs) = _
          rw [List.append_assoc, List.singleton_append]

/-- The message for a configuration and its tasks. -/
theorem loadAgentConfig_of {c : ConfigRow} {ts : List TaskRow} {err : Option String}
    {pb : AgentV1.AgentConfig}
    (h : loadAgentConfig parseFloat (.rows ((selectRows c ts).map .ok) err) = .ok pb) :
    ∃ pbs, ts.mapM (fun t => loadTask parseFloat t.taskID (Row.of c (some t))) = .ok pbs ∧
      pb = loadedConfig c pbs := by
  have hrows : loadRows parseFloat {} ((selectRows c ts).map .ok) = .ok pb := by
    unfold loadAgentConfig at h
    simp only at h
    split at h
    · cases h
    · next cfg hcfg =>
      split at h
      · cases h
      · split at h
        · cases h
        · rw [hcfg, h]
  cases ts with
  | nil =>
    obtain rfl := Except.ok.inj hrows
    refine ⟨[], rfl, ?_⟩
    simp [loadedConfig, Row.of]
  | cons t ts =>
    rw [show selectRows c (t :: ts) = (t :: ts).map (fun t => Row.of c (some t)) from rfl,
      List.map_map] at hrows
    exact loadRows_of rfl rfl (List.cons_ne_nil t ts) hrows

theorem taskId_of_loadTask {taskID : String} {row : Row} {pb : AgentV1.Task}
    (h : loadTask parseFloat taskID row = .ok pb) : pb.taskId = taskID := by
  unfold loadTask at h
  simp only [pure, Except.pure] at h
  split at h
  · obtain rfl := Except.ok.inj h
    rfl
  · split at h
    · obtain rfl := Except.ok.inj h
      rfl
    · cases h

theorem taskID_of_taskFromProto {pb : AgentV1.Task} {task : Task}
    (h : taskFromProto pb = .ok task) : task.taskID = pb.taskId := by
  unfold taskFromProto at h
  split at h
  · cases h
  · obtain rfl := Except.ok.inj h
    rfl

/-- The tasks of the agent are those of the rows, one by one. -/
theorem taskIDs_of_loaded {c : ConfigRow} {ts : List TaskRow} {err : Option String}
    {pb : AgentV1.AgentConfig} {cfg : AgentConfig}
    (hload : loadAgentConfig parseFloat (.rows ((selectRows c ts).map .ok) err) = .ok pb)
    (hcfg : agentConfigFromProto (some pb) = .ok cfg) :
    cfg.tasks.map (·.taskID) = ts.map (·.taskID) := by
  obtain ⟨pbs, hpbs, rfl⟩ := loadAgentConfig_of hload
  simp only [agentConfigFromProto, bind_eq_ok_iff, pure, Except.pure, Except.ok.injEq] at hcfg
  obtain ⟨tasks, htasks, -, -, rfl⟩ := hcfg
  calc tasks.map (·.taskID)
      = pbs.map (·.taskId) := map_eq_of_mapM_ok (fun _ _ h => taskID_of_taskFromProto h) htasks
    _ = ts.map (·.taskID) := map_eq_of_mapM_ok (fun _ _ h => taskId_of_loadTask h) hpbs

variable (parseFloat)

end

/-- A configuration with one task. -/
def edgeConfig (scamperPps : Int32) : ConfigRow where
  id := "7e57ed00-0000-4000-8000-000000000001"
  generation := 7
  reportEndpoint := "nats://broker:4222"
  reportBatchSize := 10
  reportIntervalSeconds := 30
  reportTimeoutSeconds := 5
  scamperPps := scamperPps
  updatedAt := 1700000000

end Cepheus.Agent
