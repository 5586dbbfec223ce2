import Cepheus.Infra.Json
import Cepheus.AgentV1

/-!
# The configuration of an agent, as the control plane loads it

`services/server/handler/agent_config.go`: the rows of the tables `agent_config` and `agent_task`,
the query that joins them, and the message that `loadAgentConfig` makes of its rows.
-/

namespace Cepheus.Server

open Infra AgentV1

/-! ## Rows -/

/-- A row of `agent_config`. -/
structure ConfigRow where
  id : String
  generation : Int32
  reportEndpoint : String
  reportBatchSize : Int32
  reportIntervalSeconds : Int32
  reportTimeoutSeconds : Int32
  scamperPps : Int32
  /-- In seconds since January 1, 1970 UTC. -/
  updatedAt : Int64
deriving Repr

/-- A row of `agent_task`. -/
structure TaskRow where
  taskID : String
  type : String
  enabled : Bool
  generation : Int32
  scheduleIntervalSeconds : Int32
  scheduleJitterPercent : Int32
  scheduleEnabled : Bool
  params : Json
deriving Repr

/-- A row of the query, scanned into Go variables. The columns of the task may be `NULL`. -/
structure Row where
  id : String
  generation : Int64
  reportEndpoint : String
  reportBatch : Int64
  reportInterval : Int64
  reportTimeout : Int64
  updatedAt : Int64
  taskID : Option String
  taskType : Option String
  taskEnabled : Option Bool
  taskGeneration : Option Int64
  taskParams : Option Json
  scheduleInterval : Option Int64
  scheduleJitter : Option Int64
  scheduleEnabled : Option Bool

/-- The columns that the query selects, of a configuration and a task of it or of none. -/
def Row.of (c : ConfigRow) (t : Option TaskRow) : Row where
  id := c.id
  generation := c.generation.toInt64
  reportEndpoint := c.reportEndpoint
  reportBatch := c.reportBatchSize.toInt64
  reportInterval := c.reportIntervalSeconds.toInt64
  reportTimeout := c.reportTimeoutSeconds.toInt64
  updatedAt := c.updatedAt
  taskID := t.map (·.taskID)
  taskType := t.map (·.type)
  taskEnabled := t.map (·.enabled)
  taskGeneration := t.map (·.generation.toInt64)
  taskParams := t.map (·.params)
  scheduleInterval := t.map (·.scheduleIntervalSeconds.toInt64)
  scheduleJitter := t.map (·.scheduleJitterPercent.toInt64)
  scheduleEnabled := t.map (·.scheduleEnabled)

/-- The left join of a configuration with its tasks. -/
def selectRows (c : ConfigRow) : List TaskRow → List Row
  | [] => [Row.of c none]
  | tasks => tasks.map fun t => Row.of c (some t)

/-- What comes of the query. -/
inductive Query where
  | failed (err : String)
  /-- The rows that were scanned or could not be scanned, and the error that has ended them. -/
  | rows (rows : List (Except String Row)) (err : Option String)

/-! ## Tasks -/

/-- The structs into which `setTaskParams` reads the parameters. -/
structure PingFields where
  target : String
  sourceIP : String
  count : Int64
  size : Int64
  dscp : Int64
  timeout : Int64

structure TraceFields where
  target : String
  sourceIP : String
  method : String
  maxTTL : Int64
  firstTTL : Int64
  dscp : Int64
  waitSeconds : Int64

structure TraceLbFields where
  target : String
  sourceIP : String
  maxTTL : Int64
  firstTTL : Int64
  dscp : Int64
  confidence : UInt64

structure StampSenderFields where
  target : String
  targetPort : Int64
  sourceIP : String
  dscp : Int64
  requireClockSync : Bool
  packetCount : Int64
  packetInterval : Int64

structure StampReflectorFields where
  listenPort : Int64
  sourceIP : String
  dscp : Int64
  requireClockSync : Bool

inductive ParamsError where
  /-- Of `json.Unmarshal`. -/
  | unmarshal
  | unknownTaskType (type : String)
deriving DecidableEq, Repr

inductive LoadError where
  | agentNotFound
  | queryFailed (err : String)
  | scanFailed (err : String)
  | rowsFailed (err : String)
  | taskParams (taskID : String) (err : ParamsError)
deriving DecidableEq, Repr

def taskTypeToProto : String → TaskType
  | "ping" => .ping
  | "trace" => .trace
  | "tracelb" => .traceLb
  | "stamp-sender" => .stampSender
  | "stamp-reflector" => .stampReflector
  | _ => .unspecified

section

open Json

variable (parseFloat : Json.Number → Option UInt64)

/-! `json.Unmarshal`, into each of the structs. -/

def PingFields.unmarshal (raw : Json) : Option PingFields := do
  let ms ← raw.members
  return {
    target := ← stringField "target" ms
    sourceIP := ← stringField "source_ip" ms
    count := ← intField "count" ms
    size := ← intField "size" ms
    dscp := ← intField "dscp" ms
    timeout := ← intField "timeout_seconds" ms }

def TraceFields.unmarshal (raw : Json) : Option TraceFields := do
  let ms ← raw.members
  return {
    target := ← stringField "target" ms
    sourceIP := ← stringField "source_ip" ms
    method := ← stringField "method" ms
    maxTTL := ← intField "max_ttl" ms
    firstTTL := ← intField "first_ttl" ms
    dscp := ← intField "dscp" ms
    waitSeconds := ← intField "wait_seconds" ms }

def TraceLbFields.unmarshal (raw : Json) : Option TraceLbFields := do
  let ms ← raw.members
  return {
    target := ← stringField "target" ms
    sourceIP := ← stringField "source_ip" ms
    maxTTL := ← intField "max_ttl" ms
    firstTTL := ← intField "first_ttl" ms
    dscp := ← intField "dscp" ms
    confidence := ← floatField parseFloat "confidence" ms }

def StampSenderFields.unmarshal (raw : Json) : Option StampSenderFields := do
  let ms ← raw.members
  return {
    target := ← stringField "target" ms
    targetPort := ← intField "target_port" ms
    sourceIP := ← stringField "source_ip" ms
    dscp := ← intField "dscp" ms
    requireClockSync := ← boolField "require_clock_sync" ms
    packetCount := ← intField "packet_count" ms
    packetInterval := ← intField "packet_interval" ms }

def StampReflectorFields.unmarshal (raw : Json) : Option StampReflectorFields := do
  let ms ← raw.members
  return {
    listenPort := ← intField "listen_port" ms
    sourceIP := ← stringField "source_ip" ms
    dscp := ← intField "dscp" ms
    requireClockSync := ← boolField "require_clock_sync" ms }

def PingFields.toProto (p : PingFields) : PingParams where
  target := p.target
  sourceIp := p.sourceIP
  count := p.count.toInt32
  size := p.size.toInt32
  dscp := p.dscp.toInt32
  timeoutSeconds := p.timeout.toInt32

def TraceFields.toProto (p : TraceFields) : TraceParams where
  target := p.target
  sourceIp := p.sourceIP
  method := p.method
  maxTtl := p.maxTTL.toInt32
  firstTtl := p.firstTTL.toInt32
  dscp := p.dscp.toInt32
  waitSeconds := p.waitSeconds.toInt32

def TraceLbFields.toProto (p : TraceLbFields) : TraceLbParams where
  target := p.target
  sourceIp := p.sourceIP
  maxTtl := p.maxTTL.toInt32
  firstTtl := p.firstTTL.toInt32
  dscp := p.dscp.toInt32
  confidence := p.confidence

def StampSenderFields.toProto (p : StampSenderFields) : StampSenderParams where
  target := p.target
  targetPort := p.targetPort.toInt32
  sourceIp := p.sourceIP
  dscp := p.dscp.toInt32
  requireClockSync := p.requireClockSync
  packetCount := p.packetCount.toInt32
  packetInterval := some (Protobuf.Duration.new p.packetInterval)

def StampReflectorFields.toProto (p : StampReflectorFields) : StampReflectorParams where
  listenPort := p.listenPort.toInt32
  sourceIp := p.sourceIP
  dscp := p.dscp.toInt32
  requireClockSync := p.requireClockSync

/-- Read the parameters and put them into the `oneof` of a task. -/
def readParams {α : Type} (unmarshal : Option α) (toProto : α → TaskParams) :
    Except ParamsError TaskParams :=
  match unmarshal with
  | some p => .ok (toProto p)
  | none => .error .unmarshal

/-- What `setTaskParams` sets. -/
def setTaskParams (taskType : String) (raw : Json) : Except ParamsError TaskParams :=
  match taskType with
  | "ping" => readParams (PingFields.unmarshal raw) fun p => .ping p.toProto
  | "trace" => readParams (TraceFields.unmarshal raw) fun p => .trace p.toProto
  | "tracelb" => readParams (TraceLbFields.unmarshal parseFloat raw) fun p => .traceLb p.toProto
  | "stamp-sender" =>
    readParams (StampSenderFields.unmarshal raw) fun p => .stampSender p.toProto
  | "stamp-reflector" =>
    readParams (StampReflectorFields.unmarshal raw) fun p => .stampReflector p.toProto
  | _ => .error (.unknownTaskType taskType)

/-! ## The configuration -/

/-- The task of a row that has one. -/
def loadTask (taskID : String) (row : Row) : Except LoadError Task := do
  let typeStr := row.taskType.getD ""
  let task : Task := {
    taskId := taskID
    type := taskTypeToProto typeStr
    enabled := row.taskEnabled.getD false
    generation := (row.taskGeneration.map Int64.toInt32).getD 0
    schedule := some {
      enabled := row.scheduleEnabled.getD false
      intervalSeconds := (row.scheduleInterval.map Int64.toInt32).getD 0
      jitterPercent := (row.scheduleJitter.map Int64.toInt32).getD 0 } }
  match row.taskParams with
  | none => return task
  | some raw =>
    match setTaskParams parseFloat typeStr raw with
    | .ok params => return { task with params := some params }
    | .error err => throw (.taskParams taskID err)

/-- An iteration of the loop over the rows. -/
def loadRow (cfg : AgentConfig) (row : Row) : Except LoadError AgentConfig := do
  let cfg := { cfg with
    id := row.id
    generation := row.generation.toInt32
    reportEndpoint := row.reportEndpoint
    reportBatchSize := row.reportBatch.toInt32
    reportIntervalSeconds := row.reportInterval.toInt32
    reportTimeoutSeconds := row.reportTimeout.toInt32
    updatedAt := row.updatedAt }
  match row.taskID with
  | none => return cfg
  | some taskID =>
    let task ← loadTask parseFloat taskID row
    return { cfg with tasks := cfg.tasks ++ [task] }

/-- The loop over the rows. -/
def loadRows (cfg : AgentConfig) : List (Except String Row) → Except LoadError AgentConfig
  | [] => .ok cfg
  | .error err :: _ => .error (.scanFailed err)
  | .ok row :: rows =>
    match loadRow parseFloat cfg row with
    | .ok cfg => loadRows cfg rows
    | .error err => .error err

def loadAgentConfig : Query → Except LoadError AgentConfig
  | .failed err => .error (.queryFailed err)
  | .rows rows err =>
    match loadRows parseFloat {} rows with
    | .error err => .error err
    | .ok cfg =>
      match err with
      | some err => .error (.rowsFailed err)
      | none => if rows.isEmpty then .error .agentNotFound else .ok cfg

end

end Cepheus.Server
