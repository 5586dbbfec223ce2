import Cepheus.Infra.Protobuf

/-!
# The wire contract of the agent

`proto/cepheus/agent/v1/agent.proto`: the messages in which the control plane sends an agent its
configuration. A `double` is its bit pattern.
-/

namespace Cepheus.AgentV1

open Infra

inductive TaskType where
  | unspecified
  | stampSender
  | stampReflector
  | trace
  | traceLb
  | ping
deriving DecidableEq, Repr

structure TaskSchedule where
  enabled : Bool := false
  intervalSeconds : Int32 := 0
  jitterPercent : Int32 := 0
deriving DecidableEq, Repr

structure PingParams where
  target : String
  sourceIp : String
  count : Int32
  size : Int32
  dscp : Int32
  timeoutSeconds : Int32
deriving DecidableEq, Repr

structure TraceParams where
  target : String
  sourceIp : String
  method : String
  maxTtl : Int32
  firstTtl : Int32
  dscp : Int32
  waitSeconds : Int32
deriving DecidableEq, Repr

structure TraceLbParams where
  target : String
  sourceIp : String
  maxTtl : Int32
  firstTtl : Int32
  dscp : Int32
  confidence : UInt64
deriving DecidableEq, Repr

structure StampSenderParams where
  target : String
  targetPort : Int32
  sourceIp : String
  dscp : Int32
  requireClockSync : Bool
  packetCount : Int32
  packetInterval : Option Protobuf.Duration
deriving DecidableEq, Repr

structure StampReflectorParams where
  listenPort : Int32
  sourceIp : String
  dscp : Int32
  requireClockSync : Bool
deriving DecidableEq, Repr

/-- The `oneof` of a task. -/
inductive TaskParams where
  | ping (p : PingParams)
  | trace (p : TraceParams)
  | traceLb (p : TraceLbParams)
  | stampSender (p : StampSenderParams)
  | stampReflector (p : StampReflectorParams)
deriving DecidableEq, Repr

structure Task where
  taskId : String
  type : TaskType
  enabled : Bool := false
  generation : Int32 := 0
  schedule : Option TaskSchedule := none
  params : Option TaskParams := none
deriving DecidableEq, Repr

inductive PendingActionType where
  | unspecified
  | restart
deriving DecidableEq, Repr

structure PendingAction where
  id : String
  type : PendingActionType
  createdOn : Int64
  /-- `scheduled_on` of the parameters, if there are any. -/
  scheduledOn : Option Protobuf.Timestamp
deriving DecidableEq, Repr

structure AgentConfig where
  id : String := ""
  generation : Int32 := 0
  reportEndpoint : String := ""
  reportBatchSize : Int32 := 0
  reportIntervalSeconds : Int32 := 0
  reportTimeoutSeconds : Int32 := 0
  pendingActions : List PendingAction := []
  tasks : List Task := []
  /-- In seconds since January 1, 1970 UTC. -/
  updatedAt : Int64 := 0
  scamperPps : Int32 := 0
deriving DecidableEq, Repr

end Cepheus.AgentV1
