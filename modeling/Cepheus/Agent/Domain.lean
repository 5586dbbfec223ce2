import Cepheus.Infra.Time

/-!
# The domain of the agent

`services/agent/domain.go`: a configuration and its tasks as the agent sees them. A Go `int` has 64
bits, and a `float64` is its bit pattern.
-/

namespace Cepheus.Agent

open Infra

inductive TaskType where
  | stampSender
  | stampReflector
  | trace
  | traceLb
  | ping
deriving DecidableEq, Repr

/-- The bits of a `float64`. -/
abbrev Float64 := UInt64

structure PingParams where
  target : String
  sourceIP : String
  count : Int64
  size : Int64
  dscp : Int64
  timeout : Int64
deriving DecidableEq, Repr

structure TraceParams where
  target : String
  sourceIP : String
  method : String
  maxTTL : Int64
  firstTTL : Int64
  dscp : Int64
  waitSeconds : Int64
deriving DecidableEq, Repr

structure TraceLbParams where
  target : String
  sourceIP : String
  maxTTL : Int64
  firstTTL : Int64
  dscp : Int64
  confidence : Float64
deriving DecidableEq, Repr

structure StampSenderParams where
  target : String
  targetPort : Int64
  sourceIP : String
  dscp : Int64
  requireClockSync : Bool
  packetCount : Int64
  /-- In nanoseconds. -/
  packetInterval : Int64
deriving DecidableEq, Repr

structure StampReflectorParams where
  listenPort : Int64
  sourceIP : String
  dscp : Int64
  requireClockSync : Bool
deriving DecidableEq, Repr

inductive TaskParams where
  | ping (p : PingParams)
  | trace (p : TraceParams)
  | traceLb (p : TraceLbParams)
  | stampSender (p : StampSenderParams)
  | stampReflector (p : StampReflectorParams)
deriving DecidableEq, Repr

structure TaskSchedule where
  enabled : Bool
  intervalSeconds : Int64
  jitterPercent : Int64
deriving DecidableEq, Repr

structure Task where
  taskID : String
  type : TaskType
  enabled : Bool
  generation : Int64
  params : Option TaskParams
  schedule : TaskSchedule
deriving DecidableEq, Repr

inductive PendingActionType where
  | restart
deriving DecidableEq, Repr

structure PendingAction where
  id : String
  type : PendingActionType
  createdOn : Int64
  scheduledOn : Time
deriving DecidableEq, Repr

structure AgentConfig where
  id : String
  generation : Int64
  reportEndpoint : String
  reportBatchSize : Int64
  reportIntervalSeconds : Int64
  reportTimeoutSeconds : Int64
  pendingActions : List PendingAction
  tasks : List Task
  updatedAt : Int64
  scamperPPS : Int64
deriving DecidableEq, Repr

end Cepheus.Agent
