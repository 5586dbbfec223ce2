import Cepheus.Agent.Domain
import Cepheus.AgentV1

/-!
# The configuration of an agent, as the agent reads it

`services/agent/config_from_proto.go`: the message of the control plane, as a configuration of the
domain of the agent. Every integer is widened.
-/

namespace Cepheus.Agent

open Infra

inductive ConfigError where
  | noConfig
  | task (taskID : String) (type : AgentV1.TaskType)
  | pendingAction (id : String) (type : AgentV1.PendingActionType)
deriving DecidableEq, Repr

/-- The other types are unknown. -/
def taskTypeFromProto : AgentV1.TaskType → Option TaskType
  | .stampSender => some .stampSender
  | .stampReflector => some .stampReflector
  | .trace => some .trace
  | .traceLb => some .traceLb
  | .ping => some .ping
  | .unspecified => none

def pendingActionTypeFromProto : AgentV1.PendingActionType → Option PendingActionType
  | .restart => some .restart
  | .unspecified => none

def taskParamsFromProto : AgentV1.TaskParams → TaskParams
  | .ping v => .ping
    { target := v.target
      sourceIP := v.sourceIp
      count := v.count.toInt64
      size := v.size.toInt64
      dscp := v.dscp.toInt64
      timeout := v.timeoutSeconds.toInt64 }
  | .trace v => .trace
    { target := v.target
      sourceIP := v.sourceIp
      method := v.method
      maxTTL := v.maxTtl.toInt64
      firstTTL := v.firstTtl.toInt64
      dscp := v.dscp.toInt64
      waitSeconds := v.waitSeconds.toInt64 }
  | .traceLb v => .traceLb
    { target := v.target
      sourceIP := v.sourceIp
      maxTTL := v.maxTtl.toInt64
      firstTTL := v.firstTtl.toInt64
      dscp := v.dscp.toInt64
      confidence := v.confidence }
  | .stampSender v => .stampSender
    { target := v.target
      targetPort := v.targetPort.toInt64
      sourceIP := v.sourceIp
      dscp := v.dscp.toInt64
      requireClockSync := v.requireClockSync
      packetCount := v.packetCount.toInt64
      -- the getters of a message that is not there give zero
      packetInterval := (v.packetInterval.getD { seconds := 0, nanos := 0 }).asDuration }
  | .stampReflector v => .stampReflector
    { listenPort := v.listenPort.toInt64
      sourceIP := v.sourceIp
      dscp := v.dscp.toInt64
      requireClockSync := v.requireClockSync }

def taskFromProto (t : AgentV1.Task) : Except ConfigError Task :=
  match taskTypeFromProto t.type with
  | none => .error (.task t.taskId t.type)
  | some type =>
    let schedule := t.schedule.getD {}
    .ok
      { taskID := t.taskId
        type
        enabled := t.enabled
        generation := t.generation.toInt64
        params := t.params.map taskParamsFromProto
        schedule :=
          { enabled := schedule.enabled
            intervalSeconds := schedule.intervalSeconds.toInt64
            jitterPercent := schedule.jitterPercent.toInt64 } }

def pendingActionFromProto (a : AgentV1.PendingAction) : Except ConfigError PendingAction :=
  match pendingActionTypeFromProto a.type with
  | none => .error (.pendingAction a.id a.type)
  | some type => .ok
    { id := a.id
      type
      createdOn := a.createdOn
      scheduledOn := (a.scheduledOn.getD { seconds := 0, nanos := 0 }).asTime }

def agentConfigFromProto : Option AgentV1.AgentConfig → Except ConfigError AgentConfig
  | none => .error .noConfig
  | some pb => do
    let tasks ← pb.tasks.mapM taskFromProto
    let pendingActions ← pb.pendingActions.mapM pendingActionFromProto
    return {
      id := pb.id
      generation := pb.generation.toInt64
      reportEndpoint := pb.reportEndpoint
      reportBatchSize := pb.reportBatchSize.toInt64
      reportIntervalSeconds := pb.reportIntervalSeconds.toInt64
      reportTimeoutSeconds := pb.reportTimeoutSeconds.toInt64
      pendingActions
      tasks
      updatedAt := pb.updatedAt
      scamperPPS := pb.scamperPps.toInt64 }

end Cepheus.Agent
