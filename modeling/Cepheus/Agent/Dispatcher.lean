import Cepheus.Agent.DataStream
import Cepheus.Common.Publish
import Cepheus.Common.Types

/-!
# The dispatcher

`services/agent/dispatcher.go`: it takes one result after the other out of the stream
(`data_stream.go`), makes a report of it and publishes it. The id of the configuration is read when
the report is made, so it is not always that of the configuration that the result comes from.

The attempts to publish a report are moves of their own. The loops of the tasks go on in between.
-/

namespace Cepheus.Agent

open Infra Common TraceProcessor

/-- The subject for a type of results. There is none for a type that is not known. -/
def reportSubject (serialID : String) : Argus.ProbeType → String
  | .stamp => "cepheus.probe.stamp." ++ serialID
  | .trace => "cepheus.probe.trace." ++ serialID
  | .ping => "cepheus.probe.ping." ++ serialID
  | .other _ => ""

structure Reporter where
  reporting : Reporting ProbeResult
  /-- `a.agentConfig.ID`. -/
  agentConfigID : String
  /-- The report that is being published. -/
  outgoing : Option Outgoing
  /-- The results for which `Insert` was called, and the ids that the configuration has had. The
  code has no such variables. -/
  measured : List ProbeResult
  configurations : List String

namespace Reporter

inductive Move where
  /-- The loop of a task calls `Insert`. -/
  | insert (done leaves : Bool) (result : ProbeResult)
  /-- A configuration has been pulled. -/
  | configure (id : String)
  /-- The dispatcher takes a result from the buffer. -/
  | receive
  /-- The dispatcher makes a report of it. -/
  | prepare (now : Time)
  /-- The next attempt to publish it. -/
  | attempt (reply : Reply)
  /-- `retry.Do` finds its context done. -/
  | abandon
  /-- The dispatcher finds its context done. -/
  | stop
  /-- The agent is started again. -/
  | restart (id : String)

/-- An agent that has pulled its first configuration. -/
def start (streamSize : UInt32) (id : String) : Reporter where
  reporting := .new streamSize
  agentConfigID := id
  outgoing := none
  measured := []
  configurations := [id]

/-- The dispatcher goes on with the next result. -/
def finish (s : Reporter) : Reporter :=
  { s with reporting := s.reporting.step .published, outgoing := none }

/-- The report for a result. -/
def report (serialID : String) (s : Reporter) (now : Time) (data : ProbeResult) :
    ReportPayload where
  payload := data
  serialID := serialID
  sentTimestamp := now
  agentConfigId := s.agentConfigID

/-- The body of the loop, up to `retry.Do`. A result that has no type, or that cannot be written, is
dropped. -/
def prepare (zone : Time → Rfc3339.Zone) (serialID : String) (s : Reporter) (now : Time)
    (data : ProbeResult) : Reporter :=
  if data.probeType = .other "" then s.finish
  else
    match (s.report serialID now data).marshal zone with
    | none => s.finish
    | some json =>
      let message : Message :=
        { subject := reportSubject serialID data.probeType, text := json.print }
      { s with outgoing := some message.outgoing }

/-- After an attempt to publish. A report that cannot be published is dropped. -/
def attempt (s : Reporter) (o : Outgoing) (reply : Reply) : Reporter :=
  match o.attempt reply with
  | .again o' => { s with outgoing := some o' }
  | _ => s.finish

/-- What a running agent does, and the messages that it stores. -/
def act (zone : Time → Rfc3339.Zone) (serialID : String) (streamSize : UInt32) (s : Reporter) :
    Move → Reporter × List Message
  | .insert done leaves result =>
    ({ s with
       reporting := s.reporting.step (.insert done leaves result)
       measured := s.measured ++ [result] }, [])
  | .configure id =>
    ({ s with agentConfigID := id, configurations := s.configurations ++ [id] }, [])
  | .receive => ({ s with reporting := s.reporting.step .receive }, [])
  | .prepare now =>
    match s.reporting.dispatcher, s.outgoing, s.reporting.received.getLast? with
    | .publishing, none, some data => (s.prepare zone serialID now data, [])
    | _, _, _ => (s, [])
  | .attempt reply =>
    match s.outgoing with
    | none => (s, [])
    | some o => (s.attempt o reply, o.stored reply)
  | .abandon =>
    match s.outgoing with
    | none => (s, [])
    | some _ => (s.finish, [])
  | .stop => ({ s with reporting := s.reporting.step .stop }, [])
  | .restart id =>
    ({ start streamSize id with
       measured := s.measured
       configurations := s.configurations ++ [id] }, [])

/-- One step. An agent that a panic has ended can only be started again. -/
def step (zone : Time → Rfc3339.Zone) (serialID : String) (streamSize : UInt32) (s : Reporter)
    (m : Move) : Reporter × List Message :=
  match s.reporting.crashed, m with
  | true, .restart id => s.act zone serialID streamSize (.restart id)
  | true, _ => (s, [])
  | false, m => s.act zone serialID streamSize m

end Reporter

end Cepheus.Agent
