import Cepheus.Agent.StampSender
import Cepheus.Common.Types
import Cepheus.Infra.Utf8

/-!
# The executors

`runOnce` of `services/agent/supervisor_tasks.go` and the executors of
`services/agent/executor_ping.go`, `executor_trace.go`, `executor_stamp_sender.go` and
`executor_stamp_reflector.go`: what a task sends to scamper when it is due, and which result it
inserts into the stream. The outside is an argument. An error is logged, and then nothing is
inserted.
-/

namespace Cepheus.Agent

open Infra Common

/-- The text of a `TaskType`. -/
def TaskType.text : TaskType → String
  | stampSender => "stamp-sender"
  | stampReflector => "stamp-reflector"
  | trace => "trace"
  | traceLb => "tracelb"
  | ping => "ping"

/-- What comes of a command. -/
inductive Answer where
  /-- `Send` returns an error. -/
  | unsent (err : String)
  /-- The context is done first. -/
  | cancelled
  | data (bytes : List UInt8)

/-- What an executor meets. -/
structure Surroundings where
  /-- `time.Now()` in the end. -/
  now : Time
  /-- The answer of scamper, and the format of its data. -/
  answer : Answer
  format : String
  stampConfig : Stamp.Config
  dial : Option String
  startTimestamp : Time
  attempts : Nat → Attempt
  /-- The error of `json.Marshal`, should there be one. -/
  marshalErr : String
  /-- The error with which the reflector ends, if there is one. -/
  reflectorErr : Option String

/-- Bytes as a `json.RawMessage`. -/
def rawMessage (bytes : List UInt8) : RawMessage :=
  if bytes = [] then .nil
  else
    match (ofUtf8 bytes).bind Json.parse with
    | none => .malformed
    | some json => .value json

section

variable (zone : Time → Rfc3339.Zone) (formatFloat : ℚ → Json.Number) (s : Surroundings)
  (spec : Task)

/-- The result of a task. -/
def probeResult (probeType : Argus.ProbeType) (data : RawMessage) : ProbeResult where
  taskID := spec.taskID
  probeType := probeType
  kind := spec.type.text
  timestamp := s.now
  data := data

/-- `PingExecutor.Execute`. -/
def pingExecute : Except String ProbeResult :=
  match spec.params with
  | some (.ping _) =>
    match s.answer with
    | .unsent err => .error ("failed to send ping probe, " ++ err)
    | .cancelled => .error "context canceled"
    | .data bytes => .ok (probeResult s spec .ping (rawMessage bytes))
  | params => .error ("params parsing error: expected PingParams, got " ++ TaskParams.goType params)

/-- `TraceExecutor.Execute`. -/
def traceExecute : Except String ProbeResult :=
  match spec.params with
  | some (.trace p) =>
    match s.answer with
    | .unsent err => .error ("scamper-client-trace: failed to send trace command: " ++ err)
    | .cancelled => .error "context canceled"
    | .data bytes =>
      let data : TraceData :=
        { type := "trace", method := p.method, format := s.format, data := bytes }
      .ok (probeResult s spec .trace (.value data.marshal))
  | params =>
    .error ("scamper-client-trace: expected TraceParams, got " ++ TaskParams.goType params)

/-- `StampSenderExecutor.Execute`. -/
def stampSenderResult : Except String ProbeResult := do
  let data ← stampSenderExecute s.stampConfig spec.params s.dial s.startTimestamp s.attempts
  match marshalStampData zone formatFloat data with
  | none => .error s.marshalErr
  | some json => .ok (probeResult s spec .stamp (.value json))

/-- `StampReflectorExecutor.Execute`. A reflector that ends without an error gives the zero
value. -/
def stampReflectorExecute : Except String ProbeResult :=
  match spec.params with
  | some (.stampReflector _) =>
    match s.reflectorErr with
    | some err => .error err
    | none => .ok { taskID := "", probeType := .other "", kind := "", timestamp := 0, data := .nil }
  | params =>
    .error ("stamp-reflector: expected StampReflectorParams, got " ++ TaskParams.goType params)

/-- The executor for the type of the task. -/
def execute : Except String ProbeResult :=
  match spec.type with
  | .ping => pingExecute s spec
  | .trace => traceExecute s spec
  | .stampSender => stampSenderResult zone formatFloat s spec
  | .stampReflector => stampReflectorExecute s spec
  | .traceLb => .error "executor for tracelb not found"

/-- The result that `runOnce` inserts. -/
def runOnce : Option ProbeResult := (execute zone formatFloat s spec).toOption

end

/-! ## Commands -/

/-- The command that the executor of a task gives to `Send`. -/
def Task.command (spec : Task) : Option String :=
  match spec.type, spec.params with
  | .ping, some (.ping p) => some ("ping " ++ p.target)
  | .trace, some (.trace p) => some ("trace -P " ++ p.method ++ " " ++ p.target)
  | _, _ => none

/-- What `Send` writes to the socket. -/
def sent (command : String) : List UInt8 := utf8 (command.toList ++ ['\n'])

end Cepheus.Agent
