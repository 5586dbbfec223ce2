import Cepheus.Infra.Words
import Cepheus.Stamp.Sender
import Cepheus.Processor.Build
import Cepheus.Agent.Domain

/-!
# The executor of STAMP sessions

`services/agent/executor_stamp_sender.go`: a session of test packets, each with a probe in the
report, up to where the report is encoded. What the environment does is an argument: the clock, the
network, and when the context is done.
-/

namespace Cepheus.Agent

open Infra Stamp StampProcessor

/-- A round of the loop, as the environment makes it. -/
structure Attempt where
  /-- `ctx.Err()` at its beginning. -/
  ctxErr : Option String
  start : Time
  send : Conditions
  t4 : Time
  /-- `ctx.Err()`, if the context is done before the interval to the next packet is over. -/
  waitErr : Option String

/-- The probe of a packet without a reply. -/
def lostProbe (start : Time) : StampProbeData where
  tx := start
  isLost := true
  rx := 0
  rtt := 0
  forwardDelay := 0
  backwardDelay := 0

/-- The probe of a packet whose reply came at `t4`. -/
def receivedProbe (clockFormat : TimestampClockFormat) (pkt : ReflectorPacket) (t4 : Time) :
    Except String StampProbeData := do
  let t1 ← pkt.senderTimestamp.toTime clockFormat
  let t2 ← pkt.receiveTimestamp.toTime clockFormat
  let t3 ← pkt.timestamp.toTime clockFormat
  return {
    tx := t1
    isLost := false
    rx := t4
    rtt := int64 (Time.sub t4 t1 - Time.sub t3 t2)
    forwardDelay := Time.sub t2 t1
    backwardDelay := Time.sub t4 t3 }

/-- What a session has so far. -/
structure SendProgress where
  sender : Sender
  probes : List StampProbeData
  received : Int

/-- The body of the loop, without the wait. -/
def SendProgress.attempt (clockFormat : TimestampClockFormat) (p : SendProgress) (a : Attempt) :
    Except String SendProgress :=
  match a.ctxErr with
  | some err => .error err
  | none =>
    let sent := p.sender.send a.send
    match sent.result with
    | .error _ =>
      .ok { p with sender := sent.sender, probes := p.probes ++ [lostProbe a.start] }
    | .ok pkt => do
      let probe ← receivedProbe clockFormat pkt a.t4
      return {
        sender := sent.sender
        probes := p.probes ++ [probe]
        received := p.received + 1 }

/-- The loop. It does not wait after the last packet. -/
def SendProgress.attempts (clockFormat : TimestampClockFormat) :
    SendProgress → List Attempt → Except String SendProgress
  | p, [] => .ok p
  | p, [a] => p.attempt clockFormat a
  | p, a :: b :: rest => do
    let p ← p.attempt clockFormat a
    match a.waitErr with
    | some err => .error err
    | none => attempts clockFormat p (b :: rest)

/-- `%T` of the parameters. -/
def TaskParams.goType : Option TaskParams → String
  | none => "<nil>"
  | some (.ping _) => "*agent.PingParams"
  | some (.trace _) => "*agent.TraceParams"
  | some (.traceLb _) => "*agent.TraceLbParams"
  | some (.stampSender _) => "*agent.StampSenderParams"
  | some (.stampReflector _) => "*agent.StampReflectorParams"

/-- How many packets a session sends. -/
def StampSenderParams.count (p : StampSenderParams) : Nat :=
  if p.packetCount ≤ 0 then 10 else p.packetCount.toInt.toNat

/-- The data that `Execute` reports. `dial` is the error of making the socket. -/
def stampSenderExecute (config : Config) (params : Option TaskParams) (dial : Option String)
    (startTimestamp : Time) (env : Nat → Attempt) : Except String StampData :=
  match params with
  | some (.stampSender p) =>
    match newSender none config dial with
    | .error err => .error ("stamp-sender: create: " ++ err)
    | .ok sender => do
      let done ← SendProgress.attempts config.errorEstimate.clockFormat
        { sender, probes := [], received := 0 } ((List.range p.count).map env)
      let sent : Int := done.probes.length
      return {
        target := p.target
        port := p.targetPort.toInt
        sent
        received := done.received
        loss := ((sent - done.received : Int) : ℚ) / sent
        probes := done.probes
        timestamp := startTimestamp }
  | _ =>
    .error ("stamp-sender: expected StampSenderParams, got " ++ TaskParams.goType params)

end Cepheus.Agent
