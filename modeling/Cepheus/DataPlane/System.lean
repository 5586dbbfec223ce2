import Cepheus.Agent.Dispatcher
import Cepheus.Processor.Consumer
import Cepheus.TraceProcessor.Consumer

/-!
# The data plane

The agents, the streams of the message broker and the three processors: what the agents measure is
published, decoded, announced to argus and stored.

Everything runs side by side. A `Move` is one thing that one of them does next, and a run is any
list of moves. The streams are kept with all messages that were ever stored in them. A processor
gets those that its consumer delivers, and the events that are older than a day are delivered to
nobody.
-/

namespace Cepheus.DataPlane

open Infra Common Agent Processor

/-! ## Streams -/

inductive Stream where
  | probeStamp
  | probePing
  | probeTrace
  | measurements
deriving DecidableEq, Repr

/-- What the subjects of a stream begin with. -/
def Stream.root : Stream → String
  | probeStamp => "cepheus.probe.stamp."
  | probePing => "cepheus.probe.ping."
  | probeTrace => "cepheus.probe.trace."
  | measurements => "cepheus.measurement."

/-- `>` stands for one part of a subject, or several. -/
def Stream.takes (stream : Stream) (m : Message) : Bool :=
  stream.root.toList.isPrefixOf m.subject.toList && m.subject ≠ stream.root

/-! ## The system -/

/-- What does not change. -/
structure Plant (D A U : Type) where
  serial : D → String
  streamSize : UInt32
  /-- The configurations that the agents begin with. -/
  configuration : D → String
  agentZone : D → Time → Rfc3339.Zone
  zone : Time → Rfc3339.Zone
  parseFloat : Json.Number → Option ℚ
  parseUUID : String → Option U
  netip : Netip A
  /-- The text of a JSON value, as a `JSONB` column gives it back. -/
  jsonb : List UInt8 → List UInt8

structure System (D A U : Type) where
  agents : D → Reporter
  streams : Stream → List Message
  stamp : Consumer (StampProcessor.InsertStampMeasurementParams U)
    StampProcessor.InsertStampProbesParams
  ping : Consumer (PingProcessor.InsertPingMeasurementParams U)
    PingProcessor.InsertPingProbesParams
  trace : TraceProcessor.Tracer A U
  /-- The number of events that are older than `MaxAge`, from the first one on. -/
  expired : Nat

inductive Move (D : Type) where
  | agent (d : D) (m : Reporter.Move)
  | stamp (m : Consumer.Move)
  | ping (m : Consumer.Move)
  | trace (m : TraceProcessor.Tracer.Move)
  /-- The first of the events is dropped. -/
  | expire

variable {D A U : Type}

namespace System

def start (p : Plant D A U) : System D A U where
  agents d := .start p.streamSize (p.configuration d)
  streams _ := []
  stamp := .start
  ping := .start
  trace := .start
  expired := 0

/-- A message is stored in the stream that takes its subject. -/
def store (s : System D A U) (messages : List Message) : System D A U :=
  { s with streams := fun stream => s.streams stream ++ messages.filter stream.takes }

/-- The text of a message. -/
def text (s : System D A U) (stream : Stream) (i : Nat) : Option (List Char) :=
  (s.streams stream)[i]?.map Message.text

/-- What comes of a message. -/
def decoded {β : Type} (s : System D A U) (stream : Stream) (decode : List Char → β)
    (rejected : β) (i : Nat) : β :=
  ((s.text stream i).map decode).getD rejected

section

variable [DecidableEq D] [DecidableEq A] (p : Plant D A U)

def step (s : System D A U) : Move D → System D A U
  | .agent d m =>
    let (agent, messages) := (s.agents d).step (p.agentZone d) (p.serial d) p.streamSize m
    { s with agents := Function.update s.agents d agent }.store messages
  | .stamp m =>
    let (stamp, messages) := s.stamp.step StampProcessor.kept StampProcessor.runFlusher
      (s.streams .probeStamp).length
      (s.decoded .probeStamp (StampProcessor.decode p.zone p.parseFloat p.parseUUID) .rejected) m
    { s with stamp }.store messages
  | .ping m =>
    let (ping, messages) := s.ping.step PingProcessor.kept PingProcessor.runFlusher
      (s.streams .probePing).length
      (s.decoded .probePing (PingProcessor.decode p.zone p.parseFloat p.parseUUID) .rejected) m
    { s with ping }.store messages
  | .trace m =>
    let (trace, messages) := s.trace.step p.netip p.jsonb p.parseUUID p.zone
      (s.streams .probeTrace).length
      (s.decoded .probeTrace (TraceProcessor.decode p.parseFloat) .rejected) m
    { s with trace }.store messages
  | .expire =>
    if s.expired < (s.streams .measurements).length then { s with expired := s.expired + 1 } else s

end

end System

end Cepheus.DataPlane
