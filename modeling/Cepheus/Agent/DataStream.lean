import Cepheus.Infra.Channel
import Cepheus.Infra.Run

/-!
# The probe data stream of the agent

`services/agent/data_stream.go`: the results of the tasks wait in a channel for the dispatcher
(`services/agent/dispatcher.go`). The loops of the tasks call `Insert`, which does not wait, and the
dispatcher receives one result after the other and publishes it.

A `select` takes one of the cases that are ready, any of them; if none is, the default.
-/

namespace Cepheus.Agent

open Infra

variable {R : Type}

/-- `logger` is whether there is one. -/
structure ProbeDataStream (R : Type) where
  stream : Channel R
  logger : Bool

/-- `NewProbeDataStream` does not set a logger. -/
def newProbeDataStream (streamSize : UInt32) : ProbeDataStream R where
  stream := .make streamSize.toNat
  logger := false

/-- What comes of a call of `Insert`. -/
inductive Inserted (R : Type) where
  /-- `true`: the result is in the buffer. -/
  | buffered (p : ProbeDataStream R)
  /-- `true`: the dispatcher was waiting and has the result. -/
  | handed
  /-- `false`. -/
  | refused
  /-- The nil logger is dereferenced. -/
  | panics

/-- A call of `Insert`. `waiting` is whether the dispatcher waits at the channel, `done` whether the
context is done, and `leaves` which of the two cases is taken when both are ready. -/
def ProbeDataStream.insert (p : ProbeDataStream R) (waiting done leaves : Bool) (data : R) :
    Inserted R :=
  if done && leaves then .refused
  else
    match p.stream.send data with
    | some stream => .buffered { p with stream }
    | none =>
      if waiting then .handed
      else if done then .refused
      else if p.logger then .refused
      else .panics

/-- Where the dispatcher is. -/
inductive DispatcherPc where
  /-- At its `select`. -/
  | receiving
  /-- Publishing a result, or rejecting it. -/
  | publishing
  /-- Its context is done. -/
  | stopped
deriving DecidableEq, Repr

/-- The stream between the loops of the tasks and the dispatcher. -/
structure Reporting (R : Type) where
  probes : ProbeDataStream R
  dispatcher : DispatcherPc
  /-- The results for which `Insert` has returned `true`, and those that the dispatcher has got. -/
  accepted : List R
  received : List R
  /-- A panic has ended the agent. -/
  crashed : Bool

namespace Reporting

def new (streamSize : UInt32) : Reporting R where
  probes := newProbeDataStream streamSize
  dispatcher := .receiving
  accepted := []
  received := []
  crashed := false

inductive Move (R : Type) where
  /-- The loop of a task calls `Insert`. -/
  | insert (done leaves : Bool) (data : R)
  /-- The dispatcher takes a result from the buffer. -/
  | receive
  /-- The dispatcher has dealt with a result. -/
  | published
  /-- The dispatcher finds its context done. -/
  | stop

/-- The dispatcher waits at an empty buffer. -/
def waiting (s : Reporting R) : Bool :=
  s.dispatcher = .receiving ∧ s.probes.stream.buffer.length = 0

def insert (s : Reporting R) (done leaves : Bool) (data : R) : Reporting R :=
  match s.probes.insert s.waiting done leaves data with
  | .buffered probes => { s with probes, accepted := s.accepted ++ [data] }
  | .handed =>
    { s with
      dispatcher := .publishing
      accepted := s.accepted ++ [data]
      received := s.received ++ [data] }
  | .refused => s
  | .panics => { s with crashed := true }

def receive (s : Reporting R) : Reporting R :=
  match s.dispatcher, s.probes.stream.receive with
  | .receiving, some (data, stream) =>
    { s with
      probes := { s.probes with stream }
      dispatcher := .publishing
      received := s.received ++ [data] }
  | _, _ => s

def step (s : Reporting R) (m : Move R) : Reporting R :=
  if s.crashed then s
  else
    match m with
    | .insert done leaves data => s.insert done leaves data
    | .receive => s.receive
    | .published => if s.dispatcher = .publishing then { s with dispatcher := .receiving } else s
    | .stop => if s.dispatcher = .receiving then { s with dispatcher := .stopped } else s

end Reporting

end Cepheus.Agent
