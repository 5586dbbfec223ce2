import Cepheus.Infra.Run

/-!
# Flushers

`runFlusher`, `flush` and `nakAll` of `services/stamp-processor/processor.go` and of
`services/ping-processor/processor.go`: the measurements that have been decoded are collected, and
from time to time stored in one transaction. The two processors have the same code for different
tables, so the parameters of the statements are types here.

What a flush does that can be seen from outside is the list of its effects, in their order. A
statement or a commit that fails leaves nothing in the tables. The ids of the rows come from the
database; they are numbered.
-/

namespace Cepheus.Processor

open Infra

/-- A message, as it is delivered: the number of the delivery, and the report in the stream. -/
structure Msg where
  delivery : Nat
  report : Nat
deriving DecidableEq, Repr

/-- `pendingStamp` and `pendingPing`. -/
structure Pending (M P : Type) where
  msg : Msg
  measurement : M
  probes : List P
deriving DecidableEq, Repr

/-- A row of the table of measurements, with the message that it comes from. -/
structure MeasurementRow (M : Type) where
  id : Nat
  msg : Msg
  measurement : M
deriving DecidableEq, Repr

/-- A row of the table of probes. -/
structure ProbeRow (P : Type) where
  measurementID : Nat
  msg : Msg
  probe : P
deriving DecidableEq, Repr

/-- The rows that are inserted in a transaction. -/
structure Transaction (M P : Type) where
  measurements : List (MeasurementRow M) := []
  probes : List (ProbeRow P) := []
deriving DecidableEq, Repr

inductive Effect (M P : Type) where
  | committed (tx : Transaction M P)
  | ack (msg : Msg)
  | nak (msg : Msg)
deriving DecidableEq, Repr

/-- What fails in a flush. The inserts are numbered by the message of the batch. -/
structure Faults where
  begin : Bool := false
  insertMeasurement : Nat → Bool := fun _ => false
  insertProbes : Nat → Bool := fun _ => false
  commit : Bool := false

variable {M P : Type}

/-- The loop over the batch, from the message `i` on. -/
def insertBatch (faults : Faults) (firstID : Nat) :
    Nat → List (Pending M P) → Transaction M P → Option (Transaction M P)
  | _, [], tx => some tx
  | i, p :: batch, tx =>
    if faults.insertMeasurement i then none
    else
      let id := firstID + i
      let tx := { tx with
        measurements := tx.measurements ++ [{ id, msg := p.msg, measurement := p.measurement }] }
      if p.probes.isEmpty then insertBatch faults firstID (i + 1) batch tx
      else if faults.insertProbes i then none
      else
        insertBatch faults firstID (i + 1) batch
          { tx with
            probes := tx.probes ++
              p.probes.map fun probe => { measurementID := id, msg := p.msg, probe } }

def nakAll (batch : List (Pending M P)) : List (Effect M P) := batch.map fun p => .nak p.msg

/-- The loop at the end of `flush`. -/
def ackAll (batch : List (Pending M P)) : List (Effect M P) := batch.map fun p => .ack p.msg

def flush (faults : Faults) (firstID : Nat) (batch : List (Pending M P)) : List (Effect M P) :=
  if batch.isEmpty then []
  else if faults.begin then nakAll batch
  else
    match insertBatch faults firstID 0 batch {} with
    | none => nakAll batch
    | some tx => if faults.commit then nakAll batch else .committed tx :: ackAll batch

/-- The state of `runFlusher`. -/
structure Flusher (M P : Type) where
  batch : List (Pending M P) := []
  /-- It has returned. -/
  stopped : Bool := false
deriving DecidableEq, Repr

/-- What the `select` of `runFlusher` finds. -/
inductive Event (M P : Type) where
  | pending (p : Pending M P)
  | tick
  | done
deriving DecidableEq, Repr

/-- An iteration of `runFlusher`, with the faults that its flush meets. -/
def Flusher.iterate (flushSize : Nat) (faults : Faults) (firstID : Nat) (s : Flusher M P)
    (e : Event M P) : Flusher M P × List (Effect M P) :=
  if s.stopped then (s, [])
  else
    match e with
    | .done => ({ s with stopped := true }, [])
    | .pending p =>
      let batch := s.batch ++ [p]
      if flushSize ≤ batch.length then ({ s with batch := [] }, flush faults firstID batch)
      else ({ s with batch }, [])
    | .tick => ({ s with batch := [] }, flush faults firstID s.batch)

end Cepheus.Processor

namespace Cepheus.StampProcessor

open Processor

def flushSize : Nat := 50

def runFlusher {M P : Type} : Faults → Nat → Flusher M P → Event M P →
    Flusher M P × List (Effect M P) :=
  Flusher.iterate flushSize

end Cepheus.StampProcessor

namespace Cepheus.PingProcessor

open Processor

def flushSize : Nat := 50

def runFlusher {M P : Type} : Faults → Nat → Flusher M P → Event M P →
    Flusher M P × List (Effect M P) :=
  Flusher.iterate flushSize

end Cepheus.PingProcessor
