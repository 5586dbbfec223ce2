import Mathlib.Data.Finset.Basic
import Cepheus.Processor.Flusher

/-!
# Deliveries

The reports of the agents wait in a stream, and the stream delivers a report until it is
acknowledged: again after it has been rejected, after its acknowledgement got lost, when the process
that had it has died, and when `AckWait` is over, while the process still has it. A process may die
at any point, and then some of its effects have happened and the others have not.

The processors for STAMP and ping decode one report after the other and put what comes of it into
the channel of their flusher. The trace processor (`services/trace-processor/processor.go`) deals
with one report after the other.
-/

namespace Cepheus.Processor

open Infra

variable {M P : Type}

def MeasurementRow.map (f : M → M) (row : MeasurementRow M) : MeasurementRow M :=
  { row with measurement := f row.measurement }

/-- What the stream knows of its reports, those that a process has fetched, and the measurements in
the tables. -/
structure Intake (M : Type) where
  deliveries : Nat := 0
  /-- What the loop over the reports has not come to, or is at. -/
  fetched : List Msg := []
  acked : Finset Nat := ∅
  nextID : Nat := 0
  rows : List (MeasurementRow M) := []

/-- What becomes of the effects of a processor. -/
structure Fate where
  /-- The process dies when so many of them have happened. -/
  dies : Option Nat := none
  /-- The acknowledgements that get lost, by the number of the effect. -/
  lost : Nat → Bool := fun _ => false

namespace Intake

/-! `kept` is what the columns of a table keep of the parameters of an insert. -/

variable (kept : M → M)

/-- The stream can deliver a report. It does not wait for the process that has it. -/
def CanDeliver (s : Intake M) (report : Nat) : Prop := report ∉ s.acked

instance (s : Intake M) (report : Nat) : Decidable (s.CanDeliver report) :=
  inferInstanceAs (Decidable (_ ∉ _))

def deliver (s : Intake M) (report : Nat) : Intake M :=
  if s.CanDeliver report then
    { s with
      deliveries := s.deliveries + 1
      fetched := s.fetched ++ [{ delivery := s.deliveries, report }] }
  else s

/-- A report that was rejected, or whose acknowledgement got lost, can be delivered again. -/
def perform (s : Intake M) (lost : Bool) : Effect M P → Intake M
  | .committed tx =>
    { s with
      rows := s.rows ++ tx.measurements.map (MeasurementRow.map kept)
      nextID := s.nextID + tx.measurements.length }
  | .nak _ => s
  | .ack msg => { s with acked := if lost then s.acked else insert msg.report s.acked }

/-- The effects happen, from the number `i` on. -/
def performAll (lost : Nat → Bool) : Nat → List (Effect M P) → Intake M → Intake M
  | _, [], s => s
  | i, e :: effects, s => performAll lost (i + 1) effects (s.perform kept (lost i) e)

/-- The process has died, and with it what it had. -/
def crash (s : Intake M) : Intake M := { s with fetched := [] }

/-- What is left of the effects of a processor in the end. -/
def settle (s : Intake M) (fate : Fate) (effects : List (Effect M P)) : Intake M :=
  match fate.dies with
  | none => s.performAll kept fate.lost 0 effects
  | some k => (s.performAll kept fate.lost 0 (effects.take k)).crash

end Intake

/-! ## Subscriptions -/

/-- The consumer that the server keeps for a processor. It is not durable, and it is created with
`DeliverNewPolicy`. -/
structure Subscription where
  /-- The first report that it delivers. -/
  first : Nat := 0
  /-- The server has not deleted it. -/
  live : Bool := true
deriving DecidableEq, Repr

namespace Subscription

/-- The consumer delivers a report, one of the `stored` ones in the stream. -/
def Delivers (s : Subscription) (stored report : Nat) : Prop :=
  s.live = true ∧ s.first ≤ report ∧ report < stored

instance (s : Subscription) (stored report : Nat) : Decidable (s.Delivers stored report) :=
  inferInstanceAs (Decidable (_ ∧ _))

/-- `CreateOrUpdateConsumer` of a process that is started. A consumer that is created does not
deliver what is in the stream. -/
def restart (s : Subscription) (stored : Nat) : Subscription :=
  if s.live then s else { first := stored }

/-- The server deletes a consumer that is not asked for reports. -/
def lapse (s : Subscription) : Subscription := { s with live := false }

end Subscription

/-! ## Processors with a flusher -/

/-- The capacity of the channel to the flusher. -/
def pendingBuffer : Nat := 256

structure Ingest (M P : Type) where
  flusher : Flusher M P := {}
  /-- What is in the channel. -/
  pending : List (Pending M P) := []
  intake : Intake M := {}

inductive Delivery (M P : Type) where
  /-- The process fetches a report. -/
  | deliver (report : Nat)
  /-- The next report has been decoded and its event has been published: it is put into the channel,
  if there is room. -/
  | hand (measurement : M) (probes : List P)
  /-- The next report cannot be decoded, or its event cannot be published: it is rejected. -/
  | reject
  /-- The flusher takes a report out of the channel. -/
  | receive (faults : Faults) (fate : Fate)
  | tick (faults : Faults) (fate : Fate)
  | crash

namespace Ingest

/-- There is room in the channel. -/
def HasRoom (s : Ingest M P) : Prop := s.pending.length < pendingBuffer

instance (s : Ingest M P) : Decidable s.HasRoom := inferInstanceAs (Decidable (_ < _))

variable (kept : M → M)

/-- An iteration of the flusher that leaves `pending` in the channel, with the fate of its effects.
-/
def settle (intake : Intake M) (pending : List (Pending M P)) (fate : Fate)
    (next : Flusher M P × List (Effect M P)) : Ingest M P where
  flusher := if fate.dies = none then next.1 else {}
  pending := if fate.dies = none then pending else []
  intake := intake.settle kept fate next.2

def step
    (runFlusher : Faults → Nat → Flusher M P → Event M P → Flusher M P × List (Effect M P))
    (s : Ingest M P) : Delivery M P → Ingest M P
  | .deliver report => { s with intake := s.intake.deliver report }
  | .hand measurement probes =>
    match s.intake.fetched with
    | [] => s
    | msg :: fetched =>
      if s.HasRoom then
        { s with
          pending := s.pending ++ [{ msg, measurement, probes }]
          intake := { s.intake with fetched } }
      else s
  | .reject =>
    match s.intake.fetched with
    | [] => s
    | msg :: fetched =>
      { s with intake := { s.intake with fetched }.perform kept false (.nak msg : Effect M P) }
  | .receive faults fate =>
    match s.pending with
    | [] => s
    | p :: pending =>
      settle kept s.intake pending fate (runFlusher faults s.intake.nextID s.flusher (.pending p))
  | .tick faults fate =>
    settle kept s.intake s.pending fate (runFlusher faults s.intake.nextID s.flusher .tick)
  | .crash => { intake := s.intake.crash }

end Ingest

end Cepheus.Processor

/-! ## The trace processor -/

namespace Cepheus.TraceProcessor

open Processor

variable {M : Type}

/-- What comes of a report. -/
inductive Outcome (M : Type) where
  /-- It cannot be decoded, or `processNormalTrace` returns an error. -/
  | failed
  /-- `processNormalTrace` has committed its transaction. -/
  | stored (measurement : M)
  /-- It is of type `tracelb`, which is not implemented. -/
  | skipped

/-- What is done with a report. -/
def handle (firstID : Nat) (msg : Msg) : Outcome M → List (Effect M Unit)
  | .failed => [.nak msg]
  | .stored measurement =>
    [.committed { measurements := [{ id := firstID, msg, measurement }] }, .ack msg]
  | .skipped => [.ack msg]

inductive Delivery (M : Type) where
  /-- The process fetches a report. -/
  | deliver (report : Nat)
  /-- The next report is dealt with. -/
  | handle (outcome : Outcome M) (fate : Fate)
  | crash

def step (kept : M → M) (s : Intake M) : Delivery M → Intake M
  | .deliver report => s.deliver report
  | .handle outcome fate =>
    match s.fetched with
    | [] => s
    | msg :: fetched => { s with fetched }.settle kept fate (handle s.nextID msg outcome)
  | .crash => s.crash

end Cepheus.TraceProcessor
