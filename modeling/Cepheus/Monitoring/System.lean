import Cepheus.Argus.Messages
import Cepheus.DataPlane.System

/-!
# The data plane and argus

The processors announce each measurement in the stream `MEASUREMENTS`, and argus reads that stream
while it grows. Both run side by side; argus may fetch what is in the stream, in any order and
again after it has ended, until it has acknowledged it or it is older than a day.
-/

namespace Cepheus.Monitoring

open Infra

structure System (D A U V S : Type) where
  plane : DataPlane.System D A U
  argus : Argus.System V S

inductive Move (D : Type) where
  | plane (m : DataPlane.Move D)
  | argus (m : Argus.Move)

/-- The moves of the data plane. -/
def Move.plane? {D : Type} : Move D → Option (DataPlane.Move D)
  | .plane m => some m
  | .argus _ => none

namespace System

variable {D A U V S : Type}

def start (p : DataPlane.Plant D A U) : System D A U V S where
  plane := .start p
  argus := .boot .empty

/-- The messages that have been stored in the stream that argus reads. -/
def messages (s : System D A U V S) : List Common.Message := s.plane.streams .measurements

/-- Only what is still in the stream can be fetched. -/
def allows (s : System D A U V S) : Argus.Move → Bool
  | .fetch id => s.plane.expired ≤ id ∧ id < s.messages.length
  | _ => true

def step [DecidableEq D] [DecidableEq A] (p : DataPlane.Plant D A U) (q : Argus.Pipeline V S)
    (s : System D A U V S) : Move D → System D A U V S
  | .plane m => { s with plane := s.plane.step p m }
  | .argus m =>
    if s.allows m then { s with argus := s.argus.step (q.reading s.messages) m } else s

end System

end Cepheus.Monitoring
