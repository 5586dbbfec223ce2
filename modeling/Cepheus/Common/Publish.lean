import Cepheus.Infra.JsonText
import Cepheus.TraceProcessor.Process

/-!
# Publishing

Messages are published with `retry.Do`: three attempts at most, until one is answered. An attempt
whose answer got lost has stored the message all the same, so that the next one stores it again.
-/

namespace Cepheus.Common

open Infra TraceProcessor

structure Message where
  subject : String
  text : List Char
deriving DecidableEq, Repr

/-- `retry.Attempts(3)`. -/
def retryAttempts : Nat := 3

/-- A message on its way, with the attempts that are left. -/
structure Outgoing where
  message : Message
  attempts : Nat
deriving DecidableEq, Repr

def Message.outgoing (message : Message) : Outgoing := { message, attempts := retryAttempts }

/-- Where `retry.Do` is after an attempt. -/
inductive Attempted where
  | answered
  | again (o : Outgoing)
  | failed
deriving DecidableEq, Repr

def Outgoing.attempt (o : Outgoing) : Reply → Attempted
  | .done => .answered
  | _ => if o.attempts ≤ 1 then .failed else .again { o with attempts := o.attempts - 1 }

/-- What an attempt stores. -/
def Outgoing.stored (o : Outgoing) : Reply → List Message
  | .failed => []
  | _ => [o.message]

theorem Outgoing.message_again {o o' : Outgoing} {reply : Reply}
    (h : o.attempt reply = .again o') : o'.message = o.message := by
  unfold attempt at h
  split at h
  · cases h
  · split at h
    · cases h
    · exact (congrArg Outgoing.message (Attempted.again.inj h)).symm

theorem Outgoing.reply_of_answered {o : Outgoing} {reply : Reply}
    (h : o.attempt reply = .answered) : reply = .done := by
  unfold attempt at h
  split at h
  · rfl
  · split at h <;> cases h

theorem Outgoing.eq_of_mem_stored {o : Outgoing} {reply : Reply} {m : Message}
    (h : m ∈ o.stored reply) : m = o.message := by
  cases reply with
  | failed => cases h
  | done => exact List.mem_singleton.1 h
  | lost => exact List.mem_singleton.1 h

end Cepheus.Common
