import Mathlib.Data.List.Basic

/-!
# Channels

A channel of Go with a capacity: sending needs room in its buffer, or a receiver that is waiting at
an empty one, and receiving takes the oldest element.

`Conveys` relates a channel to what has gone through it. Whatever order it is used in, what was sent
is what was received, followed by what the buffer holds.
-/

namespace Cepheus.Infra

variable {α : Type}

/-- `chan α`. -/
structure Channel (α : Type) where
  capacity : Nat
  buffer : List α
  bounded : buffer.length ≤ capacity
deriving DecidableEq

namespace Channel

variable {c c' : Channel α} {sent received : List α} {x : α}

/-- `make(chan α, capacity)`. -/
def make (capacity : Nat) : Channel α := { capacity, buffer := [], bounded := Nat.zero_le _ }

/-- `c <- x` without a receiver, where there is room. -/
def send (c : Channel α) (x : α) : Option (Channel α) :=
  if h : c.buffer.length < c.capacity then
    some { c with
      buffer := c.buffer ++ [x]
      bounded := by
        rw [List.length_append, List.length_singleton]
        exact h }
  else none

/-- `<-c`, where there is something. -/
def receive (c : Channel α) : Option (α × Channel α) :=
  match h : c.buffer with
  | [] => none
  | x :: rest =>
    some (x,
      { c with
        buffer := rest
        bounded := by
          have hbounded := c.bounded
          rw [h, List.length_cons] at hbounded
          exact Nat.le_of_succ_le hbounded })

theorem send_eq_none_iff : c.send x = none ↔ c.capacity ≤ c.buffer.length := by
  simp [send]

theorem buffer_send (h : c.send x = some c') :
    c'.buffer = c.buffer ++ [x] ∧ c'.capacity = c.capacity := by
  unfold send at h
  split at h
  · obtain rfl := Option.some.inj h
    exact ⟨rfl, rfl⟩
  · cases h

theorem buffer_receive (h : c.receive = some (x, c')) :
    c.buffer = x :: c'.buffer ∧ c'.capacity = c.capacity := by
  unfold receive at h
  split at h
  · cases h
  · next hbuffer =>
    obtain ⟨rfl, rfl⟩ := Prod.mk.inj (Option.some.inj h)
    exact ⟨hbuffer, rfl⟩

theorem receive_eq_none_iff : c.receive = none ↔ c.buffer = [] := by
  unfold receive
  split
  · next hbuffer => simp [hbuffer]
  · next hbuffer => simp [hbuffer]

/-! ## What goes through a channel -/

/-- What was sent is what was received, followed by what is waiting. -/
def Conveys (c : Channel α) (sent received : List α) : Prop := sent = received ++ c.buffer

theorem conveys_make (capacity : Nat) : (make capacity : Channel α).Conveys [] [] := rfl

theorem Conveys.send (h : c.Conveys sent received) (hsend : c.send x = some c') :
    c'.Conveys (sent ++ [x]) received := by
  rw [Conveys, h, (buffer_send hsend).1, List.append_assoc]

theorem Conveys.receive (h : c.Conveys sent received) (hreceive : c.receive = some (x, c')) :
    c'.Conveys sent (received ++ [x]) := by
  rw [Conveys, h, (buffer_receive hreceive).1, List.append_assoc, List.singleton_append]

/-- An element that is handed to a receiver, past an empty buffer. -/
theorem Conveys.handOver (h : c.Conveys sent received) (hempty : c.buffer = []) (x : α) :
    c.Conveys (sent ++ [x]) (received ++ [x]) := by
  rw [Conveys, h, hempty, List.append_nil, List.append_nil]

end Channel

end Cepheus.Infra
