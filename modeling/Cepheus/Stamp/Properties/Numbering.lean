import Cepheus.Infra.Traverse
import Cepheus.Stamp.Sender

/-!
# The sequence numbers of a session

A test packet carries the number of replies the session has had so far. A packet whose reply is
lost, late or too short uses up no number, so the next packet carries the same one again.
-/

namespace Cepheus.Stamp

open Infra

/-- A packet written to the network, and whether its call of `Send` returned a reply. -/
structure Transmission where
  octets : Octets
  answered : Bool

/-- The sequence number on the wire. -/
def Transmission.number (t : Transmission) : UInt32 := uint32 (t.octets.extract 0 4)

def Sent.transmission (call : Sent) : Option Transmission :=
  call.written.map fun octets => { octets, answered := call.result.isOk }

/-- The packets that a session writes, in order. -/
def Sender.transmissions (s : Sender) (cs : List Conditions) : List Transmission :=
  (s.calls cs).filterMap Sent.transmission

/-! ## One call -/

section

variable {s : Sender} {c : Conditions} {t : Transmission}

theorem prepare_number {now : Time} {p : SenderPacket} (h : s.prepare now = .ok p) :
    p.sequenceNumber = s.seq := by
  rw [Sender.prepare] at h
  cases hkey : s.hmacKey.isSome with
  | true =>
    rw [hkey] at h
    cases h
  | false =>
    rw [hkey] at h
    obtain ⟨timestamp, -, h⟩ := bind_eq_ok_iff.mp h
    obtain ⟨errorEstimate, -, h⟩ := bind_eq_ok_iff.mp h
    cases h
    rfl

/-- The two ways out of `Send` once the packet is written. -/
theorem finish_cases (s : Sender) (read : Except String Octets) :
    (∃ err, s.finish read = (s, .error err)) ∨
      ∃ reply, s.finish read = ({ s with seq := s.seq + 1 }, .ok reply) := by
  cases read with
  | error err => exact .inl ⟨_, rfl⟩
  | ok datagram =>
    simp only [Sender.finish]
    split
    · exact .inl ⟨_, rfl⟩
    · split
      · exact .inl ⟨_, rfl⟩
      · exact .inr ⟨_, rfl⟩

/-- What a call of `Send` can do: fail before it has written anything, fail after the write, or
return a reply. Only the last one changes the sender. -/
theorem send_cases (s : Sender) (c : Conditions) :
    (∃ err, s.send c = { sender := s, written := none, result := .error err }) ∨
    (∃ (p : SenderPacket) (err : String), p.sequenceNumber = s.seq ∧
      s.send c = { sender := s, written := some p.encode, result := .error err }) ∨
    ∃ (p : SenderPacket) (reply : ReflectorPacket), p.sequenceNumber = s.seq ∧
      s.send c =
        { sender := { s with seq := s.seq + 1 }
          written := some p.encode
          result := .ok reply } := by
  unfold Sender.send
  cases hp : s.prepare c.now with
  | error err => exact .inl ⟨err, rfl⟩
  | ok p =>
    cases hw : c.write with
    | some err => exact .inl ⟨err, rfl⟩
    | none =>
      rcases finish_cases s c.read with ⟨err, hf⟩ | ⟨reply, hf⟩
      · exact .inr (.inl ⟨p, err, prepare_number hp, by simp only [hf]⟩)
      · exact .inr (.inr ⟨p, reply, prepare_number hp, by simp only [hf]⟩)

theorem number_encode (p : SenderPacket) (answered : Bool) :
    Transmission.number { octets := p.encode, answered } = p.sequenceNumber := by
  show uint32 (p.encode.extract 0 4) = p.sequenceNumber
  rw [p.extract_encode.1, uint32_be]

/-- A call that writes nothing leaves the sender as it is; one that writes a packet gives it the
sender's number, and counts that up if it returns a reply. -/
theorem send_transmission (s : Sender) (c : Conditions) :
    ((s.send c).transmission = none ∧ (s.send c).sender = s) ∨
    ∃ t, (s.send c).transmission = some t ∧ t.number = s.seq ∧
      (s.send c).sender.seq = s.seq + UInt32.ofNat (if t.answered then 1 else 0) := by
  rcases send_cases s c with ⟨err, h⟩ | ⟨p, err, hp, h⟩ | ⟨p, reply, hp, h⟩
  · exact .inl ⟨by rw [h]; rfl, by rw [h]⟩
  · refine .inr ⟨{ octets := p.encode, answered := false }, by rw [h]; rfl, ?_, ?_⟩
    · rw [number_encode, hp]
    · rw [h]
      exact (UInt32.add_zero s.seq).symm
  · refine .inr ⟨{ octets := p.encode, answered := true }, by rw [h]; rfl, ?_, ?_⟩
    · rw [number_encode, hp]
    · rw [h]
      rfl

/-! ## Whole sessions -/

theorem transmissions_cons (s : Sender) (c : Conditions) (cs : List Conditions) :
    s.transmissions (c :: cs) =
      (s.send c).transmission.toList ++ (s.send c).sender.transmissions cs := by
  unfold Sender.transmissions
  cases h : (s.send c).transmission with
  | none => simp [Sender.calls, h]
  | some t => simp [Sender.calls, h]

/-- The replies that the first `k` packets got. -/
def replies (ts : List Transmission) (k : Nat) : Nat := (ts.take k).countP (·.answered)

theorem replies_add (ts : List Transmission) (k n : Nat) :
    replies ts (k + n) = replies ts k + replies (ts.drop k) n := by
  rw [replies, replies, replies, List.take_add, List.countP_append]

theorem replies_le (ts : List Transmission) (k : Nat) : replies ts k ≤ k :=
  Nat.le_trans List.countP_le_length (List.length_take_le k ts)

theorem replies_eq_zero {ts : List Transmission} {k : Nat} :
    replies ts k = 0 ↔ ∀ t ∈ ts.take k, t.answered = false := by
  rw [replies, List.countP_eq_zero]
  simp only [Bool.not_eq_true]

theorem newSender_seq {hmacKey : Option Octets} {config : Config} {dial : Option String}
    (h : newSender hmacKey config dial = .ok s) : s.seq = 0 := by
  unfold newSender at h
  split at h
  · cases h
  · split at h
    · cases h
    · cases h
      rfl

/-- The induction over the calls: from a sender whose next number is `n` on. -/
theorem number_eq (cs : List Conditions) {s : Sender} {n k : Nat} {t : Transmission}
    (hs : s.seq = UInt32.ofNat n) (ht : (s.transmissions cs)[k]? = some t) :
    t.number = UInt32.ofNat (n + replies (s.transmissions cs) k) := by
  induction cs generalizing s n k with
  | nil =>
    exact absurd ht (by simp [Sender.transmissions, Sender.calls])
  | cons c cs ih =>
    rw [transmissions_cons] at ht ⊢
    rcases send_transmission s c with ⟨hnone, hsame⟩ | ⟨u, hu, hnumber, hseq⟩
    · rw [hnone, hsame, Option.toList_none, List.nil_append] at ht ⊢
      exact ih hs ht
    · rw [hu, Option.toList_some, List.singleton_append] at ht ⊢
      cases k with
      | zero =>
        obtain rfl : u = t := Option.some.inj ht
        rw [hnumber, hs]
        rfl
      | succ k =>
        have hnext : (s.send c).sender.seq =
            UInt32.ofNat (n + if u.answered then 1 else 0) := by
          rw [hseq, hs, UInt32.ofNat_add]
        rw [ih hnext ht, replies, replies, List.take_succ_cons, List.countP_cons]
        congr 1
        omega

end

/--
**The sequence numbers of a session.**

Whatever is lost, late or too short: the `k`-th packet that a new sender writes carries the number
of packets before it whose `Send` returned a reply, modulo `2^32`. So two packets within `2^32`
transmissions share a number just when none of the calls from the first one up to the second
returned a reply.
-/
theorem transmission_numbers (hmacKey : Option Octets) (config : Config) (s : Sender)
    (hs : newSender hmacKey config none = .ok s) (cs : List Conditions) :
    (∀ k t, (s.transmissions cs)[k]? = some t →
      t.number.toNat = replies (s.transmissions cs) k % 2 ^ 32) ∧
    ∀ k l t u, k < l → l - k < 2 ^ 32 →
      (s.transmissions cs)[k]? = some t → (s.transmissions cs)[l]? = some u →
      (t.number = u.number ↔
        ∀ v ∈ ((s.transmissions cs).drop k).take (l - k), v.answered = false) := by
  have hseq : s.seq = UInt32.ofNat 0 := newSender_seq hs
  have hnumber : ∀ k t, (s.transmissions cs)[k]? = some t →
      t.number.toNat = replies (s.transmissions cs) k % 2 ^ 32 := by
    intro k t ht
    rw [number_eq cs hseq ht, Nat.zero_add]
    exact UInt32.toNat_ofNat'
  refine ⟨hnumber, ?_⟩
  intro k l t u hkl hlen ht hu
  have hsplit := replies_add (s.transmissions cs) k (l - k)
  have hbound := replies_le ((s.transmissions cs).drop k) (l - k)
  rw [Nat.add_sub_cancel' (Nat.le_of_lt hkl)] at hsplit
  rw [← UInt32.toNat_inj, hnumber k t ht, hnumber l u hu, ← replies_eq_zero]
  omega

/-- A call whose reply does not come in time. -/
def lostAt (now : Time) : Conditions where
  now := now
  write := none
  read := .error "i/o timeout"

/-- Four packets: no reply, a reply, a reply that is too short, no reply. -/
def mixedCalls : List Conditions :=
  [lostAt 0, { lostAt 1 with read := .ok (List.replicate 44 0) },
   { lostAt 2 with read := .ok (List.replicate 20 0) }, lostAt 3]

theorem mixedCalls_numbers :
    (stampSender.transmissions mixedCalls).map (·.number) = [0, 0, 1, 1] ∧
    ∀ k t, (stampSender.transmissions mixedCalls)[k]? = some t →
      t.number.toNat = replies (stampSender.transmissions mixedCalls) k % 2 ^ 32 :=
  ⟨by decide +kernel, (transmission_numbers none stampConfig stampSender rfl mixedCalls).1⟩

/-- The packet after one whose reply is lost carries the number of the lost one: a session does not
number its packets from 0 on. -/
theorem lost_reply_repeats_number :
    newSender none stampConfig none = .ok stampSender ∧
    ¬ ∀ (cs : List Conditions) (k : Nat) (t : Transmission),
      (stampSender.transmissions cs)[k]? = some t → t.number.toNat = k % 2 ^ 32 := by
  refine ⟨rfl, fun h => ?_⟩
  have hsecond : (stampSender.transmissions [lostAt 0, lostAt second])[1]?.map (·.number) =
      some 0 := by decide +kernel
  obtain ⟨t, ht, hnumber⟩ := Option.map_eq_some_iff.mp hsecond
  have hone := h _ 1 t ht
  rw [hnumber] at hone
  exact absurd hone (by decide)

end Cepheus.Stamp
