import Cepheus.Infra.Traverse
import Cepheus.Stamp.Session

/-!
# Replies and requests

`Send` returns the first packet that its socket has for it. Whether that answers the packet this
very call has written is not checked: the sequence number and the timestamp that come back are not
looked at.

* `replies_matched` - if no datagram is left over when a call starts, and only replies to its own
  packet arrive while it waits, it returns a reply to its own packet
* `late_reply_mismatched` - a reply that comes after its call has given up is returned by the next
-/

namespace Cepheus.Stamp

open Infra

/-- The reply repeats the sequence number and the timestamp of the packet. -/
def ReflectorPacket.Answers (reply : ReflectorPacket) (p : SenderPacket) : Prop :=
  reply.senderSequenceNumber = p.sequenceNumber ∧ reply.senderTimestamp = p.timestamp

instance (reply : ReflectorPacket) (p : SenderPacket) : Decidable (reply.Answers p) :=
  inferInstanceAs (Decidable (_ ∧ _))

/-- Every call that returned a reply returned one to the packet it had written. -/
def Session.Matched (s : Session) : Prop := ∀ x ∈ s.returned, x.2.Answers x.1

instance (s : Session) : Decidable s.Matched := inferInstanceAs (Decidable (∀ x ∈ _, _))

/-- A call starts with an empty socket, and while it waits the network hands over replies to its own
packet only. -/
def Session.Undisturbed (s : Session) : Move → Prop
  | .start _ _ => s.pending = none → s.socket = []
  | .reply j => s.pending ≠ none → ∀ x ∈ s.replies[j]?, x.1 + 1 = s.requests.length
  | _ => True

instance (s : Session) : ∀ m, Decidable (s.Undisturbed m)
  | .start _ _ => inferInstanceAs (Decidable (_ → _))
  | .reply _ => inferInstanceAs (Decidable (_ → ∀ x ∈ _, _))
  | .request .. | .foreign .. | .read | .expire _ => inferInstanceAs (Decidable True)

/-! ## Packets on the wire -/

/-- What the reflector makes of a sender's packet repeats its fields. -/
theorem reflect_answers {r : Reflector} {p : SenderPacket} {rxNow now : Time}
    {reply : ReflectorPacket} (h : r.reflect p.encode rxNow now = .ok reply) : reply.Answers p := by
  simp only [Reflector.reflect, p.receive_encode, decodeSenderPacket_encode,
    if_neg (Nat.lt_irrefl 44)] at h
  obtain ⟨rxTimestamp, -, h⟩ := bind_eq_ok_iff.mp h
  obtain ⟨senderPkt, hdecode, h⟩ := bind_eq_ok_iff.mp h
  obtain ⟨errorEstimate, -, h⟩ := bind_eq_ok_iff.mp h
  obtain ⟨timestamp, -, h⟩ := bind_eq_ok_iff.mp h
  obtain rfl := Except.ok.inj hdecode
  obtain rfl := Except.ok.inj h
  exact ⟨rfl, rfl⟩

theorem round_answers {r : Reflector} {p : SenderPacket} {rxNow now : Time} {write : Option String}
    {reply : Reply Peer}
    (h : (r.round (gets p.encode .sender rxNow now write)).reply = some reply) :
    ∃ q : ReflectorPacket, reply.octets = q.encode ∧ q.Answers p := by
  simp only [Reflector.round, gets, Bool.false_eq_true, if_false] at h
  cases hq : r.reflect p.encode rxNow now with
  | error err =>
    rw [hq] at h
    cases h
  | ok q =>
    rw [hq] at h
    cases write with
    | some err => cases h
    | none =>
      obtain rfl := Option.some.inj h
      exact ⟨q, rfl, reflect_answers hq⟩

/-- A call that reads an encoded reply returns it. -/
theorem finish_encode (s : Sender) (q : ReflectorPacket) :
    s.finish (.ok q.encode) = ({ s with seq := s.seq + 1 }, .ok q) := by
  simp only [Sender.finish, q.receive_encode, if_neg (Nat.lt_irrefl 44), q.decode_take]

/-! ## The invariant -/

/-- What holds in a session in which no call is disturbed. -/
structure Session.Orderly (s : Session) : Prop where
  requests : ∀ d ∈ s.requests, ∃ p : SenderPacket, d = p.encode
  /-- A reply answers the request it is kept with. -/
  replies : ∀ x ∈ s.replies, ∃ (p : SenderPacket) (q : ReflectorPacket),
    s.requests[x.1]? = some p.encode ∧ x.2 = q.encode ∧ q.Answers p
  /-- The call in progress has written the last request. -/
  pending : ∀ p ∈ s.pending, s.requests.getLast? = some p.encode
  /-- While a call is in progress the socket holds answers to its packet only. -/
  socket : ∀ p ∈ s.pending, ∀ d ∈ s.socket, ∃ q : ReflectorPacket, d = q.encode ∧ q.Answers p
  matched : s.Matched

theorem orderly_init (sender : Sender) (reflector : Reflector) :
    (Session.init sender reflector).Orderly where
  requests := fun _ h => absurd h List.not_mem_nil
  replies := fun _ h => absurd h List.not_mem_nil
  pending := fun _ h => nomatch h
  socket := fun _ h => nomatch h
  matched := fun _ h => absurd h List.not_mem_nil

section

variable {s : Session}

/-- A call starts: its packet becomes the last request. -/
theorem Session.Orderly.start (h : s.Orderly) (hsocket : s.socket = []) (p : SenderPacket) :
    Session.Orderly
      { s with pending := some p, requests := s.requests ++ [p.encode] } where
  requests := by
    intro d hd
    rcases List.mem_append.mp hd with hd | hd
    · exact h.requests d hd
    · exact ⟨p, List.mem_singleton.mp hd⟩
  replies := by
    intro x hx
    obtain ⟨r, q, hr, hq, hans⟩ := h.replies x hx
    have hlt : x.1 < s.requests.length := (List.getElem?_eq_some_iff.mp hr).1
    exact ⟨r, q, (List.getElem?_append_left hlt).trans hr, hq, hans⟩
  pending := by
    intro r hr
    obtain rfl := Option.some.inj hr
    exact List.getLast?_concat
  socket := by
    intro r _ d hd
    have hd : d ∈ s.socket := hd
    rw [hsocket] at hd
    exact absurd hd List.not_mem_nil
  matched := h.matched

/-- The reflector answers one of the requests. -/
theorem Session.Orderly.request (h : s.Orderly) {i : Nat} {datagram : Octets}
    (hi : s.requests[i]? = some datagram) (rxNow now : Time) (write : Option String)
    (r : Reflector) :
    Session.Orderly
      { s with
        reflector := r
        replies := s.replies ++
          (s.reflector.round (gets datagram .sender rxNow now write)).reply.toList.map
            fun reply => (i, reply.octets) } where
  requests := h.requests
  replies := by
    intro x hx
    rcases List.mem_append.mp hx with hx | hx
    · exact h.replies x hx
    · obtain ⟨reply, hreply, rfl⟩ := List.mem_map.mp hx
      obtain ⟨p, rfl⟩ := h.requests datagram (List.mem_of_getElem? hi)
      obtain ⟨q, hq, hans⟩ := round_answers (Option.mem_toList.mp hreply)
      exact ⟨p, q, hi, hq, hans⟩
  pending := h.pending
  socket := h.socket
  matched := h.matched

/-- A reply reaches the socket. The call in progress, if there is one, has written the request. -/
theorem Session.Orderly.reply (h : s.Orderly) {x : Nat × Octets} (hx : x ∈ s.replies)
    (hown : s.pending ≠ none → x.1 + 1 = s.requests.length) :
    Session.Orderly { s with socket := s.socket ++ [x.2] } where
  requests := h.requests
  replies := h.replies
  pending := h.pending
  socket := by
    intro p hp d hd
    rcases List.mem_append.mp hd with hd | hd
    · exact h.socket p hp d hd
    · obtain ⟨r, q, hr, hq, hans⟩ := h.replies x hx
      have hp : s.pending = some p := hp
      have hlast := h.pending p hp
      have hx : x.1 = s.requests.length - 1 := by
        have hown := hown (by rw [hp]; exact Option.some_ne_none p)
        omega
      rw [List.getLast?_eq_getElem?, ← hx, hr] at hlast
      obtain rfl := SenderPacket.encode_inj (Option.some.inj hlast)
      exact ⟨q, (List.mem_singleton.mp hd).trans hq, hans⟩
  matched := h.matched

/-- The call in progress reads the datagram at the front of its socket. -/
theorem Session.Orderly.read (h : s.Orderly) {p : SenderPacket} {datagram : Octets}
    {rest : List Octets} (hp : s.pending = some p) (hsocket : s.socket = datagram :: rest) :
    Session.Orderly
      { s with
        sender := (s.sender.finish (.ok datagram)).1
        pending := none
        socket := rest
        returned := s.returned ++ (s.sender.finish (.ok datagram)).2.toOption.toList.map
          fun reply => (p, reply) } where
  requests := h.requests
  replies := h.replies
  pending := fun _ hr => nomatch hr
  socket := fun _ hr => nomatch hr
  matched := by
    intro x hx
    rcases List.mem_append.mp hx with hx | hx
    · exact h.matched x hx
    · obtain ⟨q, rfl, hans⟩ := h.socket p hp datagram (by rw [hsocket]; exact List.mem_cons_self)
      rw [finish_encode] at hx
      obtain rfl := List.mem_singleton.mp hx
      exact hans

/-- A call that ends without a reply, or the reflector's other work, leaves it all as it is. -/
theorem Session.Orderly.other (h : s.Orderly) (sender : Sender) (r : Reflector)
    {pending : Option SenderPacket} (hp : pending = none ∨ pending = s.pending) :
    Session.Orderly { s with sender, reflector := r, pending } := by
  rcases hp with rfl | rfl
  · exact ⟨h.requests, h.replies, (fun _ hr => nomatch hr), (fun _ hr => nomatch hr), h.matched⟩
  · exact ⟨h.requests, h.replies, h.pending, h.socket, h.matched⟩

theorem Session.Orderly.step (h : s.Orderly) {m : Move} (hm : s.Undisturbed m) :
    (s.step m).Orderly := by
  cases m with
  | start now write =>
    simp only [Session.step]
    split
    · exact h
    next hp =>
      split
      · exact h.start (hm hp) _
      · exact h
  | request i rxNow now write =>
    simp only [Session.step]
    split
    · exact h
    next hi => exact h.request hi rxNow now write _
  | foreign datagram rxNow now write => exact h.other s.sender _ (.inr rfl)
  | reply j =>
    simp only [Session.step]
    split
    · exact h
    next k octets hj => exact h.reply (List.mem_of_getElem? hj) fun hp => hm hp _ hj
  | read =>
    simp only [Session.step]
    split
    next p datagram rest hp hsocket => exact h.read hp hsocket
    · exact h
  | expire err =>
    simp only [Session.step]
    split
    · exact h
    · exact h.other _ s.reflector (.inl rfl)

end

/--
**Replies are matched to their requests, as long as no call is disturbed.**

Between a new sender and any reflector, over a network that delays, reorders, duplicates and drops
datagrams, and with reads that may fail at any time: if each call of `Send` starts with an empty
socket and, while it waits, only replies to its own packet arrive, then in every state of the
session each call that has returned a reply returned one that repeats the sequence number and the
timestamp of the packet it wrote.
-/
theorem replies_matched (sender : Sender) (reflector : Reflector) (moves : List Move)
    (hmoves : Along Session.step Session.Undisturbed (Session.init sender reflector) moves) :
    Throughout Session.step Session.Matched (Session.init sender reflector) moves :=
  (throughout_of_invariant (fun _ _ h hm => h.step hm) (orderly_init sender reflector)
    hmoves).imp fun _ h => h.matched

/-- Three packets. The first one is lost, the second one reaches the reflector twice, and before the
third one it gets another sender's packet. -/
def quietMoves : List Move :=
  [.start 0 none, .expire "i/o timeout",
   .start second none, .request 1 1 2 none, .request 1 3 4 none, .reply 1, .read,
   .start (2 * second) none, .foreign (List.replicate 44 0) 5 6 none, .request 2 7 8 none,
   .reply 2, .read]

theorem quietMoves_matched :
    (run Session.step (Session.init stampSender (newReflector stampConfig))
        quietMoves).returned.length = 2 ∧
      Throughout Session.step Session.Matched
        (Session.init stampSender (newReflector stampConfig)) quietMoves :=
  ⟨by decide +kernel, replies_matched stampSender (newReflector stampConfig) quietMoves
    (by decide +kernel)⟩

/-- The reply to the first packet arrives after its call has given up. The second call, one second
later, returns it as the reply to its own packet. -/
theorem late_reply_mismatched :
    ¬ (run Session.step (Session.init stampSender (newReflector stampConfig))
      [.start 0 none, .expire "i/o timeout", .request 0 1 2 none, .reply 0,
       .start second none, .read]).Matched := by
  decide +kernel

end Cepheus.Stamp
