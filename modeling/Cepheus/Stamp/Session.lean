import Cepheus.Stamp.Reflector
import Cepheus.Stamp.Sender

/-!
# A session over a network

A sender, a reflector that other senders use as well, and the network between them.

The network keeps what was sent through it. It can hand over any datagram at any time, as often as
it likes or never: so datagrams are delayed, reordered, duplicated and lost. Those that have reached
the sender wait in its socket, in the order in which they came, until a call of `Send` reads them;
nothing else takes them out, neither the end of a call nor the start of the next one.

`Send` blocks, so there is at most one call at a time. It is taken apart into its start, up to the
write, and its end, the read that succeeds or fails.
-/

namespace Cepheus.Stamp

open Infra

/-- Where a datagram that the reflector gets comes from. -/
inductive Peer where
  | sender
  | other
deriving DecidableEq, Repr

structure Session where
  sender : Sender
  /-- The packet that the call of `Send` in progress has written. -/
  pending : Option SenderPacket
  /-- The datagrams that the sender's socket has received and nobody has read. -/
  socket : List Octets
  /-- What the sender has written. -/
  requests : List Octets
  reflector : Reflector
  /-- What the reflector has sent to the sender, each with the place of its request. -/
  replies : List (Nat × Octets)
  /-- For each call that returned a reply: the packet it had written, and the reply. -/
  returned : List (SenderPacket × ReflectorPacket)

inductive Move where
  /-- A call of `Send` starts. -/
  | start (now : Time) (write : Option String)
  /-- The network hands a request to the reflector. -/
  | request (i : Nat) (rxNow now : Time) (write : Option String)
  /-- Another sender's datagram reaches the reflector. -/
  | foreign (datagram : Octets) (rxNow now : Time) (write : Option String)
  /-- The network hands a reply to the sender's socket. -/
  | reply (j : Nat)
  /-- The call in progress reads from its socket. -/
  | read
  /-- The read of the call in progress fails, for example at its deadline. -/
  | expire (err : String)
deriving DecidableEq, Repr

/-- A round of the reflector in which it gets a datagram. -/
def gets (datagram : Octets) (peer : Peer) (rxNow now : Time) (write : Option String) :
    Round Peer :=
  { done := false, read := .ok (datagram, peer), rxNow, now, write }

def Session.step (s : Session) : Move → Session
  | .start now write =>
    match s.pending with
    | some _ => s
    | none =>
      match s.sender.prepare now, write with
      | .ok senderPkt, none =>
        { s with pending := some senderPkt, requests := s.requests ++ [senderPkt.encode] }
      | _, _ => s
  | .request i rxNow now write =>
    match s.requests[i]? with
    | none => s
    | some datagram =>
      let turn := s.reflector.round (gets datagram .sender rxNow now write)
      { s with
        reflector := turn.reflector
        replies := s.replies ++ turn.reply.toList.map fun reply => (i, reply.octets) }
  | .foreign datagram rxNow now write =>
    { s with reflector := (s.reflector.round (gets datagram .other rxNow now write)).reflector }
  | .reply j =>
    match s.replies[j]? with
    | none => s
    | some (_, octets) => { s with socket := s.socket ++ [octets] }
  | .read =>
    match s.pending, s.socket with
    | some senderPkt, datagram :: rest =>
      let (sender, result) := s.sender.finish (.ok datagram)
      { s with
        sender
        pending := none
        socket := rest
        returned := s.returned ++ result.toOption.toList.map fun reply => (senderPkt, reply) }
    | _, _ => s
  | .expire err =>
    match s.pending with
    | none => s
    | some _ => { s with sender := (s.sender.finish (.error err)).1, pending := none }

/-- A new sender and a reflector, and nothing under way. -/
def Session.init (sender : Sender) (reflector : Reflector) : Session where
  sender := sender
  pending := none
  socket := []
  requests := []
  reflector := reflector
  replies := []
  returned := []

end Cepheus.Stamp
