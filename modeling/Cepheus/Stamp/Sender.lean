import Cepheus.Stamp.Packet

/-!
# The sender

`libs/stamp/sender.go`. A call of `Send` writes one test packet and then reads the next datagram
that its connected socket has for it, for as long as the read deadline allows. It is modelled in the
two halves between which it blocks: `Sender.prepare` makes the packet, `Sender.finish` takes what
the read returned.

The sequence number is counted up at the very end, where a reply has been decoded; every other way
out of `Send` leaves it as it is.
-/

namespace Cepheus.Stamp

open Infra

/-- The part of `Sender` that decides what it sends and returns. -/
structure Sender where
  hmacKey : Option Octets
  seq : UInt32
  config : Config
deriving DecidableEq, Repr

/-- `dial` is the error of resolving the addresses or of opening the socket. -/
def newSender (hmacKey : Option Octets) (config : Config) (dial : Option String) :
    Except String Sender :=
  match config.errorEstimate.clockFormat with
  | .other _ => .error "invalid clock format: valid options are NTP"
  | .ntp =>
    match dial with
    | some err => .error err
    | none => .ok { hmacKey, seq := 0, config }

/-- The sender that an agent makes for a session. -/
def stampSender : Sender := { hmacKey := none, seq := 0, config := stampConfig }

example : newSender none stampConfig none = .ok stampSender := rfl

/-- `Send` up to the write. -/
def Sender.prepare (s : Sender) (now : Time) : Except String SenderPacket := do
  if s.hmacKey.isSome then
    throw "HMAC authentication is not yet implemented"
  let timestamp ← newTimestamp s.config.errorEstimate.clockFormat now
  let errorEstimate ← s.config.newErrorEstimate
  return {
    sequenceNumber := s.seq
    timestamp := timestamp
    errorEstimate := errorEstimate.encode }

/-- `Send` from the read on, which gave an error or a datagram. -/
def Sender.finish (s : Sender) (read : Except String Octets) :
    Sender × Except String ReflectorPacket :=
  match read with
  | .error err => (s, .error ("waiting for reply: " ++ err))
  | .ok datagram =>
    let (rxBuf, n) := receive 1500 datagram
    if n < 44 then
      (s, .error ("reply too short: got " ++ toString n ++ " bytes, need 44"))
    else
      match decodeReflectorPacket (rxBuf.take n) with
      | .error err => (s, .error ("decoding reply: " ++ err))
      | .ok reply => ({ s with seq := s.seq + 1 }, .ok reply)

/-- What the environment does during a call of `Send`. -/
structure Conditions where
  now : Time
  /-- The error of the write. -/
  write : Option String
  /-- What the read returns: an error, such as that the deadline is over, or a datagram. -/
  read : Except String Octets

/-- What a call of `Send` does. -/
structure Sent where
  sender : Sender
  /-- The packet written to the network. -/
  written : Option Octets
  result : Except String ReflectorPacket

def Sender.send (s : Sender) (c : Conditions) : Sent :=
  match s.prepare c.now with
  | .error err => { sender := s, written := none, result := .error err }
  | .ok senderPkt =>
    match c.write with
    | some err => { sender := s, written := none, result := .error err }
    | none =>
      let (sender, result) := s.finish c.read
      { sender, written := some senderPkt.encode, result }

/-- The calls of a session, one after the other. -/
def Sender.calls (s : Sender) : List Conditions → List Sent
  | [] => []
  | c :: cs => s.send c :: (s.send c).sender.calls cs

end Cepheus.Stamp
