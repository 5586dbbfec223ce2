import Cepheus.Infra.Run
import Cepheus.Stamp.Packet

/-!
# The reflector

`libs/stamp/reflector.go`: a loop that reads a datagram and sends it back with the reflector's own
fields filled in. One pass of the loop is `Reflector.round`; what the environment does in it, the
datagram read, the clock and how the write ends, is its argument.

A reflector is shared by all senders that talk to it. Between two rounds it keeps nothing but its
sequence number.
-/

namespace Cepheus.Stamp

open Infra

/-- The part of `Reflector` that decides what it sends. -/
structure Reflector where
  config : Config
  seq : UInt32
deriving DecidableEq, Repr

def newReflector (config : Config) : Reflector := { config, seq := 0 }

/-- The ways in which the loop takes an error of `ReadFrom`. -/
inductive ReadError where
  /-- The context is done. -/
  | cancelled
  /-- The context has an error although it was not done just before. -/
  | expired (err : String)
  /-- `net.ErrClosed`: the socket was closed from outside. -/
  | closed
  | other (err : String)
deriving DecidableEq, Repr

/-- What the environment does in one pass of the loop. -/
structure Round (Addr : Type) where
  /-- The context is done when the pass starts. -/
  done : Bool
  read : Except ReadError (Octets × Addr)
  /-- The clock right after the read, and again when the reply is made. -/
  rxNow : Time
  now : Time
  /-- The error of `WriteTo`. -/
  write : Option String

structure Reply (Addr : Type) where
  addr : Addr
  octets : Octets
deriving DecidableEq, Repr

/-- What one pass of the loop does. -/
structure Turn (Addr : Type) where
  reflector : Reflector
  reply : Option (Reply Addr) := none
  /-- The error given to `handleError`. -/
  handled : Option String := none
  /-- What `Serve` returns, if it does. -/
  returned : Option (Option String) := none

variable {Addr : Type}

/-- From the datagram that was read to the packet that goes back. -/
def Reflector.reflect (r : Reflector) (datagram : Octets) (rxNow now : Time) :
    Except String ReflectorPacket := do
  let (buf, readBytes) := receive 1500 datagram
  let rxTimestamp ← newTimestamp r.config.errorEstimate.clockFormat rxNow
  if readBytes < 44 then
    throw ("packet too short: got " ++ toString readBytes ++ " bytes, need 44")
  let senderPkt ← decodeSenderPacket buf
  let errorEstimate ← r.config.newErrorEstimate
  let timestamp ← newTimestamp r.config.errorEstimate.clockFormat now
  return {
    sequenceNumber := r.seq
    timestamp := timestamp
    errorEstimate := errorEstimate.encode
    receiveTimestamp := rxTimestamp
    senderSequenceNumber := senderPkt.sequenceNumber
    senderTimestamp := senderPkt.timestamp
    senderErrorEstimate := senderPkt.errorEstimate
    senderTTL := 1 }

/-- One pass of the loop of `Serve`. -/
def Reflector.round (r : Reflector) (x : Round Addr) : Turn Addr :=
  if x.done then { reflector := r, returned := some none }
  else
    match x.read with
    | .error .cancelled => { reflector := r, returned := some none }
    | .error (.expired err) => { reflector := r, returned := some (some err) }
    | .error .closed => { reflector := r, returned := some none }
    | .error (.other err) => { reflector := r, handled := some err }
    | .ok (datagram, addr) =>
      match r.reflect datagram x.rxNow x.now with
      | .error err => { reflector := r, handled := some err }
      | .ok reflectorPkt =>
        -- the number is used up before the write, whether or not that succeeds
        let r := { r with seq := r.seq + 1 }
        match x.write with
        | some err => { reflector := r, handled := some err }
        | none => { reflector := r, reply := some { addr, octets := reflectorPkt.encode } }

/-- What a call of `Serve` has done so far. -/
structure Serving (Addr : Type) where
  reflector : Reflector
  replies : List (Reply Addr) := []
  handled : List String := []
  returned : Option (Option String) := none

def Serving.step (s : Serving Addr) (x : Round Addr) : Serving Addr :=
  match s.returned with
  | some _ => s
  | none =>
    let turn := s.reflector.round x
    { reflector := turn.reflector
      replies := s.replies ++ turn.reply.toList
      handled := s.handled ++ turn.handled.toList
      returned := turn.returned }

def serve (r : Reflector) (rounds : List (Round Addr)) : Serving Addr :=
  run Serving.step { reflector := r } rounds

end Cepheus.Stamp
