import Cepheus.Infra.Octets
import Cepheus.Stamp.Timestamp

/-!
# Packets

`libs/stamp/packet.go`: the two packet formats of unauthenticated mode, 44 octets each. Every
caller passes a `nil` HMAC key and an encoder then never fails, so the key and the error of the
encoders are left out.
-/

namespace Cepheus.Stamp

open Infra

/-! ## The sender's packet -/

structure SenderPacket where
  sequenceNumber : UInt32
  timestamp : Timestamp
  errorEstimate : UInt16
deriving DecidableEq, Repr

def SenderPacket.encode (p : SenderPacket) : Octets :=
  let buf : Octets := List.replicate 44 0
  let buf := putUint32 buf 0 p.sequenceNumber
  let buf := putUint32 buf 4 p.timestamp.seconds
  let buf := putUint32 buf 8 p.timestamp.fraction
  putUint16 buf 12 p.errorEstimate

def decodeSenderPacket (b : Octets) : Except String SenderPacket :=
  if b.length < 44 then .error "packet too short"
  else .ok
    { sequenceNumber := uint32 (b.extract 0 4)
      timestamp :=
        { seconds := uint32 (b.extract 4 8)
          fraction := uint32 (b.extract 8 12) }
      errorEstimate := uint16 (b.extract 12 14) }

/-! ## The reflector's packet -/

structure ReflectorPacket where
  sequenceNumber : UInt32
  timestamp : Timestamp
  errorEstimate : UInt16
  receiveTimestamp : Timestamp
  senderSequenceNumber : UInt32
  senderTimestamp : Timestamp
  senderErrorEstimate : UInt16
  senderTTL : UInt8
deriving DecidableEq, Repr

def ReflectorPacket.encode (p : ReflectorPacket) : Octets :=
  let buf : Octets := List.replicate 44 0
  let buf := putUint32 buf 0 p.sequenceNumber
  let buf := putUint32 buf 4 p.timestamp.seconds
  let buf := putUint32 buf 8 p.timestamp.fraction
  let buf := putUint16 buf 12 p.errorEstimate
  -- 14-15: MBZ
  let buf := putUint32 buf 16 p.receiveTimestamp.seconds
  let buf := putUint32 buf 20 p.receiveTimestamp.fraction
  let buf := putUint32 buf 24 p.senderSequenceNumber
  let buf := putUint32 buf 28 p.senderTimestamp.seconds
  let buf := putUint32 buf 32 p.senderTimestamp.fraction
  let buf := putUint16 buf 36 p.senderErrorEstimate
  -- 38-39: MBZ
  put buf 40 [p.senderTTL]
  -- 41-43: MBZ

def decodeReflectorPacket (data : Octets) : Except String ReflectorPacket :=
  if data.length < 44 then
    .error ("packet too short: got " ++ toString data.length ++ " bytes, need 44")
  else .ok
    { sequenceNumber := uint32 (data.extract 0 4)
      timestamp :=
        { seconds := uint32 (data.extract 4 8)
          fraction := uint32 (data.extract 8 12) }
      errorEstimate := uint16 (data.extract 12 14)
      receiveTimestamp :=
        { seconds := uint32 (data.extract 16 20)
          fraction := uint32 (data.extract 20 24) }
      senderSequenceNumber := uint32 (data.extract 24 28)
      senderTimestamp :=
        { seconds := uint32 (data.extract 28 32)
          fraction := uint32 (data.extract 32 36) }
      senderErrorEstimate := uint16 (data.extract 36 38)
      senderTTL := data.getD 40 0 }

/-! ## What the encoders write -/

@[simp] theorem SenderPacket.length_encode (p : SenderPacket) : p.encode.length = 44 := by
  simp only [SenderPacket.encode, length_putUint16, length_putUint32, List.length_replicate]

@[simp] theorem ReflectorPacket.length_encode (p : ReflectorPacket) : p.encode.length = 44 := by
  simp only [ReflectorPacket.encode, length_put, length_putUint16, length_putUint32,
    List.length_replicate]

/-- The fields of an encoded sender packet, each in its own range. -/
theorem SenderPacket.extract_encode (p : SenderPacket) :
    p.encode.extract 0 4 = be 4 p.sequenceNumber.toNat ∧
    p.encode.extract 4 8 = be 4 p.timestamp.seconds.toNat ∧
    p.encode.extract 8 12 = be 4 p.timestamp.fraction.toNat ∧
    p.encode.extract 12 14 = be 2 p.errorEstimate.toNat := by
  simp [SenderPacket.encode, extract_putUint32, extract_putUint16, extract_putUint32_of_disjoint,
    extract_putUint16_of_disjoint, -List.extract_eq_take_drop]

/-- The fields of an encoded reflector packet, each in its own range. -/
theorem ReflectorPacket.extract_encode (p : ReflectorPacket) :
    p.encode.extract 0 4 = be 4 p.sequenceNumber.toNat ∧
    p.encode.extract 4 8 = be 4 p.timestamp.seconds.toNat ∧
    p.encode.extract 8 12 = be 4 p.timestamp.fraction.toNat ∧
    p.encode.extract 12 14 = be 2 p.errorEstimate.toNat ∧
    p.encode.extract 16 20 = be 4 p.receiveTimestamp.seconds.toNat ∧
    p.encode.extract 20 24 = be 4 p.receiveTimestamp.fraction.toNat ∧
    p.encode.extract 24 28 = be 4 p.senderSequenceNumber.toNat ∧
    p.encode.extract 28 32 = be 4 p.senderTimestamp.seconds.toNat ∧
    p.encode.extract 32 36 = be 4 p.senderTimestamp.fraction.toNat ∧
    p.encode.extract 36 38 = be 2 p.senderErrorEstimate.toNat := by
  simp [ReflectorPacket.encode, extract_putUint32, extract_putUint16, extract_put_of_disjoint,
    extract_putUint32_of_disjoint, extract_putUint16_of_disjoint, -List.extract_eq_take_drop]

/-- The sender's padding is never written to. -/
theorem SenderPacket.extract_encode_mbz (p : SenderPacket) :
    p.encode.extract 14 44 = List.replicate 30 0 := by
  simp [SenderPacket.encode, extract_putUint32_of_disjoint, extract_putUint16_of_disjoint,
    -List.extract_eq_take_drop]
  decide

theorem ReflectorPacket.extract_encode_ttl (p : ReflectorPacket) :
    p.encode.extract 40 41 = [p.senderTTL] := by
  simp [ReflectorPacket.encode, extract_put, -List.extract_eq_take_drop]

/-- The octets that must be zero are never written to. -/
theorem ReflectorPacket.extract_encode_mbz (p : ReflectorPacket) :
    p.encode.extract 14 16 = [0, 0] ∧
    p.encode.extract 38 40 = [0, 0] ∧
    p.encode.extract 41 44 = [0, 0, 0] := by
  simp [ReflectorPacket.encode, extract_put_of_disjoint, extract_putUint32_of_disjoint,
    extract_putUint16_of_disjoint, -List.extract_eq_take_drop]
  decide

-- From here on `extract_encode` is what is known of the octets. Nothing should compute a buffer to
-- find out that two packets are the same.
attribute [irreducible] SenderPacket.encode ReflectorPacket.encode

/-! ## Round trips -/

/-- Octets behind the packet do not matter to the decoder. -/
theorem decodeSenderPacket_encode (p : SenderPacket) (rest : Octets) :
    decodeSenderPacket (p.encode ++ rest) = .ok p := by
  have hlen : ¬ (p.encode ++ rest).length < 44 := by
    rw [List.length_append, p.length_encode]
    omega
  rw [decodeSenderPacket, if_neg hlen]
  simp [extract_append_left, p.extract_encode, uint32_be, uint16_be, -List.extract_eq_take_drop]

/-- What a read of an encoded packet gives. -/
theorem SenderPacket.receive_encode (p : SenderPacket) :
    receive 1500 p.encode = (p.encode ++ List.replicate 1456 0, 44) := by
  rw [receive_of_le (by rw [p.length_encode]; decide), p.length_encode]

theorem SenderPacket.encode_inj {p q : SenderPacket} (h : p.encode = q.encode) : p = q := by
  have hp := decodeSenderPacket_encode p []
  rw [h, decodeSenderPacket_encode] at hp
  exact (Except.ok.inj hp).symm

theorem decodeReflectorPacket_encode (p : ReflectorPacket) (rest : Octets) :
    decodeReflectorPacket (p.encode ++ rest) = .ok p := by
  have hlen : ¬ (p.encode ++ rest).length < 44 := by
    rw [List.length_append, p.length_encode]
    omega
  have httl : (p.encode ++ rest)[40]? = some p.senderTTL := by
    have hrange : (p.encode ++ rest).extract 40 41 = [p.senderTTL] := by
      rw [extract_append_left rest (by rw [p.length_encode]; decide), p.extract_encode_ttl]
    exact getElem?_of_extract hrange
  rw [decodeReflectorPacket, if_neg hlen]
  simp [extract_append_left, p.extract_encode, uint32_be, uint16_be, httl,
    -List.extract_eq_take_drop]


theorem ReflectorPacket.receive_encode (p : ReflectorPacket) :
    receive 1500 p.encode = (p.encode ++ List.replicate 1456 0, 44) := by
  rw [receive_of_le (by rw [p.length_encode]; decide), p.length_encode]

/-- The reader takes just the octets of the packet out of its buffer. -/
theorem ReflectorPacket.decode_take (p : ReflectorPacket) :
    decodeReflectorPacket ((p.encode ++ List.replicate 1456 0).take 44) = .ok p := by
  have h := decodeReflectorPacket_encode p []
  rw [List.take_left' p.length_encode]
  rwa [List.append_nil] at h

end Cepheus.Stamp
