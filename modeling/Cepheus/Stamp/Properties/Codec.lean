import Cepheus.Stamp.Packet

/-!
# The packet codec

Decoding undoes encoding for both packet formats. The other way round an encoder writes back every
octet that the decoder has read, and zeros where the format has padding.

The second half needs the whole layout: every place of a packet belongs to a field or to the padding
(`eq_clear_take`).
-/

namespace Cepheus.Stamp

open Infra

/-- The places that must be zero in a sender packet: 14 to 43. -/
def SenderPacket.mbz (n : Nat) : Bool := decide (14 ≤ n ∧ n ≤ 43)

/-- The places that must be zero in a reflector packet: 14, 15, 38, 39 and 41 to 43. -/
def ReflectorPacket.mbz (n : Nat) : Bool := decide (n ∈ [14, 15, 38, 39, 41, 42, 43])

/-- A format of 44 octets whose padding is at the places `mbz`. -/
structure PacketFormat {P : Type} (encode : P → Octets) (decode : Octets → Except String P)
    (mbz : Nat → Bool) : Prop where
  length_encode : ∀ p, (encode p).length = 44
  /-- Trailing octets do not matter. -/
  decode_encode : ∀ p rest, decode (encode p ++ rest) = .ok p
  encode_decode : ∀ b : Octets, 44 ≤ b.length →
    (decode b).map encode = .ok (clear mbz (b.take 44))

/-! ## Layouts -/

/-- The place `n` lies in one of the ranges. -/
def InRange (ranges : List (Nat × Nat)) (n : Nat) : Prop := ∃ r ∈ ranges, r.1 ≤ n ∧ n < r.2

instance (ranges : List (Nat × Nat)) (n : Nat) : Decidable (InRange ranges n) :=
  inferInstanceAs (Decidable (∃ r ∈ ranges, r.1 ≤ n ∧ n < r.2))

section

variable {a b : Octets} {fields padding : List (Nat × Nat)} {n : Nat}

theorem getElem?_of_fields (h : ∀ r ∈ fields, a.extract r.1 r.2 = b.extract r.1 r.2)
    (hn : InRange fields n) : a[n]? = b[n]? := by
  obtain ⟨r, hr, hlo, hhi⟩ := hn
  exact getElem?_congr_of_extract (h r hr) hlo hhi

theorem getElem?_of_padding (h : ∀ r ∈ padding, a.extract r.1 r.2 = List.replicate (r.2 - r.1) 0)
    (hn : InRange padding n) : a[n]? = some 0 := by
  obtain ⟨r, hr, hlo, hhi⟩ := hn
  have hz : (a.extract r.1 r.2)[n - r.1]? = some 0 := by
    rw [h r hr, List.getElem?_replicate_of_lt (by omega)]
  rwa [getElem?_extract, if_pos (by omega), show r.1 + (n - r.1) = n by omega] at hz

/-- A buffer that agrees with `b` in the fields and is zero in the padding, where fields and padding
fill the packet. -/
theorem eq_clear_take (fields padding : List (Nat × Nat)) {mbz : Nat → Bool}
    (ha : a.length = 44) (hb : 44 ≤ b.length)
    (hfields : ∀ r ∈ fields, a.extract r.1 r.2 = b.extract r.1 r.2)
    (hpadding : ∀ r ∈ padding, a.extract r.1 r.2 = List.replicate (r.2 - r.1) 0)
    (hcover : ∀ n < 44, if mbz n then InRange padding n else InRange fields n) :
    a = clear mbz (b.take 44) := by
  apply List.ext_getElem?
  intro n
  by_cases hn : n < 44
  · have hr := hcover n hn
    cases hm : mbz n with
    | true =>
      rw [if_pos hm] at hr
      rw [getElem?_clear_of hm (by rw [List.length_take]; omega)]
      exact getElem?_of_padding hpadding hr
    | false =>
      rw [hm, if_neg Bool.false_ne_true] at hr
      rw [getElem?_clear_of_not _ hm, List.getElem?_take_of_lt hn]
      exact getElem?_of_fields hfields hr
  · rw [List.getElem?_eq_none (by omega), getElem?_clear, List.getElem?_take_eq_none (by omega)]
    rfl

end

/-! ## What is written back -/

section

variable {a b : Octets} {i j : Nat}

/-- A field of four octets that was read from `b` and written to the same place of `a`. -/
theorem extract_of_uint32 (h : a.extract i j = be 4 (uint32 (b.extract i j)).toNat)
    (hw : j - i = 4) (hb : j ≤ b.length) : a.extract i j = b.extract i j := by
  rw [h]
  exact be_uint32 ((length_extract hb).trans hw)

theorem extract_of_uint16 (h : a.extract i j = be 2 (uint16 (b.extract i j)).toNat)
    (hw : j - i = 2) (hb : j ≤ b.length) : a.extract i j = b.extract i j := by
  rw [h]
  exact be_uint16 ((length_extract hb).trans hw)

/-- The same for a field of one octet. -/
theorem extract_of_octet (h : a.extract i j = [b.getD i 0]) (hw : j - i = 1) (hb : j ≤ b.length) :
    a.extract i j = b.extract i j := by
  have hi : i < b.length := by omega
  rw [h, List.extract_eq_take_drop, hw, List.drop_eq_getElem_cons hi, List.take_succ_cons,
    List.take_zero, List.getD_eq_getElem?_getD, List.getElem?_eq_getElem hi, Option.getD_some]

end

theorem SenderPacket.encode_decode {b : Octets} (hb : 44 ≤ b.length) :
    (decodeSenderPacket b).map SenderPacket.encode = .ok (clear SenderPacket.mbz (b.take 44)) := by
  rw [decodeSenderPacket, if_neg (by omega)]
  refine congrArg Except.ok (eq_clear_take [(0, 4), (4, 8), (8, 12), (12, 14)] [(14, 44)]
    (SenderPacket.length_encode _) hb ?_ ?_ (by decide))
  · simp only [List.forall_mem_cons, List.not_mem_nil, false_implies, implies_true, and_true]
    generalize hp : SenderPacket.mk _ _ _ = p
    obtain ⟨hseq, hsec, hfrac, herr⟩ := p.extract_encode
    subst hp
    exact ⟨extract_of_uint32 hseq rfl (by omega), extract_of_uint32 hsec rfl (by omega),
      extract_of_uint32 hfrac rfl (by omega), extract_of_uint16 herr rfl (by omega)⟩
  · simp only [List.forall_mem_cons, List.not_mem_nil, false_implies, implies_true, and_true]
    exact SenderPacket.extract_encode_mbz _

theorem ReflectorPacket.encode_decode {b : Octets} (hb : 44 ≤ b.length) :
    (decodeReflectorPacket b).map ReflectorPacket.encode =
      .ok (clear ReflectorPacket.mbz (b.take 44)) := by
  rw [decodeReflectorPacket, if_neg (by omega)]
  refine congrArg Except.ok (eq_clear_take
    [(0, 4), (4, 8), (8, 12), (12, 14), (16, 20), (20, 24), (24, 28), (28, 32), (32, 36), (36, 38),
      (40, 41)]
    [(14, 16), (38, 40), (41, 44)] (ReflectorPacket.length_encode _) hb ?_ ?_ (by decide))
  · simp only [List.forall_mem_cons, List.not_mem_nil, false_implies, implies_true, and_true]
    generalize hp : ReflectorPacket.mk _ _ _ _ _ _ _ _ = p
    obtain ⟨hseq, hsec, hfrac, herr, hrsec, hrfrac, hsseq, hssec, hsfrac, hserr⟩ := p.extract_encode
    have httl := p.extract_encode_ttl
    subst hp
    exact ⟨extract_of_uint32 hseq rfl (by omega), extract_of_uint32 hsec rfl (by omega),
      extract_of_uint32 hfrac rfl (by omega), extract_of_uint16 herr rfl (by omega),
      extract_of_uint32 hrsec rfl (by omega), extract_of_uint32 hrfrac rfl (by omega),
      extract_of_uint32 hsseq rfl (by omega), extract_of_uint32 hssec rfl (by omega),
      extract_of_uint32 hsfrac rfl (by omega), extract_of_uint16 hserr rfl (by omega),
      extract_of_octet httl rfl (by omega)⟩
  · simp only [List.forall_mem_cons, List.not_mem_nil, false_implies, implies_true, and_true]
    exact ReflectorPacket.extract_encode_mbz _

/-- **Both packet formats lose nothing but the padding.** -/
theorem packet_formats :
    PacketFormat SenderPacket.encode decodeSenderPacket SenderPacket.mbz ∧
      PacketFormat ReflectorPacket.encode decodeReflectorPacket ReflectorPacket.mbz := by
  constructor
  · exact
      { length_encode := SenderPacket.length_encode
        decode_encode := decodeSenderPacket_encode
        encode_decode := fun _ hb => SenderPacket.encode_decode hb }
  · exact
      { length_encode := ReflectorPacket.length_encode
        decode_encode := decodeReflectorPacket_encode
        encode_decode := fun _ hb => ReflectorPacket.encode_decode hb }

end Cepheus.Stamp
