import Cepheus.Stamp.Reflector

/-!
# The reflector's stream law

A reflector answers the datagrams of at least 44 octets, in the order in which they arrive, and
numbers its answers from 0. Apart from that number an answer depends on the datagram it answers
and on the clock only: what other senders sent before, or what was too short to be a packet, leaves
no trace in it.
-/

namespace Cepheus.Stamp

open Infra

variable {Addr : Type}

/-! ## What arrives -/

/-- A datagram as it reaches the reflector. -/
structure Arrival (Addr : Type) where
  datagram : Octets
  addr : Addr
  rxNow : Time
  now : Time

/-- The loop returns in this round. -/
def Round.ends (x : Round Addr) : Bool :=
  x.done || match x.read with
    | .error (.other _) => false
    | .error _ => true
    | .ok _ => false

def Round.arrival (x : Round Addr) : Option (Arrival Addr) :=
  match x.read with
  | .error _ => none
  | .ok (datagram, addr) => some { datagram, addr, rxNow := x.rxNow, now := x.now }

/-- The datagrams received before `Serve` returns, in order. -/
def arrivals (rounds : List (Round Addr)) : List (Arrival Addr) :=
  (rounds.takeWhile fun x => !x.ends).filterMap Round.arrival

/-- The datagram is long enough for a packet. -/
def Arrival.Full (a : Arrival Addr) : Prop := 44 ≤ a.datagram.length

instance (a : Arrival Addr) : Decidable a.Full := inferInstanceAs (Decidable (_ ≤ _))

/-! ## What goes back -/

/-- The answer to a datagram under the number `k`: the number, the clock, the configuration and
the first 14 octets of the datagram are all that it is made from. -/
def Arrival.reflected (config : Config) (k : UInt32) (a : Arrival Addr) : ReflectorPacket where
  sequenceNumber := k
  timestamp := generateNtpTimestamp a.now
  errorEstimate := config.estimate.encode
  receiveTimestamp := generateNtpTimestamp a.rxNow
  senderSequenceNumber := uint32 (a.datagram.extract 0 4)
  senderTimestamp :=
    { seconds := uint32 (a.datagram.extract 4 8)
      fraction := uint32 (a.datagram.extract 8 12) }
  senderErrorEstimate := uint16 (a.datagram.extract 12 14)
  senderTTL := 1

def Arrival.reply (config : Config) (k : Nat) (a : Arrival Addr) : Reply Addr where
  addr := a.addr
  octets := (a.reflected config (UInt32.ofNat k)).encode

variable {config : Config} {r : Reflector} {x : Round Addr} {a : Arrival Addr}

/-- The sender's fields come back octet by octet: reading a field and writing it again changes
nothing. -/
theorem Arrival.Full.echo (h : a.Full) (config : Config) (k : UInt32) :
    (a.reflected config k).encode.extract 24 38 = a.datagram.extract 0 14 := by
  have h : 44 ≤ a.datagram.length := h
  obtain ⟨-, -, -, -, -, -, hseq, hsec, hfrac, herr⟩ := (a.reflected config k).extract_encode
  have hlen := (a.reflected config k).length_encode
  calc (a.reflected config k).encode.extract 24 38
    _ = (a.reflected config k).encode.extract 24 28 ++ (a.reflected config k).encode.extract 28 32
          ++ (a.reflected config k).encode.extract 32 36
          ++ (a.reflected config k).encode.extract 36 38 := by
      rw [extract_append_fields _ (by omega) (by omega) (by omega) (by omega) (by omega)]
    _ = be 4 (uint32 (a.datagram.extract 0 4)).toNat
          ++ be 4 (uint32 (a.datagram.extract 4 8)).toNat
          ++ be 4 (uint32 (a.datagram.extract 8 12)).toNat
          ++ be 2 (uint16 (a.datagram.extract 12 14)).toNat := by
      rw [hseq, hsec, hfrac, herr]
      rfl
    _ = a.datagram.extract 0 4 ++ a.datagram.extract 4 8 ++ a.datagram.extract 8 12
          ++ a.datagram.extract 12 14 := by
      rw [be_uint32 (length_extract (by omega)), be_uint32 (length_extract (by omega)),
        be_uint32 (length_extract (by omega)), be_uint16 (length_extract (by omega))]
    _ = a.datagram.extract 0 14 :=
      extract_append_fields _ (by omega) (by omega) (by omega) (by omega) (by omega)

/-! ## One round -/

/-- A datagram that is long enough for a packet is read as one, whatever follows its 44 octets. -/
theorem decode_receive {datagram : Octets} (h : 44 ≤ datagram.length) :
    decodeSenderPacket (receive 1500 datagram).1 = .ok
      { sequenceNumber := uint32 (datagram.extract 0 4)
        timestamp :=
          { seconds := uint32 (datagram.extract 4 8)
            fraction := uint32 (datagram.extract 8 12) }
        errorEstimate := uint16 (datagram.extract 12 14) } := by
  rw [decodeSenderPacket, if_neg (by rw [length_receive]; decide),
    extract_receive (by decide) (by omega), extract_receive (by decide) (by omega),
    extract_receive (by decide) (by omega), extract_receive (by decide) (by omega)]

theorem reflect_full (hvalid : r.config.Valid) (ha : a.Full) :
    r.reflect a.datagram a.rxNow a.now = .ok (a.reflected r.config r.seq) := by
  have ha : 44 ≤ a.datagram.length := ha
  have hread : ¬ (receive 1500 a.datagram).2 < 44 := by
    show ¬ min a.datagram.length 1500 < 44
    omega
  simp only [Reflector.reflect, hvalid.newTimestamp, hvalid.newErrorEstimate, decode_receive ha,
    if_neg hread]
  rfl

theorem reflect_short (hvalid : r.config.Valid) (ha : ¬ a.Full) :
    r.reflect a.datagram a.rxNow a.now =
      .error ("packet too short: got " ++ toString a.datagram.length ++ " bytes, need 44") := by
  have ha : ¬ 44 ≤ a.datagram.length := ha
  have hread : (receive 1500 a.datagram).2 = a.datagram.length := by
    show min a.datagram.length 1500 = a.datagram.length
    omega
  have hlt : a.datagram.length < 44 := by omega
  simp only [Reflector.reflect, hvalid.newTimestamp, hread, if_pos hlt]
  rfl

theorem round_of_ends (hx : x.ends = true) :
    (r.round x).reply = none ∧ (r.round x).returned.isSome = true := by
  cases hdone : x.done with
  | true => simp [Reflector.round, hdone]
  | false =>
    rw [Round.ends, hdone, Bool.false_or] at hx
    cases hread : x.read with
    | ok d => simp [hread] at hx
    | error e => cases e <;> simp_all [Reflector.round]

/-- A round without a datagram, or with one that is too short, changes nothing but the log. -/
theorem round_idle (hvalid : r.config.Valid) (hx : x.ends = false)
    (ha : ∀ a, x.arrival = some a → ¬ a.Full) :
    (r.round x).reflector = r ∧ (r.round x).reply = none ∧ (r.round x).returned = none := by
  obtain ⟨hdone, hread⟩ := Bool.or_eq_false_iff.mp hx
  cases hr : x.read with
  | error e => cases e <;> simp_all [Reflector.round]
  | ok d =>
    obtain ⟨datagram, addr⟩ := d
    have harr : x.arrival = some ⟨datagram, addr, x.rxNow, x.now⟩ := by
      rw [Round.arrival, hr]
    have hshort := reflect_short hvalid (ha _ harr)
    simp only [Reflector.round, hdone, hr, Bool.false_eq_true, if_false, hshort, and_self]

/-- A round with a datagram that is long enough answers it. -/
theorem round_answer (hvalid : r.config.Valid) (hx : x.ends = false) (ha : x.arrival = some a)
    (hfull : a.Full) (hwrite : x.write = none) :
    r.round x =
      { reflector := { r with seq := r.seq + 1 }
        reply := some { addr := a.addr, octets := (a.reflected r.config r.seq).encode } } := by
  obtain ⟨hdone, -⟩ := Bool.or_eq_false_iff.mp hx
  cases hr : x.read with
  | error e => simp [Round.arrival, hr] at ha
  | ok d =>
    obtain ⟨datagram, addr⟩ := d
    rw [Round.arrival, hr] at ha
    obtain rfl := Option.some.inj ha
    have hreflect := reflect_full hvalid hfull
    simp only [Reflector.round, hdone, hr, Bool.false_eq_true, if_false, hreflect, hwrite]

/-! ## One step of a call of `Serve` -/

/-- The call has not returned and its next number is `k`. -/
structure Serving.At (s : Serving Addr) (config : Config) (k : Nat) : Prop where
  reflector : s.reflector = { config, seq := UInt32.ofNat k }
  running : s.returned = none

section

variable {s : Serving Addr} {k : Nat}

theorem Serving.At.step_eq (h : s.At config k) (x : Round Addr) :
    s.step x =
      { reflector := (s.reflector.round x).reflector
        replies := s.replies ++ (s.reflector.round x).reply.toList
        handled := s.handled ++ (s.reflector.round x).handled.toList
        returned := (s.reflector.round x).returned } := by
  rw [Serving.step, h.running]

theorem Serving.At.valid (h : s.At config k) (hvalid : config.Valid) :
    s.reflector.config.Valid := by
  rwa [h.reflector]

theorem Serving.At.ends (h : s.At config k) (hx : x.ends = true) :
    (s.step x).replies = s.replies ∧ (s.step x).returned.isSome = true := by
  obtain ⟨hreply, hreturned⟩ := @round_of_ends _ s.reflector x hx
  rw [h.step_eq]
  refine ⟨?_, hreturned⟩
  show s.replies ++ (s.reflector.round x).reply.toList = s.replies
  rw [hreply, Option.toList_none, List.append_nil]

theorem Serving.At.idle (h : s.At config k) (hvalid : config.Valid) (hx : x.ends = false)
    (ha : ∀ a, x.arrival = some a → ¬ a.Full) :
    (s.step x).replies = s.replies ∧ (s.step x).At config k := by
  obtain ⟨hsame, hreply, hreturned⟩ := round_idle (h.valid hvalid) hx ha
  rw [h.step_eq]
  refine ⟨?_, hsame.trans h.reflector, hreturned⟩
  show s.replies ++ (s.reflector.round x).reply.toList = s.replies
  rw [hreply, Option.toList_none, List.append_nil]

theorem Serving.At.answer (h : s.At config k) (hvalid : config.Valid) (hx : x.ends = false)
    (ha : x.arrival = some a) (hfull : a.Full) (hwrite : x.write = none) :
    (s.step x).replies = s.replies ++ [a.reply config k] ∧ (s.step x).At config (k + 1) := by
  have hround := round_answer (h.valid hvalid) hx ha hfull hwrite
  rw [h.step_eq, hround, h.reflector]
  refine ⟨rfl, ?_, rfl⟩
  show Reflector.mk config (UInt32.ofNat k + 1) = { config, seq := UInt32.ofNat (k + 1) }
  rw [UInt32.ofNat_add]
  rfl

end

/-! ## Whole runs -/

/-- The datagrams that are answered. -/
def answered (rounds : List (Round Addr)) : List (Arrival Addr) :=
  (arrivals rounds).filter (·.Full)

section

variable {rounds : List (Round Addr)}

theorem answered_of_ends (hx : x.ends = true) : answered (x :: rounds) = [] := by
  simp [answered, arrivals, hx]

theorem answered_of_idle (hx : x.ends = false) (ha : ∀ a, x.arrival = some a → ¬ a.Full) :
    answered (x :: rounds) = answered rounds := by
  cases harr : x.arrival with
  | none => simp [answered, arrivals, hx, harr]
  | some a => simp [answered, arrivals, hx, harr, ha a harr]

theorem answered_of_full (hx : x.ends = false) (ha : x.arrival = some a) (hfull : a.Full) :
    answered (x :: rounds) = a :: answered rounds := by
  simp [answered, arrivals, hx, ha, hfull]

end

theorem run_returned {s : Serving Addr} (h : s.returned.isSome = true) :
    ∀ rounds, run Serving.step s rounds = s
  | [] => rfl
  | x :: rounds => by
    have hstep : s.step x = s := by
      obtain ⟨res, hres⟩ := Option.isSome_iff_exists.mp h
      rw [Serving.step, hres]
    rw [run_cons, hstep, run_returned h rounds]

/--
The induction over the rounds. A call of `Serve` whose next number is `k` adds the answers to the
datagrams still to come, numbered from `k` on.
-/
theorem run_replies (hvalid : config.Valid) (rounds : List (Round Addr))
    (hwrite : ∀ x ∈ rounds, x.write = none) {k : Nat} {s : Serving Addr} (h : s.At config k) :
    (run Serving.step s rounds).replies =
      s.replies ++ (answered rounds).mapIdx fun i a => a.reply config (k + i) := by
  induction rounds generalizing k s with
  | nil => exact (List.append_nil s.replies).symm
  | cons x rounds ih =>
    have ih := @ih fun y hy => hwrite y (List.mem_cons_of_mem x hy)
    rw [run_cons]
    cases hx : x.ends with
    | true =>
      -- the loop returns here, and nothing that would come later is read
      obtain ⟨hreplies, hreturned⟩ := h.ends hx
      rw [run_returned hreturned, hreplies, answered_of_ends hx]
      exact (List.append_nil s.replies).symm
    | false =>
      by_cases hfull : ∃ a, x.arrival = some a ∧ a.Full
      · obtain ⟨a, ha, hfull⟩ := hfull
        obtain ⟨hreplies, hnext⟩ := h.answer hvalid hx ha hfull (hwrite x List.mem_cons_self)
        rw [ih hnext, hreplies, answered_of_full hx ha hfull, List.mapIdx_cons, List.append_assoc,
          List.singleton_append]
        simp only [Nat.add_zero, Nat.add_assoc, Nat.add_comm 1]
      · have hidle : ∀ a, x.arrival = some a → ¬ a.Full := fun a ha h => hfull ⟨a, ha, h⟩
        obtain ⟨hreplies, hnext⟩ := h.idle hvalid hx hidle
        rw [ih hnext, hreplies, answered_of_idle hx hidle]

/--
**The reflector's stream law.**

With the NTP clock format, a scale of at most 63 and writes that succeed, `Serve` answers the
datagrams of at least 44 octets that it receives, once each, in the order of arrival and to where
they came from, and no others. The `k`-th answer has 44 octets and the number `k mod 2^32`; it
repeats the first 14 octets of its datagram and has zeros where the format wants them. It is a
function of `k`, of the datagram it answers and of the clock readings of its own round.
-/
theorem serve_replies (config : Config) (hvalid : config.Valid) (rounds : List (Round Addr))
    (hwrite : ∀ x ∈ rounds, x.write = none) :
    (serve (newReflector config) rounds).replies =
        (answered rounds).mapIdx (fun k a => a.reply config k) ∧
      ∀ (k : Nat) (a : Arrival Addr), a.Full →
        (a.reply config k).addr = a.addr ∧
        (a.reply config k).octets.length = 44 ∧
        (uint32 ((a.reply config k).octets.extract 0 4)).toNat = k % 2 ^ 32 ∧
        (a.reply config k).octets.extract 24 38 = a.datagram.extract 0 14 ∧
        (a.reply config k).octets.extract 14 16 = [0, 0] ∧
        (a.reply config k).octets.extract 38 40 = [0, 0] ∧
        (a.reply config k).octets.extract 41 44 = [0, 0, 0] := by
  constructor
  · have hstart : (Serving.mk (newReflector config) [] [] none : Serving Addr).At config 0 :=
      ⟨rfl, rfl⟩
    have hrun := run_replies hvalid rounds hwrite hstart
    simp only [Nat.zero_add, List.nil_append] at hrun
    exact hrun
  · intro k a ha
    have hecho := ha.echo config (UInt32.ofNat k)
    have hoctets : (a.reply config k).octets = (a.reflected config (UInt32.ofNat k)).encode := rfl
    have hnumber : (a.reflected config (UInt32.ofNat k)).sequenceNumber = UInt32.ofNat k := rfl
    rw [hoctets]
    generalize a.reflected config (UInt32.ofNat k) = p at hecho hnumber
    refine ⟨rfl, p.length_encode, ?_, hecho, p.extract_encode_mbz⟩
    rw [p.extract_encode.1, uint32_be, hnumber]
    exact UInt32.toNat_ofNat'

/-- Three datagrams from two senders: one is too short, one is a packet, one is longer. -/
def threeDatagrams : List (Round Nat) :=
  [{ done := false, read := .ok (List.replicate 20 7, 1), rxNow := 0, now := 0, write := none },
   { done := false, read := .ok (List.replicate 44 7, 2), rxNow := 1, now := 2, write := none },
   { done := false, read := .ok (List.replicate 60 9, 1), rxNow := 3, now := 4, write := none }]

theorem threeDatagrams_replies :
    (serve (newReflector stampConfig) threeDatagrams).replies =
        (answered threeDatagrams).mapIdx (fun k a => a.reply stampConfig k) ∧
      (answered threeDatagrams).map Arrival.addr = [2, 1] :=
  ⟨(serve_replies stampConfig (by decide) threeDatagrams (by decide)).1, by decide⟩

end Cepheus.Stamp
