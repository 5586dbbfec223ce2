import Cepheus.Infra.Traverse
import Cepheus.Stamp.Properties.NtpRoundTrip
import Cepheus.Agent.StampSender

/-!
# The delays that are reported

Three of the four instants of a test packet come back out of timestamps, and each of them has lost
a nanosecond at most. The delays are differences of them: the forward and the backward delay are
off by one nanosecond at most, the round trip by two, and it is the sum of the other two.

This is so as long as no difference is out of the range of a `time.Duration`, about 292 years. The
instants in the timestamps are always near enough to each other, the time of arrival is what the
clock of the agent says (`delays_close`).
-/

namespace Cepheus.Agent

open Infra Stamp StampProcessor

/-! ## A probe -/

/-- The packet was sent at `t1`, received by the reflector at `t2` and sent back at `t3`. -/
structure Stamps (pkt : ReflectorPacket) (t1 t2 t3 : Time) : Prop where
  sent : pkt.senderTimestamp = generateNtpTimestamp t1
  reflected : pkt.receiveTimestamp = generateNtpTimestamp t2
  returned : pkt.timestamp = generateNtpTimestamp t3

theorem Stamps.receivedProbe {pkt : ReflectorPacket} {t1 t2 t3 : Time} (h : Stamps pkt t1 t2 t3)
    (t4 : Time) :
    receivedProbe .ntp pkt t4 = .ok
      { tx := roundTrip t1
        isLost := false
        rx := t4
        rtt := int64 (Time.sub t4 (roundTrip t1) - Time.sub (roundTrip t3) (roundTrip t2))
        forwardDelay := Time.sub (roundTrip t2) (roundTrip t1)
        backwardDelay := Time.sub t4 (roundTrip t3) } := by
  simp only [Agent.receivedProbe, Timestamp.toTime, h.sent, h.reflected, h.returned]
  rfl

/-- The reply has come so near to the instants of its packet that no duration is out of range. -/
structure Near (t1 t2 t3 t4 : Int) : Prop where
  total : |t4 - t1| ≤ 2 ^ 63 - 2
  backward : |t4 - t3| ≤ 2 ^ 63 - 2
  rtt : |t4 - t1 - (t3 - t2)| ≤ 2 ^ 63 - 3

/-- It is enough that a timestamp could tell when. -/
theorem near_of_inEra {t1 t2 t3 t4 : Int} (h1 : InEra t1) (h2 : InEra t2) (h3 : InEra t3)
    (h4 : InEra t4) : Near t1 t2 t3 t4 := by
  have h41 := h4.sub_lt h1
  have h14 := h1.sub_lt h4
  have h43 := h4.sub_lt h3
  have h34 := h3.sub_lt h4
  have h32 := h3.sub_lt h2
  have h23 := h2.sub_lt h3
  refine ⟨abs_le.mpr ?_, abs_le.mpr ?_, abs_le.mpr ?_⟩ <;> constructor <;> omega

/-- The probe says what happened, to the nanosecond or two. -/
structure Close (p : StampProbeData) (t1 t2 t3 t4 : Int) : Prop where
  forward : |p.forwardDelay - (t2 - t1)| ≤ 1
  backward : |p.backwardDelay - (t4 - t3)| ≤ 1
  rtt : |p.rtt - (t4 - t1 - (t3 - t2))| ≤ 2
  sum : p.rtt = p.forwardDelay + p.backwardDelay

/-- Instants that are a nanosecond late at most, and none of the differences out of range. -/
theorem close_of_lag {t1 t2 t3 t4 d1 d2 d3 : Int} (h1 : t1 - 1 ≤ d1 ∧ d1 ≤ t1)
    (h2 : t2 - 1 ≤ d2 ∧ d2 ≤ t2) (h3 : t3 - 1 ≤ d3 ∧ d3 ≤ t3) (h21 : |t2 - t1| ≤ 2 ^ 62)
    (h32 : |t3 - t2| ≤ 2 ^ 62) (hnear : Near t1 t2 t3 t4) :
    Close
      { tx := d1
        isLost := false
        rx := t4
        rtt := int64 (Time.sub t4 d1 - Time.sub d3 d2)
        forwardDelay := Time.sub d2 d1
        backwardDelay := Time.sub t4 d3 } t1 t2 t3 t4 := by
  have htotal := abs_le.mp hnear.total
  have hbackward := abs_le.mp hnear.backward
  have hrtt := abs_le.mp hnear.rtt
  rw [abs_le] at h21 h32
  have e21 : Time.sub d2 d1 = d2 - d1 := Time.sub_of_bounds (by omega) (by omega)
  have e43 : Time.sub t4 d3 = t4 - d3 := Time.sub_of_bounds (by omega) (by omega)
  have e41 : Time.sub t4 d1 = t4 - d1 := Time.sub_of_bounds (by omega) (by omega)
  have e32 : Time.sub d3 d2 = d3 - d2 := Time.sub_of_bounds (by omega) (by omega)
  have ertt : int64 (t4 - d1 - (d3 - d2)) = t4 - d1 - (d3 - d2) :=
    int64_eq_self (by omega) (by omega)
  rw [e21, e43, e41, e32, ertt]
  refine ⟨?_, ?_, ?_, ?_⟩
  · show |d2 - d1 - (t2 - t1)| ≤ (1 : Int)
    rw [abs_le]
    omega
  · show |t4 - d3 - (t4 - t3)| ≤ (1 : Int)
    rw [abs_le]
    omega
  · show |t4 - d1 - (d3 - d2) - (t4 - t1 - (t3 - t2))| ≤ (2 : Int)
    rw [abs_le]
    omega
  · show t4 - d1 - (d3 - d2) = (d2 - d1) + (t4 - d3)
    omega

theorem abs_sub_le_of_inEra {t u : Int} (ht : InEra t) (hu : InEra u) : |t - u| ≤ 2 ^ 62 := by
  have htu := ht.sub_lt hu
  have hut := hu.sub_lt ht
  rw [abs_le]
  omega

theorem close_of_near {pkt : ReflectorPacket} {t1 t2 t3 t4 : Int} (h : Stamps pkt t1 t2 t3)
    (h1 : InEra t1) (h2 : InEra t2) (h3 : InEra t3) (hnear : Near t1 t2 t3 t4) :
    ∃ p, receivedProbe .ntp pkt t4 = .ok p ∧ Close p t1 t2 t3 t4 :=
  ⟨_, h.receivedProbe t4,
    close_of_lag (roundTrip_bounds h1) (roundTrip_bounds h2) (roundTrip_bounds h3)
      (abs_sub_le_of_inEra h2 h1) (abs_sub_le_of_inEra h3 h2) hnear⟩

/--
**Timestamps and delays.**

For the instants whose seconds fit into a timestamp the fraction is computed without overflow, what
comes back is the instant if its nanoseconds are a multiple of `5 ^ 9` and the nanosecond before it
otherwise, and the order of instants is kept. The delays of a probe are off by one, one and two
nanoseconds at most and add up, if the reply has come near enough to the other instants.
-/
theorem delays_close :
    (∀ t : Int, InEra t → FractionExact t) ∧
    (∀ t : Int, InEra t →
      roundTrip t = if 1953125 ∣ Time.nanosecond t then t else t - 1) ∧
    (∀ t u : Int, InEra t → InEra u → t ≤ u → roundTrip t ≤ roundTrip u) ∧
    ∀ (pkt : ReflectorPacket) (t1 t2 t3 t4 : Int), Stamps pkt t1 t2 t3 →
      InEra t1 → InEra t2 → InEra t3 → Near t1 t2 t3 t4 →
      ∃ p, receivedProbe .ntp pkt t4 = .ok p ∧ Close p t1 t2 t3 t4 :=
  ⟨fun t _ => fractionExact t, fun _ => roundTrip_eq, fun _ _ => roundTrip_mono,
    fun _ _ _ _ _ => close_of_near⟩

/-- A reply with the three instants. -/
def reply (t1 t2 t3 : Time) : ReflectorPacket where
  sequenceNumber := 0
  timestamp := generateNtpTimestamp t3
  errorEstimate := 0
  receiveTimestamp := generateNtpTimestamp t2
  senderSequenceNumber := 0
  senderTimestamp := generateNtpTimestamp t1
  senderErrorEstimate := 0
  senderTTL := 64

theorem stamps_reply (t1 t2 t3 : Time) : Stamps (reply t1 t2 t3) t1 t2 t3 := ⟨rfl, rfl, rfl⟩

/-- A packet that is underway for four milliseconds in the year 2026. -/
theorem delays_close_of_milliseconds :
    ∃ p, receivedProbe .ntp
        (reply (Time.ofUnix 1767225600 1) (Time.ofUnix 1767225600 2000001)
          (Time.ofUnix 1767225600 3000001)) (Time.ofUnix 1767225600 5000001) = .ok p ∧
      Close p (Time.ofUnix 1767225600 1) (Time.ofUnix 1767225600 2000001)
        (Time.ofUnix 1767225600 3000001) (Time.ofUnix 1767225600 5000001) :=
  delays_close.2.2.2 _ _ _ _ _ (stamps_reply ..) (by decide) (by decide) (by decide)
    ⟨by decide, by decide, by decide⟩

/-- A packet of 1970 whose reply comes three hundred years later: the backward delay and the round
trip are cut off at the greatest duration. -/
theorem delays_cut_off :
    InEra (Time.ofUnix 0 0) ∧
      ∃ p, receivedProbe .ntp (reply (Time.ofUnix 0 0) (Time.ofUnix 0 0) (Time.ofUnix 0 0))
          (Time.ofUnix 9467107200 0) = .ok p ∧
        p.backwardDelay = maxDuration ∧ p.rtt = maxDuration ∧
        ¬ Close p (Time.ofUnix 0 0) (Time.ofUnix 0 0) (Time.ofUnix 0 0)
          (Time.ofUnix 9467107200 0) :=
  ⟨by decide, _, (stamps_reply ..).receivedProbe _, by decide +kernel, by decide +kernel,
    fun h => absurd h.backward (by decide +kernel)⟩

/-! ## The report -/

/-- The probe of one round of the loop. -/
structure Probed (clockFormat : TimestampClockFormat) (a : Attempt) (sender : Sender)
    (probe : StampProbeData) : Prop where
  lost : probe.isLost = true → probe = lostProbe a.start ∧
    ∃ err, (sender.send a.send).result = .error err
  received : probe.isLost = false → ∃ pkt, (sender.send a.send).result = .ok pkt ∧
    receivedProbe clockFormat pkt a.t4 = .ok probe

theorem isLost_receivedProbe {clockFormat : TimestampClockFormat} {pkt : ReflectorPacket}
    {t4 : Time} {probe : StampProbeData} (h : receivedProbe clockFormat pkt t4 = .ok probe) :
    probe.isLost = false := by
  simp only [receivedProbe, bind_eq_ok_iff, pure, Except.pure, Except.ok.injEq] at h
  obtain ⟨t1, -, t2, -, t3, -, rfl⟩ := h
  rfl

theorem attempt_probed {clockFormat : TimestampClockFormat} {p p' : SendProgress} {a : Attempt}
    (h : p.attempt clockFormat a = .ok p') :
    ∃ probe, Probed clockFormat a p.sender probe ∧ p'.probes = p.probes ++ [probe] ∧
      p'.received = p.received + if probe.isLost then 0 else 1 := by
  unfold SendProgress.attempt at h
  split at h
  · cases h
  · simp only at h
    split at h
    case h_1 err herr =>
      obtain rfl := Except.ok.inj h
      exact ⟨lostProbe a.start, ⟨fun _ => ⟨rfl, err, herr⟩, fun hf => by cases hf⟩, rfl,
        (Int.add_zero _).symm⟩
    case h_2 pkt hpkt =>
      obtain ⟨probe, hprobe, hp'⟩ := (bind_eq_ok_iff ..).mp h
      obtain rfl := Except.ok.inj hp'
      have hlost := isLost_receivedProbe hprobe
      refine ⟨probe, ⟨fun ht => ?_, fun _ => ⟨pkt, hpkt, hprobe⟩⟩, rfl, by rw [hlost]; rfl⟩
      rw [hlost] at ht
      cases ht

/-- How many of the probes are not lost. -/
def receivedCount (probes : List StampProbeData) : Int :=
  (probes.filter fun probe => !probe.isLost).length

theorem receivedCount_cons (probe : StampProbeData) (probes : List StampProbeData) :
    receivedCount (probe :: probes) =
      (if probe.isLost then 0 else 1) + receivedCount probes := by
  cases hlost : probe.isLost with
  | true => simp [receivedCount, hlost]
  | false => simp [receivedCount, hlost, Int.add_comm]

/-- The probes of the loop, one for each round. -/
theorem attempts_probed {clockFormat : TimestampClockFormat} :
    ∀ {as : List Attempt} {p p' : SendProgress}, p.attempts clockFormat as = .ok p' →
      ∃ new, p'.probes = p.probes ++ new ∧
        List.Forall₂ (fun a probe => ∃ sender, Probed clockFormat a sender probe) as new ∧
        p'.received = p.received + receivedCount new
  | [], p, p', h => by
    obtain rfl := Except.ok.inj h
    exact ⟨[], (List.append_nil _).symm, .nil, (Int.add_zero _).symm⟩
  | [a], p, p', h => by
    obtain ⟨probe, hprobe, hprobes, hreceived⟩ := attempt_probed h
    refine ⟨[probe], hprobes, .cons ⟨p.sender, hprobe⟩ .nil, ?_⟩
    rw [hreceived, receivedCount_cons, show receivedCount [] = 0 from rfl, Int.add_zero]
  | a :: b :: rest, p, p', h => by
    obtain ⟨mid, hmid, htail⟩ := (bind_eq_ok_iff ..).mp h
    obtain ⟨probe, hprobe, hprobes, hreceived⟩ := attempt_probed hmid
    split at htail
    · cases htail
    · obtain ⟨new, hnew, hforall, hcount⟩ := attempts_probed htail
      refine ⟨probe :: new, ?_, .cons ⟨p.sender, hprobe⟩ hforall, ?_⟩
      · rw [hnew, hprobes, List.append_assoc, List.singleton_append]
      · rw [hcount, hreceived, receivedCount_cons, Int.add_assoc]

section

variable {config : Config} {params : StampSenderParams} {dial : Option String}
  {startTimestamp : Time} {env : Nat → Attempt} {data : StampData}

/-- **The report of a session**: a probe for each packet, counted as received just if it is not
lost. -/
theorem report_probed
    (h : stampSenderExecute config (some (.stampSender params)) dial startTimestamp env =
      .ok data) :
    List.Forall₂ (fun a probe => ∃ sender, Probed .ntp a sender probe)
        ((List.range params.count).map env) data.probes ∧
      data.sent = params.count ∧
      data.received = receivedCount data.probes := by
  unfold stampSenderExecute newSender at h
  simp only at h
  cases hformat : config.errorEstimate.clockFormat with
  | other text =>
    rw [hformat] at h
    cases h
  | ntp =>
    rw [hformat] at h
    cases dial with
    | some err => cases h
    | none =>
      obtain ⟨done, hdone, hdata⟩ := (bind_eq_ok_iff ..).mp h
      obtain rfl := Except.ok.inj hdata
      obtain ⟨new, hnew, hforall, hcount⟩ := attempts_probed hdone
      obtain rfl : done.probes = new := hnew
      have hlen : done.probes.length = params.count := by
        rw [← hforall.length_eq, List.length_map, List.length_range]
      exact ⟨hforall, congrArg Nat.cast hlen, hcount.trans (Int.zero_add _)⟩

/-- Every probe that is not lost tells how long its packet was underway, if the timestamps of the
reply are those of true instants and the reply has come near enough to them. -/
theorem report_close
    (h : stampSenderExecute config (some (.stampSender params)) dial startTimestamp env =
      .ok data) :
    List.Forall₂ (fun a probe => probe.isLost = false →
        ∃ pkt, receivedProbe .ntp pkt a.t4 = .ok probe ∧
          ∀ t1 t2 t3 : Int, Stamps pkt t1 t2 t3 → InEra t1 → InEra t2 → InEra t3 →
            Near t1 t2 t3 a.t4 → Close probe t1 t2 t3 a.t4)
      ((List.range params.count).map env) data.probes := by
  refine (report_probed h).1.imp ?_
  rintro a probe ⟨sender, hprobed⟩ hlost
  obtain ⟨pkt, -, hpkt⟩ := hprobed.received hlost
  refine ⟨pkt, hpkt, fun t1 t2 t3 hstamps h1 h2 h3 hnear => ?_⟩
  obtain ⟨p, hp, hclose⟩ := close_of_near hstamps h1 h2 h3 hnear
  rw [hpkt] at hp
  rwa [Except.ok.inj hp]

end

end Cepheus.Agent
