import Mathlib.Tactic.Linarith
import Mathlib.Tactic.Ring
import Cepheus.Argus.Ewma
import Cepheus.Processor.Build

/-!
# Latency during an outage

A measurement in which no probe was answered has no delays. `computeStats` turns this into delays of
zero, `buildStamp` and `buildPing` publish them like any others, and the moving averages of argus
take them for samples: an outage pulls the latency baselines towards zero, and is reported as a
change of latency too.

What a sample of zero does to a baseline is `Ewma.spares_iff`; that a measurement without answers
is such a sample, for each of the latency metrics, is `TotalLoss.extract`.
-/

namespace Cepheus.Argus

open Infra

/-! ## A sample of zero -/

namespace Ewma

variable (e : Ewma)

/-- A latency of zero is nothing new to the baseline, and too close to it to be reported. -/
structure Indifferent (state : EwmaState) : Prop where
  still : state.n = 0 ∨ e.config.alpha ≠ 0 → state.mean = 0 ∧ state.variance = 0
  quiet : state.n = 0 ∨ state.n < e.config.warmup ∨ |e.z state 0| < e.config.threshold

/-- The sample is not reported, and leaves the mean and the variance as they are. -/
def Spares (state : EwmaState) (ts : Time) (value : ℚ) : Prop :=
  ((e.step state ts value).1.mean = state.mean ∧
    (e.step state ts value).1.variance = state.variance) ∧
  (e.step state ts value).2 = none

variable {e} {state : EwmaState}

theorem spares_first (h : state.n = 0) (ts : Time) :
    e.Spares state ts 0 ↔ e.Indifferent state := by
  simp only [Spares, step, h, if_true, and_true]
  constructor
  · rintro ⟨hmean, hvar⟩
    exact ⟨fun _ => ⟨hmean.symm, hvar.symm⟩, .inl h⟩
  · intro hi
    obtain ⟨hmean, hvar⟩ := hi.still (.inl h)
    exact ⟨hmean.symm, hvar.symm⟩

/-- The baseline with a sample of zero is the same one only if it is at zero, or if the sample has
no weight. -/
theorem fold_zero_iff (ts : Time) :
    ((e.fold state ts 0).mean = state.mean ∧ (e.fold state ts 0).variance = state.variance) ↔
      (e.config.alpha ≠ 0 → state.mean = 0 ∧ state.variance = 0) := by
  simp only [fold, zero_sub]
  constructor
  · rintro ⟨hmean, hvar⟩ hα
    have hm : state.mean = 0 := by
      have h0 : e.config.alpha * state.mean = 0 := by linarith
      exact (mul_eq_zero.mp h0).resolve_left hα
    have hv : e.config.alpha * state.variance = 0 := by
      rw [hm] at hvar
      linarith
    exact ⟨hm, (mul_eq_zero.mp hv).resolve_left hα⟩
  · intro h
    by_cases hα : e.config.alpha = 0
    · simp [hα]
    · obtain ⟨hm, hv⟩ := h hα
      simp [hm, hv]

theorem spares_later (h : state.n ≠ 0) (ts : Time) :
    e.Spares state ts 0 ↔ e.Indifferent state := by
  rw [Spares, step_of_ne_zero h, fold_zero_iff]
  have hquiet : (e.step state ts 0).2 = none ↔
      state.n < e.config.warmup ∨ |e.z state 0| < e.config.threshold := by
    simp only [step, h, if_false, ite_eq_right_iff, reduceCtorEq, imp_false, not_and_or, not_le]
  rw [hquiet]
  constructor
  · rintro ⟨hstill, hq⟩
    exact ⟨fun hor => hstill (hor.resolve_left h), .inr hq⟩
  · intro hi
    exact ⟨fun hα => hi.still (.inr hα), hi.quiet.resolve_left h⟩

theorem spares_iff (ts : Time) : e.Spares state ts 0 ↔ e.Indifferent state := by
  by_cases h : state.n = 0
  · exact spares_first h ts
  · exact spares_later h ts

/-- The metric passes through the detector, is not reported, and leaves the mean and the variance of
the baseline as they are. -/
def Unaffected (e : Ewma) (state : Option EwmaState) (ts : Time) (x : Extractor Extracted)
    (data : Metrics) : Prop :=
  ∃ value next, x.extract data = .ok value ∧ e.detector.step state ts value = .ok (next, none) ∧
    next.mean = (state.getD .zero).mean ∧ next.variance = (state.getD .zero).variance

theorem unaffected_of_zero {state : Option EwmaState} {ts : Time} {x : Extractor Extracted}
    {data : Metrics} (hx : x.extract data = .ok (.float 0)) :
    e.Unaffected state ts x data ↔ e.Indifferent (state.getD .zero) := by
  rw [← spares_iff ts]
  constructor
  · rintro ⟨value, next, hvalue, hstep, hmean, hvar⟩
    obtain rfl : Extracted.float 0 = value := by
      rw [hx] at hvalue
      exact Except.ok.inj hvalue
    rw [detector_step_float] at hstep
    obtain ⟨rfl, hnone⟩ := Prod.mk.inj (Except.ok.inj hstep)
    exact ⟨⟨hmean, hvar⟩, Option.map_eq_none_iff.mp hnone⟩
  · rintro ⟨⟨hmean, hvar⟩, hnone⟩
    refine ⟨.float 0, _, hx, ?_, hmean, hvar⟩
    rw [detector_step_float, hnone, Option.map_none]

end Ewma

/-- The extractors of a series that feed a moving average. -/
def latencyExtractors (st : SeriesType) : List (Extractor Extracted) :=
  (createDefaultRegistry.getExtractors st).filter fun x => .ewma ∈ x.detectors

end Cepheus.Argus

namespace Cepheus.Processor

open Infra Argus StampProcessor PingProcessor

variable {U : Type} {parseUUID : String → Option U}

/-! ## Measurements without answers -/

/-- The metrics that are published of a measurement in which no probe was answered. -/
inductive TotalLoss (parseUUID : String → Option U) : SeriesType → Metrics → Prop
  | stamp {serialId agentConfigId data measurement probes metrics}
      (lost : ∀ probe ∈ data.probes, probe.isLost = true)
      (built : buildStamp parseUUID serialId agentConfigId data =
        some (measurement, probes, metrics)) :
      TotalLoss parseUUID .stamp (.stamp metrics)
  | ping {serialId agentConfigId timestamp data measurement probes metrics}
      (lost : data.responses = [])
      (built : buildPing parseUUID serialId agentConfigId timestamp data =
        some (measurement, probes, metrics)) :
      TotalLoss parseUUID .ping (.ping metrics)

theorem replies_eq_nil {data : StampData} (lost : ∀ probe ∈ data.probes, probe.isLost = true) :
    data.replies = [] := by
  rw [StampData.replies, List.filter_eq_nil_iff]
  intro probe hprobe
  simp [lost probe hprobe]

theorem buildStamp_total_loss {serialId agentConfigId data measurement probes metrics}
    (lost : ∀ probe ∈ data.probes, probe.isLost = true)
    (built : buildStamp parseUUID serialId agentConfigId data =
      some (measurement, probes, metrics)) :
    metrics.rttP95Ns = 0 ∧ metrics.fwdP95Ns = 0 ∧ metrics.bwdP95Ns = 0 := by
  simp only [buildStamp, replies_eq_nil lost, List.map_nil, computeStats_nil, Option.bind_eq_bind,
    Option.bind_some, Option.bind_eq_some_iff, Option.some.injEq, Prod.mk.injEq] at built
  obtain ⟨_, _, _, _, rfl⟩ := built
  exact ⟨rfl, rfl, rfl⟩

theorem buildPing_total_loss {serialId agentConfigId timestamp data measurement probes metrics}
    (lost : data.responses = [])
    (built : buildPing parseUUID serialId agentConfigId timestamp data =
      some (measurement, probes, metrics)) :
    metrics.rttP95Ns = 0 := by
  simp only [buildPing, lost, List.map_nil, computeStats_nil, Option.bind_eq_bind,
    Option.bind_some, Option.bind_eq_some_iff, Option.some.injEq, Prod.mk.injEq] at built
  obtain ⟨_, _, _, _, rfl⟩ := built
  rfl

/-- Every latency metric of such a measurement is zero. -/
theorem TotalLoss.extract {st : SeriesType} {data : Metrics} (h : TotalLoss parseUUID st data)
    {x : Extractor Extracted} (hx : x ∈ latencyExtractors st) :
    x.extract data = .ok (.float 0) := by
  cases h with
  | stamp lost built =>
    obtain ⟨hrtt, hfwd, hbwd⟩ := buildStamp_total_loss lost built
    simp only [latencyExtractors, PipelineRegistry.getExtractors, createDefaultRegistry] at hx
    simp at hx
    rcases hx with rfl | rfl | rfl <;> simp [extractStamp, hrtt, hfwd, hbwd]
  | ping lost built =>
    have hrtt := buildPing_total_loss lost built
    simp only [latencyExtractors, PipelineRegistry.getExtractors, createDefaultRegistry] at hx
    simp at hx
    subst hx
    simp [extractPing, hrtt]

/--
**What an outage does to the latency baselines.** A measurement without answers leaves them as they
are, and is not reported, exactly where a sample of zero would do so.
-/
theorem total_loss_unaffected_iff (e : Ewma) {st : SeriesType} {data : Metrics}
    (h : TotalLoss parseUUID st data) (ts : Time) (baseline : String → Option EwmaState) :
    (∀ x ∈ latencyExtractors st, e.Unaffected (baseline x.metricName) ts x data) ↔
      ∀ x ∈ latencyExtractors st, e.Indifferent ((baseline x.metricName).getD .zero) := by
  constructor
  · intro hall x hx
    exact (Ewma.unaffected_of_zero (h.extract hx)).mp (hall x hx)
  · intro hall x hx
    exact (Ewma.unaffected_of_zero (h.extract hx)).mpr (hall x hx)

/-- A probe without an answer. -/
def unanswered (tx : Time) : StampProbeData where
  tx := tx
  isLost := true
  rx := 0
  rtt := 0
  forwardDelay := 0
  backwardDelay := 0

/-- Two probes are sent, and none is answered. -/
def outage : StampData where
  target := "192.0.2.1"
  port := 862
  sent := 2
  received := 0
  loss := 1
  probes := [unanswered (2000 * second), unanswered (2001 * second)]
  timestamp := 2002 * second

/-- Its metrics. -/
def outageMetrics : StampMetrics where
  rttP95Ns := 0
  fwdP95Ns := 0
  bwdP95Ns := 0
  sent := 2
  received := 0

theorem outage_totalLoss : TotalLoss (fun _ => some ()) .stamp (.stamp outageMetrics) := by
  have hlost : ∀ probe ∈ outage.probes, probe.isLost = true := by decide
  have hbuilt : (buildStamp (fun _ => some ()) "agent-1" none outage).map (fun r => r.2.2) =
      some outageMetrics := rfl
  obtain ⟨⟨measurement, probes, metrics⟩, hbuilt, rfl⟩ := Option.map_eq_some_iff.mp hbuilt
  exact .stamp hlost hbuilt

/-- An agent whose first measurement falls into an outage has nothing to lose yet. -/
theorem outage_of_new_agent :
    startEwma.Indifferent .zero ∧
      ∀ x ∈ latencyExtractors .stamp,
        startEwma.Unaffected none (2002 * second) x (.stamp outageMetrics) := by
  have hzero : startEwma.Indifferent .zero := ⟨fun _ => ⟨rfl, rfl⟩, .inl rfl⟩
  exact ⟨hzero, (total_loss_unaffected_iff startEwma outage_totalLoss (2002 * second)
    fun _ => none).mpr fun _ _ => hzero⟩

/-- A baseline of 20 ms, after a hundred measurements. -/
def established : EwmaState where
  mean := 20000000
  variance := 0
  n := 100
  lastSeen := 1990 * second

/-- The outage is reported as a change of latency with the greatest severity, and lowers the mean.
-/
theorem outage_reported_as_latency :
    TotalLoss (fun _ => some ()) .stamp (.stamp outageMetrics) ∧
      startEwma.detector.step (some established) (2002 * second) (.float 0) =
        .ok ({ mean := 19980000, variance := 399600000000, n := 101, lastSeen := 2002 * second },
          some { ts := 2002 * second, value := 0, severity := 12 }) ∧
      ¬ ∀ x ∈ latencyExtractors .stamp,
        startEwma.Unaffected (some established) (2002 * second) x (.stamp outageMetrics) := by
  refine ⟨outage_totalLoss, by decide +kernel, fun hall => ?_⟩
  -- The round trip is the last of the three.
  have hx : { metricName := "rtt_p95_ns", extract := extractStamp fun m => .float m.rttP95Ns
              detectors := [.ewma] } ∈ latencyExtractors .stamp := by
    simp [latencyExtractors, PipelineRegistry.getExtractors, createDefaultRegistry]
  have hi := (Ewma.unaffected_of_zero (outage_totalLoss.extract hx)).mp (hall _ hx)
  have hmean : established.mean = 0 := (hi.still (.inr (by decide +kernel))).1
  exact absurd hmean (by decide)

end Cepheus.Processor
