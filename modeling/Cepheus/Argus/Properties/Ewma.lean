import Cepheus.Infra.Weights
import Cepheus.Argus.Ewma

/-!
# The moving average in closed form

The incremental update of `Ewma.step` computes a weighted mean and the weighted variance around it,
over all the samples there have been (`ewma_closed_form`).

The variance is followed by way of the second moment: the mean and the second moment are weighted
sums, and a weighted sum takes one more sample by `weigh_append`.
-/

namespace Cepheus.Argus

open Infra

namespace Ewma

variable (e : Ewma)

/-- The values of the samples. -/
abbrev values (samples : List (Time × ℚ)) : List ℚ := samples.map Prod.snd

/-- What the baseline is in terms of all its samples. -/
structure Weighted (samples : List (Time × ℚ)) (state : EwmaState) : Prop where
  n : state.n = samples.length
  mean : state.mean = weigh e.config.alpha (values samples) fun x => x
  moment : state.variance + state.mean ^ 2 = weigh e.config.alpha (values samples) fun x => x ^ 2

variable {e}

theorem Weighted.singleton (sample : Time × ℚ) : e.Weighted [sample] (e.baseline [sample]) where
  n := rfl
  mean := (weigh_singleton e.config.alpha sample.2 fun x => x).symm
  moment := by
    rw [baseline_singleton, zero_add]
    exact (weigh_singleton e.config.alpha sample.2 fun x => x ^ 2).symm

/-- **One step.** -/
theorem Weighted.step {samples : List (Time × ℚ)} {state : EwmaState}
    (h : e.Weighted samples state) (hne : samples ≠ []) (sample : Time × ℚ) :
    e.Weighted (samples ++ [sample]) (e.step state sample.1 sample.2).1 := by
  have hpos : 0 < samples.length := List.length_pos_iff.mpr hne
  have hn : state.n ≠ 0 := by
    rw [h.n]
    omega
  have hvalues : values samples ≠ [] := by simpa [values] using hne
  have happend : values (samples ++ [sample]) = values samples ++ [sample.2] := by simp [values]
  rw [step_of_ne_zero hn]
  refine ⟨?_, ?_, ?_⟩
  · simp [fold, h.n]
  · rw [happend, weigh_append _ hvalues, ← h.mean]
    simp only [fold]
    ring
  · rw [happend, weigh_append _ hvalues, ← h.moment]
    simp only [fold]
    ring

/-- **All steps.** -/
theorem weighted_baseline {samples : List (Time × ℚ)} (hne : samples ≠ []) :
    e.Weighted samples (e.baseline samples) := by
  induction samples using List.reverseRecOn with
  | nil => exact absurd rfl hne
  | append_singleton samples sample ih =>
    by_cases h : samples = []
    · subst h
      exact Weighted.singleton sample
    · rw [baseline_append]
      exact (ih h).step h sample

/-- The variance around the mean. -/
theorem Weighted.variance {samples : List (Time × ℚ)} {state : EwmaState}
    (h : e.Weighted samples state) (hne : samples ≠ []) :
    state.variance = weigh e.config.alpha (values samples) fun x => (x - state.mean) ^ 2 := by
  have hvalues : values samples ≠ [] := by simpa [values] using hne
  rw [weigh_sq_sub _ hvalues, ← h.mean, ← h.moment]
  ring

/--
**The closed form of the baseline.** For samples `x₀, …, xₙ₋₁` the weights are `(1 - α) ^ (n - 1)`
for the first and `α (1 - α) ^ (n - 1 - i)` for the others, and sum to 1. With `0 ≤ α ≤ 1` the
variance is not negative and the mean keeps to the bounds of the samples, so that with a positive
`Epsilon` every deviation is a quotient by a positive number.
-/
theorem ewma_closed_form (e : Ewma) (samples : List (Time × ℚ)) (hne : samples ≠ []) :
    (e.baseline samples).n = samples.length ∧
      (e.baseline samples).mean =
        ∑ i ∈ Finset.range samples.length,
          expWeight e.config.alpha samples.length i * (values samples).getD i 0 ∧
      (e.baseline samples).variance =
        ∑ i ∈ Finset.range samples.length,
          expWeight e.config.alpha samples.length i *
            ((values samples).getD i 0 - (e.baseline samples).mean) ^ 2 ∧
      ∑ i ∈ Finset.range samples.length, expWeight e.config.alpha samples.length i = 1 ∧
      (0 ≤ e.config.alpha → e.config.alpha ≤ 1 →
        0 ≤ (e.baseline samples).variance ∧
          (∀ lo, (∀ x ∈ values samples, lo ≤ x) → lo ≤ (e.baseline samples).mean) ∧
          (∀ hi, (∀ x ∈ values samples, x ≤ hi) → (e.baseline samples).mean ≤ hi) ∧
          (0 < e.config.epsilon →
            0 < e.stddev (e.baseline samples) ∧
              ∀ value, e.z (e.baseline samples) value * e.stddev (e.baseline samples) =
                value - (e.baseline samples).mean)) := by
  have hw : e.Weighted samples (e.baseline samples) := weighted_baseline hne
  have hvalues : values samples ≠ [] := by simpa [values] using hne
  have hlen : (values samples).length = samples.length := List.length_map _
  have hmean := hw.mean
  have hvar := hw.variance hne
  have hone := weigh_one e.config.alpha hvalues
  refine ⟨hw.n, ?_, ?_, ?_, ?_⟩
  · rw [hmean, weigh, hlen]
  · rw [hvar, weigh, hlen]
  · simpa only [weigh, hlen, mul_one] using hone
  · intro h0 h1
    have hnn : 0 ≤ (e.baseline samples).variance := by
      rw [hvar]
      exact weigh_nonneg h0 h1 fun x => sq_nonneg _
    refine ⟨hnn, ?_, ?_, ?_⟩
    · intro lo hlo
      rw [hmean]
      exact le_weigh h0 h1 hvalues hlo
    · intro hi hhi
      rw [hmean]
      exact weigh_le h0 h1 hvalues hhi
    · intro heps
      have hpos := stddev_pos heps hnn
      exact ⟨hpos, fun value => div_mul_cancel₀ _ hpos.ne'⟩

/-- Three round trips of about 20 ms. -/
def roundTrips : List (Time × ℚ) :=
  [(1000 * second, 20000000), (1010 * second, 21000000), (1020 * second, 19000000)]

theorem roundTrips_mean :
    (startEwma.baseline roundTrips).mean =
      ∑ i ∈ Finset.range 3, expWeight (1 / 1000) 3 i * (values roundTrips).getD i 0 :=
  (ewma_closed_form startEwma roundTrips (by simp [roundTrips])).2.1

end Ewma

end Cepheus.Argus
