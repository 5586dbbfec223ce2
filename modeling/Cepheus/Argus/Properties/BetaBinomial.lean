import Cepheus.Argus.BetaBinomial

/-!
# The tail of the loss detector

`betaBinomialUpperTail` is the upper tail of a distribution: its shortcuts are the values of the
sum, the clamp does nothing, and a batch with more losses has a smaller tail (`upperTail_exact`). So
of two batches of one size the one with more losses is reported if the other is.
-/

namespace Cepheus.Argus

open Infra Infra.BetaBinomial

section

variable {K : Type*} [Field K] [LinearOrder K] [IsStrictOrderedRing K] {n : ℕ} {a b : K}
  (ha : 0 < a) (hb : 0 < b)

include ha hb

/-- **The code computes the upper tail**, shortcuts and clamp included. -/
theorem betaBinomialUpperTail_eq {k : ℕ} (hk : k ≤ n + 1) :
    betaBinomialUpperTail (k : Int) n a b = upperTail n a b k := by
  unfold betaBinomialUpperTail
  rcases Nat.eq_zero_or_pos k with rfl | hpos
  · rw [if_pos (by simp), upperTail_zero ha hb]
  · rw [if_neg (by omega)]
    rcases Nat.lt_or_ge n k with hlt | hle
    · obtain rfl : k = n + 1 := by omega
      rw [if_pos (by push_cast; omega), upperTail_succ]
    · rw [if_neg (by omega)]
      have hrounds : ((n : Int) + 1 - k).toNat = n + 1 - k := by omega
      simp only [Int.toNat_natCast, hrounds, tailLoop_upperTail a b hk]
      exact if_neg (not_lt.mpr (upperTail_lt_one ha hb hpos hk).le)

/-- More losses, a smaller tail. -/
theorem betaBinomialUpperTail_anti {k k' : Int} (hk : 0 ≤ k) (hkk : k ≤ k') (hk' : k' ≤ n) :
    betaBinomialUpperTail k' n a b ≤ betaBinomialUpperTail k n a b := by
  lift k to ℕ using hk
  lift k' to ℕ using by omega
  rw [betaBinomialUpperTail_eq ha hb (by omega), betaBinomialUpperTail_eq ha hb (by omega)]
  rcases eq_or_lt_of_le hkk with heq | hlt
  · rw [Int.ofNat.inj heq]
  · exact (upperTail_lt_upperTail ha hb (by omega) (by omega)).le

end

/-! ## Reports -/

theorem LossSample.lost_nonneg (s : LossSample) : 0 ≤ s.lost := le_max_left _ _

namespace BetaBinomial

variable {b : BetaBinomial} {st : BetaBinomialState} {s s' : LossSample}

theorem step_finding {ts : Time} {f : DetailedFinding BetaBinomialFindingDetails} :
    (b.step st ts s).2 = some f ↔ b.Reports st s ∧ f = b.report st ts s := by
  unfold step
  split
  · next h => simp [h, eq_comm]
  · next h => simp [h]

variable (ha : 0 < st.postAlpha) (hb : 0 < st.postBeta) (hsent : s.sent = s'.sent)
  (hlost : s.lost ≤ s'.lost) (hmost : s'.lost ≤ s.sent)

include ha hb hsent hlost hmost

theorem tail_anti : st.tail s' ≤ st.tail s := by
  have hnn : 0 ≤ s.sent := (s'.lost_nonneg).trans hmost
  obtain ⟨n, hn⟩ := Int.eq_ofNat_of_zero_le hnn
  unfold BetaBinomialState.tail
  rw [← hsent, hn]
  exact betaBinomialUpperTail_anti ha hb s.lost_nonneg hlost (hn ▸ hmost)

/-- **With more losses a batch is reported all the more.** -/
theorem Reports.of_more (h : b.Reports st s) : b.Reports st s' := by
  obtain ⟨hpos, hwarm, hl, htail⟩ := h
  exact ⟨hsent ▸ hpos, hwarm, hl.trans_le hlost,
    (tail_anti ha hb hsent hlost hmost).trans htail⟩

end BetaBinomial

/--
**The tail is exact.** Over `n` trials with `a, b > 0` the probabilities sum to 1. For `1 ≤ k ≤ n`
the loop computes what is left beside those below `k`, a number between 0 and 1 that the clamp does
not change; for `k = 0` and `k = n + 1` it would compute what the shortcuts return; and the tail is
strictly decreasing. So with the same baseline and the same number of probes, a batch that loses
more than one that is reported is reported too, with a tail that is no larger.
-/
theorem upperTail_exact {K : Type*} [Field K] [LinearOrder K] [IsStrictOrderedRing K] (n : ℕ)
    (a b : K) (ha : 0 < a) (hb : 0 < b) :
    ∑ i ∈ Finset.range (n + 1), pmf n a b i = 1 ∧
      (∀ k : ℕ, 1 ≤ k → k ≤ n →
        tailLoop n a b (n + 1 - k) k 0 = 1 - ∑ i ∈ Finset.range k, pmf n a b i ∧
          0 < tailLoop n a b (n + 1 - k) k 0 ∧ tailLoop n a b (n + 1 - k) k 0 < 1 ∧
          betaBinomialUpperTail (k : Int) n a b = tailLoop n a b (n + 1 - k) k 0) ∧
      (tailLoop n a b (n + 1) 0 0 = 1 ∧ betaBinomialUpperTail 0 n a b = 1) ∧
      (tailLoop n a b 0 (n + 1) 0 = 0 ∧ betaBinomialUpperTail (n + 1) n a b = 0) ∧
      (∀ k k' : ℕ, k < k' → k' ≤ n + 1 →
        betaBinomialUpperTail (k' : Int) n a b < betaBinomialUpperTail (k : Int) n a b) ∧
      ∀ (d : BetaBinomial) (st : BetaBinomialState) (s s' : LossSample) (ts ts' : Time),
        0 < st.postAlpha → 0 < st.postBeta → s.sent = s'.sent → s.lost ≤ s'.lost →
        s'.lost ≤ s.sent → ∀ f, (d.step st ts s).2 = some f →
          ∃ f', (d.step st ts' s').2 = some f' ∧ f'.details.tail ≤ f.details.tail := by
  refine ⟨sum_pmf (rising_pos (add_pos ha hb)).ne', ?_, ?_, ?_, ?_, ?_⟩
  · intro k hk hkn
    rw [tailLoop_upperTail a b (by omega), betaBinomialUpperTail_eq ha hb (by omega)]
    exact ⟨upperTail_eq_sub ha hb (by omega), upperTail_pos ha hb hkn,
      upperTail_lt_one ha hb hk (by omega), rfl⟩
  · exact ⟨(tailLoop_upperTail a b (Nat.zero_le _)).trans (upperTail_zero ha hb),
      if_pos (le_refl _)⟩
  · refine ⟨rfl, ?_⟩
    have h := betaBinomialUpperTail_eq ha hb (le_refl (n + 1))
    rwa [upperTail_succ] at h
  · intro k k' hk hk'
    rw [betaBinomialUpperTail_eq ha hb hk', betaBinomialUpperTail_eq ha hb (by omega)]
    exact upperTail_lt_upperTail ha hb hk hk'
  · intro d st s s' ts ts' hα hβ hsent hlost hmost f hf
    obtain ⟨hrep, rfl⟩ := BetaBinomial.step_finding.mp hf
    have hrep' := hrep.of_more hα hβ hsent hlost hmost
    exact ⟨_, BetaBinomial.step_finding.mpr ⟨hrep', rfl⟩,
      BetaBinomial.tail_anti hα hβ hsent hlost hmost⟩

/-- Four probes, and a chance of which nothing is known yet. -/
theorem upperTail_of_four :
    betaBinomialUpperTail 2 4 (1 / 2 : ℚ) (1 / 2) = tailLoop 4 (1 / 2) (1 / 2) 3 2 0 ∧
      betaBinomialUpperTail 3 4 (1 / 2 : ℚ) (1 / 2) < betaBinomialUpperTail 2 4 (1 / 2) (1 / 2) :=
  have h := upperTail_exact 4 (1 / 2 : ℚ) (1 / 2) (by norm_num) (by norm_num)
  ⟨(h.2.1 2 (by norm_num) (by norm_num)).2.2.2, h.2.2.2.2.1 2 3 (by norm_num) (by norm_num)⟩

end Cepheus.Argus
