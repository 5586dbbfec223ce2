import Mathlib.Algebra.BigOperators.Intervals
import Mathlib.Algebra.BigOperators.Field
import Mathlib.Algebra.BigOperators.NatAntidiagonal
import Mathlib.Algebra.Order.BigOperators.Group.Finset
import Mathlib.Algebra.Order.Field.Basic
import Mathlib.Data.Nat.Choose.Sum
import Mathlib.Tactic.Linarith
import Mathlib.Tactic.Positivity
import Mathlib.Tactic.Ring

/-!
# The beta-binomial distribution

The number of successes in `n` trials whose chance is itself drawn from a beta distribution. Its
probabilities are quotients of rising factorials, so they can be computed with over any field.

* `sum_pmf` - they sum to 1, by Chu and Vandermonde's identity for rising factorials
* `upperTail_eq_sub`, `upperTail_pos`, `upperTail_lt_one`, `upperTail_lt_upperTail` - the upper tail
-/

namespace Cepheus.Infra.BetaBinomial

open Finset

variable {K : Type*} [Field K]

/-- The rising factorial `a (a + 1) ⋯ (a + n - 1)`. -/
def rising (a : K) : ℕ → K
  | 0 => 1
  | n + 1 => rising a n * (a + n)

/-- The probability of `i` successes in `n` trials. -/
def pmf (n : ℕ) (a b : K) (i : ℕ) : K :=
  n.choose i * rising a i * rising b (n - i) / rising (a + b) n

/-- The probability of at least `k` successes. -/
def upperTail (n : ℕ) (a b : K) (k : ℕ) : K := ∑ i ∈ Ico k (n + 1), pmf n a b i

/-- **Chu and Vandermonde's identity** for rising factorials. -/
theorem sum_choose_mul_rising (a b : K) (n : ℕ) :
    ∑ ij ∈ antidiagonal n, (n.choose ij.1 : K) * (rising a ij.1 * rising b ij.2) =
      rising (a + b) n := by
  induction n with
  | zero => simp [rising]
  | succ n ih =>
    rw [sum_antidiagonal_choose_succ_mul fun i j => rising a i * rising b j, rising, ← ih,
      ← sum_add_distrib, sum_mul]
    refine sum_congr rfl ?_
    rintro ⟨i, j⟩ hij
    have hij : i + j = n := mem_antidiagonal.mp hij
    subst hij
    simp only [rising]
    rw [Nat.choose_symm_add]
    push_cast
    ring

/-- **The probabilities sum to 1.** -/
theorem sum_pmf {n : ℕ} {a b : K} (h : rising (a + b) n ≠ 0) :
    ∑ i ∈ range (n + 1), pmf n a b i = 1 := by
  have hsum := sum_choose_mul_rising a b n
  rw [Nat.sum_antidiagonal_eq_sum_range_succ_mk] at hsum
  simp only [pmf]
  rw [← sum_div, div_eq_one_iff_eq h, ← hsum]
  refine sum_congr rfl fun i _ => ?_
  ring

section

variable [LinearOrder K] [IsStrictOrderedRing K] {n : ℕ} {a b : K} (ha : 0 < a) (hb : 0 < b)

theorem rising_pos (ha : 0 < a) : 0 < rising a n := by
  induction n with
  | zero => exact zero_lt_one
  | succ n ih =>
    have : 0 < a + n := by positivity
    exact mul_pos ih this

include ha hb

theorem pmf_pos {i : ℕ} (hi : i ≤ n) : 0 < pmf n a b i := by
  have hc : (0 : K) < n.choose i := Nat.cast_pos.mpr (Nat.choose_pos hi)
  exact div_pos (mul_pos (mul_pos hc (rising_pos ha)) (rising_pos hb)) (rising_pos (add_pos ha hb))

/-- The tail is what is left beside the probabilities below it. -/
theorem upperTail_eq_sub {k : ℕ} (hk : k ≤ n + 1) :
    upperTail n a b k = 1 - ∑ i ∈ range k, pmf n a b i := by
  have hone := sum_pmf (n := n) (rising_pos (add_pos ha hb)).ne'
  rw [← sum_range_add_sum_Ico _ hk] at hone
  exact eq_sub_of_add_eq' hone

theorem upperTail_lt_upperTail {k k' : ℕ} (hk : k < k') (hk' : k' ≤ n + 1) :
    upperTail n a b k' < upperTail n a b k := by
  have hsplit : upperTail n a b k = ∑ i ∈ Ico k k', pmf n a b i + upperTail n a b k' :=
    (sum_Ico_consecutive _ hk.le hk').symm
  have hpos : 0 < ∑ i ∈ Ico k k', pmf n a b i := by
    refine sum_pos (fun i hi => pmf_pos ha hb ?_) (nonempty_Ico.mpr hk)
    have := (mem_Ico.mp hi).2
    omega
  rw [hsplit]
  linarith

theorem upperTail_zero : upperTail n a b 0 = 1 := by
  rw [upperTail_eq_sub ha hb (Nat.zero_le _), range_zero, sum_empty, sub_zero]

omit ha hb [LinearOrder K] [IsStrictOrderedRing K] in
theorem upperTail_succ : upperTail n a b (n + 1) = 0 := by
  rw [upperTail, Ico_self, sum_empty]

theorem upperTail_pos {k : ℕ} (hk : k ≤ n) : 0 < upperTail n a b k := by
  have h := upperTail_lt_upperTail ha hb (Nat.lt_succ_of_le hk) (le_refl _)
  rwa [upperTail_succ] at h

theorem upperTail_lt_one {k : ℕ} (hk : 0 < k) (hk' : k ≤ n + 1) : upperTail n a b k < 1 := by
  have h := upperTail_lt_upperTail ha hb hk hk'
  rwa [upperTail_zero ha hb] at h

end

end Cepheus.Infra.BetaBinomial
