import Mathlib.Algebra.Order.Floor.Semiring
import Mathlib.Data.List.GetD
import Mathlib.Data.List.Sort
import Mathlib.Tactic.Linarith
import Mathlib.Tactic.Ring

/-!
# Interpolated quantiles

A sequence that is given at the natural numbers, read at the ranks between them too: along the line
between the two neighbours. For a sequence that does not fall, the value at a rank lies between its
neighbours, and it does not fall with the rank.

The sequence of a sorted list is its order statistics, the last one repeated.
-/

namespace Cepheus.Infra

section

variable {K : Type*} [Field K] [LinearOrder K] [FloorSemiring K]

/-- The value at a rank. -/
def interpolate (f : ℕ → K) (r : K) : K :=
  f ⌊r⌋₊ * (1 - (r - ⌊r⌋₊)) + f (⌊r⌋₊ + 1) * (r - ⌊r⌋₊)

/-- The value as the lower neighbour and a part of the way to the upper one. -/
theorem interpolate_eq (f : ℕ → K) (r : K) :
    interpolate f r = f ⌊r⌋₊ + (f (⌊r⌋₊ + 1) - f ⌊r⌋₊) * (r - ⌊r⌋₊) := by
  unfold interpolate
  ring

variable [IsStrictOrderedRing K] {f : ℕ → K} {r s : K}

theorem interpolate_natCast (n : ℕ) : interpolate f n = f n := by
  simp [interpolate]

theorem le_interpolate (hf : Monotone f) (hr : 0 ≤ r) : f ⌊r⌋₊ ≤ interpolate f r := by
  have hstep : 0 ≤ f (⌊r⌋₊ + 1) - f ⌊r⌋₊ := sub_nonneg.mpr (hf (Nat.le_succ _))
  have hpart : 0 ≤ r - ⌊r⌋₊ := sub_nonneg.mpr (Nat.floor_le hr)
  rw [interpolate_eq]
  exact le_add_of_nonneg_right (mul_nonneg hstep hpart)

theorem interpolate_le (hf : Monotone f) (r : K) : interpolate f r ≤ f (⌊r⌋₊ + 1) := by
  have hstep : 0 ≤ f (⌊r⌋₊ + 1) - f ⌊r⌋₊ := sub_nonneg.mpr (hf (Nat.le_succ _))
  have hpart : r - ⌊r⌋₊ ≤ 1 := by linarith [Nat.lt_floor_add_one r]
  rw [interpolate_eq]
  linarith [mul_le_of_le_one_right hstep hpart]

/-- Between two natural numbers the value rises along a line; beyond one, the sequence itself
separates the two values. -/
theorem interpolate_mono (hf : Monotone f) (hr : 0 ≤ r) (h : r ≤ s) :
    interpolate f r ≤ interpolate f s := by
  rcases (Nat.floor_mono h).eq_or_lt with heq | hlt
  · have hstep : 0 ≤ f (⌊s⌋₊ + 1) - f ⌊s⌋₊ := sub_nonneg.mpr (hf (Nat.le_succ _))
    rw [interpolate_eq, interpolate_eq, heq]
    have hpart : r - ⌊s⌋₊ ≤ s - ⌊s⌋₊ := sub_le_sub_right h _
    linarith [mul_le_mul_of_nonneg_left hpart hstep]
  · calc interpolate f r
        ≤ f (⌊r⌋₊ + 1) := interpolate_le hf r
      _ ≤ f ⌊s⌋₊ := hf hlt
      _ ≤ interpolate f s := le_interpolate hf (hr.trans h)

end

/-! ## Order statistics -/

section

variable {α : Type*}

/-- The order statistics of a list that is sorted. -/
def orderStatistic (sorted : List α) (default : α) (i : ℕ) : α :=
  sorted.getD (min i (sorted.length - 1)) default

theorem orderStatistic_of_lt {sorted : List α} (default : α) {i : ℕ} (h : i < sorted.length) :
    sorted[i]? = some (orderStatistic sorted default i) := by
  have hmin : min i (sorted.length - 1) = i := by omega
  rw [orderStatistic, hmin, List.getD_eq_getElem _ _ h, List.getElem?_eq_getElem h]

variable [LinearOrder α]

theorem orderStatistic_mono {sorted : List α} (h : sorted.Pairwise (· ≤ ·)) (default : α) :
    Monotone (orderStatistic sorted default) := by
  intro i j hij
  unfold orderStatistic
  cases hlen : sorted.length with
  | zero =>
    rw [List.length_eq_zero_iff.mp hlen]
    simp
  | succ n =>
    have hi : min i (n + 1 - 1) < sorted.length := by omega
    have hj : min j (n + 1 - 1) < sorted.length := by omega
    rw [List.getD_eq_getElem _ _ hi, List.getD_eq_getElem _ _ hj]
    rcases (by omega : min i (n + 1 - 1) = min j (n + 1 - 1) ∨
      min i (n + 1 - 1) < min j (n + 1 - 1)) with heq | hlt
    · simp only [heq, le_refl]
    · exact List.pairwise_iff_getElem.mp h _ _ hi hj hlt

end

end Cepheus.Infra
