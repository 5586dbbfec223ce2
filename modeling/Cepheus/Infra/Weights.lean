import Mathlib.Algebra.BigOperators.Ring.Finset
import Mathlib.Algebra.Order.BigOperators.Ring.Finset
import Mathlib.Algebra.Order.Field.Basic
import Mathlib.Data.List.GetD
import Mathlib.Tactic.Linarith
import Mathlib.Tactic.Ring

/-!
# Exponential weights

A moving average gives the newest sample the weight `α` and takes the share `α` from all the others.
After `n` samples the first one, with which it began, is left with `(1 - α) ^ (n - 1)`.

* `weigh_append` - one more sample
* `weigh_one` - the weights sum to 1
* `weigh_sq_sub` - the second moment around a point, in terms of the moments
* `le_weigh`, `weigh_le` - an average keeps to the bounds of its samples
-/

namespace Cepheus.Infra

open Finset

variable {K : Type*} [Field K]

/-- The weight of the sample at `i` among `n`, counted from 0. -/
def expWeight (α : K) (n i : ℕ) : K :=
  if i = 0 then (1 - α) ^ (n - 1) else α * (1 - α) ^ (n - 1 - i)

/-- The weighted sum of `f` over the samples. -/
def weigh (α : K) (xs : List K) (f : K → K) : K :=
  ∑ i ∈ range xs.length, expWeight α xs.length i * f (xs.getD i 0)

/-- A new sample takes its share from every other. -/
theorem expWeight_succ (α : K) {n i : ℕ} (h : i < n) :
    expWeight α (n + 1) i = (1 - α) * expWeight α n i := by
  unfold expWeight
  obtain ⟨m, rfl⟩ : ∃ m, n = m + 1 := ⟨n - 1, by omega⟩
  simp only [Nat.add_sub_cancel]
  split
  · rw [pow_succ, mul_comm]
  · rw [show m + 1 - i = m - i + 1 by omega, pow_succ]
    ring

theorem expWeight_last (α : K) {n : ℕ} (h : 0 < n) : expWeight α (n + 1) n = α := by
  unfold expWeight
  rw [if_neg (by omega)]
  simp

theorem weigh_singleton (α x : K) (f : K → K) : weigh α [x] f = f x := by
  simp [weigh, expWeight]

/-- **One more sample.** -/
theorem weigh_append (α : K) {xs : List K} (hne : xs ≠ []) (x : K) (f : K → K) :
    weigh α (xs ++ [x]) f = (1 - α) * weigh α xs f + α * f x := by
  have hpos : 0 < xs.length := List.length_pos_iff.mpr hne
  unfold weigh
  rw [List.length_append, List.length_singleton, sum_range_succ, expWeight_last α hpos, mul_sum]
  congr 1
  · refine sum_congr rfl ?_
    intro i hi
    have hi : i < xs.length := mem_range.mp hi
    rw [expWeight_succ α hi, List.getD_append _ _ _ _ hi, mul_assoc]
  · rw [List.getD_append_right _ _ _ _ (le_refl _)]
    simp

theorem weigh_add (α : K) (xs : List K) (f g : K → K) :
    weigh α xs (fun x => f x + g x) = weigh α xs f + weigh α xs g := by
  simp only [weigh, mul_add, sum_add_distrib]

theorem weigh_mul_left (α : K) (xs : List K) (c : K) (f : K → K) :
    weigh α xs (fun x => c * f x) = c * weigh α xs f := by
  simp only [weigh, mul_sum]
  refine sum_congr rfl fun i _ => ?_
  ring

/-- **The weights sum to 1.** -/
theorem weigh_one (α : K) {xs : List K} (hne : xs ≠ []) : weigh α xs (fun _ => 1) = 1 := by
  induction xs using List.reverseRecOn with
  | nil => exact absurd rfl hne
  | append_singleton xs x ih =>
    by_cases h : xs = []
    · subst h
      exact weigh_singleton α x _
    · rw [weigh_append α h, ih h]
      ring

theorem weigh_const (α : K) {xs : List K} (hne : xs ≠ []) (c : K) :
    weigh α xs (fun _ => c) = c := by
  calc weigh α xs (fun _ => c) = weigh α xs (fun _ => c * 1) := by rw [mul_one]
    _ = c := by rw [weigh_mul_left α xs c fun _ => 1, weigh_one α hne, mul_one]

/-- The second moment around `m`. -/
theorem weigh_sq_sub (α : K) {xs : List K} (hne : xs ≠ []) (m : K) :
    weigh α xs (fun x => (x - m) ^ 2) =
      weigh α xs (fun x => x ^ 2) - 2 * m * weigh α xs (fun x => x) + m ^ 2 := by
  calc weigh α xs (fun x => (x - m) ^ 2)
      = weigh α xs (fun x => x ^ 2 + (-(2 * m) * x + m ^ 2)) := by
        congr 1
        funext x
        ring
    _ = weigh α xs (fun x => x ^ 2) + (-(2 * m) * weigh α xs (fun x => x) + m ^ 2) := by
        rw [weigh_add, weigh_add, weigh_mul_left, weigh_const α hne]
    _ = weigh α xs (fun x => x ^ 2) - 2 * m * weigh α xs (fun x => x) + m ^ 2 := by ring

section

variable [LinearOrder K] [IsStrictOrderedRing K] {α : K} (h0 : 0 ≤ α) (h1 : α ≤ 1)

include h0 h1

theorem expWeight_nonneg (n i : ℕ) : 0 ≤ expWeight α n i := by
  have hc : 0 ≤ 1 - α := by linarith
  unfold expWeight
  split
  · exact pow_nonneg hc _
  · exact mul_nonneg h0 (pow_nonneg hc _)

theorem weigh_nonneg {xs : List K} {f : K → K} (hf : ∀ x, 0 ≤ f x) : 0 ≤ weigh α xs f :=
  sum_nonneg fun i _ => mul_nonneg (expWeight_nonneg h0 h1 _ i) (hf _)

theorem weigh_mono {xs : List K} {f g : K → K} (hfg : ∀ x ∈ xs, f x ≤ g x) :
    weigh α xs f ≤ weigh α xs g := by
  refine sum_le_sum fun i hi => mul_le_mul_of_nonneg_left ?_ (expWeight_nonneg h0 h1 _ i)
  have hi : i < xs.length := mem_range.mp hi
  rw [List.getD_eq_getElem _ _ hi]
  exact hfg _ (List.getElem_mem hi)

/-- What bounds every sample from below bounds the average. -/
theorem le_weigh {xs : List K} (hne : xs ≠ []) {m : K} (hm : ∀ x ∈ xs, m ≤ x) :
    m ≤ weigh α xs (fun x => x) :=
  calc m = weigh α xs (fun _ => m) := (weigh_const α hne m).symm
    _ ≤ weigh α xs (fun x => x) := weigh_mono h0 h1 hm

/-- What bounds every sample from above bounds the average. -/
theorem weigh_le {xs : List K} (hne : xs ≠ []) {m : K} (hm : ∀ x ∈ xs, x ≤ m) :
    weigh α xs (fun x => x) ≤ m :=
  calc weigh α xs (fun x => x) ≤ weigh α xs (fun _ => m) := weigh_mono h0 h1 hm
    _ = m := weigh_const α hne m

end

end Cepheus.Infra
