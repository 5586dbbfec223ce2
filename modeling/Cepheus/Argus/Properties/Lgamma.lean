import Mathlib.Analysis.SpecialFunctions.Gamma.Basic
import Cepheus.Argus.Properties.BetaBinomial

/-!
# The tail as it is written

`betaBinomialUpperTail` adds up exponentials of sums of `math.Lgamma`, over the reals here. Their
values are the quotients of rising factorials of which `Argus.betaBinomialUpperTail` is the sum
(`betaBinomialUpperTail_eq_lgamma`).
-/

namespace Cepheus.Argus

open Infra.BetaBinomial

namespace Lgamma

/-- `math.Lgamma`, without the sign. -/
noncomputable def lgamma (x : ℝ) : ℝ := Real.log |Real.Gamma x|

noncomputable def logBeta (a b : ℝ) : ℝ := lgamma a + lgamma b - lgamma (a + b)

noncomputable def logChoose (n k : Int) : ℝ :=
  lgamma ((n + 1 : Int) : ℝ) - lgamma ((k + 1 : Int) : ℝ) - lgamma ((n - k : Int) + 1)

/-- The term of the loop at `i`. -/
noncomputable def logPmf (n : Int) (a b : ℝ) (i : Int) : ℝ :=
  logChoose n i + logBeta (i + a) (n - i + b) - logBeta a b

/-- The loop, with so many rounds to go, from `i` on. -/
noncomputable def tailLoop (n : Int) (a b : ℝ) : ℕ → Int → ℝ → ℝ
  | 0, _, tail => tail
  | rounds + 1, i, tail => tailLoop n a b rounds (i + 1) (tail + Real.exp (logPmf n a b i))

/-- `betaBinomialUpperTail`. -/
noncomputable def betaBinomialUpperTail (k n : Int) (a b : ℝ) : ℝ :=
  if k ≤ 0 then 1
  else if n < k then 0
  else
    let tail := tailLoop n a b (n + 1 - k).toNat k 0
    if 1 < tail then 1 else tail

/-! ## The terms -/

theorem exp_lgamma {x : ℝ} (hx : 0 < x) : Real.exp (lgamma x) = Real.Gamma x := by
  have hpos := Real.Gamma_pos_of_pos hx
  rw [lgamma, abs_of_pos hpos, Real.exp_log hpos]

/-- The gamma function over a rising factorial. -/
theorem Gamma_add_nat {a : ℝ} (ha : 0 < a) (n : ℕ) :
    Real.Gamma (n + a) = rising a n * Real.Gamma a := by
  induction n with
  | zero => simp [rising]
  | succ n ih =>
    have hne : (n : ℝ) + a ≠ 0 := by positivity
    rw [show ((n + 1 : ℕ) : ℝ) + a = (n + a) + 1 by push_cast; ring, Real.Gamma_add_one hne, ih,
      rising]
    ring

theorem exp_logBeta {a b : ℝ} (ha : 0 < a) (hb : 0 < b) :
    Real.exp (logBeta a b) = Real.Gamma a * Real.Gamma b / Real.Gamma (a + b) := by
  rw [logBeta, Real.exp_sub, Real.exp_add, exp_lgamma ha, exp_lgamma hb,
    exp_lgamma (add_pos ha hb)]

theorem exp_logChoose {n i : ℕ} (hi : i ≤ n) : Real.exp (logChoose n i) = n.choose i := by
  have hfact : ∀ m : ℕ, Real.exp (lgamma ((m : ℝ) + 1)) = m.factorial := fun m => by
    rw [exp_lgamma (by positivity), Real.Gamma_nat_eq_factorial]
  have hsub : ((n - i : Int) : ℝ) = ((n - i : ℕ) : ℝ) := by
    rw [Nat.cast_sub hi]
    push_cast
    ring
  rw [logChoose, Real.exp_sub, Real.exp_sub, hsub]
  push_cast
  rw [hfact, hfact, hfact, Nat.cast_choose ℝ hi, div_div]

/-- **The exponential of the term is the probability.** -/
theorem exp_logPmf {n i : ℕ} {a b : ℝ} (ha : 0 < a) (hb : 0 < b) (hi : i ≤ n) :
    Real.exp (logPmf n a b i) = pmf n a b i := by
  have hib : ((n : Int) : ℝ) - ((i : Int) : ℝ) + b = ((n - i : ℕ) : ℝ) + b := by
    rw [Nat.cast_sub hi]
    push_cast
    ring
  have hsum : ((i : Int) : ℝ) + a + (((n - i : ℕ) : ℝ) + b) = (n : ℝ) + (a + b) := by
    rw [Nat.cast_sub hi]
    push_cast
    ring
  have hΓa := (Real.Gamma_pos_of_pos ha).ne'
  have hΓb := (Real.Gamma_pos_of_pos hb).ne'
  have hΓab := (Real.Gamma_pos_of_pos (add_pos ha hb)).ne'
  have hrise := (rising_pos (n := n) (add_pos ha hb)).ne'
  rw [logPmf, Real.exp_sub, Real.exp_add, exp_logChoose hi, hib,
    exp_logBeta (by positivity) (by positivity), exp_logBeta ha hb, hsum, Int.cast_natCast,
    Gamma_add_nat ha, Gamma_add_nat hb, Gamma_add_nat (add_pos ha hb), pmf]
  field_simp

/-! ## The sum -/

theorem tailLoop_eq {n : ℕ} {a b : ℝ} (ha : 0 < a) (hb : 0 < b) :
    ∀ (rounds i : ℕ) (tail : ℝ), i + rounds ≤ n + 1 →
      tailLoop n a b rounds i tail = Argus.tailLoop n a b rounds i tail
  | 0, _, _, _ => rfl
  | rounds + 1, i, tail, h => by
    rw [tailLoop, Argus.tailLoop, exp_logPmf ha hb (by omega)]
    exact_mod_cast tailLoop_eq ha hb rounds (i + 1) _ (by omega)

/-- **What the code writes is the tail.** -/
theorem betaBinomialUpperTail_eq_lgamma {a b : ℝ} (ha : 0 < a) (hb : 0 < b) (k n : Int) :
    betaBinomialUpperTail k n a b = Argus.betaBinomialUpperTail k n a b := by
  unfold betaBinomialUpperTail Argus.betaBinomialUpperTail
  split
  · rfl
  · split
    · rfl
    · have hk : ((k.toNat : ℕ) : Int) = k := by omega
      have hn : ((n.toNat : ℕ) : Int) = n := by omega
      have hloop := tailLoop_eq ha hb (n + 1 - k).toNat k.toNat 0
        (by omega : k.toNat + (n + 1 - k).toNat ≤ n.toNat + 1)
      rw [hk, hn] at hloop
      rw [hloop]

end Lgamma

end Cepheus.Argus
