import Mathlib.Data.Nat.Basic
import Mathlib.Algebra.Order.Ring.Nat

/-!
# Changing the unit of a fraction

A fraction is counted in parts, `d` or `b` of which make up the whole. `rescale b d` turns a number
of the ones into a number of the others and truncates. If the others are the smaller ones, going
there and back loses one part at most, and nothing if there was nothing to truncate.
-/

namespace Cepheus.Infra

/-- `n` parts of `d`, in parts of `b`. -/
def rescale (b d n : ℕ) : ℕ := n * b / d

variable {b d n : ℕ}

/-- Less than the whole stays less than the whole. -/
theorem rescale_lt (h : n < d) (hb : 0 < b) : rescale b d n < b := by
  rw [rescale, Nat.div_lt_iff_lt_mul (by omega), Nat.mul_comm b d]
  exact Nat.mul_lt_mul_of_pos_right h hb

/-- There and back, to smaller parts and to larger ones again. -/
theorem rescale_rescale (hd : 0 < d) (hdb : d ≤ b) :
    rescale d b (rescale b d n) = if d ∣ n * b then n else n - 1 := by
  have hb : 0 < b := hd.trans_le hdb
  split
  case isTrue hdvd =>
    rw [rescale, rescale, Nat.div_mul_cancel hdvd, Nat.mul_div_cancel _ hb]
  case isFalse hdvd =>
    -- the remainder of the first division is more than nothing and less than a part of `b`
    have hpos : 0 < n * b % d := Nat.pos_of_ne_zero fun h => hdvd (Nat.dvd_of_mod_eq_zero h)
    have hlt : n * b % d < d := Nat.mod_lt _ hd
    have hsplit : n * b / d * d + n * b % d = n * b := Nat.div_add_mod' ..
    have hn : 0 < n := Nat.pos_of_ne_zero fun h => by simp [h] at hpos
    have hpred : (n - 1) * b + b = n * b := by
      rw [← Nat.succ_mul, Nat.succ_eq_add_one, Nat.sub_add_cancel hn]
    show n * b / d * d / b = n - 1
    exact (Nat.div_eq_iff hb).mpr ⟨by omega, by omega⟩

end Cepheus.Infra
