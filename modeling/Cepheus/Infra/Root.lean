import Mathlib.Algebra.Order.Field.Rat
import Mathlib.Tactic.Positivity

/-!
# Square roots

`math.Sqrt`, read as a function on the rationals. A root is rounded to one of them, and what is used
of it here is that it is positive where its argument is.
-/

namespace Cepheus.Infra

structure Root where
  sqrt : ℚ → ℚ
  sqrt_pos : ∀ {x}, 0 < x → 0 < sqrt x

/-- The root of `p / q = pq / q²`, with the root of `pq` rounded down. Squares have exact roots. -/
def Root.floor : Root where
  sqrt x := (Nat.sqrt (x.num.toNat * x.den) : ℚ) / x.den
  sqrt_pos := by
    intro x hx
    have hnum : 0 < x.num.toNat := by simpa using Rat.num_pos.mpr hx
    have hsqrt : 0 < Nat.sqrt (x.num.toNat * x.den) :=
      Nat.sqrt_pos.mpr (Nat.mul_pos hnum x.den_pos)
    have hden := x.den_pos
    positivity

end Cepheus.Infra
