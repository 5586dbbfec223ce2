import Mathlib.Algebra.Order.Field.Basic
import Mathlib.Tactic.Linarith

/-!
# Leaks

A level from which something drains, and which does not fall below zero.

Because of the zero, a leak cannot be undone: `leak x a` forgets how far `x - a` was below it. Two
leaks one after the other are one (`leak_leak`), but to fill up again what has drained gives back
the level of before only if it had not run empty (`leak_unleak_le_iff`).
-/

namespace Cepheus.Infra

variable {K : Type*} [Field K] [LinearOrder K] [IsStrictOrderedRing K]

/-- What is left of the level `x` once `a` has drained from it. -/
def leak (x a : K) : K := max 0 (x - a)

omit [IsStrictOrderedRing K] in
theorem leak_nonneg (x a : K) : 0 ≤ leak x a := le_max_left _ _

theorem leak_of_le {x a : K} (h : a ≤ x) : leak x a = x - a := max_eq_right (by linarith)

theorem leak_of_ge {x a : K} (h : x ≤ a) : leak x a = 0 := max_eq_left (by linarith)

/-- **Two leaks are one.** -/
theorem leak_leak (x a : K) {b : K} (hb : 0 ≤ b) : leak (leak x a) b = leak x (a + b) := by
  rcases le_total a x with h | h
  · rw [leak_of_le h, leak, leak, sub_sub]
  · rw [leak_of_ge h, leak_of_ge hb, leak_of_ge (by linarith)]

/-- Filling up is not cut off. -/
theorem leak_leak_neg (x b : K) {u : K} (hu : 0 ≤ u) : leak (leak x b) (-u) = leak x b + u := by
  rw [leak_of_le (by linarith [leak_nonneg x b]), sub_neg_eq_add]

section

variable {x a b u : K} (hab : a ≤ b) (hbu : b ≤ a + u)

include hab hbu

/-- A level that has lost `b` and been given back `u` is at least what the loss of `a` leaves. -/
theorem leak_le_unleak : leak x a ≤ leak (leak x b) (-u) := by
  rw [leak_leak_neg x b (by linarith)]
  refine max_le (by linarith [leak_nonneg x b]) ?_
  have hle : x - b ≤ leak x b := le_max_right _ _
  linarith

/-- It is not more exactly if nothing has been given back, or the level had not run empty and has
been given back what was lost beyond `a`. -/
theorem leak_unleak_le_iff : leak (leak x b) (-u) ≤ leak x a ↔ u = 0 ∨ b ≤ x ∧ b = a + u := by
  have hu : 0 ≤ u := by linarith
  rw [leak_leak_neg x b hu]
  constructor
  · intro h
    rcases le_or_gt b x with hbx | hxb
    · rw [leak_of_le hbx, leak_of_le (hab.trans hbx)] at h
      exact .inr ⟨hbx, by linarith⟩
    · rw [leak_of_ge hxb.le, zero_add] at h
      refine .inl (le_antisymm ?_ hu)
      rcases le_total a x with hax | hxa
      · rw [leak_of_le hax] at h
        linarith
      · rwa [leak_of_ge hxa] at h
  · rintro (rfl | ⟨hbx, rfl⟩)
    · obtain rfl : a = b := by linarith
      rw [add_zero]
    · rw [leak_of_le hbx, leak_of_le (by linarith)]
      linarith

end

end Cepheus.Infra
