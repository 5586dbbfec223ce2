import Mathlib.Logic.ExistsUnique
import Mathlib.Tactic.Basic

/-!
# Ownership

A relation `Holds : K → E → Prop` between owners and things, and a predicate `Live` on the things.
They fit when the live things are those that are held, and nothing is held twice.

* `Owned.live_iff` - a thing is live if and only if it has exactly one owner
* `Owned.congr`, `Owned.acquire`, `Owned.release` - the changes that keep it so
-/

namespace Cepheus.Infra

/-- Every live thing has one owner, and everything that is owned is live. -/
structure Owned {K E : Type} (Holds : K → E → Prop) (Live : E → Prop) : Prop where
  live : ∀ k e, Holds k e → Live e
  unique : ∀ k k' e, Holds k e → Holds k' e → k = k'
  owned : ∀ e, Live e → ∃ k, Holds k e

namespace Owned

variable {K E : Type} {Holds Holds' : K → E → Prop} {Live Live' : E → Prop} {k : K} {e : E}

theorem live_iff (h : Owned Holds Live) (e : E) : Live e ↔ ∃! k, Holds k e := by
  constructor
  · intro he
    obtain ⟨k, hk⟩ := h.owned e he
    exact ⟨k, hk, fun k' hk' => h.unique k' k e hk' hk⟩
  · rintro ⟨k, hk, -⟩
    exact h.live k e hk

/-- Nothing changes hands. -/
theorem congr (h : Owned Holds Live) (hh : ∀ k e, Holds' k e ↔ Holds k e)
    (hl : ∀ e, Live' e ↔ Live e) : Owned Holds' Live' := by
  refine ⟨?_, ?_, ?_⟩
  · intro k e hk
    exact (hl e).mpr (h.live k e ((hh k e).mp hk))
  · intro k k' e hk hk'
    exact h.unique k k' e ((hh k e).mp hk) ((hh k' e).mp hk')
  · intro e he
    obtain ⟨k, hk⟩ := h.owned e ((hl e).mp he)
    exact ⟨k, (hh k e).mpr hk⟩

/-- `k` acquires something new. -/
theorem acquire (h : Owned Holds Live) (hnew : ¬ Live e)
    (hh : ∀ k' e', Holds' k' e' ↔ Holds k' e' ∨ k' = k ∧ e' = e)
    (hl : ∀ e', Live' e' ↔ Live e' ∨ e' = e) : Owned Holds' Live' := by
  have hne : ∀ k', ¬ Holds k' e := fun k' hk' => hnew (h.live k' e hk')
  refine ⟨?_, ?_, ?_⟩
  · intro k' e' hk'
    rw [hl]
    rcases (hh k' e').mp hk' with hk' | ⟨-, rfl⟩
    · exact .inl (h.live k' e' hk')
    · exact .inr rfl
  · intro k₁ k₂ e' h₁ h₂
    rcases (hh k₁ e').mp h₁ with h₁ | ⟨rfl, rfl⟩ <;> rcases (hh k₂ _).mp h₂ with h₂ | ⟨rfl, he⟩
    · exact h.unique k₁ k₂ e' h₁ h₂
    · exact absurd (he ▸ h₁) (hne k₁)
    · exact absurd h₂ (hne k₂)
    · rfl
  · intro e' he'
    rcases (hl e').mp he' with he' | rfl
    · obtain ⟨k', hk'⟩ := h.owned e' he'
      exact ⟨k', (hh k' e').mpr (.inl hk')⟩
    · exact ⟨k, (hh k e').mpr (.inr ⟨rfl, rfl⟩)⟩

/-- `k` lets go of the one thing it holds, which ceases to be live. -/
theorem release (h : Owned Holds Live) (hk : Holds k e) (hone : ∀ e', Holds k e' → e' = e)
    (hh : ∀ k' e', Holds' k' e' ↔ Holds k' e' ∧ k' ≠ k)
    (hl : ∀ e', Live' e' ↔ Live e' ∧ e' ≠ e) : Owned Holds' Live' := by
  refine ⟨?_, ?_, ?_⟩
  · intro k' e' hk'
    obtain ⟨hk', hne⟩ := (hh k' e').mp hk'
    refine (hl e').mpr ⟨h.live k' e' hk', ?_⟩
    rintro rfl
    exact hne (h.unique k' k e' hk' hk)
  · intro k₁ k₂ e' h₁ h₂
    exact h.unique k₁ k₂ e' ((hh k₁ e').mp h₁).1 ((hh k₂ e').mp h₂).1
  · intro e' he'
    obtain ⟨he', hne⟩ := (hl e').mp he'
    obtain ⟨k', hk'⟩ := h.owned e' he'
    refine ⟨k', (hh k' e').mpr ⟨hk', ?_⟩⟩
    rintro rfl
    exact hne (hone e' hk')

end Owned

end Cepheus.Infra
