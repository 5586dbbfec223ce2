import Mathlib.Data.List.Basic
import Mathlib.Data.List.Nodup

/-!
# Custody

Items with an id are handed over: first an item is in flight, then it lies at one place, until it is
let go. `held k` lists what lies at the place `k`, and `Flying i f` says that `f` is in flight under
the id `i`. No id is at two places, nor twice at one, and every item is one that `Kept` knows.

* `Custody.of_held` - places let go of all they hold
* `Custody.land` - an item in flight arrives
* `Custody.depart` - a new item goes in flight
-/

namespace Cepheus.Infra

variable {K I F : Type}

/-- Every item is kept, and its id is in flight or at one place. -/
structure Custody (Kept : I → F → Prop) (held : K → List (I × F)) (Flying : I → F → Prop) :
    Prop where
  kept : ∀ k i f, (i, f) ∈ held k → Kept i f
  flying : ∀ i f, Flying i f → Kept i f
  apart : ∀ k k' i, i ∈ (held k).map Prod.fst → i ∈ (held k').map Prod.fst → k = k'
  nodup : ∀ k, ((held k).map Prod.fst).Nodup
  landed : ∀ i f k, Flying i f → i ∉ (held k).map Prod.fst

namespace Custody

variable {Kept Kept' : I → F → Prop} {held held' : K → List (I × F)} {Flying Flying' : I → F → Prop}
  {k : K} {i : I} {f : F}

theorem mem_ids {l : List (I × F)} (h : (i, f) ∈ l) : i ∈ l.map Prod.fst :=
  List.mem_map.mpr ⟨(i, f), h, rfl⟩

/-- Some places let go of what they hold. Only the items that are left have to be kept. -/
theorem of_held (h : Custody Kept held Flying) (hheld : ∀ k, held' k = [] ∨ held' k = held k)
    (hkept : ∀ i f, Kept i f → (Flying i f ∨ ∃ k, (i, f) ∈ held' k) → Kept' i f) :
    Custody Kept' held' Flying := by
  have hsub : ∀ k, ∀ x ∈ held' k, x ∈ held k := by
    intro k x hx
    rcases hheld k with hn | he
    · simp [hn] at hx
    · exact he ▸ hx
  have hids : ∀ k, ∀ i ∈ (held' k).map Prod.fst, i ∈ (held k).map Prod.fst := by
    intro k i hi
    obtain ⟨x, hx, rfl⟩ := List.mem_map.mp hi
    exact List.mem_map.mpr ⟨x, hsub k x hx, rfl⟩
  refine ⟨?_, ?_, ?_, ?_, ?_⟩
  · intro k i f hi
    exact hkept i f (h.kept k i f (hsub k _ hi)) (.inr ⟨k, hi⟩)
  · intro i f hi
    exact hkept i f (h.flying i f hi) (.inl hi)
  · intro k k' i hi hi'
    exact h.apart k k' i (hids k i hi) (hids k' i hi')
  · intro k
    rcases hheld k with hn | he
    · simp [hn]
    · rw [he]
      exact h.nodup k
  · intro i f k hi hm
    exact h.landed i f k hi (hids k i hm)

/-- The item `f` arrives at `k`, next to what is held there or instead of it. -/
theorem land (h : Custody Kept held Flying) (hfly : Flying i f) {old : List (I × F)}
    (hold : old = [] ∨ old = held k) (hk : held' k = old ++ [(i, f)])
    (hother : ∀ k', k' ≠ k → held' k' = held k')
    (hflying : ∀ j g, Flying' j g → Flying j g ∧ j ≠ i) : Custody Kept held' Flying' := by
  -- what is at a place now was there before, or is the new item
  have hmem : ∀ k' j g, (j, g) ∈ held' k' → (j, g) ∈ held k' ∨ k' = k ∧ j = i ∧ g = f := by
    intro k' j g hj
    by_cases hkk : k' = k
    · rw [hkk, hk, List.mem_append] at hj
      rcases hj with hj | hj
      · rcases hold with rfl | rfl
        · simp at hj
        · exact .inl (hkk ▸ hj)
      · simp only [List.mem_singleton, Prod.mk.injEq] at hj
        exact .inr ⟨hkk, hj⟩
    · exact .inl (hother k' hkk ▸ hj)
  have hids : ∀ k', ∀ j ∈ (held' k').map Prod.fst,
      j ∈ (held k').map Prod.fst ∨ k' = k ∧ j = i := by
    intro k' j hj
    obtain ⟨⟨j', g⟩, hx, rfl⟩ := List.mem_map.mp hj
    rcases hmem k' j' g hx with hx | ⟨hkk, hji, -⟩
    · exact .inl (mem_ids hx)
    · exact .inr ⟨hkk, hji⟩
  refine ⟨?_, fun j g hj => h.flying j g (hflying j g hj).1, ?_, ?_, ?_⟩
  · intro k' j g hj
    rcases hmem k' j g hj with hj | ⟨-, rfl, rfl⟩
    · exact h.kept k' j g hj
    · exact h.flying j g hfly
  · intro k₁ k₂ j h₁ h₂
    rcases hids k₁ j h₁ with h₁ | ⟨rfl, rfl⟩
    · rcases hids k₂ j h₂ with h₂ | ⟨rfl, rfl⟩
      · exact h.apart k₁ k₂ j h₁ h₂
      · exact absurd h₁ (h.landed j f k₁ hfly)
    · rcases hids k₂ j h₂ with h₂ | ⟨rfl, -⟩
      · exact absurd h₂ (h.landed j f k₂ hfly)
      · rfl
  · intro k'
    by_cases hkk : k' = k
    · have hnew : i ∉ old.map Prod.fst := by
        rcases hold with rfl | rfl
        · simp
        · exact h.landed i f k hfly
      have hnd : (old.map Prod.fst).Nodup := by
        rcases hold with rfl | rfl
        · simp
        · exact h.nodup k
      rw [hkk, hk, List.map_append, List.nodup_append]
      refine ⟨hnd, by simp, ?_⟩
      intro a ha b hb hab
      obtain rfl : b = i := by simpa using hb
      exact hnew (hab ▸ ha)
    · rw [hother k' hkk]
      exact h.nodup k'
  · intro j g k' hj hm
    obtain ⟨hj, hne⟩ := hflying j g hj
    rcases hids k' j hm with hm | ⟨-, hji⟩
    · exact h.landed j g k' hj hm
    · exact hne hji

/-- An item goes in flight under an id that nothing is kept under. -/
theorem depart (h : Custody Kept held Flying) (hnew : ∀ g, ¬ Kept i g)
    (hkept : ∀ j g, Kept j g → Kept' j g)
    (hflying : ∀ j g, Flying' j g → Flying j g ∨ j = i ∧ Kept' j g) :
    Custody Kept' held Flying' := by
  refine ⟨fun k j g hj => hkept j g (h.kept k j g hj), ?_, h.apart, h.nodup, ?_⟩
  · intro j g hj
    rcases hflying j g hj with hj | ⟨-, hj⟩
    · exact hkept j g (h.flying j g hj)
    · exact hj
  · intro j g k hj hm
    rcases hflying j g hj with hj | ⟨rfl, -⟩
    · exact h.landed j g k hj hm
    · obtain ⟨⟨j', g'⟩, hx, rfl⟩ := List.mem_map.mp hm
      exact hnew g' (h.kept k j' g' hx)

end Custody

end Cepheus.Infra
