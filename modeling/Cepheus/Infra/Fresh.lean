import Mathlib.Data.Finset.Card
import Mathlib.Algebra.Order.Ring.Int
import Mathlib.Data.Nat.Find
import Cepheus.Infra.Loop

/-!
# Names that are not in use

Names are numbered by the integers, no two of them are equal, and a finite set of them is in use.
The search from a number upwards, which tries one name after the other, always finds one: the
names it tries are more than there are in use.
-/

namespace Cepheus.Infra

variable {α : Type} [DecidableEq α]

/-- The search: go on while the name is in use. -/
def search (name : Int → α) (used : Finset α) : Loop Int α where
  round n := if name n ∈ used then .inl (n + 1) else .inr (name n)

variable {name : Int → α} {used : Finset α}

theorem search_next {n : Int} (h : name n ∈ used) :
    (search name used).round n = .inl (n + 1) := if_pos h

theorem search_exit {n : Int} (h : name n ∉ used) :
    (search name used).round n = .inr (name n) := if_neg h

/-- The number `m` is the first one from `n` on whose name is not in use. -/
structure FirstFree (name : Int → α) (used : Finset α) (n m : Int) : Prop where
  le : n ≤ m
  free : name m ∉ used
  least : ∀ i, n ≤ i → i < m → name i ∈ used

/-- The search has found what is first free after as many rounds as it had names to try. -/
theorem run_search_of_firstFree {n : Int} {k : ℕ} (h : FirstFree name used n (n + k)) :
    (search name used).run (k + 1) n = some (name (n + k)) := by
  induction k generalizing n with
  | zero =>
    have hfree : name n ∉ used := by simpa using h.free
    rw [Loop.run_succ_of_exit (search_exit hfree)]
    simp
  | succ k ih =>
    have hshift : n + 1 + k = n + (k + 1 : ℕ) := by omega
    have hrest : FirstFree name used (n + 1) (n + 1 + k) := by
      refine ⟨by omega, ?_, fun i hi hlt => h.least i (by omega) (by omega)⟩
      rw [hshift]
      exact h.free
    rw [Loop.run_succ_of_next (search_next (h.least n le_rfl (by omega))), ih hrest, hshift]

/-- Among one name more than there are in use, one is free. -/
theorem exists_free (hname : Function.Injective name) (used : Finset α) (n : Int) :
    ∃ k : ℕ, k ≤ used.card ∧ name (n + k) ∉ used := by
  by_contra hall
  push Not at hall
  have hinj : Function.Injective fun k : ℕ => name (n + k) := by
    intro i j hij
    have := hname hij
    omega
  have hsub : (Finset.range (used.card + 1)).image (fun k : ℕ => name (n + k)) ⊆ used := by
    intro x hx
    obtain ⟨k, hk, rfl⟩ := Finset.mem_image.mp hx
    exact hall k (Nat.lt_succ_iff.mp (Finset.mem_range.mp hk))
  have hcard := Finset.card_le_card hsub
  rw [Finset.card_image_of_injective _ hinj, Finset.card_range] at hcard
  omega

/-- There is a first one, and it is not far. -/
theorem exists_firstFree (hname : Function.Injective name) (used : Finset α) (n : Int) :
    ∃ k : ℕ, k ≤ used.card ∧ FirstFree name used n (n + k) := by
  have hex : ∃ k : ℕ, name (n + k) ∉ used := by
    obtain ⟨k, -, hk⟩ := exists_free hname used n
    exact ⟨k, hk⟩
  refine ⟨Nat.find hex, ?_, by omega, Nat.find_spec hex, fun i hi hlt => ?_⟩
  · obtain ⟨k, hk, hfree⟩ := exists_free hname used n
    exact (Nat.find_min' hex hfree).trans hk
  · obtain ⟨j, rfl⟩ := Int.le.dest hi
    exact not_not.mp (Nat.find_min hex (by omega))

/-- The search ends within one round more than there are names in use, with the first free one. -/
theorem run_search (hname : Function.Injective name) (used : Finset α) (n : Int) :
    ∃ m, FirstFree name used n m ∧ (search name used).run (used.card + 1) n = some (name m) := by
  obtain ⟨k, hk, hfirst⟩ := exists_firstFree hname used n
  exact ⟨n + k, hfirst, Loop.run_mono (by omega) (run_search_of_firstFree hfirst)⟩

/-- The name that the search finds. -/
def fresh (hname : Function.Injective name) (used : Finset α) (n : Int) : α :=
  ((search name used).run (used.card + 1) n).get (by
    obtain ⟨m, -, hrun⟩ := run_search hname used n
    rw [hrun]
    rfl)

theorem returns_fresh (hname : Function.Injective name) (used : Finset α) (n : Int) :
    (search name used).Returns n (fresh hname used n) :=
  ⟨used.card + 1, (Option.some_get _).symm⟩

/-- One name after the other is tried. -/
theorem fresh_eq (hname : Function.Injective name) (used : Finset α) (n : Int) :
    fresh hname used n = if name n ∈ used then fresh hname used (n + 1) else name n := by
  have hn := returns_fresh hname used n
  split
  case isTrue hmem =>
    exact ((Loop.returns_iff_of_next (search_next hmem)).mp hn).unique
      (returns_fresh hname used (n + 1))
  case isFalse hfree => exact ((Loop.returns_iff_of_exit (search_exit hfree)).mp hn).symm

theorem exists_fresh_eq (hname : Function.Injective name) (used : Finset α) (n : Int) :
    ∃ m, FirstFree name used n m ∧ fresh hname used n = name m := by
  obtain ⟨m, hfirst, hrun⟩ := run_search hname used n
  exact ⟨m, hfirst, (returns_fresh hname used n).unique ⟨_, hrun⟩⟩

theorem fresh_notMem (hname : Function.Injective name) (used : Finset α) (n : Int) :
    fresh hname used n ∉ used := by
  obtain ⟨m, hfirst, heq⟩ := exists_fresh_eq hname used n
  rw [heq]
  exact hfirst.free

end Cepheus.Infra
