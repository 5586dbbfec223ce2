import Mathlib.Order.Basic

/-!
# Loops

A loop is one round: from a state it goes on with another state or leaves with a result. Nothing
says that it ever leaves, so a loop is run for a number of rounds and returns if some number is
enough.

* `run` - the result within a number of rounds
* `Returns`, `Halts` - some number of rounds is enough
* `returns_iff_of_next`, `returns_iff_of_exit` - one round
* `not_halts_of_forever` - a loop that stays where no round leaves never returns
-/

namespace Cepheus.Infra

structure Loop (σ ρ : Type) where
  /-- One round: the next state, or the result. -/
  round : σ → σ ⊕ ρ

namespace Loop

variable {σ ρ : Type} (l : Loop σ ρ)

/-- The result of the loop from a state, if it leaves within `n` rounds. -/
def run : ℕ → σ → Option ρ
  | 0, _ => none
  | n + 1, s =>
    match l.round s with
    | .inl next => run n next
    | .inr result => some result

/-- The loop leaves with `r`, however many rounds it takes. -/
def Returns (s : σ) (r : ρ) : Prop := ∃ n, l.run n s = some r

/-- The loop leaves. -/
def Halts (s : σ) : Prop := ∃ r, l.Returns s r

variable {l}

/-! ## One round -/

theorem run_succ_of_next {s next : σ} (h : l.round s = .inl next) (n : ℕ) :
    l.run (n + 1) s = l.run n next := by
  rw [run, h]

theorem run_succ_of_exit {s : σ} {r : ρ} (h : l.round s = .inr r) (n : ℕ) :
    l.run (n + 1) s = some r := by
  rw [run, h]

/-- No loop leaves before its first round. -/
theorem returns_iff_run_succ {s : σ} {r : ρ} : l.Returns s r ↔ ∃ n, l.run (n + 1) s = some r := by
  constructor
  · rintro ⟨n, hn⟩
    cases n with
    | zero => exact absurd hn (Option.some_ne_none r).symm
    | succ n => exact ⟨n, hn⟩
  · rintro ⟨n, hn⟩
    exact ⟨n + 1, hn⟩

theorem returns_iff_of_next {s next : σ} (h : l.round s = .inl next) {r : ρ} :
    l.Returns s r ↔ l.Returns next r := by
  rw [returns_iff_run_succ]
  simp only [run_succ_of_next h]
  rfl

theorem returns_iff_of_exit {s : σ} {r : ρ} (h : l.round s = .inr r) {r' : ρ} :
    l.Returns s r' ↔ r = r' := by
  rw [returns_iff_run_succ]
  simp only [run_succ_of_exit h, Option.some.injEq, exists_const]

/-! ## Many rounds -/

/-- More rounds do not change the result. -/
theorem run_mono {r : ρ} {n m : ℕ} (hnm : n ≤ m) {s : σ} (h : l.run n s = some r) :
    l.run m s = some r := by
  induction n generalizing m s with
  | zero => exact absurd h (Option.some_ne_none r).symm
  | succ n ih =>
    obtain ⟨m, rfl⟩ : ∃ k, m = k + 1 := ⟨m - 1, by omega⟩
    cases hs : l.round s with
    | inl next =>
      rw [run_succ_of_next hs] at h ⊢
      exact ih (by omega) h
    | inr result =>
      rw [run_succ_of_exit hs] at h ⊢
      exact h

/-- A loop has one result. -/
theorem Returns.unique {s : σ} {r r' : ρ} (h : l.Returns s r) (h' : l.Returns s r') : r = r' := by
  obtain ⟨n, hn⟩ := h
  obtain ⟨n', hn'⟩ := h'
  have hmax := run_mono (Nat.le_max_left n n') hn
  rw [run_mono (Nat.le_max_right n n') hn'] at hmax
  exact (Option.some.inj hmax).symm

/-- A loop that stays among states from which no round leaves goes on for ever. -/
theorem not_halts_of_forever {I : σ → Prop} (hround : ∀ s, I s → ∃ next, l.round s = .inl next ∧
    I next) {s : σ} (hs : I s) : ¬ l.Halts s := by
  rintro ⟨r, n, hn⟩
  induction n generalizing s with
  | zero => exact Option.some_ne_none r hn.symm
  | succ n ih =>
    obtain ⟨next, hnext, hI⟩ := hround s hs
    rw [run_succ_of_next hnext] at hn
    exact ih hI hn

end Loop

end Cepheus.Infra
