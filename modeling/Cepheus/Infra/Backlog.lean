import Mathlib.Data.List.Basic

/-!
# Backlogs

A consumer folds a log that grows while it works. What it has not folded yet is its backlog: the
log is what is done followed by the backlog, and the state of the consumer is the fold of what is
done. Whoever adds to the log adds to the end of the backlog, and the consumer takes from its front.
-/

namespace Cepheus.Infra

variable {σ α : Type} {f : σ → α → σ} {init s : σ} {log todo : List α}

/-- `s` is the fold of the log up to `todo`, which is still to come. -/
def Backlog (f : σ → α → σ) (init : σ) (log todo : List α) (s : σ) : Prop :=
  ∃ done, log = done ++ todo ∧ s = done.foldl f init

/-- Nothing is folded yet. -/
theorem Backlog.start (f : σ → α → σ) (init : σ) (log : List α) : Backlog f init log log init :=
  ⟨[], rfl, rfl⟩

/-- Something is added to the log. -/
theorem Backlog.push (h : Backlog f init log todo s) (x : α) :
    Backlog f init (log ++ [x]) (todo ++ [x]) s := by
  obtain ⟨done, hlog, hs⟩ := h
  exact ⟨done, by rw [hlog, List.append_assoc], hs⟩

/-- The consumer takes the next element. -/
theorem Backlog.advance {x : α} (h : Backlog f init log (x :: todo) s) :
    Backlog f init log todo (f s x) := by
  obtain ⟨done, hlog, hs⟩ := h
  refine ⟨done ++ [x], ?_, ?_⟩
  · rw [hlog, List.append_assoc, List.singleton_append]
  · rw [hs, List.foldl_append, List.foldl_cons, List.foldl_nil]

/-- A consumer without a backlog has folded the whole log. -/
theorem Backlog.finished (h : Backlog f init log [] s) : s = log.foldl f init := by
  obtain ⟨done, hlog, hs⟩ := h
  rw [hs, hlog, List.append_nil]

end Cepheus.Infra
