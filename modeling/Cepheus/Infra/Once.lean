import Mathlib.Data.List.Nodup

/-!
# Folds that use everything at most once

A state is folded from elements of `ι`, one at a time. `Once` says that no element was used twice,
and what is known about those that were: whoever wants to use an element has to show that it is not
one of them, and says what is known about it from then on.
-/

namespace Cepheus.Infra

variable {σ ι : Type}

/-- `s` is what `step` makes of `init` with the elements of the list, in this order. -/
inductive Trace (step : σ → ι → σ → Prop) (init : σ) : List ι → σ → Prop
  | nil : Trace step init [] init
  | snoc {l : List ι} {s s' : σ} {i : ι} (h : Trace step init l s) (hs : step s i s') :
      Trace step init (l ++ [i]) s'

/-- `s` is folded from distinct elements that are all `Used`. -/
def Once (step : σ → ι → σ → Prop) (init : σ) (Used : ι → Prop) (s : σ) : Prop :=
  ∃ l : List ι, l.Nodup ∧ (∀ i ∈ l, Used i) ∧ Trace step init l s

variable {step : σ → ι → σ → Prop} {init s s' : σ} {Used Used' : ι → Prop} {i : ι}

theorem Once.start (step : σ → ι → σ → Prop) (init : σ) (Used : ι → Prop) :
    Once step init Used init :=
  ⟨[], List.nodup_nil, fun _ h => absurd h List.not_mem_nil, .nil⟩

theorem Once.imp (h : Once step init Used s) (himp : ∀ i, Used i → Used' i) :
    Once step init Used' s := by
  obtain ⟨l, hnodup, hused, htrace⟩ := h
  exact ⟨l, hnodup, fun i hi => himp i (hused i hi), htrace⟩

/-- An element that is not used yet is used. -/
theorem Once.use (h : Once step init Used s) (hnew : ¬ Used i) (hs : step s i s')
    (himp : ∀ j, Used j → Used' j) (hi : Used' i) : Once step init Used' s' := by
  obtain ⟨l, hnodup, hused, htrace⟩ := h
  refine ⟨l ++ [i], ?_, ?_, htrace.snoc hs⟩
  · refine List.nodup_append.mpr ⟨hnodup, List.nodup_singleton i, ?_⟩
    rintro a ha b hb rfl
    obtain rfl := List.mem_singleton.mp hb
    exact hnew (hused a ha)
  · intro j hj
    rcases List.mem_append.mp hj with hj | hj
    · exact himp j (hused j hj)
    · obtain rfl := List.mem_singleton.mp hj
      exact hi

end Cepheus.Infra
