import Mathlib.Data.List.Induction

/-!
# Redelivery

A queue that delivers at least once may deliver again what it has delivered before. A fold over the
deliveries does not notice, if what it has seen once it never takes in again.

* `Redelivered` - the same sequence, with repetitions
* `foldl_redelivered` - a fold with a memory of what it has seen ends in the same state
-/

namespace Cepheus.Infra

variable {σ α : Type}

/-- `l'` is the sequence `l` with repetitions of earlier elements put in. -/
inductive Redelivered : List α → List α → Prop
  | nil : Redelivered [] []
  | deliver {l l' : List α} (x : α) (h : Redelivered l l') : Redelivered (l ++ [x]) (l' ++ [x])
  | again {l l' : List α} {x : α} (h : Redelivered l l') (hx : x ∈ l') : Redelivered l (l' ++ [x])

/--
**What is seen once is never taken in again.**

`Seen s x` says that `x` no longer changes the state `s`, and `Inv` is an invariant of the fold.
-/
theorem foldl_redelivered {f : σ → α → σ} {Inv : σ → Prop} {Seen : σ → α → Prop}
    (hinv : ∀ s x, Inv s → Inv (f s x)) (hself : ∀ s x, Inv s → Seen (f s x) x)
    (hmono : ∀ s x y, Seen s x → Seen (f s y) x) (habsorb : ∀ s x, Seen s x → f s x = s)
    {l l' : List α} (h : Redelivered l l') {s : σ} (hs : Inv s) :
    l'.foldl f s = l.foldl f s := by
  -- whatever has been delivered, once or more often, has been seen
  have hseen : ∀ l' : List α, Inv (l'.foldl f s) ∧ ∀ x ∈ l', Seen (l'.foldl f s) x := by
    intro l'
    induction l' using List.reverseRecOn with
    | nil => exact ⟨hs, fun x hx => absurd hx List.not_mem_nil⟩
    | append_singleton l' y ih =>
      rw [List.foldl_append, List.foldl_cons, List.foldl_nil]
      refine ⟨hinv _ _ ih.1, ?_⟩
      intro x hx
      rcases List.mem_append.mp hx with hx | hx
      · exact hmono _ _ _ (ih.2 x hx)
      · obtain rfl : x = y := List.mem_singleton.mp hx
        exact hself _ _ ih.1
  induction h with
  | nil => rfl
  | deliver x _ ih =>
    rw [List.foldl_append, List.foldl_append, ih]
  | again _ hx ih =>
    rw [List.foldl_append, List.foldl_cons, List.foldl_nil, habsorb _ _ ((hseen _).2 _ hx), ih]

end Cepheus.Infra
