import Mathlib.Data.List.Basic

/-!
# Runs of a step function

A system is a step function `step : σ → α → σ`. The label says what is called and how the
environment answers, so a run is a list of labels and nothing about it is left open.

* `Along` - every step of the run meets a condition in the state it starts from
* `Throughout` - a property holds in every state of the run
* `run_invariant`, `throughout_of_invariant` - the induction over a run, done once
* `run_always`, `throughout_always` - the same where no step is excluded
* `run_part` - a part of a system takes a run of its own
* `throughout_iff_along` - when a condition on single steps is exactly what a property needs
-/

namespace Cepheus.Infra

variable {σ α : Type} (step : σ → α → σ)

/-- The state in which the run `l` from `s` ends. -/
def run (s : σ) (l : List α) : σ := l.foldl step s

@[simp] theorem run_cons (s : σ) (a : α) (l : List α) :
    run step s (a :: l) = run step (step s a) l := rfl

theorem run_append (s : σ) (l l' : List α) :
    run step s (l ++ l') = run step (run step s l) l' := List.foldl_append

/-- Every step of the run meets `G` in the state it starts from. -/
def Along (G : σ → α → Prop) : σ → List α → Prop
  | _, [] => True
  | s, a :: l => G s a ∧ Along G (step s a) l

/-- `P` holds in every state of the run, the first and the last one included. -/
def Throughout (P : σ → Prop) : σ → List α → Prop
  | s, [] => P s
  | s, a :: l => P s ∧ Throughout P (step s a) l

instance decidableAlong (G : σ → α → Prop) [∀ s a, Decidable (G s a)] :
    ∀ s l, Decidable (Along step G s l)
  | _, [] => inferInstanceAs (Decidable True)
  | s, a :: l => @instDecidableAnd _ _ inferInstance (decidableAlong G (step s a) l)

instance decidableThroughout (P : σ → Prop) [∀ s, Decidable (P s)] :
    ∀ s (l : List α), Decidable (Throughout step P s l)
  | s, [] => inferInstanceAs (Decidable (P s))
  | s, a :: l => @instDecidableAnd _ _ inferInstance (decidableThroughout P (step s a) l)

variable {step}

/-! ## Conditions along a run -/

theorem Along.imp {G H : σ → α → Prop} (h : ∀ s a, G s a → H s a) :
    ∀ {s : σ} {l : List α}, Along step G s l → Along step H s l
  | _, [], _ => trivial
  | _, _ :: _, ⟨hg, hl⟩ => ⟨h _ _ hg, hl.imp h⟩

theorem along_of_forall {G : σ → α → Prop} (h : ∀ s a, G s a) :
    ∀ {s : σ} {l : List α}, Along step G s l
  | _, [] => trivial
  | _, _ :: _ => ⟨h _ _, along_of_forall h⟩

theorem along_of_mem {G : α → Prop} :
    ∀ {s : σ} {l : List α}, (∀ a ∈ l, G a) → Along step (fun _ a => G a) s l
  | _, [], _ => trivial
  | _, a :: _, h =>
    ⟨h a List.mem_cons_self, along_of_mem fun b hb => h b (List.mem_cons_of_mem a hb)⟩

theorem along_and {G H : σ → α → Prop} :
    ∀ {s : σ} {l : List α},
      Along step (fun s a => G s a ∧ H s a) s l ↔ Along step G s l ∧ Along step H s l
  | _, [] => by simp [Along]
  | s, a :: l => by
    simp only [Along, along_and (s := step s a) (l := l)]
    tauto

/-- The last state of a run is one of its states. -/
theorem Throughout.last {P : σ → Prop} :
    ∀ {s : σ} {l : List α}, Throughout step P s l → P (run step s l)
  | _, [], h => h
  | _, _ :: _, ⟨_, h⟩ => h.last

theorem Throughout.imp {P Q : σ → Prop} (h : ∀ s, P s → Q s) :
    ∀ {s : σ} {l : List α}, Throughout step P s l → Throughout step Q s l
  | _, [], hp => h _ hp
  | _, _ :: _, ⟨hp, hl⟩ => ⟨h _ hp, hl.imp h⟩

/-! ## Invariants -/

/-- What every admitted step preserves holds throughout every admitted run. -/
theorem throughout_of_invariant {G : σ → α → Prop} {Inv : σ → Prop}
    (hstep : ∀ s a, Inv s → G s a → Inv (step s a)) :
    ∀ {s : σ} {l : List α}, Inv s → Along step G s l → Throughout step Inv s l
  | _, [], hs, _ => hs
  | s, a :: _, hs, ⟨hg, hl⟩ =>
    ⟨hs, throughout_of_invariant hstep (hstep s a hs hg) hl⟩

/-- What admitted steps from states with the invariant do, every step of an admitted run does. -/
theorem along_of_invariant {G H : σ → α → Prop} {Inv : σ → Prop}
    (hstep : ∀ s a, Inv s → G s a → Inv (step s a)) (hH : ∀ s a, Inv s → G s a → H s a) :
    ∀ {s : σ} {l : List α}, Inv s → Along step G s l → Along step H s l
  | _, [], _, _ => trivial
  | s, a :: _, hs, ⟨hg, hl⟩ =>
    ⟨hH s a hs hg, along_of_invariant hstep hH (hstep s a hs hg) hl⟩

/-- What every admitted step preserves holds where an admitted run ends. -/
theorem run_invariant {G : σ → α → Prop} {Inv : σ → Prop}
    (hstep : ∀ s a, Inv s → G s a → Inv (step s a)) {s : σ} {l : List α}
    (hs : Inv s) (hl : Along step G s l) : Inv (run step s l) :=
  (throughout_of_invariant hstep hs hl).last

/-- What every step preserves holds throughout every run. -/
theorem throughout_always {Inv : σ → Prop} (hstep : ∀ s a, Inv s → Inv (step s a)) {s : σ}
    {l : List α} (hs : Inv s) : Throughout step Inv s l :=
  throughout_of_invariant (G := fun _ _ => True) (fun s a h _ => hstep s a h) hs
    (along_of_forall fun _ _ => trivial)

theorem run_always {Inv : σ → Prop} (hstep : ∀ s a, Inv s → Inv (step s a)) {s : σ}
    {l : List α} (hs : Inv s) : Inv (run step s l) :=
  (throughout_always hstep hs).last

/-- A part `f` of a system that takes a step of its own with each step of the system takes a run of
its own. -/
theorem run_part {τ β : Type} {f : σ → τ} {step' : τ → β → τ} {g : β → α} {I : σ → Prop}
    {G : β → Prop}
    (hstep : ∀ s b, I s → G b → f (step s (g b)) = step' (f s) b ∧ I (step s (g b))) :
    ∀ {l : List β} {s : σ}, I s → (∀ b ∈ l, G b) → f (run step s (l.map g)) = run step' (f s) l
  | [], _, _, _ => rfl
  | b :: l, s, hs, hl => by
    obtain ⟨hpart, hinv⟩ := hstep s b hs (hl b List.mem_cons_self)
    rw [List.map_cons, run_cons, run_part hstep hinv fun c hc => hl c (List.mem_cons_of_mem _ hc),
      hpart, run_cons]

/--
**When a condition on single steps is exact.**

`H` is what the environment guarantees, `Inv` an invariant of the runs that keep `G`. If in
such states a step keeps `P` just when it meets `G`, then `P` holds throughout a run just when
every step of it meets `G`.
-/
theorem throughout_iff_along {G H : σ → α → Prop} {Inv P : σ → Prop}
    (hexact : ∀ s a, Inv s → P s → H s a → (P (step s a) ↔ G s a))
    (hinv : ∀ s a, Inv s → P s → H s a → G s a → Inv (step s a)) :
    ∀ {s : σ} {l : List α}, Inv s → P s → Along step H s l →
      (Throughout step P s l ↔ Along step G s l)
  | _, [], _, hp, _ => ⟨fun _ => trivial, fun _ => hp⟩
  | s, a :: l, hi, hp, ⟨hh, hl⟩ => by
    constructor
    · rintro ⟨-, ht⟩
      have hp' : P (step s a) := by
        cases l with
        | nil => exact ht
        | cons b l => exact ht.1
      have hg : G s a := (hexact s a hi hp hh).mp hp'
      exact ⟨hg, (throughout_iff_along hexact hinv (hinv s a hi hp hh hg) hp' hl).mp ht⟩
    · rintro ⟨hg, ha⟩
      have hp' : P (step s a) := (hexact s a hi hp hh).mpr hg
      exact ⟨hp, (throughout_iff_along hexact hinv (hinv s a hi hp hh hg) hp' hl).mpr ha⟩

end Cepheus.Infra
