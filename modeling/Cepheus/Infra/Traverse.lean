import Mathlib.Data.List.Basic

/-!
# Fallible maps over a list

A loop that converts one element after the other and returns at the first one that it rejects.
-/

namespace Cepheus.Infra

variable {ε α β : Type} {f : α → Except ε β}

/-- The first element of a list is mapped before the others. -/
theorem mapM_cons_ok {a : α} {l : List α} {bs : List β} (h : (a :: l).mapM f = .ok bs) :
    ∃ b bs', f a = .ok b ∧ l.mapM f = .ok bs' ∧ bs = b :: bs' := by
  rw [List.mapM_cons] at h
  cases ha : f a with
  | error e =>
    rw [ha] at h
    cases h
  | ok b =>
    cases hl : l.mapM f with
    | error e =>
      rw [ha, hl] at h
      cases h
    | ok bs' =>
      rw [ha, hl] at h
      exact ⟨b, bs', rfl, rfl, (Except.ok.inj h).symm⟩

/-- Nothing is rejected. -/
theorem mapM_eq_ok_map {g : α → β} : ∀ {l : List α}, (∀ a ∈ l, f a = .ok (g a)) →
    l.mapM f = .ok (l.map g)
  | [], _ => rfl
  | a :: l, h => by
    rw [List.mapM_cons, h a List.mem_cons_self,
      mapM_eq_ok_map fun b hb => h b (List.mem_cons_of_mem a hb)]
    rfl

/-- What comes out is what the elements are converted to. -/
theorem mem_of_mapM_ok : ∀ {l : List α} {bs : List β}, l.mapM f = .ok bs →
    ∀ b, b ∈ bs ↔ ∃ a ∈ l, f a = .ok b
  | [], bs, h, b => by
    obtain rfl := Except.ok.inj h
    simp
  | a :: l, bs, h, b => by
    obtain ⟨b', bs', ha, hl, rfl⟩ := mapM_cons_ok h
    rw [List.mem_cons, mem_of_mapM_ok hl b]
    constructor
    · rintro (rfl | ⟨x, hx, hfx⟩)
      · exact ⟨a, List.mem_cons_self, ha⟩
      · exact ⟨x, List.mem_cons_of_mem a hx, hfx⟩
    · rintro ⟨x, hx, hfx⟩
      rcases List.mem_cons.mp hx with rfl | hx
      · rw [ha] at hfx
        exact .inl (Except.ok.inj hfx).symm
      · exact .inr ⟨x, hx, hfx⟩

/-- What every conversion keeps the list keeps, one by one. -/
theorem map_eq_of_mapM_ok {γ : Type} {g : α → γ} {h : β → γ}
    (hkeep : ∀ a b, f a = .ok b → h b = g a) :
    ∀ {l : List α} {bs : List β}, l.mapM f = .ok bs → bs.map h = l.map g
  | [], bs, hl => by
    obtain rfl := Except.ok.inj hl
    rfl
  | a :: l, bs, hl => by
    obtain ⟨b, bs', ha, htail, rfl⟩ := mapM_cons_ok hl
    rw [List.map_cons, List.map_cons, hkeep a b ha, map_eq_of_mapM_ok hkeep htail]

/-- No element is left out. -/
theorem forall_of_mapM_ok : ∀ {l : List α} {bs : List β}, l.mapM f = .ok bs →
    ∀ a ∈ l, ∃ b ∈ bs, f a = .ok b
  | [], _, _, _, ha => absurd ha List.not_mem_nil
  | x :: l, bs, h, a, ha => by
    obtain ⟨b, bs', hx, hl, rfl⟩ := mapM_cons_ok h
    rcases List.mem_cons.mp ha with rfl | ha
    · exact ⟨b, List.mem_cons_self, hx⟩
    · obtain ⟨b', hb', hfa⟩ := forall_of_mapM_ok hl a ha
      exact ⟨b', List.mem_cons_of_mem b hb', hfa⟩

/-- A conversion is told by what it accepts and what it makes of that, and so is the loop. -/
theorem mapM_eq_ok_iff {P : α → Prop} {g : α → β} (hf : ∀ a b, f a = .ok b ↔ P a ∧ b = g a)
    {l : List α} {bs : List β} : l.mapM f = .ok bs ↔ (∀ a ∈ l, P a) ∧ bs = l.map g := by
  have hmap : (∀ a ∈ l, P a) → l.mapM f = .ok (l.map g) := fun hall =>
    mapM_eq_ok_map fun a ha => (hf a _).mpr ⟨hall a ha, rfl⟩
  constructor
  · intro h
    have hall : ∀ a ∈ l, P a := by
      intro a ha
      obtain ⟨b, -, hb⟩ := forall_of_mapM_ok h a ha
      exact ((hf a b).mp hb).1
    exact ⟨hall, Except.ok.inj (h.symm.trans (hmap hall))⟩
  · rintro ⟨hall, rfl⟩
    exact hmap hall

/-! ## One step after the other -/

theorem bind_eq_ok_iff {γ : Type} {x : Except ε α} {k : α → Except ε γ} {c : γ} :
    (x >>= k) = .ok c ↔ ∃ a, x = .ok a ∧ k a = .ok c := by
  cases x with
  | error e => exact ⟨nofun, fun ⟨_, h, _⟩ => by cases h⟩
  | ok a =>
    constructor
    · exact fun h => ⟨a, rfl, h⟩
    · rintro ⟨b, hb, h⟩
      obtain rfl := Except.ok.inj hb
      exact h

end Cepheus.Infra
