import Mathlib

/-!
# Texts that are put together

When the parts of a text can be told from the whole: the part before a separator is what comes
before its first occurrence, and the number in front of a text is as long as its digits.
-/

namespace Cepheus.Infra

/-! ## Separators -/

variable {α : Type}

/-- A letter that is not in the first part ends it. -/
theorem append_cons_inj {c : α} {a a' b b' : List α} (ha : c ∉ a) (ha' : c ∉ a')
    (h : a ++ c :: b = a' ++ c :: b') : a = a' ∧ b = b' := by
  induction a generalizing a' with
  | nil =>
    cases a' with
    | nil => exact ⟨rfl, (List.cons.inj h).2⟩
    | cons x a' => exact absurd (List.cons.inj h).1 (List.ne_of_not_mem_cons ha')
  | cons x a ih =>
    cases a' with
    | nil => exact absurd (List.cons.inj h).1.symm (List.ne_of_not_mem_cons ha)
    | cons y a' =>
      obtain ⟨rfl, htail⟩ := List.cons.inj h
      obtain ⟨rfl, hb⟩ := ih (List.not_mem_of_not_mem_cons ha) (List.not_mem_of_not_mem_cons ha')
        htail
      exact ⟨rfl, hb⟩

/-- A joined text has the letters of its parts and the separator. -/
theorem mem_of_mem_intercalate {a x : α} {ls : List (List α)}
    (h : a ∈ [x].intercalate ls) : a = x ∨ ∃ l ∈ ls, a ∈ l := by
  induction ls with
  | nil => cases h
  | cons l ls ih =>
    cases ls with
    | nil => exact .inr ⟨l, List.mem_cons_self, by simpa using h⟩
    | cons l' ls =>
      simp only [List.intercalate_cons_cons, List.append_assoc, List.mem_append,
        List.mem_singleton] at h
      rcases h with h | h | h
      · exact .inr ⟨l, List.mem_cons_self, h⟩
      · exact .inl h
      · rcases ih h with heq | ⟨k, hk, ha⟩
        · exact .inl heq
        · exact .inr ⟨k, List.mem_cons_of_mem l hk, ha⟩

/-- Two different letters one after the other, which do not occur so in the first part, end it. -/
theorem append_pair_inj {c d : α} (hcd : c ≠ d) {a a' b b' : List α} (ha : ¬ [c, d] <:+: a)
    (ha' : ¬ [c, d] <:+: a') (h : a ++ c :: d :: b = a' ++ c :: d :: b') : a = a' ∧ b = b' := by
  induction a generalizing a' with
  | nil =>
    cases a' with
    | nil => exact ⟨rfl, (List.cons.inj (List.cons.inj h).2).2⟩
    | cons x a' =>
      obtain ⟨rfl, htail⟩ := List.cons.inj h
      cases a' with
      | nil => exact absurd (List.cons.inj htail).1.symm hcd
      | cons y a' =>
        obtain ⟨rfl, -⟩ := List.cons.inj htail
        exact absurd (List.prefix_append [c, d] a').isInfix ha'
  | cons x a ih =>
    cases a' with
    | nil =>
      obtain ⟨rfl, htail⟩ := List.cons.inj h
      cases a with
      | nil => exact absurd (List.cons.inj htail).1 hcd
      | cons y a =>
        obtain ⟨rfl, -⟩ := List.cons.inj htail
        exact absurd (List.prefix_append [x, y] a).isInfix ha
    | cons y a' =>
      obtain ⟨rfl, htail⟩ := List.cons.inj h
      obtain ⟨rfl, hb⟩ := ih (fun hin => ha (hin.trans (List.suffix_cons x a).isInfix))
        (fun hin => ha' (hin.trans (List.suffix_cons x a').isInfix)) htail
      exact ⟨rfl, hb⟩

/-- The same for the last part of a list of parts, which nothing ends. -/
theorem append_inj_of_head {c : α} {a a' b b' : List α} (ha : c ∉ a) (ha' : c ∉ a')
    (hb : ∀ x ∈ b.head?, x = c) (hb' : ∀ x ∈ b'.head?, x = c) (h : a ++ b = a' ++ b') :
    a = a' ∧ b = b' := by
  -- with the letter behind them, both have a second part
  have hend : ∀ {b : List α}, (∀ x ∈ b.head?, x = c) → ∃ t, b ++ [c] = c :: t := by
    intro b hb
    cases b with
    | nil => exact ⟨[], rfl⟩
    | cons x t => exact ⟨t ++ [c], by rw [hb x rfl, List.cons_append]⟩
  obtain ⟨t, ht⟩ := hend hb
  obtain ⟨t', ht'⟩ := hend hb'
  have hext : a ++ c :: t = a' ++ c :: t' := by
    rw [← ht, ← ht', ← List.append_assoc, ← List.append_assoc, h]
  obtain ⟨rfl, -⟩ := append_cons_inj ha ha' hext
  exact ⟨rfl, List.append_cancel_left h⟩

/-! ## Lists of texts -/

/-- Texts that are joined with a letter that is in none of them can be told apart, if none is empty.
-/
theorem intercalate_inj {c : Char} {texts texts' : List String}
    (h : ∀ s ∈ texts, s ≠ "" ∧ c ∉ s.toList) (h' : ∀ s ∈ texts', s ≠ "" ∧ c ∉ s.toList)
    (heq : (String.singleton c).intercalate texts = (String.singleton c).intercalate texts') :
    texts = texts' := by
  have hsplit := String.toList_split_intercalate fun s hs => (h s hs).2
  rw [heq, String.toList_split_intercalate fun s hs => (h' s hs).2] at hsplit
  -- without texts the result is the empty text, which also a single one would give
  by_cases hnil : texts = [] <;> by_cases hnil' : texts' = []
  · rw [hnil, hnil']
  · rw [if_pos hnil, if_neg hnil'] at hsplit
    have hempty : "" ∈ texts' := by simp [hsplit]
    exact absurd rfl (h' _ hempty).1
  · rw [if_neg hnil, if_pos hnil'] at hsplit
    have hempty : "" ∈ texts := by simp [← hsplit]
    exact absurd rfl (h _ hempty).1
  · rw [if_neg hnil, if_neg hnil'] at hsplit
    exact hsplit.symm

/-- Lists are the same up to their order if their images are, under a function that tells their
elements apart. -/
theorem perm_of_perm_map {β : Type} {f : α → β} {s : Set α} (hf : s.InjOn f) {l l' : List α}
    (hl : ∀ a ∈ l, a ∈ s) (hl' : ∀ a ∈ l', a ∈ s) (h : (l.map f).Perm (l'.map f)) : l.Perm l' := by
  cases l with
  | nil =>
    have hnil : l'.map f = [] := h.symm.eq_nil
    rw [List.map_eq_nil_iff.mp hnil]
  | cons a t =>
    have : Nonempty α := ⟨a⟩
    have hinv : ∀ {m : List α}, (∀ x ∈ m, x ∈ s) → (m.map f).map (Function.invFunOn f s) = m := by
      intro m hm
      rw [List.map_map]
      calc m.map (Function.invFunOn f s ∘ f)
          = m.map id := List.map_congr_left fun x hx => hf.leftInvOn_invFunOn (hm x hx)
        _ = m := List.map_id m
    have hmap := h.map (Function.invFunOn f s)
    rwa [hinv hl, hinv hl'] at hmap

/-! ## Numbers -/

/-- A number is written with digits, after a sign. -/
theorem mem_toString_int {n : Int} {c : Char} (h : c ∈ (toString n).toList) :
    c = '-' ∨ c.isDigit = true := by
  have hdigits : ∀ {m : Nat}, c ∈ m.repr.toList → c.isDigit = true := by
    intro m hm
    rw [Nat.repr_eq_ofList_toDigits, String.toList_ofList] at hm
    exact Nat.isDigit_of_mem_toDigits (by decide) (by decide) hm
  rw [Int.toString_eq_repr, Int.repr_eq_if] at h
  split at h
  · exact .inr (hdigits h)
  · rw [String.toList_append, List.mem_append] at h
    rcases h with h | h
    · exact .inl (List.mem_singleton.mp h)
    · exact .inr (hdigits h)

end Cepheus.Infra
