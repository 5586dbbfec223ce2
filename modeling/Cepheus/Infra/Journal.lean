import Mathlib.Data.List.Basic
import Mathlib.Data.List.Pairwise

/-!
# Journals

A journal is a list of entries, the oldest first.

* `Justified` - every entry is justified by the entries before it
* `eq_of_nodup_filterMap` - the entries that mention something mention different things
-/

namespace Cepheus.Infra

variable {α β : Type}

/-- Every entry stands in `R` to the list of those before it. -/
def Justified (R : List α → α → Prop) (l : List α) : Prop :=
  ∀ before a after, l = before ++ a :: after → R before a

theorem justified_nil {R : List α → α → Prop} : Justified R [] := by
  intro before a after h
  simp at h

theorem justified_of_forall {R : List α → α → Prop} {l : List α}
    (h : ∀ a ∈ l, ∀ before, R before a) : Justified R l := by
  rintro before a after rfl
  exact h a (by simp) before

/-- The first entry justifies all others. -/
theorem justified_cons {R : List α → α → Prop} {a : α} {l : List α} (ha : R [] a)
    (hl : ∀ b ∈ l, ∀ before, R (a :: before) b) : Justified R (a :: l) := by
  intro before b after h
  cases before with
  | nil =>
    obtain ⟨rfl, -⟩ := List.cons.inj h
    exact ha
  | cons c before =>
    obtain ⟨rfl, rfl⟩ := List.cons.inj h
    exact hl b (by simp) before

/-- What justifies an entry may stand further back. -/
theorem Justified.append {R : List α → α → Prop} {l l' : List α} (h : Justified R l)
    (h' : Justified R l') (hmore : ∀ before a, R before a → R (l ++ before) a) :
    Justified R (l ++ l') := by
  intro before a after heq
  rcases List.append_eq_append_iff.mp heq with ⟨mid, rfl, hl'⟩ | ⟨mid, rfl, hafter⟩
  · exact hmore mid a (h' mid a after hl')
  · cases mid with
    | nil =>
      have hself := hmore [] a (h' [] a after hafter.symm)
      rwa [List.append_nil, List.append_nil] at hself
    | cons b mid =>
      obtain ⟨rfl, -⟩ := List.cons.inj hafter
      exact h before _ mid rfl

theorem Justified.imp {R R' : List α → α → Prop} {l : List α} (h : Justified R l)
    (himp : ∀ before a, R before a → R' before a) : Justified R' l :=
  fun before a after heq => himp before a (h before a after heq)

/-- Of what is mentioned once, there is one entry that mentions it. -/
theorem eq_of_nodup_filterMap {f : α → Option β} {l : List α} (h : (l.filterMap f).Nodup) {a a' : α}
    {b : β} (ha : a ∈ l) (ha' : a' ∈ l) (hb : f a = some b) (hb' : f a' = some b) : a = a' := by
  by_contra hne
  have hpair := List.pairwise_filterMap.mp h
  have : Std.Symm fun x y => ∀ c, f x = some c → ∀ d, f y = some d → c ≠ d :=
    ⟨fun x y hxy c hc d hd => (hxy d hd c hc).symm⟩
  exact hpair.forall ha ha' hne b hb b hb' rfl

end Cepheus.Infra
