import Mathlib.Data.List.Sort
import Mathlib.Data.Finset.Lattice.Lemmas

/-!
# Slices

Sorting that promises nothing about elements with the same key, the pairs of neighbours of a list,
and the first elements with each key: what a loop keeps that skips the keys it has seen.
-/

namespace Cepheus.Infra

/-! ## Sorting -/

/-- `sort.Slice`, with a `less` that compares keys. It is not stable: the order of elements with the
same key is open. -/
structure Sorter {α β : Type} [LinearOrder β] (key : α → β) where
  slice : List α → List α
  perm : ∀ l, (slice l).Perm l
  sorted : ∀ l, (slice l).Pairwise fun a b => key a ≤ key b

/-- One of them, which is stable. -/
def Sorter.insertion {α β : Type} [LinearOrder β] (key : α → β) : Sorter key where
  slice := List.insertionSort fun a b => key a ≤ key b
  perm := List.perm_insertionSort _
  sorted l := by
    have htotal : Std.Total fun a b : α => key a ≤ key b := ⟨fun a b => le_total (key a) (key b)⟩
    have htrans : IsTrans α fun a b => key a ≤ key b := ⟨fun _ _ _ => le_trans⟩
    exact List.pairwise_insertionSort _ l

/-- Sorting forgets the order. -/
theorem insertionSort_eq_of_perm {β : Type} [LinearOrder β] {l l' : List β} (h : l.Perm l') :
    l.insertionSort (· ≤ ·) = l'.insertionSort (· ≤ ·) :=
  List.Perm.eq_of_pairwise (fun _ _ _ _ => le_antisymm) (List.pairwise_insertionSort _ _)
    (List.pairwise_insertionSort _ _)
    ((List.perm_insertionSort _ _).trans (h.trans (List.perm_insertionSort _ _).symm))

/-! ## Neighbours -/

variable {α κ : Type}

/-- The elements with their successors. -/
def neighbours : List α → List (α × α)
  | a :: b :: l => (a, b) :: neighbours (b :: l)
  | _ => []

theorem mem_neighbours {l : List α} {a b : α} : (a, b) ∈ neighbours l ↔ [a, b] <:+: l := by
  induction l with
  | nil => simp [neighbours]
  | cons x l ih =>
    rw [List.infix_cons_iff, ← ih]
    cases l with
    | nil => simp [neighbours]
    | cons y l => simp [neighbours, List.cons_prefix_cons]

theorem mem_of_mem_neighbours {l : List α} {a b : α} (h : (a, b) ∈ neighbours l) :
    a ∈ l ∧ b ∈ l := by
  have hsub := (mem_neighbours.mp h).subset
  exact ⟨hsub (by simp), hsub (by simp)⟩

/-- In a list that is sorted, so are the neighbours. -/
theorem pairwise_neighbours {r : α → α → Prop} : ∀ {l : List α}, l.Pairwise r →
    (neighbours l).Pairwise fun p q => r p.1 q.1
  | [], _ => .nil
  | [_], _ => .nil
  | a :: b :: l, h => by
    obtain ⟨ha, hl⟩ := List.pairwise_cons.mp h
    refine .cons ?_ (pairwise_neighbours hl)
    rintro ⟨c, d⟩ hcd
    exact ha c (mem_of_mem_neighbours hcd).1

/-! ## First elements -/

variable [DecidableEq κ] (key : α → κ)

/-- The elements whose key is not in the set, nor that of an element before. -/
def firsts : Finset κ → List α → List α
  | _, [] => []
  | seen, a :: l => if key a ∈ seen then firsts seen l else a :: firsts (insert (key a) seen) l

variable {key}

theorem mem_of_mem_firsts {seen : Finset κ} {l : List α} {a : α} (h : a ∈ firsts key seen l) :
    a ∈ l := by
  induction l generalizing seen with
  | nil => exact h
  | cons b l ih =>
    rw [firsts] at h
    split at h
    · exact List.mem_cons_of_mem _ (ih h)
    · rcases List.mem_cons.mp h with rfl | h
      · exact List.mem_cons_self
      · exact List.mem_cons_of_mem _ (ih h)

/-- Their keys are new. -/
theorem notMem_of_mem_firsts {seen : Finset κ} {l : List α} {a : α} (h : a ∈ firsts key seen l) :
    key a ∉ seen := by
  induction l generalizing seen with
  | nil => cases h
  | cons b l ih =>
    rw [firsts] at h
    split at h
    · exact ih h
    · rcases List.mem_cons.mp h with rfl | h
      · assumption
      · exact fun hmem => ih h (Finset.mem_insert_of_mem hmem)

theorem firsts_pairwise (seen : Finset κ) (l : List α) :
    (firsts key seen l).Pairwise fun a b => key a ≠ key b := by
  induction l generalizing seen with
  | nil => exact .nil
  | cons b l ih =>
    rw [firsts]
    split
    · exact ih seen
    · refine .cons ?_ (ih _)
      intro a ha hab
      exact notMem_of_mem_firsts ha (hab ▸ Finset.mem_insert_self _ _)

/-- Every key has a first element, unless it is in the set. -/
theorem exists_mem_firsts {seen : Finset κ} {l : List α} {b : α} (hb : b ∈ l)
    (hseen : key b ∉ seen) : ∃ a ∈ firsts key seen l, key a = key b := by
  induction l generalizing seen with
  | nil => cases hb
  | cons c l ih =>
    rw [firsts]
    rcases List.mem_cons.mp hb with rfl | hb
    · rw [if_neg hseen]
      exact ⟨b, List.mem_cons_self, rfl⟩
    · split
      · exact ih hb hseen
      · by_cases hbc : key b = key c
        · exact ⟨c, List.mem_cons_self, hbc.symm⟩
        · have hinsert : key b ∉ insert (key c) seen := by simp [hbc, hseen]
          obtain ⟨a, ha, hab⟩ := ih hb hinsert
          exact ⟨a, List.mem_cons_of_mem _ ha, hab⟩

/-- In a sorted list the first element is the least. -/
theorem rel_of_mem_firsts {r : α → α → Prop} {seen : Finset κ} {l : List α} (hl : l.Pairwise r)
    {a b : α} (ha : a ∈ firsts key seen l) (hb : b ∈ l) (hab : key b = key a) : b = a ∨ r a b := by
  induction l generalizing seen with
  | nil => cases hb
  | cons c l ih =>
    obtain ⟨hc, hl⟩ := List.pairwise_cons.mp hl
    rw [firsts] at ha
    split at ha
    · rename_i hseen
      rcases List.mem_cons.mp hb with rfl | hb
      · exact absurd (hab ▸ hseen) (notMem_of_mem_firsts ha)
      · exact ih hl ha hb
    · rcases List.mem_cons.mp ha with rfl | ha
      · rcases List.mem_cons.mp hb with rfl | hb
        · exact .inl rfl
        · exact .inr (hc b hb)
      · rcases List.mem_cons.mp hb with rfl | hb
        · exact absurd (hab ▸ Finset.mem_insert_self _ _) (notMem_of_mem_firsts ha)
        · exact ih hl ha hb

/-! ### Several lists, one after the other -/

/-- What is in the set does not matter if no element has such a key. -/
theorem firsts_congr {seen seen' : Finset κ} {l : List α}
    (h : ∀ a ∈ l, key a ∈ seen ↔ key a ∈ seen') : firsts key seen l = firsts key seen' l := by
  induction l generalizing seen seen' with
  | nil => rfl
  | cons b l ih =>
    have hb := h b List.mem_cons_self
    have hl : ∀ a ∈ l, key a ∈ seen ↔ key a ∈ seen' := fun a ha => h a (List.mem_cons_of_mem _ ha)
    rw [firsts, firsts]
    by_cases hseen : key b ∈ seen
    · rw [if_pos hseen, if_pos (hb.mp hseen), ih hl]
    · have hinsert : ∀ a ∈ l, key a ∈ insert (key b) seen ↔ key a ∈ insert (key b) seen' := by
        intro a ha
        simp [hl a ha]
      rw [if_neg hseen, if_neg fun hs => hseen (hb.mpr hs), ih hinsert]

theorem firsts_append (seen : Finset κ) (l l' : List α) :
    firsts key seen (l ++ l') =
      firsts key seen l ++ firsts key (seen ∪ (l.map key).toFinset) l' := by
  induction l generalizing seen with
  | nil => simp [firsts]
  | cons b l ih =>
    rw [List.cons_append, firsts, firsts]
    split
    · rename_i hseen
      rw [ih, List.map_cons, List.toFinset_cons, Finset.union_insert,
        Finset.insert_eq_of_mem (Finset.mem_union_left _ hseen)]
    · rw [ih, List.cons_append, List.map_cons, List.toFinset_cons, Finset.union_insert,
        Finset.insert_union]

/-- Lists without a key in common are searched one by one. -/
theorem firsts_flatMap {ι : Type} {blocks : List ι} (hnodup : blocks.Nodup) (f : ι → List α)
    (hkeys : ∀ i j, i ≠ j → ∀ a ∈ f i, ∀ b ∈ f j, key a ≠ key b) :
    firsts key ∅ (blocks.flatMap f) = blocks.flatMap fun i => firsts key ∅ (f i) := by
  induction blocks with
  | nil => rfl
  | cons i blocks ih =>
    obtain ⟨hi, hblocks⟩ := List.nodup_cons.mp hnodup
    rw [List.flatMap_cons, List.flatMap_cons, firsts_append, ← ih hblocks]
    congr 1
    refine firsts_congr fun b hb => ?_
    obtain ⟨j, hj, hb⟩ := List.mem_flatMap.mp hb
    have hij : i ≠ j := fun h => hi (h ▸ hj)
    have hnot : key b ∉ (List.map key (f i)).toFinset := by
      simp only [List.mem_toFinset, List.mem_map, not_exists, not_and]
      exact fun a ha => hkeys i j hij a ha b hb
    simp [hnot]

end Cepheus.Infra
