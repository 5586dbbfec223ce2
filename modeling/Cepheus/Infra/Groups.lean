import Cepheus.Infra.Slices
import Cepheus.Infra.Table

/-!
# Groups of values

A map from keys to lists, built by appending one value after the other to the list of its key, and
loops over such a map.

A `range` over a map of Go visits every key once, in an order that the language leaves open and that
may be another one at the next loop. A `Ranging` is a choice of such orders; what is proved for all
of them holds for every iteration.
-/

namespace Cepheus.Infra

variable {K V : Type} [DecidableEq K]

/-! ## Building the groups -/

namespace Table

/-- `m[k] = append(m[k], v)`. -/
def push (m : Table K (List V)) (k : K) (v : V) : Table K (List V) :=
  Finmap.insert k ((Finmap.lookup k m).getD [] ++ [v]) m

/-- Every value under its key, in the order of the list. -/
def group (key : V → K) (values : List V) : Table K (List V) :=
  values.foldl (fun m v => m.push (key v) v) ∅

theorem group_append_singleton (key : V → K) (values : List V) (v : V) :
    group key (values ++ [v]) = (group key values).push (key v) v := by
  simp [group]

/-- A group has the values with its key. -/
theorem getD_lookup_group (key : V → K) (values : List V) (k : K) :
    (Finmap.lookup k (group key values)).getD [] = values.filter fun v => key v = k := by
  induction values using List.reverseRecOn with
  | nil => simp [group]
  | append_singleton values v ih =>
    rw [group_append_singleton, push, lookup_insert_if, List.filter_append, ← ih]
    by_cases h : k = key v
    · subst h
      simp
    · simp [h, Ne.symm h]

/-- There is a group for the keys that occur. -/
theorem mem_keys_group (key : V → K) (values : List V) (k : K) :
    k ∈ (group key values).keys ↔ ∃ v ∈ values, key v = k := by
  induction values using List.reverseRecOn with
  | nil => simp [group]
  | append_singleton values v ih =>
    rw [group_append_singleton, push, mem_keys_insert, ih]
    constructor
    · rintro (rfl | ⟨w, hw, hk⟩)
      · exact ⟨v, by simp, rfl⟩
      · exact ⟨w, by simp [hw], hk⟩
    · rintro ⟨w, hw, hk⟩
      rcases List.mem_append.mp hw with hw | hw
      · exact .inr ⟨w, hw, hk⟩
      · exact .inl (by rw [← hk, List.mem_singleton.mp hw])

end Table

/-! ## Loops over a map -/

/-- The orders in which a loop visits the keys of maps. -/
structure Ranging (K V : Type) [DecidableEq K] where
  order : Table K V → List K
  nodup : ∀ m, (order m).Nodup
  mem_order : ∀ m k, k ∈ order m ↔ k ∈ m.keys

namespace Ranging

section

variable {K V : Type} [LinearOrder K]

/-- The elements in ascending order. Unlike `Finset.sort`, this can be evaluated in a proof. -/
def sorted (s : Finset K) : List K :=
  Quot.liftOn s.val (List.insertionSort (· ≤ ·)) fun _ _ => insertionSort_eq_of_perm

theorem coe_sorted (s : Finset K) : (sorted s : Multiset K) = s.val := by
  obtain ⟨⟨l⟩, hl⟩ := s
  exact Multiset.coe_eq_coe.mpr (List.perm_insertionSort _ l)

/-- One of them: in ascending order. -/
def ascending : Ranging K V where
  order m := sorted m.keys
  nodup m := by
    rw [← Multiset.coe_nodup, coe_sorted]
    exact m.keys.nodup
  mem_order m k := by
    rw [← Multiset.mem_coe, coe_sorted]
    rfl

end

variable (r : Ranging K V)

/-- `for k, v := range m { m[k] = f(v) }`. -/
def rewrite (f : V → V) (m : Table K V) : Table K V :=
  (r.order m).foldl (fun m k => m.adjust k f) m

theorem lookup_foldl_adjust (f : V → V) {ks : List K} (hks : ks.Nodup) (m : Table K V) (k : K) :
    Finmap.lookup k (ks.foldl (fun m k => Table.adjust m k f) m) =
      if k ∈ ks then (Finmap.lookup k m).map f else Finmap.lookup k m := by
  induction ks generalizing m with
  | nil => simp
  | cons c ks ih =>
    obtain ⟨hc, hks⟩ := List.nodup_cons.mp hks
    rw [List.foldl_cons, ih hks, Table.lookup_adjust]
    by_cases hk : k = c
    · subst hk
      simp [hc]
    · simp [hk]

/-- The loop changes every value once, in whatever order. -/
theorem lookup_rewrite (f : V → V) (m : Table K V) (k : K) :
    Finmap.lookup k (r.rewrite f m) = (Finmap.lookup k m).map f := by
  rw [rewrite, lookup_foldl_adjust f (r.nodup m)]
  by_cases hk : k ∈ r.order m
  · rw [if_pos hk]
  · have hnone : Finmap.lookup k m = none :=
      Table.notMem_keys.mp fun hmem => hk ((r.mem_order m k).mpr hmem)
    rw [if_neg hk, hnone, Option.map_none]

theorem mem_keys_rewrite (f : V → V) (m : Table K V) (k : K) :
    k ∈ (r.rewrite f m).keys ↔ k ∈ m.keys := by
  rw [Table.mem_keys, Table.mem_keys, r.lookup_rewrite]
  cases Finmap.lookup k m <;> simp

end Ranging

end Cepheus.Infra
