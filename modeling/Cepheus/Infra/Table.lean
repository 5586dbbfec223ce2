import Mathlib.Data.Finmap

/-!
# Tables

Finite maps, for the rows of a database table by primary key and for the entries of a Go map.
The representation is Mathlib's `Finmap`: two tables are equal when every lookup agrees, and
the order in which entries were written is not part of the value.
-/

namespace Cepheus.Infra

/-- A table with keys in `K` and rows in `V`. -/
abbrev Table (K V : Type) := Finmap (fun _ : K => V)

namespace Table

variable {K V : Type} [DecidableEq K]

theorem lookup_insert_if (m : Table K V) (a c : K) (b : V) :
    Finmap.lookup c (Finmap.insert a b m) = if c = a then some b else Finmap.lookup c m := by
  by_cases h : c = a
  · subst h
    simp
  · rw [if_neg h, Finmap.lookup_insert_of_ne _ h]

theorem mem_keys {m : Table K V} {a : K} : a ∈ m.keys ↔ ∃ b, m.lookup a = some b := by
  rw [Finmap.mem_keys, ← Finmap.lookup_isSome, Option.isSome_iff_exists]

theorem notMem_keys {m : Table K V} {a : K} : a ∉ m.keys ↔ m.lookup a = none := by
  rw [Finmap.mem_keys, Finmap.lookup_eq_none]

theorem mem_keys_insert {m : Table K V} {a c : K} {b : V} :
    c ∈ (m.insert a b).keys ↔ c = a ∨ c ∈ m.keys := by
  rw [Finmap.mem_keys, Finmap.mem_insert, Finmap.mem_keys]

/-- Change the row at `a`, if there is one. -/
def adjust (m : Table K V) (a : K) (f : V → V) : Table K V :=
  match m.lookup a with
  | none => m
  | some b => m.insert a (f b)

theorem lookup_adjust (m : Table K V) (a c : K) (f : V → V) :
    Finmap.lookup c (m.adjust a f) =
      if c = a then (Finmap.lookup c m).map f else Finmap.lookup c m := by
  unfold adjust
  cases hb : Finmap.lookup a m with
  | none =>
    by_cases h : c = a
    · subst h; simp [hb]
    · simp [h]
  | some b =>
    simp only [lookup_insert_if]
    by_cases h : c = a
    · subst h; simp [hb]
    · simp [h]

/-- The rows whose key meets `p`. -/
def filter (p : K → Prop) [DecidablePred p] (m : Table K V) : Table K V where
  entries := m.entries.filter fun x => p x.1
  nodupKeys := by
    rw [← Multiset.nodup_keys]
    exact Multiset.nodup_of_le (Multiset.map_le_map (Multiset.filter_le _ _))
      (Multiset.nodup_keys.mpr m.nodupKeys)

theorem lookup_filter (p : K → Prop) [DecidablePred p] (m : Table K V) (a : K) :
    Finmap.lookup a (m.filter p) = if p a then Finmap.lookup a m else none := by
  ext b
  rw [Finmap.lookup_eq_some_iff, filter, Multiset.mem_filter, ← Finmap.lookup_eq_some_iff]
  by_cases h : p a <;> simp [h]

theorem filter_insert {p : K → Prop} [DecidablePred p] (m : Table K V) {a : K} (b : V) (h : p a) :
    Finmap.insert a b (m.filter p) = filter p (Finmap.insert a b m) := by
  refine Finmap.ext_lookup ?_
  intro c
  rw [lookup_insert_if, lookup_filter, lookup_filter, lookup_insert_if]
  by_cases hc : c = a
  · rw [if_pos hc, if_pos hc, if_pos (hc ▸ h)]
  · rw [if_neg hc, if_neg hc]

end Table

end Cepheus.Infra
