import Cepheus.Infra.Table

/-!
# Stations

An item waits in a queue, then perhaps in a table under some key, and in the end it is done. It can
be dropped on the way, but it is never at two stations, nor twice at one.

* `Stations.pop`, `Stations.remove` - an item leaves the queue, or the table, and is at no station
* `Stations.push`, `Stations.insert`, `Stations.finish` - an item that is at no station gets to one
-/

namespace Cepheus.Infra

variable {K I : Type} [DecidableEq K]

/-- Every item is one that `Kept` knows, and at one station at most. -/
structure Stations (Kept : I → Prop) (queue : List I) (table : Table K I) (done : List I) :
    Prop where
  kept_queue : ∀ i ∈ queue, Kept i
  kept_table : ∀ k i, table.lookup k = some i → Kept i
  kept_done : ∀ i ∈ done, Kept i
  queue_nodup : queue.Nodup
  table_inj : ∀ k k' i, table.lookup k = some i → table.lookup k' = some i → k = k'
  done_nodup : done.Nodup
  queue_table : ∀ k i, table.lookup k = some i → i ∉ queue
  queue_done : ∀ i ∈ queue, i ∉ done
  table_done : ∀ k i, table.lookup k = some i → i ∉ done

/-- The item is at no station. -/
structure Free (queue : List I) (table : Table K I) (done : List I) (i : I) : Prop where
  queue : i ∉ queue
  table : ∀ k, table.lookup k ≠ some i
  done : i ∉ done

namespace Stations

variable {Kept Kept' : I → Prop} {queue : List I} {table : Table K I} {done : List I} {i : I}
  {k : K}

theorem start (Kept : I → Prop) : Stations Kept [] (∅ : Table K I) [] where
  kept_queue := by simp
  kept_table := by simp
  kept_done := by simp
  queue_nodup := List.nodup_nil
  table_inj := by simp
  done_nodup := List.nodup_nil
  queue_table := by simp
  queue_done := by simp
  table_done := by simp

theorem imp (h : Stations Kept queue table done) (himp : ∀ i, Kept i → Kept' i) :
    Stations Kept' queue table done :=
  { h with
    kept_queue := fun i hi => himp i (h.kept_queue i hi)
    kept_table := fun k i hi => himp i (h.kept_table k i hi)
    kept_done := fun i hi => himp i (h.kept_done i hi) }

/-- What nobody knows of is at no station. -/
theorem free (h : Stations Kept queue table done) (hi : ¬ Kept i) : Free queue table done i where
  queue := fun hq => hi (h.kept_queue i hq)
  table := fun k hk => hi (h.kept_table k i hk)
  done := fun hd => hi (h.kept_done i hd)

/-! ## Leaving a station -/

theorem pop (h : Stations Kept (i :: queue) table done) :
    Stations Kept queue table done ∧ Free queue table done i ∧ Kept i := by
  have hnodup := List.nodup_cons.mp h.queue_nodup
  refine ⟨?_, ⟨hnodup.1, ?_, h.queue_done i List.mem_cons_self⟩, h.kept_queue i List.mem_cons_self⟩
  · exact
      { h with
        kept_queue := fun j hj => h.kept_queue j (List.mem_cons_of_mem _ hj)
        queue_nodup := hnodup.2
        queue_table := fun k j hk hj => h.queue_table k j hk (List.mem_cons_of_mem _ hj)
        queue_done := fun j hj => h.queue_done j (List.mem_cons_of_mem _ hj) }
  · intro k hk
    exact h.queue_table k i hk List.mem_cons_self

theorem lookup_erase {j : I} {k' : K} (h : (table.erase k).lookup k' = some j) :
    k' ≠ k ∧ table.lookup k' = some j := by
  by_cases hk : k' = k
  · subst hk
    rw [Finmap.lookup_erase] at h
    cases h
  · rw [Finmap.lookup_erase_ne hk] at h
    exact ⟨hk, h⟩

theorem remove (h : Stations Kept queue table done) (hk : table.lookup k = some i) :
    Stations Kept queue (table.erase k) done ∧ Free queue (table.erase k) done i ∧ Kept i := by
  refine ⟨?_, ⟨h.queue_table k i hk, ?_, h.table_done k i hk⟩, h.kept_table k i hk⟩
  · exact
      { h with
        kept_table := fun k' j hj => h.kept_table k' j (lookup_erase hj).2
        table_inj := fun k₁ k₂ j h₁ h₂ =>
          h.table_inj k₁ k₂ j (lookup_erase h₁).2 (lookup_erase h₂).2
        queue_table := fun k' j hj => h.queue_table k' j (lookup_erase hj).2
        table_done := fun k' j hj => h.table_done k' j (lookup_erase hj).2 }
  · intro k' hk'
    obtain ⟨hne, hk'⟩ := lookup_erase hk'
    exact hne (h.table_inj k' k i hk' hk)

/-! ## Getting to a station -/

section

variable (h : Stations Kept queue table done) (hi : Free queue table done i) (hkept : Kept i)

include h hi hkept

theorem push : Stations Kept (queue ++ [i]) table done := by
  have hmem : ∀ j ∈ queue ++ [i], j ∈ queue ∨ j = i := by simp
  exact
    { h with
      kept_queue := by
        intro j hj
        rcases hmem j hj with hj | rfl
        · exact h.kept_queue j hj
        · exact hkept
      queue_nodup := by
        rw [← List.concat_eq_append]
        exact h.queue_nodup.concat hi.queue
      queue_table := by
        intro k j hk hj
        rcases hmem j hj with hj | rfl
        · exact h.queue_table k j hk hj
        · exact hi.table k hk
      queue_done := by
        intro j hj
        rcases hmem j hj with hj | rfl
        · exact h.queue_done j hj
        · exact hi.done }

theorem insert (k : K) : Stations Kept queue (table.insert k i) done := by
  have hlookup : ∀ k' j, (table.insert k i).lookup k' = some j →
      table.lookup k' = some j ∨ k' = k ∧ j = i := by
    intro k' j hj
    rw [Table.lookup_insert_if] at hj
    split at hj
    · next hk => exact .inr ⟨hk, (Option.some.inj hj).symm⟩
    · exact .inl hj
  exact
    { h with
      kept_table := by
        intro k' j hj
        rcases hlookup k' j hj with hj | ⟨-, rfl⟩
        · exact h.kept_table k' j hj
        · exact hkept
      table_inj := by
        intro k₁ k₂ j h₁ h₂
        rcases hlookup k₁ j h₁ with hold₁ | ⟨rfl, rfl⟩
        · rcases hlookup k₂ j h₂ with hold₂ | ⟨-, rfl⟩
          · exact h.table_inj k₁ k₂ j hold₁ hold₂
          · exact absurd hold₁ (hi.table k₁)
        · rcases hlookup k₂ j h₂ with hold₂ | ⟨rfl, -⟩
          · exact absurd hold₂ (hi.table k₂)
          · rfl
      queue_table := by
        intro k' j hj
        rcases hlookup k' j hj with hj | ⟨-, rfl⟩
        · exact h.queue_table k' j hj
        · exact hi.queue
      table_done := by
        intro k' j hj
        rcases hlookup k' j hj with hj | ⟨-, rfl⟩
        · exact h.table_done k' j hj
        · exact hi.done }

theorem finish : Stations Kept queue table (done ++ [i]) := by
  have hmem : ∀ j ∈ done ++ [i], j ∈ done ∨ j = i := by simp
  exact
    { h with
      kept_done := by
        intro j hj
        rcases hmem j hj with hj | rfl
        · exact h.kept_done j hj
        · exact hkept
      done_nodup := by
        rw [← List.concat_eq_append]
        exact h.done_nodup.concat hi.done
      queue_done := by
        intro j hj hd
        rcases hmem j hd with hd | rfl
        · exact h.queue_done j hj hd
        · exact hi.queue hj
      table_done := by
        intro k j hk hd
        rcases hmem j hd with hd | rfl
        · exact h.table_done k j hk hd
        · exact hi.table k hk }

end

end Stations

end Cepheus.Infra
