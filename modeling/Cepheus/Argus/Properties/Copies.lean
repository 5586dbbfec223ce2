import Cepheus.Argus.Properties.Order

/-!
# Copies of a persisted series

The key of the map has a field more than the key of the table, and `Sweep` leaves it empty when it
reads a row back. So a series whose key carries its type and that same series as `Sweep` finds it
are two entries of the map, with two state machines and one row.

* `Call.KeepsOneCopy` - the calls that make no second entry for a row that has one
* `one_copy` - in runs of such calls, every persisted series has at most one state in memory
-/

namespace Cepheus.Argus

open Infra

/-- The call adds no second entry for a row that has one already. -/
def Call.KeepsOneCopy (w : World) : Call → Prop
  | .applyFinding k _ _ env => env.getPolicyState = .ok → k ∈ w.states.keys ∨
      ∀ k' ∈ w.states.keys, k'.rowKey ≠ k.rowKey
  | .sweep env => env.listNonClean = .ok → ∀ k ∈ w.states.keys,
      ∀ row ∈ w.db.policyStates.lookup k.rowKey, row.status ≠ .clean → k = k.rowKey.hydratedKey
  | _ => True

instance (w : World) : DecidablePred (Call.KeepsOneCopy w)
  | .insertFinding .. => inferInstanceAs (Decidable True)
  | .applyFinding k _ _ env => inferInstanceAs (Decidable (env.getPolicyState = .ok →
      k ∈ w.states.keys ∨ ∀ k' ∈ w.states.keys, k'.rowKey ≠ k.rowKey))
  | .sweep env => inferInstanceAs (Decidable (env.listNonClean = .ok → ∀ k ∈ w.states.keys,
      ∀ row ∈ w.db.policyStates.lookup k.rowKey, row.status ≠ .clean → k = k.rowKey.hydratedKey))
  | .restart => inferInstanceAs (Decidable True)

/-- Every persisted series has at most one state in memory. -/
structure OneCopy (w : World) : Prop extends w.Sourceless where
  apart : w.NoAlias

section

variable {cfg : PolicyEngineConfig} {w : World}

theorem OneCopy.restart (h : OneCopy w) : OneCopy w.restart :=
  ⟨h.toSourceless.restart, fun k hk => by simp [World.restart] at hk⟩

/-- A new entry does not share its row. -/
theorem World.NoAlias.insert (h : w.NoAlias) {k : SeriesKey}
    (hone : k ∈ w.states.keys ∨ ∀ k' ∈ w.states.keys, k'.rowKey ≠ k.rowKey) {w' : World}
    (hkeys : ∀ k' ∈ w'.states.keys, k' = k ∨ k' ∈ w.states.keys) : w'.NoAlias := by
  -- only an entry that is new and one that is not could share a row
  have hnew : ∀ k' ∈ w.states.keys, k'.rowKey = k.rowKey → k' = k := by
    intro k' hk' heq
    rcases hone with hmem | hno
    · exact h k' hk' k hmem heq
    · exact absurd heq (hno k' hk')
  intro k₁ hk₁ k₂ hk₂ heq
  rcases hkeys k₁ hk₁ with rfl | hm₁ <;> rcases hkeys k₂ hk₂ with rfl | hm₂
  · rfl
  · exact (hnew k₂ hm₂ heq.symm).symm
  · exact hnew k₁ hm₁ heq
  · exact h k₁ hm₁ k₂ hm₂ heq

/-! ## ApplyFinding -/

/-- The entry of a state that has been loaded is the only one for its row. -/
theorem Call.KeepsOneCopy.of_loaded {k : SeriesKey} {finding : Finding} {id : Uuid} {env : ApplyEnv}
    {s : PolicyState} (hone : Call.KeepsOneCopy w (.applyFinding k finding id env))
    (hld : loadState env k w = .ok s) :
    k ∈ w.states.keys ∨ ∀ k' ∈ w.states.keys, k'.rowKey ≠ k.rowKey := by
  rcases loadState_cases hld with hs | ⟨hs, -⟩
  · exact .inl (Table.mem_keys.mpr ⟨s, hs⟩)
  · refine hone ?_
    cases ho : env.getPolicyState with
    | ok => rfl
    | failed => simp [loadState, hs, ho, Outcome.halt] at hld
    | lost => simp [loadState, hs, ho, Outcome.halt] at hld
    | crash => simp [loadState, hs, ho, Outcome.halt] at hld

theorem OneCopy.applyFinding (h : OneCopy w) {k : SeriesKey} (hk : k.srcIp = "")
    {finding : Finding} {id : Uuid} {env : ApplyEnv}
    (hone : Call.KeepsOneCopy w (.applyFinding k finding id env)) :
    OneCopy (applyFinding cfg env k finding id w).1 := by
  refine ⟨h.toSourceless.applyFinding hk env finding id, ?_⟩
  cases hld : loadState env k w with
  | error x =>
    have he : Argus.applyFinding cfg env k finding id w = (w, some x) := by
      simp [Argus.applyFinding, hld]
    rw [he]
    exact h.apart
  | ok s => exact h.apart.insert (hone.of_loaded hld) fun k' => mem_keys_applyFinding

/-! ## Sweep -/

/-- A row that is read back gets the one entry it has. -/
theorem OneCopy.hydrated (h : OneCopy w) {env : SweepEnv} (hlist : env.listNonClean = .ok)
    (hone : Call.KeepsOneCopy w (.sweep env)) : OneCopy (w.hydrated env.rows) := by
  have hkeys : ∀ k ∈ (w.hydrated env.rows).states.keys, k ∈ w.states.keys ∨
      k = k.rowKey.hydratedKey ∧ ∃ row, w.db.policyStates.lookup k.rowKey = some row ∧
        row.status ≠ .clean := by
    intro k hk
    obtain ⟨s, hs⟩ := Table.mem_keys.mp hk
    rcases h.toSourceless.hydrated_cases hs with hs | ⟨-, hk, row, hrow, hc, -⟩
    · exact .inl (Table.mem_keys.mpr ⟨s, hs⟩)
    · exact .inr ⟨hk, row, hrow, hc⟩
  refine ⟨h.toSourceless.hydrated env.rows, ?_⟩
  intro k₁ hk₁ k₂ hk₂ heq
  rcases hkeys k₁ hk₁ with hm₁ | ⟨hh₁, row₁, hrow₁, hc₁⟩ <;>
    rcases hkeys k₂ hk₂ with hm₂ | ⟨hh₂, row₂, hrow₂, hc₂⟩
  · exact h.apart k₁ hm₁ k₂ hm₂ heq
  · rw [hone hlist k₁ hm₁ row₂ (heq ▸ hrow₂) hc₂, heq, ← hh₂]
  · rw [hone hlist k₂ hm₂ row₁ (heq ▸ hrow₁) hc₁, ← heq, ← hh₁]
  · rw [hh₁, hh₂, heq]

theorem OneCopy.sweepOne (h : OneCopy w) (env : SweepEnv) (k : SeriesKey) :
    OneCopy (sweepOne cfg env k w).1 := by
  refine ⟨h.toSourceless.sweepOne env k, ?_⟩
  intro k₁ hk₁ k₂ hk₂
  exact h.apart k₁ (mem_keys_sweepOne.mp hk₁) k₂ (mem_keys_sweepOne.mp hk₂)

theorem OneCopy.insertFinding (h : OneCopy w) (o : Outcome) (id : Uuid) (k : SeriesKey)
    (finding : Finding) : OneCopy (insertFinding o id k finding w).1 := by
  refine ⟨h.toSourceless.insertFinding o id k finding, ?_⟩
  unfold World.NoAlias
  rw [(insertFinding_frame o id k finding w).1]
  exact h.apart

/-! ## Runs -/

/-- **A call that keeps one copy keeps one copy of every series.** -/
theorem OneCopy.step (h : OneCopy w) {c : Call} (hp : c.Planned) (hone : c.KeepsOneCopy w) :
    OneCopy (Argus.step cfg w c) := by
  refine step_invariant h (fun w hw => hw.restart) ?_ ?_ ?_ ?_
  · exact fun k finding id o _ => h.insertFinding o id k finding
  · rintro k finding id env rfl
    exact h.applyFinding hp.srcIp_eq hone
  · rintro env rfl hlist
    exact h.hydrated hlist hone
  · exact fun env _ w k hw => hw.sweepOne env k

/--
**Every persisted series has at most one state in memory, in every run whose calls keep one copy.**

The engine starts with an empty memory over any table without source addresses, which is what it
writes itself. Statements may fail and the process may die at any point.
-/
theorem one_copy (cfg : PolicyEngineConfig) {db : Database}
    (hdb : ∀ r ∈ db.policyStates.keys, r.srcIp = "") {calls : List Call}
    (henv : Along (Argus.step cfg) (fun w c => c.Legal w ∧ c.Planned) { states := ∅, db } calls)
    (hone : Along (Argus.step cfg) (fun w c => c.KeepsOneCopy w) { states := ∅, db } calls) :
    Throughout (Argus.step cfg) World.NoAlias { states := ∅, db } calls := by
  have hinit : OneCopy { states := ∅, db } :=
    ⟨⟨hdb, fun k hk => by simp at hk⟩, fun k hk => by simp at hk⟩
  have hcalls : Along (Argus.step cfg) (fun w c => (c.Legal w ∧ c.Planned) ∧ c.KeepsOneCopy w)
      { states := ∅, db } calls := along_and.mpr ⟨henv, hone⟩
  have hall := throughout_of_invariant
    (fun w c (hw : OneCopy w) hc => hw.step hc.1.2 hc.2) hinit hcalls
  exact hall.imp fun w hw => hw.apart

end

/-- A finding opens an event, and the next sweep files the series a second time. -/
theorem sweep_makes_second_copy :
    ¬ ∀ (cfg : PolicyEngineConfig) (db : Database), (∀ r ∈ db.policyStates.keys, r.srcIp = "") →
      ∀ calls : List Call,
        Along (step cfg) (fun w c => c.Legal w ∧ c.Planned) { states := ∅, db } calls →
          Throughout (step cfg) World.NoAlias { states := ∅, db } calls := by
  intro h
  exact absurd
    (h startConfig Database.empty (by decide +kernel)
      [.report (pingKey "a") (1000 * second) 6 0 0,
       .sweep (SweepEnv.ok (1030 * second) [(pingKey "a").rowKey]
         [pingKey "a", (pingKey "a").rowKey.hydratedKey])]
      (by decide +kernel))
    (by decide +kernel)

/-- Restarted before every sweep, the engine keeps one copy. -/
theorem twoAlarms_one_copy :
    Throughout (step startConfig) World.NoAlias { states := ∅, db := Database.empty } twoAlarms :=
  one_copy startConfig (by decide +kernel) (by decide +kernel) (by decide +kernel)

end Cepheus.Argus
