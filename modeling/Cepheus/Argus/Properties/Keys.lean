import Cepheus.Argus.Properties.Provenance

/-!
# Series that share their rows

The identity of a series has five parts: its type, the agent, the target, the port and the source.
The tables know the agent, the target and the port. `plan` drops the source, and no table has a
column for the type.

* `Monitor.Separate` - two monitors have no row in common
* `plan_separate_iff` - when all monitors of two series are separate
* `workers_separate` - then the workers of the two never write the same row
* `traces_share_rows` - two traces to one target from different sources do
-/

namespace Cepheus.Argus

open Infra

variable {V S : Type}

/-- The two monitors have no row in common. The keys of `argus_baselines` and `argus_policy_state`
have the same columns, and the unique index of `argus_findings` has one for the source less. -/
structure Monitor.Separate (m₁ m₂ : Monitor V S) : Prop where
  rows : m₁.key.rowKey ≠ m₂.key.rowKey
  findings : ∀ f₁ f₂ : Finding, f₁.ts = f₂.ts → ¬ (f₁.row m₁.key).SameIndex (f₂.row m₂.key)

/-- The columns in which the keys of two monitors may differ. -/
def SeriesKey.Alike (k₁ k₂ : SeriesKey) : Prop :=
  k₁.serialId = k₂.serialId ∧ k₁.target = k₂.target ∧ k₁.port = k₂.port ∧
    k₁.metric = k₂.metric ∧ k₁.detector = k₂.detector

/-- A monitor writes no source into its rows. -/
theorem Monitor.Watches.srcIp {m : Monitor V S} {series : DiscoveredSeries} {watch : Watch V S}
    (h : m.Watches series watch) : m.key.srcIp = "" := by
  rw [h.key]
  rfl

theorem Monitor.separate_iff {m₁ m₂ : Monitor V S} (h₁ : m₁.key.srcIp = "")
    (h₂ : m₂.key.srcIp = "") : m₁.Separate m₂ ↔ ¬ m₁.key.Alike m₂.key := by
  constructor
  · rintro ⟨hrows, -⟩ ⟨hs, ht, hp, hm, hd⟩
    refine hrows ?_
    unfold SeriesKey.rowKey
    rw [h₁, h₂, hs, ht, hp, hm, hd]
  · intro hne
    refine ⟨?_, ?_⟩
    · intro he
      obtain ⟨hs, -, ht, hp, hm, hd⟩ := RowKey.mk.inj he
      exact hne ⟨hs, ht, hp, hm, hd⟩
    · rintro f₁ f₂ - ⟨hs, ht, hp, hm, hd, -⟩
      exact hne ⟨hs, ht, hp, hm, hd⟩

/-- The series differ in the agent, the target or the port, or no metric is watched by the same
detector in both. -/
def Worker.KeepsApart (w : Worker V S) (s₁ s₂ : DiscoveredSeries) : Prop :=
  s₁.serialId ≠ s₂.serialId ∨ s₁.target ≠ s₂.target ∨ s₁.port ≠ s₂.port ∨
    ∀ watch₁ ∈ w.watches s₁.type, ∀ watch₂ ∈ w.watches s₂.type,
      watch₁.extractor.metricName ≠ watch₂.extractor.metricName ∨
        watch₁.detectorType ≠ watch₂.detectorType

/-- Monitors of series that are kept apart have different keys. -/
theorem Worker.KeepsApart.not_alike {w : Worker V S} {s₁ s₂ : DiscoveredSeries}
    (h : w.KeepsApart s₁ s₂) {watch₁ watch₂ : Watch V S} (hw₁ : watch₁ ∈ w.watches s₁.type)
    (hw₂ : watch₂ ∈ w.watches s₂.type) : ¬ (watch₁.key s₁).Alike (watch₂.key s₂) := by
  rintro ⟨hs, ht, hp, hm, hd⟩
  rcases h with h | h | h | h
  · exact h hs
  · exact h ht
  · exact h hp
  · rcases h watch₁ hw₁ watch₂ hw₂ with h | h
    · exact h hm
    · exact h hd

/--
**When two series share no stored state.**

For any registry, any detectors and any two series: the monitors that `plan` builds for the one have
no row in common with those for the other, whatever the baselines are, if and only if the series
differ in the agent, the target or the port, or no metric is watched by the same detector in both.
-/
theorem plan_separate_iff (w : Worker V S) (s₁ s₂ : DiscoveredSeries) :
    (∀ answers₁ answers₂, ∀ m₁ ∈ w.plan s₁ answers₁, ∀ m₂ ∈ w.plan s₂ answers₂,
      m₁.Separate m₂) ↔ w.KeepsApart s₁ s₂ := by
  constructor
  · intro h
    by_contra hno
    unfold Worker.KeepsApart at hno
    push Not at hno
    obtain ⟨hs, ht, hp, watch₁, hw₁, watch₂, hw₂, hm, hd⟩ := hno
    -- the two monitors exist as soon as there is no baseline
    have hsep := h _ _ _ (Worker.mem_plan_none hw₁) _ (Worker.mem_plan_none hw₂)
    exact (Monitor.separate_iff rfl rfl).mp hsep ⟨hs, ht, hp, hm, hd⟩
  · intro h answers₁ answers₂ m₁ hm₁ m₂ hm₂
    obtain ⟨watch₁, hw₁, b₁, rfl⟩ := Worker.mem_plan hm₁
    obtain ⟨watch₂, hw₂, b₂, rfl⟩ := Worker.mem_plan hm₂
    exact (Monitor.separate_iff rfl rfl).mpr (h.not_alike hw₁ hw₂)

/-- **The workers of series that are kept apart never write the same row**, in any run. -/
theorem workers_separate (p : Pipeline V S) (db : Stores S) (moves : List Move)
    {s₁ s₂ : DiscoveredSeries} (h : p.worker.KeepsApart s₁ s₂) {g₁ g₂ : Goroutine V S}
    (hg₁ : (run (System.step p) (System.boot db) moves).routes.lookup s₁ = some g₁)
    (hg₂ : (run (System.step p) (System.boot db) moves).routes.lookup s₂ = some g₂)
    {m₁ m₂ : Monitor V S} (hm₁ : m₁ ∈ g₁.monitors) (hm₂ : m₂ ∈ g₂.monitors) : m₁.Separate m₂ := by
  have hprov : (run (System.step p) (System.boot db) moves).Provenance p :=
    run_always (fun _ move hs => hs.step move) (System.provenance_boot p db)
  obtain ⟨watch₁, hw₁, hmw₁⟩ := (hprov.workers _ _ hg₁).monitors m₁ hm₁
  obtain ⟨watch₂, hw₂, hmw₂⟩ := (hprov.workers _ _ hg₂).monitors m₂ hm₂
  rw [Monitor.separate_iff hmw₁.srcIp hmw₂.srcIp, hmw₁.key, hmw₂.key]
  exact h.not_alike hw₁ hw₂

/-- A worker with the default registry, on which only the detector of paths is registered. -/
def pathWorker : Worker Extracted Nat :=
  { pr := createDefaultRegistry, detectors := fun d => if d = .freq then some tally else none }

/-- A trace of agent "a" to one target, from the given address. -/
def traceFrom (src : String) : MeasurementEvent :=
  { type := .trace, serialId := "a", target := "10.0.0.1", port := 0, src, timestamp := newYear
    metrics := [] }

/-- Two sources, two series, and one row for both. -/
theorem traces_share_rows :
    ¬ ∀ (w : Worker Extracted Nat) (e₁ e₂ : MeasurementEvent) (s₁ s₂ : DiscoveredSeries),
      seriesFromEvent e₁ = some s₁ → seriesFromEvent e₂ = some s₂ → s₁ ≠ s₂ →
      ∀ answers₁ answers₂, ∀ m₁ ∈ w.plan s₁ answers₁, ∀ m₂ ∈ w.plan s₂ answers₂,
        m₁.Separate m₂ := by
  intro h
  have hsep := h pathWorker (traceFrom "192.168.0.1") (traceFrom "192.168.0.2") _ _ rfl rfl
    (by decide) (fun _ => some none) (fun _ => some none) _ List.mem_cons_self _ List.mem_cons_self
  exact hsep.rows rfl

end Cepheus.Argus
