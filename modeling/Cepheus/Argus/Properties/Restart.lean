import Cepheus.Argus.Properties.Success

/-!
# Restarting the engine

An engine that is restarted reads its states back from `argus_policy_state`: `ApplyFinding` the one
it needs, `Sweep` those that are not clean. `Twins` runs such an engine beside one that keeps its
memory, with the same calls.

* `PolicyState.Remembers` - equal states, up to findings that only one of them has in memory
* `SweepsRows` - what a sweep does to the tables, when no entry of the map differs from its row
* `restart_transparent` - the tables of both engines stay the same, as long as no entry that has to
  be read back differs from its row, and no finding that has been forgotten would set the peak
-/

namespace Cepheus.Argus

open Infra

/-! ## Two engines -/

/-- An engine that keeps running and one that has been restarted, each with its own tables. -/
structure Twins where
  kept : World
  restarted : World

/-- Both engines take a step. -/
def Twins.step (cfg : PolicyEngineConfig) (t : Twins) (c : Call × Call) : Twins :=
  { kept := Argus.step cfg t.kept c.1, restarted := Argus.step cfg t.restarted c.2 }

/-- The engine is restarted beside the one that keeps running. -/
def World.twins (w : World) : Twins := { kept := w, restarted := w.restart }

/-- Two engines get the same call. They sweep at the same time, each over its own map. -/
def Call.SameAs : Call → Call → Prop
  | .sweep env, .sweep env' => env.now = env'.now
  | .restart, _ => False
  | c, c' => c = c'

/-- The instants of the call have the precision that the table keeps. -/
def Call.AtMicros : Call → Prop
  | .insertFinding _ finding _ _ => Time.micros finding.ts = finding.ts
  | .applyFinding _ finding _ env =>
    Time.micros finding.ts = finding.ts ∧ Time.micros env.now = env.now
  | .sweep env => Time.micros env.now = env.now
  | .restart => True

instance : DecidablePred Call.AtMicros
  | .insertFinding _ finding _ _ =>
    inferInstanceAs (Decidable (Time.micros finding.ts = finding.ts))
  | .applyFinding _ finding _ env =>
    inferInstanceAs (Decidable (Time.micros finding.ts = finding.ts ∧
      Time.micros env.now = env.now))
  | .sweep env => inferInstanceAs (Decidable (Time.micros env.now = env.now))
  | .restart => inferInstanceAs (Decidable True)

/-- Both engines get the same call, and nothing fails. -/
structure Twins.Serves (t : Twins) (c : Call × Call) : Prop where
  same : c.1.SameAs c.2
  planned : c.1.Planned
  legal : c.1.Legal t.kept
  succeeds : c.1.Succeeds t.kept
  legal' : c.2.Legal t.restarted
  succeeds' : c.2.Succeeds t.restarted

/-- The columns of an event that are fixed when it is opened. -/
def EventRow.opening (ev : EventRow) : Time × Int × ℚ :=
  (ev.openedAt, ev.findingCount, ev.peakSeverity)

/-- Both engines have left the same events, attachments and policy states. -/
structure Twins.Agree (t : Twins) : Prop where
  events : ∀ e, (t.kept.db.events.lookup e).map EventRow.opening =
    (t.restarted.db.events.lookup e).map EventRow.opening
  attached : ∀ id, t.kept.db.eventOf id = t.restarted.db.eventOf id
  policyStates : t.kept.db.policyStates = t.restarted.db.policyStates

/-- The state of `k` in memory, if there is one, is the one in its row. -/
def World.InStep (w : World) (k : SeriesKey) : Prop :=
  ∀ s ∈ w.states.lookup k, w.db.policyStates.lookup k.rowKey = some s.row

instance (w : World) (k : SeriesKey) : Decidable (w.InStep k) :=
  inferInstanceAs (Decidable (∀ s ∈ w.states.lookup k,
    w.db.policyStates.lookup k.rowKey = some s.row))

/--
The call does not show that the engine was restarted.

* `ApplyFinding` - a state that is read back is the one in memory, and if it opens an event, no
  pending finding is more severe than all those the restarted engine has in memory
* `Sweep` - no state in memory differs from its row, and one that is clean, which `Sweep` does not
  read back, has a copy in the restarted engine already
-/
def Twins.Hides (cfg : PolicyEngineConfig) (t : Twins) : Call → Prop
  | .applyFinding k finding id env =>
    (k ∈ t.restarted.states.keys ∨ t.kept.InStep k) ∧
      ∀ s ∈ (loadState env k t.kept).toOption, ∀ s' ∈ (loadState env k t.restarted).toOption,
        s.CrossesOpen cfg finding → ∀ pf ∈ (s.watch cfg finding id).pendingFindings,
          ∀ f ∈ pf.finding, ∃ pf' ∈ (s'.watch cfg finding id).pendingFindings,
            ∃ f' ∈ pf'.finding, f.severity ≤ f'.severity
  | .sweep _ => ∀ k ∈ t.kept.states.keys, t.kept.InStep k ∧
      ((∃ s ∈ t.kept.states.lookup k, s.status ≠ .clean) ∨
        ∃ k' ∈ t.restarted.states.keys, k'.rowKey = k.rowKey)
  | _ => True

instance (cfg : PolicyEngineConfig) (t : Twins) : DecidablePred (t.Hides cfg)
  | .insertFinding .. => inferInstanceAs (Decidable True)
  | .applyFinding k finding id env => inferInstanceAs (Decidable
      ((k ∈ t.restarted.states.keys ∨ t.kept.InStep k) ∧
        ∀ s ∈ (loadState env k t.kept).toOption, ∀ s' ∈ (loadState env k t.restarted).toOption,
          s.CrossesOpen cfg finding → ∀ pf ∈ (s.watch cfg finding id).pendingFindings,
            ∀ f ∈ pf.finding, ∃ pf' ∈ (s'.watch cfg finding id).pendingFindings,
              ∃ f' ∈ pf'.finding, f.severity ≤ f'.severity))
  | .sweep _ => inferInstanceAs (Decidable (∀ k ∈ t.kept.states.keys, t.kept.InStep k ∧
      ((∃ s ∈ t.kept.states.lookup k, s.status ≠ .clean) ∨
        ∃ k' ∈ t.restarted.states.keys, k'.rowKey = k.rowKey)))
  | .restart => inferInstanceAs (Decidable True)

/-! ## States that differ in what they have forgotten -/

/-- Equal states, except that `s'` may have forgotten some of the pending findings, of which it
still has the ids. -/
structure PolicyState.Remembers (s s' : PolicyState) : Prop where
  status : s.status = s'.status
  statusUpdatedAt : s.statusUpdatedAt = s'.statusUpdatedAt
  bucketState : s.bucketState = s'.bucketState
  openEventId : s.openEventId = s'.openEventId
  ids : s.pendingFindings.map PendingFinding.id = s'.pendingFindings.map PendingFinding.id
  known : ∀ pf ∈ s'.pendingFindings, pf.finding ≠ none → pf ∈ s.pendingFindings

/-- Reading a row back loses nothing of the row. -/
theorem PolicyRow.row_hydrate (row : PolicyRow) : row.hydrate.row = row := by
  simp [PolicyRow.hydrate, PolicyState.row, Function.comp_def]

namespace PolicyState.Remembers

variable {s s' : PolicyState}

theorem refl (s : PolicyState) : s.Remembers s := ⟨rfl, rfl, rfl, rfl, rfl, fun _ h _ => h⟩

theorem row (h : s.Remembers s') : s.row = s'.row := by
  unfold PolicyState.row
  rw [h.status, h.statusUpdatedAt, h.bucketState, h.openEventId, h.ids]

/-- A state remembers what is read back from its row. -/
theorem of_row {row : PolicyRow} (h : s.row = row) : s.Remembers row.hydrate := by
  subst h
  refine ⟨rfl, rfl, rfl, rfl, ?_, ?_⟩
  · simp [PolicyState.row, PolicyRow.hydrate, Function.comp_def]
  · intro pf hpf hne
    -- no finding is read back
    obtain ⟨id, -, rfl⟩ := List.mem_map.mp hpf
    exact absurd rfl hne

theorem stored (h : s.Remembers s') : s.stored = s'.stored := by
  unfold PolicyState.stored
  rw [h.row, h.statusUpdatedAt, h.bucketState]

variable {cfg : PolicyEngineConfig} {finding : Finding} {id : Uuid} {now : Time}

theorem crossesOpen (h : s.Remembers s') :
    s.CrossesOpen cfg finding ↔ s'.CrossesOpen cfg finding := by
  unfold PolicyState.CrossesOpen
  rw [h.bucketState]

theorem score (h : s.Remembers s') : (s.score cfg finding).Remembers (s'.score cfg finding) :=
  ⟨h.status, h.statusUpdatedAt, by simp [PolicyState.score, h.bucketState], h.openEventId, h.ids,
    h.known⟩

theorem watch (h : s.Remembers s') :
    (s.watch cfg finding id).Remembers (s'.watch cfg finding id) := by
  unfold PolicyState.watch
  rw [h.status]
  split
  · exact ⟨rfl, rfl, h.score.bucketState, h.openEventId, rfl, fun _ hpf _ => hpf⟩
  · refine ⟨h.status, h.statusUpdatedAt, h.score.bucketState, h.openEventId, ?_, ?_⟩
    · simp [PolicyState.keepWatching, PolicyState.score, h.ids]
    · intro pf hpf hne
      rcases List.mem_append.mp hpf with hpf | hpf
      · exact List.mem_append_left _ (h.known pf hpf hne)
      · exact List.mem_append_right _ hpf

theorem fire (h : s.Remembers s') (e : Uuid) : (s.fire finding e).Remembers (s'.fire finding e) :=
  ⟨rfl, rfl, h.bucketState, rfl, rfl, fun _ hpf _ => hpf⟩

theorem enter (h : s.Remembers s') (status : PolicyStateStatus) (ts : Time) :
    (s.enter status ts).Remembers (s'.enter status ts) :=
  ⟨rfl, rfl, h.bucketState, h.openEventId, h.ids, h.known⟩

theorem drain (h : s.Remembers s') : (s.drain cfg now).Remembers (s'.drain cfg now) :=
  ⟨h.status, h.statusUpdatedAt, by simp [PolicyState.drain, h.bucketState], h.openEventId, h.ids,
    h.known⟩

theorem closeDue (h : s.Remembers s') : s.CloseDue cfg now ↔ s'.CloseDue cfg now := by
  unfold PolicyState.CloseDue
  rw [h.status, h.statusUpdatedAt]

theorem closes (h : s.Remembers s') {o : Outcome} {e : Uuid} :
    s.Closes cfg now o e ↔ s'.Closes cfg now o e := by
  unfold PolicyState.Closes
  rw [h.closeDue, h.openEventId]

theorem swept (h : s.Remembers s') (o : Outcome) :
    (s.swept cfg now o).Remembers (s'.swept cfg now o) := by
  have hclose : (s.CloseDue cfg now ∧ s.openEventId ≠ none ∧ o = .ok) ↔
      (s'.CloseDue cfg now ∧ s'.openEventId ≠ none ∧ o = .ok) := by
    rw [h.closeDue, h.openEventId]
  unfold PolicyState.swept
  rw [h.status, h.statusUpdatedAt, h.bucketState]
  split
  · exact ⟨rfl, rfl, rfl, h.openEventId, rfl, fun _ hpf _ => hpf⟩
  · split
    · exact h.drain.enter _ _
    · by_cases hc : s'.CloseDue cfg now ∧ s'.openEventId ≠ none ∧ o = .ok
      · rw [if_pos hc, if_pos (hclose.mpr hc)]
        exact ⟨rfl, rfl, h.drain.bucketState, rfl, rfl, fun _ hpf _ => hpf⟩
      · rw [if_neg hc, if_neg (mt hclose.mp hc)]
        exact h.drain

/-- The peak is that of the findings in memory, so it is the same if none of those forgotten is
higher than the others. -/
theorem peakSeverity (h : s.Remembers s')
    (hpeak : ∀ pf ∈ s.pendingFindings, ∀ f ∈ pf.finding, ∃ pf' ∈ s'.pendingFindings,
      ∃ f' ∈ pf'.finding, f.severity ≤ f'.severity) :
    Argus.peakSeverity finding s.pendingFindings =
      Argus.peakSeverity finding s'.pendingFindings := by
  obtain ⟨hmem, hle, hall⟩ := peakSeverity_spec finding s.pendingFindings
  obtain ⟨hmem', hle', hall'⟩ := peakSeverity_spec finding s'.pendingFindings
  apply le_antisymm
  · rcases hmem with hmem | ⟨pf, hpf, f, hf, hmem⟩
    · rw [hmem]
      exact hle'
    · obtain ⟨pf', hpf', f', hf', hfle⟩ := hpeak pf hpf f hf
      rw [← hmem]
      exact hfle.trans (hall' pf' hpf' f' hf')
  · rcases hmem' with hmem' | ⟨pf, hpf, f, hf, hmem'⟩
    · rw [hmem']
      exact hle
    · rw [← hmem']
      refine hall pf (h.known pf hpf ?_) f hf
      rw [hf]
      exact Option.some_ne_none f

end PolicyState.Remembers

/-! ## ApplyFinding -/

section

variable {cfg : PolicyEngineConfig} {env : ApplyEnv} {k : SeriesKey} {finding : Finding} {id : Uuid}
  {s s' : PolicyState} {db : Database}

/-- States that remember the same peak open the same event. -/
theorem OpensEvent.congr {tx tx' : Database} (h : s.Remembers s')
    (hpeak : peakSeverity finding s.pendingFindings = peakSeverity finding s'.pendingFindings)
    (htx : OpensEvent env k s finding db tx) (htx' : OpensEvent env k s' finding db tx') :
    tx = tx' := by
  have hlen : s.pendingFindings.length = s'.pendingFindings.length := by
    simpa using congrArg List.length h.ids
  have hrow : openedRow k s finding = openedRow k s' finding := by
    unfold openedRow
    rw [hlen, hpeak]
  refine Database.ext (htx.policyStates.trans htx'.policyStates.symm) ?_ ?_
  · rw [htx.events, htx'.events, hrow]
  · refine Finmap.ext_lookup ?_
    intro i
    rw [htx.findings, htx'.findings, h.ids]

/-- **`ApplyFinding` does not see what has been forgotten**, except for the peak of a new event. -/
theorem AppliedOk.congr {r r' : PolicyState × Database} (h : s.Remembers s')
    (hpeak : s.CrossesOpen cfg finding →
      peakSeverity finding (s.watch cfg finding id).pendingFindings =
        peakSeverity finding (s'.watch cfg finding id).pendingFindings)
    (ha : AppliedOk cfg env k finding id s db r) (ha' : AppliedOk cfg env k finding id s' db r') :
    r.1.Remembers r'.1 ∧ r.2 = r'.2 := by
  have hst := h.status
  have hid := h.openEventId
  cases ha with
  | watch hq hc =>
    cases ha' with
    | watch => exact ⟨h.watch, rfl⟩
    | opened _ _ hc' => exact absurd (h.crossesOpen.mpr hc') hc
    | attach _ hs => exact absurd (.inl (hst.trans hs)) hq.not_alarmed
    | refire _ hs => exact absurd (.inr (hst.trans hs)) hq.not_alarmed
  | opened tx hq hc htx =>
    cases ha' with
    | watch _ hc' => exact absurd (h.crossesOpen.mp hc) hc'
    | opened tx' _ _ htx' => exact ⟨h.watch.fire _, htx.congr h.watch (hpeak hc) htx'⟩
    | attach _ hs => exact absurd (.inl (hst.trans hs)) hq.not_alarmed
    | refire _ hs => exact absurd (.inr (hst.trans hs)) hq.not_alarmed
  | attach e hs he =>
    cases ha' with
    | watch hq => exact absurd (.inl (hst.symm.trans hs)) hq.not_alarmed
    | opened _ hq => exact absurd (.inl (hst.symm.trans hs)) hq.not_alarmed
    | attach e' _ he' =>
      obtain rfl : e = e' := Option.some.inj (he.symm.trans (hid.trans he'))
      exact ⟨h.score, rfl⟩
    | refire _ hs' => exact absurd (hs.symm.trans (hst.trans hs')) (by simp)
  | refire e hs he =>
    cases ha' with
    | watch hq => exact absurd (.inr (hst.symm.trans hs)) hq.not_alarmed
    | opened _ hq => exact absurd (.inr (hst.symm.trans hs)) hq.not_alarmed
    | attach _ hs' => exact absurd (hs.symm.trans (hst.trans hs')) (by simp)
    | refire e' _ he' =>
      obtain rfl : e = e' := Option.some.inj (he.symm.trans (hid.trans he'))
      exact ⟨h.score.enter _ _, rfl⟩

end

/-! ## Sweep -/

/-- What a sweep makes of a row, when the state it sweeps is the one in the row. -/
def PolicyRow.swept (cfg : PolicyEngineConfig) (now : Time) (row : PolicyRow) : PolicyRow :=
  (row.hydrate.swept cfg now .ok).stored

/-- The rows that have an entry in the map. -/
def World.readRows (w : World) : Set RowKey := { r | ∃ k ∈ w.states.keys, k.rowKey = r }

/-- What a sweep does to the tables, in terms of the rows `R` that have an entry in the map. -/
structure SweepsRows (cfg : PolicyEngineConfig) (now : Time) (R : Set RowKey) (db db' : Database) :
    Prop where
  swept : ∀ r ∈ R, db'.policyStates.lookup r =
    (db.policyStates.lookup r).map (PolicyRow.swept cfg now)
  unread : ∀ r ∉ R, db'.policyStates.lookup r = db.policyStates.lookup r
  closed : ∀ r ∈ R, ∀ row e, db.policyStates.lookup r = some row →
    row.hydrate.Closes cfg now .ok e →
      db'.events.lookup e = (db.events.lookup e).map (EventRow.close · now)
  kept : ∀ e, (∀ r ∈ R, ∀ row, db.policyStates.lookup r = some row →
      ¬ row.hydrate.Closes cfg now .ok e) → db'.events.lookup e = db.events.lookup e
  findings : db'.findings = db.findings

section

variable {cfg : PolicyEngineConfig} {now : Time} {R : Set RowKey} {db db₁ db₂ : Database}
  {w : World}

/-- The rows that are in memory determine what a sweep does. -/
theorem SweepsRows.unique (h₁ : SweepsRows cfg now R db db₁) (h₂ : SweepsRows cfg now R db db₂) :
    db₁ = db₂ := by
  refine Database.ext ?_ ?_ (h₁.findings.trans h₂.findings.symm)
  · refine Finmap.ext_lookup ?_
    intro r
    by_cases hr : r ∈ R
    · rw [h₁.swept r hr, h₂.swept r hr]
    · rw [h₁.unread r hr, h₂.unread r hr]
  · refine Finmap.ext_lookup ?_
    intro e
    by_cases hex : ∃ r ∈ R, ∃ row, db.policyStates.lookup r = some row ∧
        row.hydrate.Closes cfg now .ok e
    · obtain ⟨r, hr, row, hrow, hcl⟩ := hex
      rw [h₁.closed r hr row e hrow hcl, h₂.closed r hr row e hrow hcl]
    · have hno : ∀ r ∈ R, ∀ row, db.policyStates.lookup r = some row →
          ¬ row.hydrate.Closes cfg now .ok e :=
        fun r hr row hrow hcl => hex ⟨r, hr, row, hrow, hcl⟩
      rw [h₁.kept e hno, h₂.kept e hno]

/-- **A sweep over states that are in step with their rows sweeps the rows.** -/
theorem step_sweep_rows {env : SweepEnv} (hl : env.Legal w) (henv : env.Succeeds)
    (hin : ∀ k, (w.hydrated env.rows).InStep k) :
    SweepsRows cfg env.now (w.hydrated env.rows).readRows w.db (step cfg w (.sweep env)).db := by
  have hall := @step_sweep cfg w env hl henv
  refine ⟨?_, ?_, ?_, ?_, hall.findings⟩
  · intro r hr
    rcases hall.rows r with ⟨k, -, s, hs, rfl, -, hrow⟩ | ⟨hno, -⟩
    · have hin : w.db.policyStates.lookup k.rowKey = some s.row := hin k s hs
      rw [hrow, henv.closeEvent k, hin]
      exact congrArg some ((PolicyState.Remembers.of_row rfl).swept .ok).stored
    · obtain ⟨k, hk, rfl⟩ := hr
      obtain ⟨s, hs⟩ := Table.mem_keys.mp hk
      have hno := hno k (hl.mem_order.mpr ⟨s, hs⟩) s hs rfl
      rw [henv.upsert k] at hno
      exact absurd trivial hno
  · intro r hr
    rcases hall.rows r with ⟨k, -, s, hs, hk, -⟩ | ⟨-, hrow⟩
    · exact absurd ⟨k, Table.mem_keys.mpr ⟨s, hs⟩, hk⟩ hr
    · exact hrow
  · rintro r ⟨k, hk, rfl⟩ row e hrow hcl
    obtain ⟨s, hs⟩ := Table.mem_keys.mp hk
    have hrow' : s.row = row := Option.some.inj ((hin k s hs).symm.trans hrow)
    refine hall.closed k (hl.mem_order.mpr ⟨s, hs⟩) s e hs ?_
    rw [henv.closeEvent k]
    exact (PolicyState.Remembers.of_row hrow').closes.mpr hcl
  · intro e he
    refine hall.kept e ?_
    intro k hk s hs hcl
    rw [henv.closeEvent k] at hcl
    exact he k.rowKey ⟨k, Table.mem_keys.mpr ⟨s, hs⟩, rfl⟩ s.row (hin k s hs)
      ((PolicyState.Remembers.of_row rfl).closes.mp hcl)

end

/-- A row that is not clean has an entry after the first loop of `Sweep`. -/
theorem SweepEnv.Legal.exists_hydrated {w : World} {env : SweepEnv} (hl : env.Legal w) {r : RowKey}
    {row : PolicyRow} (hrow : w.db.policyStates.lookup r = some row) (hc : row.status ≠ .clean) :
    ∃ s, (w.hydrated env.rows).states.lookup r.hydratedKey = some s := by
  have hmem : r ∈ env.rows := by
    rw [← List.mem_toFinset, hl.rows_eq]
    exact Table.mem_keys.mpr ⟨row, hrow⟩
  exact hydrateStates_mem (mem_listNonCleanPolicyStates.mpr ⟨hmem, hrow, hc⟩)

/-! ## Both engines -/

/-- The tables are the same, and what the restarted engine has in memory, the other one remembers
too. -/
structure Twins.Related (t : Twins) : Prop where
  db : t.kept.db = t.restarted.db
  states : ∀ k s', t.restarted.states.lookup k = some s' →
    ∃ s, t.kept.states.lookup k = some s ∧ s.Remembers s'
  sourceless : t.kept.Sourceless
  sourceless' : t.restarted.Sourceless
  shows : ShowsAlarms t.kept
  shows' : ShowsAlarms t.restarted

section

variable {cfg : PolicyEngineConfig} {t : Twins}

/-- Both engines find the same state, or the restarted one reads it back. -/
theorem Twins.Related.loaded (h : t.Related) {k : SeriesKey} {env : ApplyEnv}
    (hk : k ∈ t.restarted.states.keys ∨ t.kept.InStep k) {s s' : PolicyState}
    (hs : loadState env k t.kept = .ok s) (hs' : loadState env k t.restarted = .ok s') :
    s.Remembers s' := by
  rcases loadState_cases hs' with hlk' | ⟨hn', hrow'⟩
  · obtain ⟨s₀, hlk, hrem⟩ := h.states k s' hlk'
    obtain rfl : s₀ = s := Except.ok.inj ((loadState_of_lookup hlk).symm.trans hs)
    exact hrem
  · rw [← h.db] at hrow'
    rcases loadState_cases hs with hlk | ⟨-, hrow⟩
    · -- only the engine that was restarted has to read the state
      have hin : t.kept.db.policyStates.lookup k.rowKey = some s.row :=
        hk.resolve_left (Table.notMem_keys.mpr hn') s hlk
      rcases hrow' with ⟨row, hrow, rfl⟩ | ⟨hnone, -⟩
      · exact .of_row (Option.some.inj (hin.symm.trans hrow))
      · rw [hin] at hnone
        cases hnone
    · -- both engines read it
      rcases hrow' with ⟨row, hr', rfl⟩ | ⟨hr', rfl⟩ <;>
        rcases hrow with ⟨row₀, hr, rfl⟩ | ⟨hr, rfl⟩
      · obtain rfl : row₀ = row := Option.some.inj (hr.symm.trans hr')
        exact .refl _
      · rw [hr] at hr'
        cases hr'
      · rw [hr] at hr'
        cases hr'
      · exact .refl _

/-- A finding for both engines. -/
theorem Twins.Related.applyFinding (h : t.Related) {k : SeriesKey} {finding : Finding} {id : Uuid}
    {env : ApplyEnv} (henv : env.Succeeds t.kept) (henv' : env.Succeeds t.restarted)
    (hide : t.Hides cfg (.applyFinding k finding id env)) {w w' : World}
    (hw : w = Argus.step cfg t.kept (.applyFinding k finding id env))
    (hw' : w' = Argus.step cfg t.restarted (.applyFinding k finding id env)) :
    w.db = w'.db ∧ ∀ k' s', w'.states.lookup k' = some s' →
      ∃ s, w.states.lookup k' = some s ∧ s.Remembers s' := by
  obtain ⟨s, r, db, hld, happ, hstep⟩ := @step_applyFinding cfg _ h.shows env henv k finding id
  obtain ⟨s', r', db', hld', happ', hstep'⟩ :=
    @step_applyFinding cfg _ h.shows' env henv' k finding id
  obtain ⟨hin, hpeak⟩ := hide
  have hrem : s.Remembers s' := h.loaded hin hld hld'
  rw [← h.db] at happ'
  obtain ⟨hr, hdb⟩ := happ.congr hrem
    (fun hc => hrem.watch.peakSeverity (hpeak s (by rw [hld]; rfl) s' (by rw [hld']; rfl) hc)) happ'
  dsimp only at hr hdb
  rw [hw, hw', hstep, hstep']
  refine ⟨by rw [hdb, hr.row], ?_⟩
  intro k' s₁ hs₁
  rw [Table.lookup_insert_if] at hs₁ ⊢
  split at hs₁
  · next hk => exact ⟨r, if_pos hk, Option.some.inj hs₁ ▸ hr⟩
  · next hk => rw [if_neg hk]; exact h.states k' s₁ hs₁

/-- What the restarted engine has in memory after the first loop of `Sweep`, the other one
remembers. -/
theorem Twins.Related.hydrated (h : t.Related) {env env' : SweepEnv} (hl : env.Legal t.kept)
    (hin : ∀ k ∈ t.kept.states.keys, t.kept.InStep k) {k : SeriesKey} {s' : PolicyState}
    (hs' : (t.restarted.hydrated env'.rows).states.lookup k = some s') :
    ∃ s, (t.kept.hydrated env.rows).states.lookup k = some s ∧ s.Remembers s' := by
  rcases Argus.hydrated_cases hs' with hlk' | ⟨-, r, row, hrow, hc, rfl, rfl⟩
  · obtain ⟨s, hlk, hrem⟩ := h.states k s' hlk'
    exact ⟨s, hydrateStates_of_lookup hlk, hrem⟩
  · have hr : r.hydratedKey.rowKey = r := RowKey.rowKey_hydratedKey
      (h.sourceless'.rows r (Table.mem_keys.mpr ⟨row, hrow⟩))
    rw [← h.db] at hrow
    obtain ⟨s, hs⟩ := hl.exists_hydrated hrow hc
    refine ⟨s, hs, .of_row ?_⟩
    -- in memory or read back, the state is the one in the row
    rcases h.sourceless.hydrated_cases hs with hlk | ⟨-, -, row', hrow', -, rfl⟩
    · have hstep := hin _ (Table.mem_keys.mpr ⟨s, hlk⟩) s hlk
      rw [hr, hrow] at hstep
      exact (Option.some.inj hstep).symm
    · rw [hr, hrow] at hrow'
      obtain rfl := Option.some.inj hrow'
      exact row.row_hydrate

/-- After the first loop of `Sweep`, an entry is still the one in its row. -/
theorem World.Sourceless.inStep_hydrated {w : World} (h : w.Sourceless)
    (hin : ∀ k ∈ w.states.keys, w.InStep k) (rows : List RowKey) (k : SeriesKey) :
    (w.hydrated rows).InStep k := by
  intro s hs
  rcases h.hydrated_cases hs with hlk | ⟨-, -, row, hrow, -, rfl⟩
  · exact hin k (Table.mem_keys.mpr ⟨s, hlk⟩) s hlk
  · rw [row.row_hydrate]
    exact hrow

/-- Both engines sweep the same rows. -/
theorem Twins.Related.readRows (h : t.Related) {env env' : SweepEnv} (hl : env.Legal t.kept)
    (hl' : env'.Legal t.restarted) (hide : t.Hides cfg (.sweep env)) :
    (t.kept.hydrated env.rows).readRows = (t.restarted.hydrated env'.rows).readRows := by
  have hin : ∀ k ∈ t.kept.states.keys, t.kept.InStep k := fun k hk => (hide k hk).1
  ext r
  constructor
  · rintro ⟨k, hk, rfl⟩
    obtain ⟨s, hs⟩ := Table.mem_keys.mp hk
    -- a row that is not clean is read back
    have hread : ∀ row, t.kept.db.policyStates.lookup k.rowKey = some row → row.status ≠ .clean →
        k.rowKey ∈ (t.restarted.hydrated env'.rows).readRows := by
      intro row hrow hc
      rw [h.db] at hrow
      obtain ⟨s', hs'⟩ := hl'.exists_hydrated hrow hc
      exact ⟨_, Table.mem_keys.mpr ⟨s', hs'⟩, RowKey.rowKey_hydratedKey
        (h.sourceless'.rows _ (Table.mem_keys.mpr ⟨row, hrow⟩))⟩
    rcases h.sourceless.hydrated_cases hs with hlk | ⟨-, -, row, hrow, hc, -⟩
    · have hk₀ : k ∈ t.kept.states.keys := Table.mem_keys.mpr ⟨s, hlk⟩
      rcases (hide k hk₀).2 with ⟨s₀, hs₀, hc⟩ | ⟨k', hk', hrow⟩
      · exact hread s₀.row (hin k hk₀ s₀ hs₀) hc
      · obtain ⟨s', hs'⟩ := Table.mem_keys.mp hk'
        exact ⟨k', Table.mem_keys.mpr ⟨s', hydrateStates_of_lookup hs'⟩, hrow⟩
    · exact hread row hrow hc
  · rintro ⟨k, hk, rfl⟩
    obtain ⟨s', hs'⟩ := Table.mem_keys.mp hk
    obtain ⟨s, hs, -⟩ := h.hydrated hl hin hs'
    exact ⟨k, Table.mem_keys.mpr ⟨s, hs⟩, rfl⟩

/-- A sweep of both engines. -/
theorem Twins.Related.sweep (h : t.Related) {env env' : SweepEnv} (hnow : env.now = env'.now)
    (hl : env.Legal t.kept) (hok : env.Succeeds) (hl' : env'.Legal t.restarted)
    (hok' : env'.Succeeds) (hide : t.Hides cfg (.sweep env)) {w w' : World}
    (hw : w = Argus.step cfg t.kept (.sweep env))
    (hw' : w' = Argus.step cfg t.restarted (.sweep env')) :
    w.db = w'.db ∧ ∀ k s', w'.states.lookup k = some s' →
      ∃ s, w.states.lookup k = some s ∧ s.Remembers s' := by
  have hin : ∀ k ∈ t.kept.states.keys, t.kept.InStep k := fun k hk => (hide k hk).1
  have hin' : ∀ k ∈ t.restarted.states.keys, t.restarted.InStep k := by
    intro k _ s' hs'
    obtain ⟨s, hs, hrem⟩ := h.states k s' hs'
    rw [← h.db, ← hrem.row]
    exact hin k (Table.mem_keys.mpr ⟨s, hs⟩) s hs
  subst hw hw'
  constructor
  · have hrows := @step_sweep_rows cfg t.kept env hl hok
      (h.sourceless.inStep_hydrated hin env.rows)
    have hrows' := @step_sweep_rows cfg t.restarted env' hl' hok'
      (h.sourceless'.inStep_hydrated hin' env'.rows)
    rw [← h.readRows hl hl' hide, ← h.db, ← hnow] at hrows'
    exact hrows.unique hrows'
  · intro k s' hs'
    rw [step_sweep_states hl' hok'] at hs'
    obtain ⟨s₀', hs₀', rfl⟩ := Option.map_eq_some_iff.mp hs'
    obtain ⟨s₀, hs₀, hrem⟩ := h.hydrated hl hin hs₀'
    refine ⟨s₀.swept cfg env.now .ok, ?_, hnow ▸ hrem.swept .ok⟩
    rw [step_sweep_states hl hok, hs₀]
    rfl

/-- **A call that both engines get, and that hides the restart, keeps them related.** -/
theorem Twins.Related.step (h : t.Related) {c : Call × Call} (hc : t.Serves c)
    (hide : t.Hides cfg c.1) : (t.step cfg c).Related := by
  obtain ⟨c, c'⟩ := c
  obtain ⟨hsame, hp, hl, hok, hl', hok'⟩ := hc
  have hplanned' : c'.Planned := by
    cases c <;> cases c' <;> first | trivial | (cases hsame; exact hp)
  suffices hmain : (Argus.step cfg t.kept c).db = (Argus.step cfg t.restarted c').db ∧
      ∀ k s', (Argus.step cfg t.restarted c').states.lookup k = some s' →
        ∃ s, (Argus.step cfg t.kept c).states.lookup k = some s ∧ s.Remembers s' from
    ⟨hmain.1, hmain.2, h.sourceless.step hp, h.sourceless'.step hplanned', h.shows.step hl,
      h.shows'.step hl'⟩
  cases c with
  | insertFinding k finding id o =>
    obtain rfl : Call.insertFinding k finding id o = c' := by cases c' <;> exact hsame
    obtain rfl : o = .ok := hok
    rw [step_insertFinding, step_insertFinding, h.db]
    exact ⟨rfl, h.states⟩
  | applyFinding k finding id env =>
    obtain rfl : Call.applyFinding k finding id env = c' := by cases c' <;> exact hsame
    exact h.applyFinding hok hok' hide rfl rfl
  | sweep env =>
    cases c' with
    | sweep env' => exact h.sweep hsame hl hok hl' hok' hide rfl rfl
    | insertFinding => cases hsame
    | applyFinding => cases hsame
    | restart => cases hsame
  | restart => cases c' <;> exact hsame.elim

/--
**A restart leaves no trace in the tables.**

At every point of every run without failures: the engine that is restarted there and the one that
keeps its memory write the same rows, in whatever order they go through their maps. It takes that
no call meets a state that is not the one in its row and has to be read back, or a clean one that
is not, and that no finding which has been forgotten would have set the peak of an event.
-/
theorem restart_transparent (cfg : PolicyEngineConfig) {before : List Call}
    {after : List (Call × Call)}
    (hbefore : Along (Argus.step cfg) (fun w c => c.Legal w ∧ c.Succeeds w ∧ c.Planned) World.init
      before)
    (hafter : Along (Twins.step cfg) Twins.Serves (run (Argus.step cfg) World.init before).twins
      after)
    (hhides : Along (Twins.step cfg) (fun t c => t.Hides cfg c.1)
      (run (Argus.step cfg) World.init before).twins after) :
    Throughout (Twins.step cfg) (fun t => t.kept.db = t.restarted.db)
      (run (Argus.step cfg) World.init before).twins after := by
  have hstep : ∀ w c, ShowsAlarms w ∧ w.Sourceless → c.Legal w ∧ c.Succeeds w ∧ c.Planned →
      ShowsAlarms (Argus.step cfg w c) ∧ (Argus.step cfg w c).Sourceless := by
    rintro w c ⟨hw, hs⟩ ⟨hl, -, hp⟩
    exact ⟨hw.step hl, hs.step hp⟩
  obtain ⟨hw, hs⟩ := run_invariant hstep ⟨Pointwise.init _ _, World.Sourceless.init⟩ hbefore
  have hrelated : (run (Argus.step cfg) World.init before).twins.Related := by
    refine ⟨rfl, ?_, hs, hs.restart, hw, @ShowsAlarms.step cfg _ .restart hw trivial⟩
    intro k s' hs'
    simp [World.twins, World.restart] at hs'
  have hcalls := along_and.mpr ⟨hafter, hhides⟩
  exact (throughout_of_invariant (fun t c (ht : t.Related) hc => ht.step hc.1 hc.2) hrelated
    hcalls).imp fun t ht => ht.db

end

/-- Agent "a" is watched because of a finding of severity 9/2. -/
def watched : List Call := [.report (pingKey "a") (1000 * second) (9 / 2) 0 0]

theorem watched_succeeds :
    Along (step startConfig) (fun w c => c.Legal w ∧ c.Succeeds w ∧ c.Planned) World.init watched :=
  ⟨⟨trivial, ApplyEnv.succeeds_ok (by decide +kernel), by decide +kernel⟩, trivial⟩

/-- Both engines get the call as it is. -/
def Call.both (c : Call) : Call × Call := (c, c)

/-- After the restart a finding of severity 1 opens the event: the peak is 9/2 for the engine that
kept its memory, and 1 for the other. -/
theorem watched_peak_forgotten :
    ¬ ∀ (cfg : PolicyEngineConfig) (before : List Call) (after : List (Call × Call)),
      Along (step cfg) (fun w c => (c.Legal w ∧ c.Succeeds w ∧ c.Planned) ∧ c.AtMicros) World.init
        before →
      Along (Twins.step cfg) (fun t c => t.Serves c ∧ c.1.AtMicros)
        (run (step cfg) World.init before).twins after →
      Throughout (Twins.step cfg) Twins.Agree (run (step cfg) World.init before).twins after := by
  intro h
  have hagree := (h startConfig watched [Call.both (.report (pingKey "a") (1001 * second) 1 1 1)]
    (along_and.mpr ⟨watched_succeeds, by decide +kernel, trivial⟩)
    ⟨⟨⟨rfl, by decide +kernel, trivial, ApplyEnv.succeeds_ok (by decide +kernel), trivial,
      ApplyEnv.succeeds_ok (by decide +kernel)⟩, by decide +kernel⟩, trivial⟩).last
  exact absurd (hagree.events 1) (by decide +kernel)

/-- After the restart both engines sweep, and then a finding of severity 5 opens the event. -/
def sweepAndOpen : List (Call × Call) :=
  [(.sweep (SweepEnv.ok (1010 * second) [(pingKey "a").rowKey]
      [pingKey "a", (pingKey "a").rowKey.hydratedKey]),
    .sweep (SweepEnv.ok (1010 * second) [(pingKey "a").rowKey]
      [(pingKey "a").rowKey.hydratedKey])),
   Call.both (.report (pingKey "a") (1011 * second) 5 1 1)]

/-- The tables stay the same. -/
theorem sweepAndOpen_transparent :
    Throughout (Twins.step startConfig) (fun t => t.kept.db = t.restarted.db)
      (run (step startConfig) World.init watched).twins sweepAndOpen :=
  restart_transparent startConfig watched_succeeds
    ⟨⟨rfl, trivial, by decide +kernel, SweepEnv.succeeds_ok _ _ _, by decide +kernel,
        SweepEnv.succeeds_ok _ _ _⟩,
      ⟨rfl, by decide +kernel, trivial, ApplyEnv.succeeds_ok (by decide +kernel), trivial,
        ApplyEnv.succeeds_ok (by decide +kernel)⟩, trivial⟩
    ⟨by decide +kernel, by decide +kernel, trivial⟩

end Cepheus.Argus
