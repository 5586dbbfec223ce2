import Cepheus.Argus.Properties.Transition

/-!
# What a call does to the world

`ApplyFinding` and `Sweep` put together from the transitions of single states, and the rules by
which a property of worlds or of single states is carried over a call.

* `applyFinding_cases`, `sweepOne_cases` - one call, one round of the loop
* `sweepLoop_invariant`, `step_invariant` - a property of worlds over the loop, and over a step
* `sweepLoop_states`, `sweepLoop_rows` - every entry of the map is swept at most once
* `Pointwise.step` - a property that every state and every row has by itself
-/

namespace Cepheus.Argus

open Infra

/-! ## Rows and states -/

/-- The row the table keeps of a state. -/
def PolicyState.stored (state : PolicyState) : PolicyRow :=
  { state.row with
    scoreUpdatedAt := Time.micros state.bucketState.scoreUpdatedAt
    enteredStatusAt := Time.micros state.statusUpdatedAt }

theorem upsertPolicyState_policyStates (db : Database) (r : RowKey) (state : PolicyState) :
    (db.upsertPolicyState r state.row).policyStates = db.policyStates.insert r state.stored := rfl

theorem mem_listNonCleanPolicyStates {db : Database} {rows : List RowKey} {r : RowKey}
    {row : PolicyRow} :
    (r, row) ∈ db.listNonCleanPolicyStates rows ↔
      r ∈ rows ∧ db.policyStates.lookup r = some row ∧ row.status ≠ .clean := by
  unfold Database.listNonCleanPolicyStates
  rw [List.mem_filterMap]
  constructor
  · rintro ⟨r', hr', h⟩
    split at h
    · next row' hrow =>
      split at h
      · cases h
      · next hc =>
        simp only [Option.some.injEq, Prod.mk.injEq] at h
        obtain ⟨rfl, rfl⟩ := h
        exact ⟨hr', hrow, hc⟩
    · cases h
  · rintro ⟨hr, hrow, hc⟩
    exact ⟨r, hr, by simp [hrow, hc]⟩

/-! ## Loading a state -/

/-- Where the state `ApplyFinding` works on comes from. -/
theorem loadState_cases {env : ApplyEnv} {k : SeriesKey} {w : World} {s : PolicyState}
    (h : loadState env k w = .ok s) :
    w.states.lookup k = some s ∨
      w.states.lookup k = none ∧
        ((∃ row, w.db.policyStates.lookup k.rowKey = some row ∧ s = row.hydrate) ∨
          w.db.policyStates.lookup k.rowKey = none ∧ s = PolicyState.fresh env.now) := by
  unfold loadState at h
  split at h
  · next st hst =>
    simp only [Except.ok.injEq] at h
    exact .inl (h ▸ hst)
  · next hst =>
    refine .inr ⟨hst, ?_⟩
    split at h
    · cases h
    · split at h
      · next hrow =>
        simp only [Except.ok.injEq] at h
        exact .inr ⟨hrow, h.symm⟩
      · next row hrow =>
        simp only [Except.ok.injEq] at h
        exact .inl ⟨row, hrow, h.symm⟩

/-- Loading a state fails only if the statement does. -/
theorem loadState_error {env : ApplyEnv} {k : SeriesKey} {w : World} {h : Halt}
    (hl : loadState env k w = .error h) : env.getPolicyState.halt .getPolicyState = some h := by
  unfold loadState at hl
  split at hl
  · cases hl
  · split at hl
    · next hh => exact hh.trans (congrArg some (Except.error.inj hl))
    · split at hl <;> cases hl

/-- A state in memory is the one that is used. -/
theorem loadState_of_lookup {env : ApplyEnv} {k : SeriesKey} {w : World} {s : PolicyState}
    (h : w.states.lookup k = some s) : loadState env k w = .ok s := by
  simp [loadState, h]

theorem loadState_of_succeeds {env : ApplyEnv} {w : World} (henv : env.Succeeds w)
    (k : SeriesKey) : ∃ s, loadState env k w = .ok s := by
  unfold loadState
  cases w.states.lookup k with
  | some s => exact ⟨s, rfl⟩
  | none =>
    simp only [henv.getPolicyState, Outcome.halt]
    cases w.db.getPolicyState k.rowKey with
    | none => exact ⟨_, rfl⟩
    | some row => exact ⟨_, rfl⟩

/-! ## One call of ApplyFinding -/

/-- The tables once a state has been saved, or not. -/
def saved (o : Outcome) (k : SeriesKey) (state : PolicyState) (db : Database) : Database :=
  if o.Applies then db.upsertPolicyState k.rowKey state.row else db

@[simp] theorem saved_events (o : Outcome) (k : SeriesKey) (s : PolicyState) (db : Database) :
    (saved o k s db).events = db.events := by
  unfold saved
  split <;> rfl

@[simp] theorem saved_findings (o : Outcome) (k : SeriesKey) (s : PolicyState) (db : Database) :
    (saved o k s db).findings = db.findings := by
  unfold saved
  split <;> rfl

theorem lookup_saved (o : Outcome) (k : SeriesKey) (s : PolicyState) (db : Database)
    (r : RowKey) :
    (saved o k s db).policyStates.lookup r =
      if r = k.rowKey ∧ o.Applies then some s.stored else db.policyStates.lookup r := by
  unfold saved
  by_cases ho : o.Applies
  · rw [if_pos ho, upsertPolicyState_policyStates, Table.lookup_insert_if]
    simp [ho]
  · simp [ho]

/-- With its state loaded, a call of `ApplyFinding` takes one of the ways of `Applied`, and saves
the state when that way has no error. -/
theorem applyFinding_loaded (cfg : PolicyEngineConfig) (finding : Finding) (id : Uuid)
    {env : ApplyEnv} {k : SeriesKey} {w : World} {s : PolicyState}
    (hl : loadState env k w = .ok s) :
    ∃ s' db,
      (∃ h, Applied cfg env k finding id s w.db (s', db, some h) ∧
          applyFinding cfg env k finding id w =
            ({ states := w.states.insert k s', db }, some h)) ∨
        Applied cfg env k finding id s w.db (s', db, none) ∧
          applyFinding cfg env k finding id w =
            ({ states := w.states.insert k s', db := saved env.upsert k s' db },
              env.upsert.halt .upsertPolicyState) := by
  have ha := @onFinding_applied cfg env k finding id s w.db
  rcases hr : onFinding cfg env k finding id s w.db with ⟨s', db, _ | h⟩
  · rw [hr] at ha
    refine ⟨s', db, .inr ⟨ha, ?_⟩⟩
    simp [applyFinding, hl, hr, savePolicyState, Outcome.exec, saved]
  · rw [hr] at ha
    refine ⟨s', db, .inl ⟨h, ha, ?_⟩⟩
    simp [applyFinding, hl, hr]

/-- A call of `ApplyFinding` either cannot load its state and changes nothing, or it takes one of
the ways of `Applied` and saves the state when that way has no error. -/
theorem applyFinding_cases (cfg : PolicyEngineConfig) (env : ApplyEnv) (k : SeriesKey)
    (finding : Finding) (id : Uuid) (w : World) :
    (∃ h, loadState env k w = .error h ∧ applyFinding cfg env k finding id w = (w, some h)) ∨
      ∃ s s' db,
        loadState env k w = .ok s ∧
          ((∃ h, Applied cfg env k finding id s w.db (s', db, some h) ∧
              applyFinding cfg env k finding id w =
                ({ states := w.states.insert k s', db }, some h)) ∨
            Applied cfg env k finding id s w.db (s', db, none) ∧
              applyFinding cfg env k finding id w =
                ({ states := w.states.insert k s', db := saved env.upsert k s' db },
                  env.upsert.halt .upsertPolicyState)) := by
  cases hl : loadState env k w with
  | error h => exact .inl ⟨h, rfl, by simp [applyFinding, hl]⟩
  | ok s =>
    obtain ⟨s', db, h⟩ := applyFinding_loaded cfg finding id hl
    exact .inr ⟨s, s', db, rfl, h⟩

/-- Whatever way it takes, `ApplyFinding` does not touch the policy states before its save. -/
theorem Applied.policyStates {cfg : PolicyEngineConfig} {env : ApplyEnv} {k : SeriesKey}
    {finding : Finding} {id : Uuid} {s : PolicyState} {db : Database}
    {r : PolicyState × Database × Option Halt} (h : Applied cfg env k finding id s db r) :
    r.2.1.policyStates = db.policyStates := by
  cases h with
  | watch => rfl
  | refused => rfl
  | orphaned tx _ _ _ htx => exact (openEventTx_ok htx).policyStates
  | opened tx _ _ _ htx => exact (openEventTx_ok htx).policyStates
  | attach => dsimp only; split <;> rfl
  | refire => rfl
  | stuck => dsimp only; split <;> rfl
  | missing => rfl
  | other => rfl

/-! ## One round of the loop of Sweep -/

/-- A round of the loop takes one of the ways of `Swept`, and saves the state unless the event
could not be closed. -/
theorem sweepOne_cases (cfg : PolicyEngineConfig) (env : SweepEnv) (k : SeriesKey) (w : World) :
    (w.states.lookup k = none ∧ sweepOne cfg env k w = (w, none)) ∨
      ∃ s s' db,
        w.states.lookup k = some s ∧
          ((∃ h, Swept cfg env.now (env.closeEvent k) s w.db (s', db, some h) ∧
              sweepOne cfg env k w = ({ states := w.states.insert k s', db }, some h)) ∨
            Swept cfg env.now (env.closeEvent k) s w.db (s', db, none) ∧
              sweepOne cfg env k w =
                ({ states := w.states.insert k s', db := saved (env.upsert k) k s' db },
                  if env.upsert k = .crash then some .crash else none)) := by
  cases hl : w.states.lookup k with
  | none => exact .inl ⟨rfl, by simp [sweepOne, hl]⟩
  | some s =>
    have hw := @sweepState_swept cfg env.now (env.closeEvent k) s w.db
    refine .inr ⟨s, (sweepState cfg env.now (env.closeEvent k) s w.db).1,
      (sweepState cfg env.now (env.closeEvent k) s w.db).2.1, rfl, ?_⟩
    rcases hr : sweepState cfg env.now (env.closeEvent k) s w.db with ⟨s', db, _ | h⟩
    · rw [hr] at hw
      refine .inr ⟨hw, ?_⟩
      cases ho : env.upsert k <;>
        simp [sweepOne, hl, hr, savePolicyState, Outcome.exec, saved, ho, Outcome.halt,
          Outcome.Applies]
    · rw [hr] at hw
      refine .inl ⟨h, hw, ?_⟩
      simp [sweepOne, hl, hr]

theorem sweepOne_of_none {cfg : PolicyEngineConfig} {env : SweepEnv} {k : SeriesKey} {w : World}
    (h : w.states.lookup k = none) : sweepOne cfg env k w = (w, none) := by
  simp [sweepOne, h]

theorem Swept.policyStates {cfg : PolicyEngineConfig} {now : Time} {o : Outcome}
    {s : PolicyState} {db : Database} {r : PolicyState × Database × Option Halt}
    (h : Swept cfg now o s db r) : r.2.1.policyStates = db.policyStates := by
  cases h with
  | drain => rfl
  | expire => rfl
  | recover => rfl
  | close => rfl
  | unclosed => dsimp only; split <;> rfl

/-! ## Hydration -/

/-- Hydration keeps what is in memory. -/
theorem hydrateStates_of_lookup {k : SeriesKey} {s : PolicyState} :
    ∀ {rows : List (RowKey × PolicyRow)} {states : Table SeriesKey PolicyState},
      states.lookup k = some s → (hydrateStates states rows).lookup k = some s
  | [], _, h => h
  | (r, row) :: rest, states, h => by
    unfold hydrateStates
    split
    · exact hydrateStates_of_lookup h
    · next hr =>
      refine hydrateStates_of_lookup ?_
      rw [Table.lookup_insert_if, if_neg, h]
      rintro rfl
      exact hr (Finmap.mem_iff.mpr ⟨s, h⟩)

/-- A state after hydration was in memory before, or is read from a row. -/
theorem hydrateStates_cases {k : SeriesKey} {s : PolicyState} :
    ∀ {rows : List (RowKey × PolicyRow)} {states : Table SeriesKey PolicyState},
      (hydrateStates states rows).lookup k = some s →
        states.lookup k = some s ∨
          states.lookup k = none ∧ ∃ r row, (r, row) ∈ rows ∧ r.hydratedKey = k ∧ s = row.hydrate
  | [], _, h => .inl h
  | (r, row) :: rest, states, h => by
    unfold hydrateStates at h
    split at h
    · rcases hydrateStates_cases h with h | ⟨hn, r', row', hm, hk, hs⟩
      · exact .inl h
      · exact .inr ⟨hn, r', row', List.mem_cons_of_mem _ hm, hk, hs⟩
    · next hr =>
      have hnone : states.lookup r.hydratedKey = none := Finmap.lookup_eq_none.mpr hr
      rcases hydrateStates_cases h with hi | ⟨hn, r', row', hm, hk, hs⟩
      · rw [Table.lookup_insert_if] at hi
        split at hi
        · next hk =>
          simp only [Option.some.injEq] at hi
          subst hk
          exact .inr ⟨hnone, r, row, by simp, rfl, hi.symm⟩
        · exact .inl hi
      · rw [Table.lookup_insert_if] at hn
        split at hn
        · cases hn
        · exact .inr ⟨hn, r', row', List.mem_cons_of_mem _ hm, hk, hs⟩

/-- Every listed row is in memory after hydration. -/
theorem hydrateStates_mem {r : RowKey} {row : PolicyRow} :
    ∀ {rows : List (RowKey × PolicyRow)} {states : Table SeriesKey PolicyState},
      (r, row) ∈ rows → ∃ s, (hydrateStates states rows).lookup r.hydratedKey = some s
  | (r', row') :: rest, states, h => by
    unfold hydrateStates
    rcases List.mem_cons.mp h with heq | h
    · obtain ⟨rfl, rfl⟩ := Prod.mk.injEq .. ▸ heq
      split
      · next hr =>
        obtain ⟨s, hs⟩ := Finmap.mem_iff.mp hr
        exact ⟨s, hydrateStates_of_lookup hs⟩
      · exact ⟨_, hydrateStates_of_lookup (by rw [Table.lookup_insert_if, if_pos rfl])⟩
    · split
      · exact hydrateStates_mem h
      · exact hydrateStates_mem h

/-- A state after the first loop of `Sweep` was in memory, or is read from a row of the table
that is not clean. -/
theorem hydrated_cases {w : World} {rows : List RowKey} {k : SeriesKey} {s : PolicyState}
    (h : (w.hydrated rows).states.lookup k = some s) :
    w.states.lookup k = some s ∨
      w.states.lookup k = none ∧ ∃ r row, w.db.policyStates.lookup r = some row ∧
        row.status ≠ .clean ∧ r.hydratedKey = k ∧ s = row.hydrate := by
  rcases hydrateStates_cases h with h | ⟨hn, r, row, hm, hk, hs⟩
  · exact .inl h
  · obtain ⟨-, hrow, hc⟩ := mem_listNonCleanPolicyStates.mp hm
    exact .inr ⟨hn, r, row, hrow, hc, hk, hs⟩

/-! ## The loop of Sweep -/

/-- What every round of the loop preserves, the loop preserves. -/
theorem sweepLoop_invariant {cfg : PolicyEngineConfig} {env : SweepEnv} {Inv : World → Prop}
    (hstep : ∀ w k, Inv w → Inv (sweepOne cfg env k w).1) :
    ∀ {order : List SeriesKey} {w : World}, Inv w → Inv (sweepLoop cfg env order w).1
  | [], _, hw => hw
  | k :: rest, w, hw => by
    have h1 := hstep w k hw
    unfold sweepLoop
    split
    · next w' h hx => rw [hx] at h1; exact h1
    · next w' hx => rw [hx] at h1; exact sweepLoop_invariant hstep h1

/-- A round of the loop changes no other entry of the map. -/
theorem sweepOne_lookup_of_ne {cfg : PolicyEngineConfig} {env : SweepEnv} {k k' : SeriesKey}
    {w : World} (hne : k' ≠ k) :
    (sweepOne cfg env k w).1.states.lookup k' = w.states.lookup k' := by
  rcases sweepOne_cases cfg env k w with ⟨-, h⟩ | ⟨s, s', db, -, ⟨h, -, he⟩ | ⟨-, he⟩⟩
  · rw [h]
  · rw [he, Table.lookup_insert_if, if_neg hne]
  · rw [he, Table.lookup_insert_if, if_neg hne]

/-- An entry that is not visited any more stays as it is. -/
theorem sweepLoop_lookup_of_notMem {cfg : PolicyEngineConfig} {env : SweepEnv} {k : SeriesKey} :
    ∀ {order : List SeriesKey} {w : World}, k ∉ order →
      (sweepLoop cfg env order w).1.states.lookup k = w.states.lookup k
  | [], _, _ => rfl
  | k' :: rest, w, hk => by
    rw [List.mem_cons, not_or] at hk
    have h1 := @sweepOne_lookup_of_ne cfg env k' k w hk.1
    unfold sweepLoop
    split
    · next w' h hx => rw [hx] at h1; exact h1
    · next w' hx => rw [sweepLoop_lookup_of_notMem hk.2, ← h1, hx]

/-- **A state after the loop is the state before it, or what one sweep makes of it.** -/
theorem sweepLoop_states {cfg : PolicyEngineConfig} {env : SweepEnv} {k : SeriesKey}
    {s' : PolicyState} :
    ∀ {order : List SeriesKey} {w : World}, order.Nodup →
      (sweepLoop cfg env order w).1.states.lookup k = some s' →
        ∃ s, w.states.lookup k = some s ∧
          (s' = s ∨ ∃ db db' h, Swept cfg env.now (env.closeEvent k) s db (s', db', h))
  | [], _, _, h => ⟨s', h, .inl rfl⟩
  | k' :: rest, w, hnd, h => by
    rw [List.nodup_cons] at hnd
    by_cases hk : k = k'
    · -- the entry is visited now, and not again
      subst hk
      have hone : (sweepOne cfg env k w).1.states.lookup k = some s' := by
        unfold sweepLoop at h
        split at h
        · next w' x hx => rw [hx]; exact h
        · next w' hx => rw [sweepLoop_lookup_of_notMem hnd.1] at h; rw [hx]; exact h
      rcases sweepOne_cases cfg env k w with ⟨hn, he⟩ | ⟨s, s₁, db, hs, ⟨x, hsw, he⟩ | ⟨hsw, he⟩⟩
      · rw [he, hn] at hone
        cases hone
      · rw [he, Table.lookup_insert_if, if_pos rfl, Option.some.injEq] at hone
        exact ⟨s, hs, .inr ⟨_, _, _, hone ▸ hsw⟩⟩
      · rw [he, Table.lookup_insert_if, if_pos rfl, Option.some.injEq] at hone
        exact ⟨s, hs, .inr ⟨_, _, _, hone ▸ hsw⟩⟩
    · have h1 := @sweepOne_lookup_of_ne cfg env k' k w hk
      unfold sweepLoop at h
      split at h
      · next w' x hx => rw [hx] at h1; exact ⟨s', h1 ▸ h, .inl rfl⟩
      · next w' hx =>
        rw [hx] at h1
        obtain ⟨s, hs, hcase⟩ := sweepLoop_states hnd.2 h
        exact ⟨s, h1 ▸ hs, hcase⟩

/-- **A row after the loop is the row before it, or what is stored of a state after the loop.** -/
theorem sweepLoop_rows {cfg : PolicyEngineConfig} {env : SweepEnv} {r : RowKey}
    {row : PolicyRow} :
    ∀ {order : List SeriesKey} {w : World}, order.Nodup →
      (sweepLoop cfg env order w).1.db.policyStates.lookup r = some row →
        w.db.policyStates.lookup r = some row ∨
          ∃ k s, k.rowKey = r ∧ (sweepLoop cfg env order w).1.states.lookup k = some s ∧
            row = s.stored
  | [], _, _, h => .inl h
  | k :: rest, w, hnd, h => by
    rw [List.nodup_cons] at hnd
    unfold sweepLoop at h ⊢
    rcases sweepOne_cases cfg env k w with ⟨hn, he⟩ | ⟨s, s₁, db, hs, ⟨x, hsw, he⟩ | ⟨hsw, he⟩⟩
    · rw [he] at h ⊢
      exact sweepLoop_rows hnd.2 h
    · rw [he] at h ⊢
      exact .inl (hsw.policyStates ▸ h)
    · have hrows : ∀ {row'}, (saved (env.upsert k) k s₁ db).policyStates.lookup r = some row' →
          w.db.policyStates.lookup r = some row' ∨ k.rowKey = r ∧ row' = s₁.stored := by
        intro row' hr
        rw [lookup_saved, hsw.policyStates] at hr
        split at hr
        · next hc => exact .inr ⟨hc.1.symm, (Option.some.inj hr).symm⟩
        · exact .inl hr
      rw [he] at h ⊢
      by_cases hcrash : env.upsert k = .crash
      · simp only [hcrash, if_true] at h ⊢ hrows
        rcases hrows h with h | ⟨hk, hr⟩
        · exact .inl h
        · exact .inr ⟨k, s₁, hk, by rw [Table.lookup_insert_if, if_pos rfl], hr⟩
      · simp only [hcrash, if_false] at h ⊢
        rcases sweepLoop_rows hnd.2 h with h | hnew
        · rcases hrows h with h | ⟨hk, hr⟩
          · exact .inl h
          · refine .inr ⟨k, s₁, hk, ?_, hr⟩
            rw [sweepLoop_lookup_of_notMem hnd.1, Table.lookup_insert_if, if_pos rfl]
        · exact .inr hnew

/-- With its rows listed, `Sweep` is its loop. -/
theorem sweep_of_listed {cfg : PolicyEngineConfig} {env : SweepEnv} {w : World}
    (h : env.listNonClean = .ok) :
    sweep cfg env w = sweepLoop cfg env env.order (w.hydrated env.rows) := by
  simp [sweep, h, Outcome.halt]

/-- Without its rows, `Sweep` changes nothing. -/
theorem sweep_of_not_listed {cfg : PolicyEngineConfig} {env : SweepEnv} {w : World}
    (h : env.listNonClean ≠ .ok) : (sweep cfg env w).1 = w := by
  cases ho : env.listNonClean with
  | ok => exact absurd ho h
  | failed => simp [sweep, ho, Outcome.halt]
  | lost => simp [sweep, ho, Outcome.halt]
  | crash => simp [sweep, ho, Outcome.halt]

/-! ## Steps -/

theorem World.settle_cases (w : World) (h : Option Halt) :
    w.settle h = w ∨ w.settle h = w.restart := by
  unfold World.settle
  split
  · exact .inr rfl
  · exact .inl rfl

@[simp] theorem World.settle_none (w : World) : w.settle none = w := by
  simp [World.settle]

@[simp] theorem World.settle_db (w : World) (h : Option Halt) : (w.settle h).db = w.db := by
  rcases w.settle_cases h with e | e
  · rw [e]
  · rw [e]; rfl

/-- What is in memory after a step was there when the call ended. -/
theorem World.lookup_settle {w : World} {h : Option Halt} {k : SeriesKey} {s : PolicyState}
    (hs : (w.settle h).states.lookup k = some s) : w.states.lookup k = some s := by
  rcases w.settle_cases h with e | e
  · rw [e] at hs; exact hs
  · rw [e] at hs; simp [World.restart] at hs

/-- A finding that is inserted is new, and has no event. -/
theorem Database.insertFinding_eq_some {db db' : Database} {id : Uuid} {row : FindingRow}
    (h : db.insertFinding id row = some db') :
    db.findings.lookup id = none ∧ db' =
      { db with findings := db.findings.insert id { row with ts := Time.micros row.ts } } := by
  unfold Database.insertFinding at h
  dsimp only at h
  split at h
  · cases h
  · next hnew =>
    exact ⟨Finmap.lookup_eq_none.mpr fun hc => hnew (.inl hc), (Option.some.inj h).symm⟩

/-- A call of `InsertFinding` changes nothing, or adds its finding. -/
theorem insertFinding_cases (o : Outcome) (id : Uuid) (k : SeriesKey) (finding : Finding)
    (w : World) :
    (insertFinding o id k finding w).1 = w ∨ ∃ db, w.db.insertFinding id (finding.row k) = some db ∧
      (insertFinding o id k finding w).1 = { w with db } := by
  unfold insertFinding
  cases hd : w.db.insertFinding id (finding.row k) with
  | none => exact .inl rfl
  | some db => cases o <;> simp [Outcome.exec, Outcome.halt, Outcome.Applies]

/-- `InsertFinding` writes to `argus_findings` only. -/
theorem insertFinding_frame (o : Outcome) (id : Uuid) (k : SeriesKey) (finding : Finding)
    (w : World) :
    (insertFinding o id k finding w).1.states = w.states ∧
      (insertFinding o id k finding w).1.db.policyStates = w.db.policyStates ∧
        (insertFinding o id k finding w).1.db.events = w.db.events := by
  rcases insertFinding_cases o id k finding w with he | ⟨db, hd, he⟩
  · rw [he]
    exact ⟨rfl, rfl, rfl⟩
  · rw [he, (Database.insertFinding_eq_some hd).2]
    exact ⟨rfl, rfl, rfl⟩

/-! ## Properties of worlds -/

/--
**A property of worlds is carried over a step** when the call itself, as far as it gets, and a
restart keep it. A sweep is made of the states it reads back and of its rounds.
-/
theorem step_invariant {cfg : PolicyEngineConfig} {w : World} {c : Call} {Inv : World → Prop}
    (hw : Inv w) (hrestart : ∀ w, Inv w → Inv w.restart)
    (hinsert : ∀ k finding id o, c = .insertFinding k finding id o →
      Inv (insertFinding o id k finding w).1)
    (happly : ∀ k finding id env, c = .applyFinding k finding id env →
      Inv (applyFinding cfg env k finding id w).1)
    (hread : ∀ env, c = .sweep env → env.listNonClean = .ok → Inv (w.hydrated env.rows))
    (hround : ∀ env, c = .sweep env → ∀ w k, Inv w → Inv (sweepOne cfg env k w).1) :
    Inv (step cfg w c) := by
  have hsettle : ∀ (w : World) (x : Option Halt), Inv w → Inv (w.settle x) := by
    intro w x h
    rcases w.settle_cases x with he | he
    · rw [he]; exact h
    · rw [he]; exact hrestart w h
  cases c with
  | insertFinding k finding id o => exact hsettle _ _ (hinsert k finding id o rfl)
  | applyFinding k finding id env => exact hsettle _ _ (happly k finding id env rfl)
  | sweep env =>
    refine hsettle _ _ ?_
    by_cases hlist : env.listNonClean = .ok
    · rw [sweep_of_listed hlist]
      exact sweepLoop_invariant (hround env rfl) (hread env rfl hlist)
    · rw [sweep_of_not_listed hlist]
      exact hw
  | restart => exact hrestart w hw

/-! ## Which entries and rows there are -/

section

variable {cfg : PolicyEngineConfig} {w : World} {k k' : SeriesKey} {r : RowKey}

/-- A call of `ApplyFinding` adds no other entry than its own. -/
theorem mem_keys_applyFinding {env : ApplyEnv} {finding : Finding} {id : Uuid}
    (hk : k' ∈ (applyFinding cfg env k finding id w).1.states.keys) :
    k' = k ∨ k' ∈ w.states.keys := by
  rcases applyFinding_cases cfg env k finding id w with
    ⟨x, -, he⟩ | ⟨s, s', db, -, ⟨x, -, he⟩ | ⟨-, he⟩⟩
  · rw [he] at hk; exact .inr hk
  all_goals
    rw [he] at hk
    exact Table.mem_keys_insert.mp hk

/-- A call of `ApplyFinding` writes no other row than its own. -/
theorem mem_rows_applyFinding {env : ApplyEnv} {finding : Finding} {id : Uuid}
    (hr : r ∈ (applyFinding cfg env k finding id w).1.db.policyStates.keys) :
    r = k.rowKey ∨ r ∈ w.db.policyStates.keys := by
  rcases applyFinding_cases cfg env k finding id w with
    ⟨x, -, he⟩ | ⟨s, s', db, -, ⟨x, happ, he⟩ | ⟨happ, he⟩⟩
  · rw [he] at hr; exact .inr hr
  · rw [he, happ.policyStates] at hr; exact .inr hr
  · obtain ⟨row, hrow⟩ := Table.mem_keys.mp hr
    rw [he, lookup_saved, happ.policyStates] at hrow
    split at hrow
    · next hc => exact .inl hc.1
    · exact .inr (Table.mem_keys.mpr ⟨row, hrow⟩)

/-- A round adds no entry. -/
theorem mem_keys_sweepOne {env : SweepEnv} :
    k' ∈ (sweepOne cfg env k w).1.states.keys ↔ k' ∈ w.states.keys := by
  rcases sweepOne_cases cfg env k w with ⟨-, he⟩ | ⟨s, s', db, hs, ⟨x, -, he⟩ | ⟨-, he⟩⟩
  · rw [he]
  all_goals
    rw [he, Table.mem_keys_insert]
    refine ⟨?_, .inr⟩
    rintro (rfl | hk)
    · exact Table.mem_keys.mpr ⟨s, hs⟩
    · exact hk

/-- The rows a round writes are those of its entry. -/
theorem mem_rows_sweepOne {env : SweepEnv}
    (hr : r ∈ (sweepOne cfg env k w).1.db.policyStates.keys) :
    r ∈ w.db.policyStates.keys ∨ r = k.rowKey ∧ k ∈ w.states.keys := by
  rcases sweepOne_cases cfg env k w with ⟨-, he⟩ | ⟨s, s', db, hs, ⟨x, hsw, he⟩ | ⟨hsw, he⟩⟩
  · rw [he] at hr; exact .inl hr
  · rw [he, hsw.policyStates] at hr; exact .inl hr
  · obtain ⟨row, hrow⟩ := Table.mem_keys.mp hr
    rw [he, lookup_saved, hsw.policyStates] at hrow
    split at hrow
    · next hc => exact .inr ⟨hc.1, Table.mem_keys.mpr ⟨s, hs⟩⟩
    · exact .inl (Table.mem_keys.mpr ⟨row, hrow⟩)

/-- No row and no entry of the map has a source address: neither the keys of the worker nor those
that `Sweep` rebuilds have one. -/
structure World.Sourceless (w : World) : Prop where
  rows : ∀ r ∈ w.db.policyStates.keys, r.srcIp = ""
  keys : ∀ k ∈ w.states.keys, k.srcIp = ""

theorem World.Sourceless.init : World.init.Sourceless :=
  ⟨by simp [World.init, Database.empty], by simp [World.init]⟩

theorem World.Sourceless.restart (h : w.Sourceless) : w.restart.Sourceless :=
  ⟨h.rows, fun k hk => by simp [World.restart] at hk⟩

/-- An entry that `Sweep` makes is read from the row that it stands for. -/
theorem World.Sourceless.hydrated_cases (h : w.Sourceless) {rows : List RowKey} {s : PolicyState}
    (hs : (w.hydrated rows).states.lookup k = some s) :
    w.states.lookup k = some s ∨ w.states.lookup k = none ∧ k = k.rowKey.hydratedKey ∧ ∃ row,
      w.db.policyStates.lookup k.rowKey = some row ∧ row.status ≠ .clean ∧ s = row.hydrate := by
  rcases Argus.hydrated_cases hs with hs | ⟨hn, r, row, hrow, hc, rfl, rfl⟩
  · exact .inl hs
  · have hr : r.hydratedKey.rowKey = r :=
      RowKey.rowKey_hydratedKey (h.rows r (Table.mem_keys.mpr ⟨row, hrow⟩))
    exact .inr ⟨hn, by rw [hr], row, by rw [hr]; exact hrow, hc, rfl⟩

theorem World.Sourceless.hydrated (h : w.Sourceless) (rows : List RowKey) :
    (w.hydrated rows).Sourceless := by
  refine ⟨h.rows, ?_⟩
  intro k hk
  obtain ⟨s, hs⟩ := Table.mem_keys.mp hk
  rcases h.hydrated_cases hs with hs | ⟨-, hk, -⟩
  · exact h.keys k (Table.mem_keys.mpr ⟨s, hs⟩)
  · rw [hk]
    rfl

theorem World.Sourceless.insertFinding (h : w.Sourceless) (o : Outcome) (id : Uuid) (k : SeriesKey)
    (finding : Finding) : (insertFinding o id k finding w).1.Sourceless := by
  obtain ⟨hs, hp, -⟩ := insertFinding_frame o id k finding w
  exact ⟨by rw [hp]; exact h.rows, by rw [hs]; exact h.keys⟩

theorem World.Sourceless.applyFinding (h : w.Sourceless) (hk : k.srcIp = "") (env : ApplyEnv)
    (finding : Finding) (id : Uuid) : (applyFinding cfg env k finding id w).1.Sourceless := by
  constructor
  · intro r hr
    rcases mem_rows_applyFinding hr with rfl | hr
    · exact hk
    · exact h.rows r hr
  · intro k' hk'
    rcases mem_keys_applyFinding hk' with rfl | hk'
    · exact hk
    · exact h.keys k' hk'

theorem World.Sourceless.sweepOne (h : w.Sourceless) (env : SweepEnv) (k : SeriesKey) :
    (sweepOne cfg env k w).1.Sourceless := by
  refine ⟨?_, fun k' hk' => h.keys k' (mem_keys_sweepOne.mp hk')⟩
  intro r hr
  rcases mem_rows_sweepOne hr with hr | ⟨rfl, hk⟩
  · exact h.rows r hr
  · exact h.keys k hk

/-- **Source addresses do not come from anywhere.** -/
theorem World.Sourceless.step (h : w.Sourceless) {c : Call} (hp : c.Planned) :
    (Argus.step cfg w c).Sourceless := by
  refine step_invariant h (fun w hw => hw.restart) ?_ ?_ ?_ ?_
  · exact fun k finding id o _ => h.insertFinding o id k finding
  · rintro k finding id env rfl
    exact h.applyFinding hp.srcIp_eq env finding id
  · exact fun env _ _ => h.hydrated env.rows
  · exact fun env _ w k hw => hw.sweepOne env k

end

/-! ## Properties of single states -/

/-- Every state in memory has `Q` and every row of `argus_policy_state` has `R`. -/
structure Pointwise (Q : PolicyState → Prop) (R : PolicyRow → Prop) (w : World) : Prop where
  states : ∀ k s, w.states.lookup k = some s → Q s
  rows : ∀ r row, w.db.policyStates.lookup r = some row → R row

theorem Pointwise.init (Q : PolicyState → Prop) (R : PolicyRow → Prop) :
    Pointwise Q R World.init :=
  ⟨fun k s h => by simp [World.init] at h,
    fun r row h => by simp [World.init, Database.empty] at h⟩

theorem Pointwise.imp {Q Q' : PolicyState → Prop} {R R' : PolicyRow → Prop} {w : World}
    (hw : Pointwise Q R w) (hQ : ∀ s, Q s → Q' s) (hR : ∀ row, R row → R' row) :
    Pointwise Q' R' w :=
  ⟨fun k s h => hQ s (hw.states k s h), fun r row h => hR row (hw.rows r row h)⟩

/-- Where a state with `Q` can come from: memory, a row, or nowhere. -/
def Loadable (Q : PolicyState → Prop) (R : PolicyRow → Prop) (now : Time) (s : PolicyState) :
    Prop :=
  Q s ∨ (∃ row, R row ∧ s = row.hydrate) ∨ s = PolicyState.fresh now

theorem Pointwise.loadable {Q : PolicyState → Prop} {R : PolicyRow → Prop} {w : World}
    (hw : Pointwise Q R w) {env : ApplyEnv} {k : SeriesKey} {s : PolicyState}
    (h : loadState env k w = .ok s) : Loadable Q R env.now s := by
  rcases loadState_cases h with h | ⟨-, ⟨row, hrow, hs⟩ | ⟨-, hs⟩⟩
  · exact .inl (hw.states k s h)
  · exact .inr (.inl ⟨row, hw.rows _ row hrow, hs⟩)
  · exact .inr (.inr hs)

theorem Pointwise.hydrated {Q : PolicyState → Prop} {R : PolicyRow → Prop} {w : World}
    (hw : Pointwise Q R w) (hhyd : ∀ row, R row → row.status ≠ .clean → Q row.hydrate)
    (rows : List RowKey) : Pointwise Q R (w.hydrated rows) := by
  refine ⟨?_, hw.rows⟩
  intro k s h
  rcases hydrated_cases h with h | ⟨-, r, row, hrow, hc, -, hs⟩
  · exact hw.states k s h
  · exact hs ▸ hhyd row (hw.rows r row hrow) hc

theorem Pointwise.settle {Q : PolicyState → Prop} {R : PolicyRow → Prop} {w : World}
    (hw : Pointwise Q R w) (x : Option Halt) : Pointwise Q R (w.settle x) := by
  constructor
  · intro k s hs
    exact hw.states k s (World.lookup_settle hs)
  · intro r row hr
    rw [World.settle_db] at hr
    exact hw.rows r row hr

/-- A state with the property is put in the place of another, and saved or not. -/
theorem Pointwise.insert {Q : PolicyState → Prop} {R : PolicyRow → Prop} {w : World}
    (hw : Pointwise Q R w) (hsave : ∀ s, Q s → R s.stored) {k : SeriesKey} {s' : PolicyState}
    (hq : Q s') {db : Database} (hp : db.policyStates = w.db.policyStates) (o : Outcome) :
    Pointwise Q R { states := w.states.insert k s', db := saved o k s' db } := by
  constructor
  · intro k' t ht
    rw [Table.lookup_insert_if] at ht
    split at ht
    · exact Option.some.inj ht ▸ hq
    · exact hw.states k' t ht
  · intro r row hr
    rw [lookup_saved, hp] at hr
    split at hr
    · exact Option.some.inj hr ▸ hsave s' hq
    · exact hw.rows r row hr

/--
**A property of single states is carried over a step** when it survives a save and the way back
from a row, and the transitions the step can make.
-/
theorem Pointwise.step {Q : PolicyState → Prop} {R : PolicyRow → Prop}
    {cfg : PolicyEngineConfig} {w : World} {c : Call} (hw : Pointwise Q R w) (hl : c.Legal w)
    (hsave : ∀ s, Q s → R s.stored)
    (hhyd : ∀ row, R row → row.status ≠ .clean → Q row.hydrate)
    (happly : ∀ k finding id env s s' db h, c = .applyFinding k finding id env →
      loadState env k w = .ok s → Loadable Q R env.now s →
        Applied cfg env k finding id s w.db (s', db, h) → Q s')
    (hsweep : ∀ env k s s' db db' h, c = .sweep env → env.listNonClean = .ok →
      (w.hydrated env.rows).states.lookup k = some s → Q s →
        (sweep cfg env w).1.states.lookup k = some s' →
          Swept cfg env.now (env.closeEvent k) s db (s', db', h) → Q s') :
    Pointwise Q R (Argus.step cfg w c) := by
  cases c with
  | insertFinding k finding id o =>
    obtain ⟨hs, hp, -⟩ := insertFinding_frame o id k finding w
    refine Pointwise.settle ⟨?_, ?_⟩ _
    · rw [hs]; exact hw.states
    · rw [hp]; exact hw.rows
  | applyFinding k finding id env =>
    refine Pointwise.settle ?_ _
    rcases applyFinding_cases cfg env k finding id w with
      ⟨h, -, he⟩ | ⟨s, s', db, hld, ⟨h, ha, he⟩ | ⟨ha, he⟩⟩
    · rw [he]; exact hw
    · have hq := happly k finding id env s s' db _ rfl hld (hw.loadable hld) ha
      rw [he]
      exact hw.insert hsave hq ha.policyStates .failed
    · have hq := happly k finding id env s s' db _ rfl hld (hw.loadable hld) ha
      rw [he]
      exact hw.insert hsave hq ha.policyStates _
  | sweep env =>
    refine Pointwise.settle ?_ _
    by_cases hlist : env.listNonClean = .ok
    · have hh := hw.hydrated hhyd env.rows
      have hst : ∀ k s, (sweep cfg env w).1.states.lookup k = some s → Q s := by
        intro k s hs
        have hs' := hs
        rw [sweep_of_listed hlist] at hs'
        obtain ⟨s₀, hs₀, rfl | ⟨db, db', h, hsw⟩⟩ := sweepLoop_states hl.order_nodup hs'
        · exact hh.states k _ hs₀
        · exact hsweep env k s₀ s db db' h rfl hlist hs₀ (hh.states k s₀ hs₀) hs hsw
      refine ⟨hst, ?_⟩
      intro r row hr
      rw [sweep_of_listed hlist] at hr hst
      rcases sweepLoop_rows hl.order_nodup hr with hr | ⟨k, s, -, hs, rfl⟩
      · exact hh.rows r row hr
      · exact hsave s (hst k s hs)
    · rw [sweep_of_not_listed hlist]
      exact hw
  | restart =>
    refine ⟨?_, hw.rows⟩
    intro k s hs
    simp [Argus.step, World.restart] at hs

end Cepheus.Argus
