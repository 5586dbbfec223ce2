import Cepheus.Infra.Ownership
import Cepheus.Argus.Properties.Success

/-!
# Events and the states that hold them

An open event should be in the hands of one state machine, which closes it in the end.

* `EventsOwned.step` - a call in which nothing fails passes events on as `Owned` allows
* `events_match` - so open events and the states that hold them match, as long as no second copy of
  an alarmed series is loaded
-/

namespace Cepheus.Argus

open Infra

/-! ## Holding an event -/

/-- The state is alarmed with the event `e`. -/
def PolicyState.Holds (s : PolicyState) (e : Uuid) : Prop := s.Alarmed ∧ s.openEventId = some e

/-- The state of `k` in memory is alarmed with the event `e`. -/
def World.Holds (w : World) (k : SeriesKey) (e : Uuid) : Prop :=
  ∃ s, w.states.lookup k = some s ∧ s.Holds e

/-- An event is open if and only if exactly one state in memory is firing or recovering with it. -/
def EventsMatch (w : World) : Prop := ∀ e, w.db.IsOpen e ↔ ∃! k, w.Holds k e

/-- The open events are those that the states in memory hold, each once. -/
def EventsOwned (w : World) : Prop := Owned w.Holds w.db.IsOpen

/-- The call loads no second copy of a series that is firing or recovering. -/
def Call.LoadsNoAlarm (w : World) : Call → Prop
  | .applyFinding k _ _ _ => k ∈ w.states.keys ∨
      ∀ row ∈ w.db.policyStates.lookup k.rowKey, row.status ≠ .firing ∧ row.status ≠ .recovering
  | .sweep _ => ∀ r ∈ w.db.policyStates.keys, ∀ row ∈ w.db.policyStates.lookup r,
      row.status = .firing ∨ row.status = .recovering → r.hydratedKey ∈ w.states.keys
  | _ => True

instance (w : World) : DecidablePred (Call.LoadsNoAlarm w)
  | .insertFinding .. => inferInstanceAs (Decidable True)
  | .applyFinding k _ _ _ => inferInstanceAs (Decidable (k ∈ w.states.keys ∨
      ∀ row ∈ w.db.policyStates.lookup k.rowKey, row.status ≠ .firing ∧ row.status ≠ .recovering))
  | .sweep _ => inferInstanceAs (Decidable (∀ r ∈ w.db.policyStates.keys,
      ∀ row ∈ w.db.policyStates.lookup r,
        row.status = .firing ∨ row.status = .recovering → r.hydratedKey ∈ w.states.keys))
  | .restart => inferInstanceAs (Decidable True)

section

variable {w w' : World} {k : SeriesKey} {s s' : PolicyState} {e : Uuid}

theorem EventsOwned.init : EventsOwned World.init := by
  refine ⟨?_, ?_, ?_⟩
  · intro k e h
    obtain ⟨s, hs, -⟩ := h
    simp [World.init] at hs
  · intro k k' e h
    obtain ⟨s, hs, -⟩ := h
    simp [World.init] at hs
  · intro e h
    obtain ⟨row, hrow, -⟩ := h
    simp [World.init, Database.empty] at hrow

theorem PolicyState.Quiet.not_holds (h : s.Quiet) : ¬ s.Holds e := fun hh => h.not_alarmed hh.1

/-- What the entries hold once one of them has been replaced. -/
theorem World.holds_insert (hw : w'.states = w.states.insert k s') (k' : SeriesKey) (e : Uuid) :
    w'.Holds k' e ↔ if k' = k then s'.Holds e else w.Holds k' e := by
  unfold World.Holds
  rw [hw]
  by_cases hk : k' = k
  · subst hk; simp
  · simp [hk]

/-- Replacing a state by one that holds the same changes nothing. -/
theorem World.holds_insert_same (hw : w'.states = w.states.insert k s')
    (hs : ∀ e, s'.Holds e ↔ w.Holds k e) (k' : SeriesKey) (e : Uuid) :
    w'.Holds k' e ↔ w.Holds k' e := by
  rw [World.holds_insert hw]
  split
  · next hk => rw [hs, hk]
  · rfl

/-- A state in memory holds what its entry holds. -/
theorem World.holds_of_lookup (hs : w.states.lookup k = some s) : w.Holds k e ↔ s.Holds e := by
  unfold World.Holds
  rw [hs]
  simp

/-- The state `ApplyFinding` works on holds what the entry holds. -/
theorem World.holds_loaded {finding : Finding} {id : Uuid} {env : ApplyEnv}
    (hno : Call.LoadsNoAlarm w (.applyFinding k finding id env)) (hld : loadState env k w = .ok s) :
    w.Holds k e ↔ s.Holds e := by
  rcases loadState_cases hld with hs | ⟨hn, hload⟩
  · exact World.holds_of_lookup hs
  · -- a state that is loaded is not alarmed, and there was no entry
    have hw : ¬ w.Holds k e := by
      rintro ⟨s₀, hs₀, -⟩
      rw [hn] at hs₀
      cases hs₀
    have hk : k ∉ w.states.keys := Table.notMem_keys.mpr hn
    have hs : ¬ s.Holds e := by
      rintro ⟨ha, -⟩
      rcases hload with ⟨row, hrow, rfl⟩ | ⟨-, rfl⟩
      · obtain ⟨h₁, h₂⟩ := hno.resolve_left hk row hrow
        exact ha.elim h₁ h₂
      · exact ha.elim (by simp [PolicyState.fresh]) (by simp [PolicyState.fresh])
    exact iff_of_false hw hs

/-- The entries that the first loop of `Sweep` adds hold nothing. -/
theorem World.holds_hydrated {env : SweepEnv} (hno : Call.LoadsNoAlarm w (.sweep env)) :
    (w.hydrated env.rows).Holds k e ↔ w.Holds k e := by
  constructor
  · rintro ⟨s, hs, hh⟩
    rcases hydrated_cases hs with hs | ⟨hn, r, row, hrow, -, rfl, rfl⟩
    · exact ⟨s, hs, hh⟩
    · have hk := hno r (Table.mem_keys.mpr ⟨row, hrow⟩) row hrow hh.1
      exact absurd hk (Table.notMem_keys.mpr hn)
  · rintro ⟨s, hs, hh⟩
    exact ⟨s, hydrateStates_of_lookup hs, hh⟩

/-! ## Which events are open -/

theorem Database.isOpen_congr {db db' : Database} (h : db'.events = db.events) (e : Uuid) :
    db'.IsOpen e ↔ db.IsOpen e := by
  unfold Database.IsOpen
  rw [h]

/-- A transaction of `openEvent` opens its event and no other. -/
theorem OpensEvent.isOpen {env : ApplyEnv} {finding : Finding} {db tx : Database}
    (h : OpensEvent env k s finding db tx) (e : Uuid) :
    tx.IsOpen e ↔ db.IsOpen e ∨ e = env.eventId := by
  unfold Database.IsOpen
  rw [h.events, Table.lookup_insert_if]
  by_cases he : e = env.eventId
  · simp [he, openedRow]
  · simp [he]

theorem OpensEvent.not_isOpen {env : ApplyEnv} {finding : Finding} {db tx : Database}
    (h : OpensEvent env k s finding db tx) : ¬ db.IsOpen env.eventId := by
  rintro ⟨row, hrow, -⟩
  exact h.fresh (Finmap.mem_iff.mpr ⟨row, hrow⟩)

theorem Database.isOpen_closeEvent (db : Database) (e e' : Uuid) (now : Time) :
    (db.closeEvent e now).IsOpen e' ↔ db.IsOpen e' ∧ e' ≠ e := by
  unfold Database.IsOpen
  simp only [Database.closeEvent, Table.lookup_adjust]
  by_cases he : e' = e
  · simp [he]
  · simp [he]

/-! ## Calls that succeed keep events and holders in step -/

variable {cfg : PolicyEngineConfig}

theorem EventsOwned.applyFinding (h : EventsOwned w) (hw : ShowsAlarms w) {env : ApplyEnv}
    (henv : env.Succeeds w) {finding : Finding} {id : Uuid}
    (hno : Call.LoadsNoAlarm w (.applyFinding k finding id env)) :
    EventsOwned (Argus.step cfg w (.applyFinding k finding id env)) := by
  obtain ⟨s, s', db, hld, happ, hstep⟩ := @step_applyFinding cfg w hw env henv k finding id
  have hloaded : ∀ e, w.Holds k e ↔ s.Holds e := fun e => World.holds_loaded hno hld
  rw [hstep]
  cases happ with
  | watch hq =>
    have hq' : (s.watch cfg finding id).Quiet := .inr (PolicyState.watch_status hq)
    refine Owned.congr h (World.holds_insert_same rfl ?_) fun e => Iff.rfl
    intro e
    rw [hloaded]
    exact iff_of_false hq'.not_holds hq.not_holds
  | opened tx hq hc htx =>
    refine Owned.acquire (k := k) (e := env.eventId) h htx.not_isOpen ?_ ?_
    · intro k' e'
      rw [World.holds_insert rfl]
      by_cases hk : k' = k
      · rw [if_pos hk, hk, hloaded]
        have hs' : ((s.watch cfg finding id).fire finding env.eventId).Holds e' ↔
            env.eventId = e' := by
          simp [PolicyState.Holds, PolicyState.Alarmed, PolicyState.fire]
        rw [hs']
        constructor
        · exact fun he => .inr ⟨rfl, he.symm⟩
        · rintro (hs | ⟨-, rfl⟩)
          · exact absurd hs hq.not_holds
          · rfl
      · simp [hk]
    · intro e'
      exact (Database.isOpen_congr rfl e').trans (htx.isOpen e')
  | attach e₀ hs he =>
    refine Owned.congr h (World.holds_insert_same rfl ?_) fun e => Iff.rfl
    intro e
    rw [hloaded]
    rfl
  | refire e₀ hs he =>
    refine Owned.congr h (World.holds_insert_same rfl ?_) fun e => Iff.rfl
    intro e
    rw [hloaded]
    simp [PolicyState.Holds, PolicyState.Alarmed, PolicyState.enter, PolicyState.score, hs]

/-- A round of `Sweep` in which nothing fails. -/
theorem EventsOwned.swept (h : EventsOwned w) {now : Time} {db : Database}
    (hs : w.states.lookup k = some s) (hsw : SweptOk cfg now s w.db (s', db)) :
    EventsOwned
      { states := w.states.insert k s', db := db.upsertPolicyState k.rowKey s'.row } := by
  have hlk : ∀ e, w.Holds k e ↔ s.Holds e := fun e => World.holds_of_lookup hs
  cases hsw with
  | drain =>
    refine Owned.congr h (World.holds_insert_same rfl ?_) fun e => Iff.rfl
    intro e
    rw [hlk]
    rfl
  | expire hst =>
    refine Owned.congr h (World.holds_insert_same rfl ?_) fun e => Iff.rfl
    intro e
    rw [hlk]
    simp [PolicyState.Holds, PolicyState.Alarmed, PolicyState.expire, hst]
  | recover hst =>
    refine Owned.congr h (World.holds_insert_same rfl ?_) fun e => Iff.rfl
    intro e
    rw [hlk]
    simp [PolicyState.Holds, PolicyState.Alarmed, PolicyState.enter, PolicyState.drain, hst]
  | close e hdue he =>
    have hk : w.Holds k e := (hlk e).mpr ⟨.inr hdue.1, he⟩
    refine Owned.release h hk ?_ ?_ ?_
    · intro e' he'
      exact Option.some.inj (((hlk e').mp he').2.symm.trans he)
    · intro k' e'
      rw [World.holds_insert rfl]
      by_cases hk' : k' = k
      · simp [hk', PolicyState.Holds, PolicyState.close]
      · simp [hk']
    · intro e'
      exact (Database.isOpen_congr rfl e').trans (Database.isOpen_closeEvent _ e e' _)

/-- **A call in which nothing fails and that loads no second copy of an alarm keeps events and
holders in step.** -/
theorem EventsOwned.step (h : EventsOwned w) (hw : ShowsAlarms w) {c : Call} (hl : c.Legal w)
    (hok : c.Succeeds w) (hrun : c.NotRestart) (hno : c.LoadsNoAlarm w) :
    EventsOwned (Argus.step cfg w c) := by
  cases c with
  | insertFinding k finding id o =>
    obtain rfl : o = .ok := hok
    obtain ⟨hs, -, he⟩ := insertFinding_frame .ok id k finding w
    rw [step_insertFinding]
    refine Owned.congr h (fun _ _ => Iff.rfl) fun e => Database.isOpen_congr ?_ e
    cases hd : w.db.insertFinding id (finding.row k) with
    | none => rfl
    | some db => simpa [insertFinding, hd] using he
  | applyFinding k finding id env => exact h.applyFinding hw hok hno
  | sweep env =>
    refine step_sweep_invariant hl hok ?_ fun w k s s' db hw hs hsw => EventsOwned.swept hw hs hsw
    exact Owned.congr h (fun k e => World.holds_hydrated hno) fun e => Iff.rfl
  | restart => exact absurd hrun id

/-- Every event that the call attaches a finding to is open at that moment: the event of an alarmed
series before the call, and an event that findings end up with after it. -/
def Call.AttachesToOpen (cfg : PolicyEngineConfig) (w : World) (c : Call) : Prop :=
  (∀ k finding id env s e, c = .applyFinding k finding id env → loadState env k w = .ok s →
      s.Holds e → w.db.IsOpen e) ∧
    ∀ id e, w.db.eventOf id ≠ some e → (Argus.step cfg w c).db.eventOf id = some e →
      (Argus.step cfg w c).db.IsOpen e

/-- Attaching a finding changes the event of this finding only. -/
theorem Database.eventOf_attachFindingToEvent {db : Database} {e e' id id' : Uuid}
    (hne : db.eventOf id' ≠ some e') (h : (db.attachFindingToEvent e id).eventOf id' = some e') :
    e' = e := by
  unfold Database.eventOf at hne h
  simp only [Database.attachFindingToEvent, Table.lookup_adjust] at h
  split at h
  · cases hl : db.findings.lookup id' with
    | none => simp [hl] at h
    | some row =>
      simp only [hl, Option.map_some, Option.bind_some, Option.some.injEq] at h
      exact h.symm
  · exact absurd h hne

theorem OpensEvent.eventOf {env : ApplyEnv} {finding : Finding} {db tx : Database} {id : Uuid}
    (htx : OpensEvent env k s finding db tx) (hne : db.eventOf id ≠ some e)
    (h : tx.eventOf id = some e) : e = env.eventId := by
  unfold Database.eventOf at hne h
  rw [htx.findings] at h
  split at h
  · cases hl : db.findings.lookup id with
    | none => simp [hl] at h
    | some row =>
      simp only [hl, Option.map_some, Option.bind_some, Option.some.injEq] at h
      exact h.symm
  · exact absurd h hne

theorem EventsOwned.attachesToOpen (h : EventsOwned w) (hw : ShowsAlarms w) {c : Call}
    (hl : c.Legal w) (hok : c.Succeeds w) (hno : c.LoadsNoAlarm w) : c.AttachesToOpen cfg w := by
  have hheld : ∀ k finding id env s e, c = .applyFinding k finding id env →
      loadState env k w = .ok s → s.Holds e → w.db.IsOpen e := by
    rintro k finding id env s e rfl hld hs
    exact h.live k e ((World.holds_loaded hno hld).mpr hs)
  refine ⟨hheld, ?_⟩
  intro id e hne heq
  cases c with
  | insertFinding k finding id' o =>
    obtain rfl : o = .ok := hok
    rw [step_insertFinding] at heq
    cases hd : w.db.insertFinding id' (finding.row k) with
    | none => rw [hd] at heq; exact absurd heq hne
    | some db =>
      -- a finding comes without an event
      rw [hd, (Database.insertFinding_eq_some hd).2] at heq
      unfold Database.eventOf at heq hne
      simp only [Option.getD_some, Table.lookup_insert_if] at heq
      split at heq
      · simp [Finding.row] at heq
      · exact absurd heq hne
  | applyFinding k finding id' env =>
    obtain ⟨s, s', db, hld, happ, hstep⟩ := @step_applyFinding cfg w hw env hok k finding id'
    rw [hstep] at heq ⊢
    cases happ with
    | watch => exact absurd heq hne
    | opened tx hq hc htx =>
      obtain rfl := htx.eventOf hne heq
      exact (Database.isOpen_congr rfl _).mpr ((htx.isOpen _).mpr (.inr rfl))
    | attach e₀ hs he =>
      obtain rfl := Database.eventOf_attachFindingToEvent hne heq
      exact hheld k finding id' env s e rfl hld ⟨.inl hs, he⟩
    | refire e₀ hs he =>
      obtain rfl := Database.eventOf_attachFindingToEvent hne heq
      exact hheld k finding id' env s e rfl hld ⟨.inr hs, he⟩
  | sweep env =>
    have hf : (Argus.step cfg w (.sweep env)).db.findings = w.db.findings :=
      (step_sweep hl hok).findings
    unfold Database.eventOf at heq hne
    rw [hf] at heq
    exact absurd heq hne
  | restart => exact absurd heq hne

/--
**Without failures, open events and the states that hold them match.**

It takes that no call loads a row that is firing or recovering, since the series that wrote it is
in memory already. Then every finding that is attached to an event is attached to an open one.
-/
theorem events_match (cfg : PolicyEngineConfig) {calls : List Call}
    (henv : Along (Argus.step cfg) (fun w c => c.Legal w ∧ c.Succeeds w ∧ c.NotRestart) World.init
      calls)
    (hno : Along (Argus.step cfg) (fun w c => c.LoadsNoAlarm w) World.init calls) :
    Throughout (Argus.step cfg) EventsMatch World.init calls ∧
      Along (Argus.step cfg) (fun w c => c.AttachesToOpen cfg w) World.init calls := by
  have hcalls := along_and.mpr ⟨henv, hno⟩
  have hinit : ShowsAlarms World.init ∧ EventsOwned World.init :=
    ⟨Pointwise.init _ _, EventsOwned.init⟩
  have hstep : ∀ w c, ShowsAlarms w ∧ EventsOwned w →
      (c.Legal w ∧ c.Succeeds w ∧ c.NotRestart) ∧ c.LoadsNoAlarm w →
        ShowsAlarms (Argus.step cfg w c) ∧ EventsOwned (Argus.step cfg w c) := by
    rintro w c ⟨hw, ho⟩ ⟨⟨hl, hok, hrun⟩, hno⟩
    exact ⟨ShowsAlarms.step hw hl, ho.step hw hl hok hrun hno⟩
  constructor
  · exact (throughout_of_invariant hstep hinit hcalls).imp fun w hw => hw.2.live_iff
  · refine along_of_invariant hstep ?_ hinit hcalls
    rintro w c ⟨hw, ho⟩ ⟨⟨hl, hok, -⟩, hno⟩
    exact ho.attachesToOpen hw hl hok hno

end

/-- A finding opens an event, and the next sweep loads a second copy of the series. -/
def secondCopy : List Call :=
  [.report (pingKey "a") (1000 * second) 6 0 0,
   .sweep (SweepEnv.ok (1030 * second) [(pingKey "a").rowKey]
     [pingKey "a", (pingKey "a").rowKey.hydratedKey])]

theorem secondCopy_succeeds :
    Along (step startConfig) (fun w c => c.Legal w ∧ c.Succeeds w ∧ c.NotRestart) World.init
      secondCopy :=
  ⟨⟨trivial, ApplyEnv.succeeds_ok (by decide +kernel), trivial⟩,
    ⟨by decide +kernel, SweepEnv.succeeds_ok _ _ _, trivial⟩, trivial⟩

/-- Both copies hold the one event. -/
theorem secondCopy_holds_twice :
    ¬ ∀ (cfg : PolicyEngineConfig) (calls : List Call),
      Along (step cfg) (fun w c => c.Legal w ∧ c.Succeeds w ∧ c.NotRestart) World.init calls →
        Throughout (step cfg) EventsMatch World.init calls := by
  intro h
  have hmatch := (h startConfig secondCopy secondCopy_succeeds).last
  have hboth : ∀ k ∈ [pingKey "a", (pingKey "a").rowKey.hydratedKey],
      ∃ s ∈ (run (step startConfig) World.init secondCopy).states.lookup k,
        s.Alarmed ∧ s.openEventId = some 0 := by
    decide +kernel
  obtain ⟨k, -, hk⟩ := (hmatch 0).mp (by decide +kernel)
  have h₁ := hk (pingKey "a") (hboth _ (by simp))
  have h₂ := hk (pingKey "a").rowKey.hydratedKey (hboth _ (by simp))
  exact absurd (h₁.trans h₂.symm) (by decide +kernel)

/-- A series under the key that `Sweep` rebuilds: its event opens, recovers and is closed. -/
def singleCopy : List Call :=
  [.report (pingKey "a").rowKey.hydratedKey (1000 * second) 6 0 0,
   .sweep (SweepEnv.ok (1040 * second) [(pingKey "a").rowKey] [(pingKey "a").rowKey.hydratedKey]),
   .sweep (SweepEnv.ok (1170 * second) [(pingKey "a").rowKey] [(pingKey "a").rowKey.hydratedKey])]

/-- It is never loaded a second time. -/
theorem singleCopy_match :
    Throughout (step startConfig) EventsMatch World.init singleCopy ∧
      Along (step startConfig) (fun w c => c.AttachesToOpen startConfig w) World.init singleCopy :=
  events_match startConfig
    ⟨⟨trivial, ApplyEnv.succeeds_ok (by decide +kernel), trivial⟩,
      ⟨by decide +kernel, SweepEnv.succeeds_ok _ _ _, trivial⟩,
      ⟨by decide +kernel, SweepEnv.succeeds_ok _ _ _, trivial⟩, trivial⟩
    (by decide +kernel)

end Cepheus.Argus
