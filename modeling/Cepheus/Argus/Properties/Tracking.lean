import Cepheus.Argus.Properties.Alarm
import Cepheus.Argus.Properties.Copies

/-!
# Open events and their rows, whatever fails

After a restart the engine knows of an event only what `argus_policy_state` says. Opening an event
takes two writes: the transaction that inserts it, and the save of the state that names it.

* `Call.SavesOpened` - the calls that get from the first to the second
* `event_tracked` - in runs of such calls that keep one copy of every series, an open event is the
  only one of its series and the one that its row names
-/

namespace Cepheus.Argus

open Infra

/-- The event belongs to the series of the row `r`. -/
def EventRow.Of (row : EventRow) (r : RowKey) : Prop :=
  row.serialId = r.serialId ∧ row.target = r.target ∧ row.port = r.port ∧ row.metric = r.metric ∧
    row.detectors = [r.detector]

instance (row : EventRow) (r : RowKey) : Decidable (row.Of r) :=
  inferInstanceAs (Decidable (_ ∧ _))

/-- `e` is an open event of the series `r`. -/
def Database.OpenFor (db : Database) (r : RowKey) (e : Uuid) : Prop :=
  ∃ row ∈ db.events.lookup e, row.status = .«open» ∧ row.Of r

instance (db : Database) (r : RowKey) (e : Uuid) : Decidable (db.OpenFor r e) :=
  inferInstanceAs (Decidable (∃ row ∈ db.events.lookup e, row.status = .«open» ∧ row.Of r))

/-- The series `r` has at most one open event, and it is the one that its row names. -/
structure SeriesTracked (w : World) (r : RowKey) : Prop where
  unique : ∀ e e', w.db.OpenFor r e → w.db.OpenFor r e' → e = e'
  named : ∀ e, w.db.OpenFor r e → ∃ row ∈ w.db.policyStates.lookup r, row.openEventId = some e

/-- A call that commits an event is told so, and saves the state that names it. -/
def Call.SavesOpened (cfg : PolicyEngineConfig) (w : World) : Call → Prop
  | .applyFinding k finding id env => ∀ s tx, loadState env k w = .ok s → s.Quiet →
      s.CrossesOpen cfg finding → env.begin = .ok →
        openEventTx env k (s.watch cfg finding id) finding w.db = .ok tx → env.commit.Applies →
          env.commit = .ok ∧ env.upsert.Applies
  | _ => True

/-- Every open event is named by the row of its series, and by its state if it is in memory. -/
structure EventsTracked (w : World) : Prop where
  rows : ∀ r e, r.srcIp = "" → w.db.OpenFor r e →
    ∃ row, w.db.policyStates.lookup r = some row ∧ row.openEventId = some e
  states : ∀ k s e, w.states.lookup k = some s → w.db.OpenFor k.rowKey e → s.openEventId = some e

section

variable {cfg : PolicyEngineConfig} {w : World} {k : SeriesKey} {s s' : PolicyState}

theorem EventsTracked.seriesTracked (h : EventsTracked w) {r : RowKey} (hr : r.srcIp = "") :
    SeriesTracked w r := by
  refine ⟨?_, fun e he => h.rows r e hr he⟩
  intro e e' he he'
  obtain ⟨row, hrow, hre⟩ := h.rows r e hr he
  obtain ⟨row', hrow', hre'⟩ := h.rows r e' hr he'
  obtain rfl : row = row' := Option.some.inj (hrow ▸ hrow')
  exact Option.some.inj (hre ▸ hre')

theorem Database.openFor_congr {db db' : Database} (h : db'.events = db.events) (r : RowKey)
    (e : Uuid) : db'.OpenFor r e ↔ db.OpenFor r e := by
  unfold Database.OpenFor
  rw [h]

/-- Closing an event leaves the others of a series open. -/
theorem Database.openFor_closeEvent (db : Database) (r : RowKey) (e e' : Uuid) (now : Time) :
    (db.closeEvent e now).OpenFor r e' ↔ db.OpenFor r e' ∧ e' ≠ e := by
  unfold Database.OpenFor
  simp only [Database.closeEvent, Table.lookup_adjust]
  by_cases he : e' = e
  · simp [he]
  · simp [he]

/-- A transaction of `openEvent` opens an event of its own series. -/
theorem OpensEvent.openFor {env : ApplyEnv} {finding : Finding} {db tx : Database}
    (h : OpensEvent env k s finding db tx) (hk : k.srcIp = "") {r : RowKey} (hr : r.srcIp = "")
    (e : Uuid) : tx.OpenFor r e ↔ db.OpenFor r e ∨ e = env.eventId ∧ r = k.rowKey := by
  have hof : (openedRow k s finding).Of r ↔ r = k.rowKey := by
    obtain ⟨serialId, srcIp, target, port, metric, detector⟩ := r
    simp only at hr
    simp only [EventRow.Of, openedRow, SeriesKey.rowKey, RowKey.mk.injEq, hr, hk,
      List.cons.injEq, and_true, true_and]
    tauto
  have hnot : ¬ db.OpenFor r env.eventId := by
    rintro ⟨row, hrow, -⟩
    exact h.fresh (Finmap.mem_iff.mpr ⟨row, hrow⟩)
  by_cases he : e = env.eventId
  · subst he
    rw [or_iff_right hnot]
    unfold Database.OpenFor
    rw [h.events, Table.lookup_insert_if, if_pos rfl]
    simp only [Option.mem_def, Option.some.injEq, exists_eq_left', hof, true_and]
    simp [openedRow]
  · unfold Database.OpenFor
    rw [h.events, Table.lookup_insert_if, if_neg he]
    simp [he]

/-- What has to be shown of a change to the state and the row of `k`. -/
theorem EventsTracked.update (h : EventsTracked w) {db : Database}
    (hrows : ∀ r, r ≠ k.rowKey → db.policyStates.lookup r = w.db.policyStates.lookup r)
    (hopen : ∀ r e, r.srcIp = "" → r ≠ k.rowKey → db.OpenFor r e → w.db.OpenFor r e)
    (hstate : ∀ e, db.OpenFor k.rowKey e → s'.openEventId = some e)
    (hrow : db.policyStates.lookup k.rowKey = some s'.stored ∨
      db.policyStates.lookup k.rowKey = w.db.policyStates.lookup k.rowKey ∧
        ∀ e, db.OpenFor k.rowKey e → w.db.OpenFor k.rowKey e)
    (hkeys : ∀ k' ∈ w.states.keys, k'.srcIp = "")
    (hcopy : ∀ k' ∈ w.states.keys, k' ≠ k → k'.rowKey = k.rowKey →
      ∀ e, db.OpenFor k.rowKey e → w.db.OpenFor k.rowKey e) :
    EventsTracked { states := w.states.insert k s', db } := by
  refine ⟨?_, ?_⟩
  · intro r e hr he
    by_cases hrk : r = k.rowKey
    · subst hrk
      rcases hrow with hrow | ⟨hrow, hold⟩
      · exact ⟨_, hrow, hstate e he⟩
      · obtain ⟨row, hl, hre⟩ := h.rows _ e hr (hold e he)
        exact ⟨row, hrow.trans hl, hre⟩
    · obtain ⟨row, hl, hre⟩ := h.rows r e hr (hopen r e hr hrk he)
      exact ⟨row, (hrows r hrk).trans hl, hre⟩
  · intro k' t e hk' he
    rw [Table.lookup_insert_if] at hk'
    split at hk'
    · next hkk =>
      subst hkk
      exact Option.some.inj hk' ▸ hstate e he
    · next hkk =>
      have hmem : k' ∈ w.states.keys := Table.mem_keys.mpr ⟨t, hk'⟩
      refine h.states k' t e hk' ?_
      by_cases hrk : k'.rowKey = k.rowKey
      · rw [hrk] at he ⊢
        exact hcopy k' hmem hkk hrk e he
      · exact hopen k'.rowKey e (hkeys k' hmem) hrk he

/-- A change after which the series of `k` has no open event that it had not before. -/
theorem EventsTracked.update_of_le (h : EventsTracked w) {db : Database}
    (hrows : ∀ r, r ≠ k.rowKey → db.policyStates.lookup r = w.db.policyStates.lookup r)
    (hopen : ∀ r e, db.OpenFor r e → w.db.OpenFor r e)
    (hstate : ∀ e, db.OpenFor k.rowKey e → s'.openEventId = some e)
    (hrow : db.policyStates.lookup k.rowKey = some s'.stored ∨
      db.policyStates.lookup k.rowKey = w.db.policyStates.lookup k.rowKey)
    (hkeys : ∀ k' ∈ w.states.keys, k'.srcIp = "") :
    EventsTracked { states := w.states.insert k s', db } :=
  h.update hrows (fun r e _ _ => hopen r e) hstate
    (hrow.imp_right fun hr => ⟨hr, fun e => hopen _ e⟩) hkeys fun _ _ _ _ e => hopen _ e

/-- The rows after a save. -/
theorem saved_row (o : Outcome) (k : SeriesKey) (s : PolicyState) (db : Database) :
    (∀ r, r ≠ k.rowKey →
        (saved o k s db).policyStates.lookup r = db.policyStates.lookup r) ∧
      ((saved o k s db).policyStates.lookup k.rowKey = some s.stored ∨
        (saved o k s db).policyStates.lookup k.rowKey = db.policyStates.lookup k.rowKey) := by
  refine ⟨?_, ?_⟩
  · intro r hr
    rw [lookup_saved, if_neg fun hc => hr hc.1]
  · rw [lookup_saved]
    split
    · exact .inl rfl
    · exact .inr rfl

/-! ## Sweep -/

theorem EventsTracked.hydrated (h : EventsTracked w) (hsrc : w.Sourceless) (rows : List RowKey) :
    EventsTracked (w.hydrated rows) := by
  refine ⟨h.rows, ?_⟩
  intro k s e hs he
  rcases hsrc.hydrated_cases hs with hs | ⟨-, -, row, hrow, -, rfl⟩
  · exact h.states k s e hs he
  · have hr : k.rowKey.srcIp = "" := hsrc.rows _ (Table.mem_keys.mpr ⟨row, hrow⟩)
    obtain ⟨row', hrow', hre⟩ := h.rows k.rowKey e hr he
    obtain rfl : row = row' := Option.some.inj (hrow ▸ hrow')
    exact hre

/-- What a round of `Sweep` does to the events of its series. -/
theorem Swept.tracked {now : Time} {o : Outcome} {db : Database}
    {r : PolicyState × Database × Option Halt} (h : Swept cfg now o s db r)
    (hs : ∀ e, db.OpenFor k.rowKey e → s.openEventId = some e) :
    (∀ ρ e, r.2.1.OpenFor ρ e → db.OpenFor ρ e) ∧
      ∀ e, r.2.1.OpenFor k.rowKey e → r.1.openEventId = some e := by
  cases h with
  | drain => exact ⟨fun _ _ he => he, hs⟩
  | expire => exact ⟨fun _ _ he => he, hs⟩
  | recover => exact ⟨fun _ _ he => he, hs⟩
  | close e₀ hdue he₀ ho =>
    refine ⟨fun ρ e he => ((db.openFor_closeEvent ρ e₀ e now).mp he).1, ?_⟩
    intro e he
    -- the one open event of the series has just been closed
    obtain ⟨hopen, hne⟩ := (db.openFor_closeEvent k.rowKey e₀ e now).mp he
    have heq := hs e hopen
    rw [he₀] at heq
    exact absurd (Option.some.inj heq).symm hne
  | unclosed e₀ hdue he₀ ho =>
    have hle : ∀ ρ e, (if o.Applies then db.closeEvent e₀ now else db).OpenFor ρ e →
        db.OpenFor ρ e := by
      intro ρ e he
      split at he
      · exact ((db.openFor_closeEvent ρ e₀ e now).mp he).1
      · exact he
    exact ⟨hle, fun e he => hs e (hle _ e he)⟩

theorem EventsTracked.sweepOne (h : EventsTracked w) (hsrc : w.Sourceless) (env : SweepEnv)
    (k : SeriesKey) : EventsTracked (sweepOne cfg env k w).1 := by
  rcases sweepOne_cases cfg env k w with ⟨-, he⟩ | ⟨s, s', db, hs, ⟨x, hsw, he⟩ | ⟨hsw, he⟩⟩
  · rw [he]; exact h
  · obtain ⟨hle, hstate⟩ := hsw.tracked fun e => h.states k s e hs
    have hp : db.policyStates = w.db.policyStates := hsw.policyStates
    rw [he]
    exact h.update_of_le (fun r _ => by rw [hp]) hle hstate (.inr (by rw [hp])) hsrc.keys
  · obtain ⟨hle, hstate⟩ := hsw.tracked fun e => h.states k s e hs
    have hp : db.policyStates = w.db.policyStates := hsw.policyStates
    have hev : ∀ r e, (saved (env.upsert k) k s' db).OpenFor r e ↔ db.OpenFor r e :=
      Database.openFor_congr (saved_events ..)
    obtain ⟨hother, hrow⟩ := saved_row (env.upsert k) k s' db
    rw [hp] at hother hrow
    rw [he]
    exact h.update_of_le hother (fun r e he => hle r e ((hev r e).mp he))
      (fun e he => hstate e ((hev _ e).mp he)) hrow hsrc.keys

/-! ## ApplyFinding -/

/-- What `ApplyFinding` does to the events: it opens one, or it opens none and the state keeps the
event it has. -/
theorem Applied.tracked {env : ApplyEnv} {finding : Finding} {id : Uuid} {db : Database}
    {r : PolicyState × Database × Option Halt} (h : Applied cfg env k finding id s db r) :
    (r.2.1.events = db.events ∧ r.1.openEventId = s.openEventId) ∨
      ∃ tx, s.Quiet ∧ s.CrossesOpen cfg finding ∧ env.begin = .ok ∧
        openEventTx env k (s.watch cfg finding id) finding db = .ok tx ∧ env.commit.Applies ∧
          (env.commit = .ok →
            r = ((s.watch cfg finding id).fire finding env.eventId, tx, none)) := by
  cases h with
  | watch => exact .inl ⟨rfl, PolicyState.watch_openEventId⟩
  | refused => exact .inl ⟨rfl, PolicyState.watch_openEventId⟩
  | orphaned tx hq hc hb htx hl =>
    exact .inr ⟨tx, hq, hc, hb, htx, by rw [hl]; trivial, fun hok => by rw [hl] at hok; cases hok⟩
  | opened tx hq hc hb htx hl =>
    exact .inr ⟨tx, hq, hc, hb, htx, by rw [hl]; trivial, fun _ => rfl⟩
  | attach => exact .inl ⟨by dsimp only; split <;> rfl, rfl⟩
  | refire => exact .inl ⟨rfl, rfl⟩
  | stuck => exact .inl ⟨by dsimp only; split <;> rfl, rfl⟩
  | missing => exact .inl ⟨rfl, rfl⟩
  | other => exact .inl ⟨rfl, rfl⟩

/-- The state that `ApplyFinding` loads names the open event of its series. -/
theorem EventsTracked.loaded (h : EventsTracked w) (hk : k.srcIp = "") {env : ApplyEnv}
    (hld : loadState env k w = .ok s) {e : Uuid} (he : w.db.OpenFor k.rowKey e) :
    s.openEventId = some e := by
  rcases loadState_cases hld with hs | ⟨-, ⟨row, hrow, rfl⟩ | ⟨hrow, -⟩⟩
  · exact h.states k s e hs he
  all_goals
    obtain ⟨row', hrow', hre⟩ := h.rows k.rowKey e hk he
    rw [hrow] at hrow'
  · exact Option.some.inj hrow' ▸ hre
  · cases hrow'

/-- An event that has just been opened is tracked, once the state is saved. -/
theorem EventsTracked.opened (h : EventsTracked w) (hw : ShowsAlarms w) (hone : OneCopy w)
    (hk : k.srcIp = "") {finding : Finding} {id : Uuid} {env : ApplyEnv} {tx : Database}
    (hcopy : Call.KeepsOneCopy w (.applyFinding k finding id env))
    (hld : loadState env k w = .ok s) (hq : s.Quiet)
    (htx : OpensEvent env k (s.watch cfg finding id) finding w.db tx) (hups : env.upsert.Applies)
    (hs' : s'.openEventId = some env.eventId) :
    EventsTracked { states := w.states.insert k s', db := saved env.upsert k s' tx } := by
  obtain ⟨a, hs⟩ := hw.loaded hld
  have hnone : ∀ e, ¬ w.db.OpenFor k.rowKey e := by
    intro e he
    have hid := h.loaded hk hld he
    rw [hs.event, hs.event_none_of_quiet hq] at hid
    cases hid
  have hopen : ∀ r e, r.srcIp = "" → ((saved env.upsert k s' tx).OpenFor r e ↔
      w.db.OpenFor r e ∨ e = env.eventId ∧ r = k.rowKey) := by
    intro r e hr
    exact (Database.openFor_congr (saved_events ..) r e).trans (htx.openFor hk hr e)
  refine h.update ?_ ?_ ?_ (.inl ?_) hone.keys ?_
  · intro r hr
    rw [(saved_row env.upsert k s' tx).1 r hr, htx.policyStates]
  · intro r e hr hne he
    exact ((hopen r e hr).mp he).resolve_right fun hc => hne hc.2
  · intro e he
    rcases (hopen _ e hk).mp he with he | ⟨rfl, -⟩
    · exact absurd he (hnone e)
    · exact hs'
  · rw [lookup_saved, if_pos ⟨rfl, hups⟩]
  · intro k' hk' hne heq
    rcases hcopy.of_loaded hld with hmem | hno
    · exact absurd (hone.apart k' hk' k hmem heq) hne
    · exact absurd heq (hno k' hk')

theorem EventsTracked.applyFinding (h : EventsTracked w) (hw : ShowsAlarms w) (hone : OneCopy w)
    (hk : k.srcIp = "") {finding : Finding} {id : Uuid} {env : ApplyEnv}
    (hcopy : Call.KeepsOneCopy w (.applyFinding k finding id env))
    (hsave : Call.SavesOpened cfg w (.applyFinding k finding id env)) :
    EventsTracked (applyFinding cfg env k finding id w).1 := by
  rcases applyFinding_cases cfg env k finding id w with
    ⟨x, -, he⟩ | ⟨s, s', db, hld, ⟨x, happ, he⟩ | ⟨happ, he⟩⟩
  · rw [he]; exact h
  · have hp : db.policyStates = w.db.policyStates := happ.policyStates
    rw [he]
    rcases happ.tracked with ⟨hev, hid⟩ | ⟨tx, hq, hc, hb, htx, ha, hr⟩
    · have hopen : ∀ r e, db.OpenFor r e ↔ w.db.OpenFor r e := Database.openFor_congr hev
      refine h.update_of_le (fun r _ => by rw [hp]) (fun r e he => (hopen r e).mp he)
        ?_ (.inr (by rw [hp])) hone.keys
      intro e he
      exact hid.trans (h.loaded hk hld ((hopen _ e).mp he))
    · -- an event that is committed is not followed by an error
      have hend := hr (hsave s tx hld hq hc hb htx ha).1
      simp at hend
  · obtain ⟨hother, hrow⟩ := saved_row env.upsert k s' db
    have hp : db.policyStates = w.db.policyStates := happ.policyStates
    have hsaved : ∀ r e, (saved env.upsert k s' db).OpenFor r e ↔ db.OpenFor r e :=
      Database.openFor_congr (saved_events ..)
    rw [hp] at hother hrow
    rw [he]
    rcases happ.tracked with ⟨hev, hid⟩ | ⟨tx, hq, hc, hb, htx, ha, hr⟩
    · have hopen := fun r e => (hsaved r e).trans (Database.openFor_congr hev r e)
      refine h.update_of_le hother (fun r e he => (hopen r e).mp he) ?_ hrow hone.keys
      intro e he
      exact hid.trans (h.loaded hk hld ((hopen _ e).mp he))
    · obtain ⟨hok, hups⟩ := hsave s tx hld hq hc hb htx ha
      obtain ⟨rfl, rfl, -⟩ := Prod.mk.injEq .. ▸ hr hok
      exact h.opened hw hone hk hcopy hld hq (openEventTx_ok htx) hups rfl

/-! ## Runs -/

theorem EventsTracked.restart (h : EventsTracked w) : EventsTracked w.restart :=
  ⟨h.rows, fun k s e hs => by simp [World.restart] at hs⟩

theorem EventsTracked.insertFinding (h : EventsTracked w) (o : Outcome) (id : Uuid) (k : SeriesKey)
    (finding : Finding) : EventsTracked (insertFinding o id k finding w).1 := by
  obtain ⟨hs, hr, he⟩ := insertFinding_frame o id k finding w
  have hopen := Database.openFor_congr he
  refine ⟨?_, ?_⟩
  · intro r e hsrc hop
    rw [hr]
    exact h.rows r e hsrc ((hopen r e).mp hop)
  · intro k' s e hk' hop
    rw [hs] at hk'
    exact h.states k' s e hk' ((hopen _ e).mp hop)

theorem EventsTracked.step (h : EventsTracked w) (hw : ShowsAlarms w) (hone : OneCopy w) {c : Call}
    (hp : c.Planned) (hcopy : c.KeepsOneCopy w) (hsave : c.SavesOpened cfg w) :
    EventsTracked (Argus.step cfg w c) := by
  have hsrc := hone.toSourceless
  -- the rounds of a sweep need both
  suffices hboth : (Argus.step cfg w c).Sourceless ∧ EventsTracked (Argus.step cfg w c) from hboth.2
  refine @step_invariant cfg w c (fun w => w.Sourceless ∧ EventsTracked w) ⟨hsrc, h⟩
    (fun w hw => ⟨hw.1.restart, hw.2.restart⟩) ?_ ?_ ?_ ?_
  · intro k finding id o _
    exact ⟨hsrc.insertFinding o id k finding, h.insertFinding o id k finding⟩
  · rintro k finding id env rfl
    exact ⟨hsrc.applyFinding hp.srcIp_eq env finding id,
      h.applyFinding hw hone hp.srcIp_eq hcopy hsave⟩
  · exact fun env _ _ => ⟨hsrc.hydrated env.rows, h.hydrated hsrc env.rows⟩
  · exact fun env _ w k hw => ⟨hw.1.sweepOne env k, hw.2.sweepOne hw.1 env k⟩

/--
**An open event is the only one of its series, and the one that its row names, whatever fails and
whenever the process dies.**

It takes that an event that is committed is also saved: the transaction that opens it and the
statement that names it are two writes, and what happens between them orphans the event. And it
takes that series keep one copy.
-/
theorem event_tracked (cfg : PolicyEngineConfig) {calls : List Call}
    (henv : Along (Argus.step cfg) (fun w c => c.Legal w ∧ c.Planned) World.init calls)
    (hsave : Along (Argus.step cfg) (fun w c => c.KeepsOneCopy w ∧ c.SavesOpened cfg w) World.init
      calls) :
    Throughout (Argus.step cfg) (fun w => ∀ r : RowKey, r.srcIp = "" → SeriesTracked w r) World.init
      calls := by
  have hinit : ShowsAlarms World.init ∧ OneCopy World.init ∧ EventsTracked World.init := by
    refine ⟨Pointwise.init _ _, ⟨World.Sourceless.init, ?_⟩, ?_, ?_⟩
    · exact fun k hk => by simp [World.init] at hk
    · rintro r e - ⟨row, hrow, -⟩
      simp [World.init, Database.empty] at hrow
    · exact fun k s e hs => by simp [World.init] at hs
  have hstep : ∀ w c, ShowsAlarms w ∧ OneCopy w ∧ EventsTracked w →
      (c.Legal w ∧ c.Planned) ∧ c.KeepsOneCopy w ∧ c.SavesOpened cfg w →
        ShowsAlarms (Argus.step cfg w c) ∧ OneCopy (Argus.step cfg w c) ∧
          EventsTracked (Argus.step cfg w c) := by
    rintro w c ⟨hw, hone, ht⟩ ⟨⟨hl, hp⟩, hcopy, hsave⟩
    exact ⟨ShowsAlarms.step hw hl, hone.step hp hcopy, ht.step hw hone hp hcopy hsave⟩
  refine (throughout_of_invariant hstep hinit (along_and.mpr ⟨henv, hsave⟩)).imp ?_
  rintro w ⟨-, -, ht⟩ r hr
  exact ht.seriesTracked hr

end

/-- The process dies between the commit of the event and the save of the state. -/
def orphanedEvent : List Call :=
  [.applyFinding (pingKey "a") { ts := 1000 * second, value := 0, severity := 6 } 0
    { ApplyEnv.ok (1000 * second) 0 with upsert := .crash }]

/-- The event stays open, and no row names it. -/
theorem orphanedEvent_untracked :
    ¬ ∀ (cfg : PolicyEngineConfig) (calls : List Call),
      Along (step cfg) (fun w c => c.Legal w ∧ c.Planned) World.init calls →
        Throughout (step cfg) (fun w => ∀ r : RowKey, r.srcIp = "" → SeriesTracked w r) World.init
          calls := by
  intro h
  have hlast := (h startConfig orphanedEvent (by decide +kernel)).last
  obtain ⟨row, hrow, -⟩ := (hlast (pingKey "a").rowKey rfl).named 0 (by decide +kernel)
  have hnone : (run (step startConfig) World.init orphanedEvent).db.policyStates.lookup
      (pingKey "a").rowKey = none := by
    decide +kernel
  rw [hnone] at hrow
  cases hrow

/-- Two events, two restarts, and every event in its row. -/
theorem twoAlarms_tracked :
    Throughout (step startConfig) (fun w => ∀ r : RowKey, r.srcIp = "" → SeriesTracked w r)
      World.init twoAlarms :=
  event_tracked startConfig (by decide +kernel)
    ⟨⟨by decide +kernel, fun _ _ _ _ _ _ _ _ => ⟨rfl, trivial⟩⟩, ⟨trivial, trivial⟩,
      ⟨by decide +kernel, trivial⟩, ⟨by decide +kernel, fun _ _ _ _ _ _ _ _ => ⟨rfl, trivial⟩⟩,
      ⟨trivial, trivial⟩, trivial⟩

end Cepheus.Argus
