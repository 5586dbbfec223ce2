import Cepheus.Argus.Properties.Call

/-!
# References to events

Policy states and findings name events by their id. The tables declare this as a foreign key and
the model does not check it, which is sound because the engine never writes an id without an event:
not even when statements fail, answers get lost or the process dies between two of them.

* `Referenced` - every id in memory, in a policy state and in a finding is that of an event
* `engine_referenced` - this holds throughout every run
-/

namespace Cepheus.Argus

open Infra

/-- Every finding that is attached is attached to an event. -/
def Database.FindingsReferenced (db : Database) : Prop :=
  ∀ id row e, db.findings.lookup id = some row → row.eventId = some e → e ∈ db.events

/-- Every event id is that of an event. -/
structure Referenced (w : World) : Prop where
  states : ∀ k s e, w.states.lookup k = some s → s.openEventId = some e → e ∈ w.db.events
  rows : ∀ r row e, w.db.policyStates.lookup r = some row → row.openEventId = some e →
    e ∈ w.db.events
  findings : w.db.FindingsReferenced

section

variable {cfg : PolicyEngineConfig} {w : World} {k : SeriesKey} {s : PolicyState} {db : Database}

theorem Referenced.init : Referenced World.init := by
  constructor <;> simp [World.init, Database.empty, Database.FindingsReferenced]

theorem Referenced.restart (h : Referenced w) : Referenced w.restart :=
  ⟨fun k s e hs => by simp [World.restart] at hs, h.rows, h.findings⟩

/-! ## The statements -/

theorem Database.mem_events_closeEvent {e e' : Uuid} {now : Time} :
    e' ∈ (db.closeEvent e now).events ↔ e' ∈ db.events := by
  rw [Finmap.mem_iff, Finmap.mem_iff]
  simp only [Database.closeEvent, Table.lookup_adjust]
  split <;> simp

theorem Database.FindingsReferenced.attach (h : db.FindingsReferenced) {e : Uuid}
    (he : e ∈ db.events) (id : Uuid) : (db.attachFindingToEvent e id).FindingsReferenced := by
  intro i row e' hl hr
  simp only [Database.attachFindingToEvent, Table.lookup_adjust] at hl
  split at hl
  · obtain ⟨row₀, -, rfl⟩ := Option.map_eq_some_iff.mp hl
    exact Option.some.inj hr ▸ he
  · exact h i row e' hl hr

theorem Database.FindingsReferenced.closeEvent (h : db.FindingsReferenced) (e : Uuid) (now : Time) :
    (db.closeEvent e now).FindingsReferenced :=
  fun id row e' hl hr => Database.mem_events_closeEvent.mpr (h id row e' hl hr)

theorem Database.FindingsReferenced.insertFinding (h : db.FindingsReferenced) {id : Uuid}
    {k : SeriesKey} {finding : Finding} {db' : Database}
    (hd : db.insertFinding id (finding.row k) = some db') : db'.FindingsReferenced := by
  rw [(Database.insertFinding_eq_some hd).2]
  intro i row e hl hr
  rw [Table.lookup_insert_if] at hl
  split at hl
  · -- a finding comes without an event
    rw [← Option.some.inj hl] at hr
    cases hr
  · exact h i row e hl hr

theorem OpensEvent.mem_events {env : ApplyEnv} {finding : Finding} {tx : Database}
    (htx : OpensEvent env k s finding db tx) {e : Uuid} :
    e ∈ tx.events ↔ e = env.eventId ∨ e ∈ db.events := by
  rw [htx.events, Finmap.mem_insert]

theorem OpensEvent.findingsReferenced {env : ApplyEnv} {finding : Finding} {tx : Database}
    (htx : OpensEvent env k s finding db tx) (h : db.FindingsReferenced) :
    tx.FindingsReferenced := by
  intro id row e hl hr
  rw [htx.mem_events]
  rw [htx.findings] at hl
  split at hl
  · obtain ⟨row₀, -, rfl⟩ := Option.map_eq_some_iff.mp hl
    exact .inl (Option.some.inj hr).symm
  · exact .inr (h id row e hl hr)

/-! ## The calls -/

/-- Only events are added, and the state and the findings name events. -/
structure Names (db : Database) (s : PolicyState) (db' : Database) : Prop where
  events : ∀ e ∈ db.events, e ∈ db'.events
  state : ∀ e, s.openEventId = some e → e ∈ db'.events
  findings : db'.FindingsReferenced

/-- Whatever way `ApplyFinding` takes, it names events only. -/
theorem Applied.names {env : ApplyEnv} {finding : Finding} {id : Uuid}
    {r : PolicyState × Database × Option Halt} (h : Applied cfg env k finding id s db r)
    (hs : ∀ e, s.openEventId = some e → e ∈ db.events) (hf : db.FindingsReferenced) :
    Names db r.1 r.2.1 := by
  have hwatch : ∀ e, (s.watch cfg finding id).openEventId = some e → e ∈ db.events := by
    simpa using hs
  -- attaching a finding to the event of the state, or failing to
  have hattach : ∀ (o : Outcome) e, s.openEventId = some e →
      Names db (s.score cfg finding) (if o.Applies then db.attachFindingToEvent e id else db) := by
    intro o e he
    split
    · exact ⟨fun _ h => h, hs, hf.attach (hs e he) id⟩
    · exact ⟨fun _ h => h, hs, hf⟩
  cases h with
  | watch => exact ⟨fun _ h => h, hwatch, hf⟩
  | refused => exact ⟨fun _ h => h, hwatch, hf⟩
  | orphaned tx _ _ _ htx =>
    have htx := openEventTx_ok htx
    exact ⟨fun e he => htx.mem_events.mpr (.inr he),
      fun e he => htx.mem_events.mpr (.inr (hwatch e he)), htx.findingsReferenced hf⟩
  | opened tx _ _ _ htx =>
    have htx := openEventTx_ok htx
    exact ⟨fun e he => htx.mem_events.mpr (.inr he),
      fun e he => htx.mem_events.mpr (.inl (Option.some.inj he).symm), htx.findingsReferenced hf⟩
  | attach e _ he => exact hattach _ e he
  | refire e _ he => exact ⟨fun _ h => h, hs, hf.attach (hs e he) id⟩
  | stuck e _ he => exact hattach _ e he
  | missing => exact ⟨fun _ h => h, hs, hf⟩
  | other => exact ⟨fun _ h => h, hs, hf⟩

/-- Whatever way a round of `Sweep` takes, it names events only. -/
theorem Swept.names {now : Time} {o : Outcome} {r : PolicyState × Database × Option Halt}
    (h : Swept cfg now o s db r) (hs : ∀ e, s.openEventId = some e → e ∈ db.events)
    (hf : db.FindingsReferenced) : Names db r.1 r.2.1 := by
  have hclose : ∀ e, ∀ e' ∈ db.events, e' ∈ (db.closeEvent e now).events :=
    fun _ _ he' => Database.mem_events_closeEvent.mpr he'
  cases h with
  | drain => exact ⟨fun _ h => h, hs, hf⟩
  | expire => exact ⟨fun _ h => h, hs, hf⟩
  | recover => exact ⟨fun _ h => h, hs, hf⟩
  | close e => exact ⟨hclose e, fun _ he' => (by cases he'), hf.closeEvent e now⟩
  | unclosed e =>
    dsimp only
    split
    · exact ⟨hclose e, fun e' he' => hclose e e' (hs e' he'), hf.closeEvent e now⟩
    · exact ⟨fun _ h => h, hs, hf⟩

/-- A state that names events is put in the place of another, and saved or not. -/
theorem Referenced.insert (h : Referenced w) {s' : PolicyState} (hn : Names w.db s' db)
    (hp : db.policyStates = w.db.policyStates) (o : Outcome) :
    Referenced { states := w.states.insert k s', db := saved o k s' db } := by
  refine ⟨?_, ?_, ?_⟩
  · intro k' s₁ e hs₁ he
    rw [saved_events]
    rw [Table.lookup_insert_if] at hs₁
    split at hs₁
    · exact hn.state e (Option.some.inj hs₁ ▸ he)
    · exact hn.events e (h.states k' s₁ e hs₁ he)
  · intro r row e hrow he
    rw [saved_events]
    rw [lookup_saved, hp] at hrow
    split at hrow
    · obtain rfl := Option.some.inj hrow
      exact hn.state e he
    · exact hn.events e (h.rows r row e hrow he)
  · intro id row e hl he
    rw [saved_findings] at hl
    rw [saved_events]
    exact hn.findings id row e hl he

theorem Referenced.loaded (h : Referenced w) {env : ApplyEnv} (hld : loadState env k w = .ok s) :
    ∀ e, s.openEventId = some e → e ∈ w.db.events := by
  intro e he
  rcases loadState_cases hld with hs | ⟨-, ⟨row, hrow, rfl⟩ | ⟨-, rfl⟩⟩
  · exact h.states k s e hs he
  · exact h.rows k.rowKey row e hrow he
  · cases he

theorem Referenced.applyFinding (h : Referenced w) (env : ApplyEnv) (k : SeriesKey)
    (finding : Finding) (id : Uuid) : Referenced (applyFinding cfg env k finding id w).1 := by
  rcases applyFinding_cases cfg env k finding id w with
    ⟨x, -, he⟩ | ⟨s, s', db, hld, ⟨x, happ, he⟩ | ⟨happ, he⟩⟩
  · rw [he]; exact h
  · rw [he]
    exact h.insert (happ.names (h.loaded hld) h.findings) happ.policyStates .failed
  · rw [he]
    exact h.insert (happ.names (h.loaded hld) h.findings) happ.policyStates _

theorem Referenced.sweepOne (h : Referenced w) (env : SweepEnv) (k : SeriesKey) :
    Referenced (sweepOne cfg env k w).1 := by
  rcases sweepOne_cases cfg env k w with ⟨-, he⟩ | ⟨s, s', db, hs, ⟨x, hsw, he⟩ | ⟨hsw, he⟩⟩
  · rw [he]; exact h
  · rw [he]
    exact h.insert (hsw.names (fun e => h.states k s e hs) h.findings) hsw.policyStates .failed
  · rw [he]
    exact h.insert (hsw.names (fun e => h.states k s e hs) h.findings) hsw.policyStates _

theorem Referenced.hydrated (h : Referenced w) (rows : List RowKey) :
    Referenced (w.hydrated rows) := by
  refine ⟨?_, h.rows, h.findings⟩
  intro k s e hs he
  rcases hydrated_cases hs with hs | ⟨-, r, row, hrow, -, -, rfl⟩
  · exact h.states k s e hs he
  · exact h.rows r row e hrow he

theorem Referenced.insertFinding (h : Referenced w) (o : Outcome) (id : Uuid) (k : SeriesKey)
    (finding : Finding) : Referenced (insertFinding o id k finding w).1 := by
  rcases insertFinding_cases o id k finding w with he | ⟨db, hd, he⟩
  · rw [he]; exact h
  · have hev : db.events = w.db.events ∧ db.policyStates = w.db.policyStates := by
      rw [(Database.insertFinding_eq_some hd).2]
      exact ⟨rfl, rfl⟩
    rw [he]
    refine ⟨?_, ?_, h.findings.insertFinding hd⟩
    · intro k' s e hs hr
      rw [hev.1]
      exact h.states k' s e hs hr
    · intro r row e hl hr
      rw [hev.1]
      rw [hev.2] at hl
      exact h.rows r row e hl hr

/-- **No call leaves an id without an event.** -/
theorem Referenced.step (h : Referenced w) (c : Call) : Referenced (Argus.step cfg w c) := by
  refine step_invariant h (fun w hw => hw.restart) ?_ ?_ ?_ ?_
  · exact fun k finding id o _ => h.insertFinding o id k finding
  · exact fun k finding id env _ => h.applyFinding env k finding id
  · exact fun env _ _ => h.hydrated env.rows
  · exact fun env _ w k hw => hw.sweepOne env k

/-- **Every event id is that of an event, whatever fails and whenever the process dies.** -/
theorem engine_referenced (cfg : PolicyEngineConfig) (calls : List Call) :
    Throughout (Argus.step cfg) Referenced World.init calls := by
  exact throughout_always (fun w c hw => hw.step c) Referenced.init

end

end Cepheus.Argus
