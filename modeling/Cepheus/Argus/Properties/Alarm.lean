import Cepheus.Argus.Properties.Call

/-!
# The alarm of a series

What the engine is for, without scores, clocks and tables: a series is quiet, or findings are
being collected, or an event stands for them. `Alarm` says so in its constructors, so that a
pending list without findings or a firing series without an event cannot be written down.

* `Applied.refines`, `Swept.refines` - the code moves between states that show an alarm, and
  moves the alarm along `Alarm.Next`
* `engine_shows_alarm` - hence every state and every row shows an alarm, in every run
-/

namespace Cepheus.Argus

open Infra

/-- The alarm of a series. -/
inductive Alarm
  | clean
  | watching (pending : List Uuid) (nonempty : pending ≠ [])
  | firing (event : Uuid)
  | recovering (event : Uuid)

namespace Alarm

/-- The status the alarm is shown as. -/
def status : Alarm → PolicyStateStatus
  | clean => .clean
  | watching _ _ => .watching
  | firing _ => .firing
  | recovering _ => .recovering

/-- The event that stands for the findings. -/
def event : Alarm → Option Uuid
  | clean => none
  | watching _ _ => none
  | firing e => some e
  | recovering e => some e

/-- The findings that wait for an event. -/
def pending : Alarm → List Uuid
  | clean => []
  | watching p _ => p
  | firing _ => []
  | recovering _ => []

/-- How an alarm can change at once. An event is given up in one place only: when a recovering
alarm closes it. -/
inductive Next : Alarm → Alarm → Prop
  | stay (a : Alarm) : Next a a
  | notice (id : Uuid) : Next clean (watching [id] (by simp))
  | collect (p : List Uuid) (h : p ≠ []) (id : Uuid) :
    Next (watching p h) (watching (p ++ [id]) (by simp))
  | raise (a : Alarm) (h : a.event = none) (e : Uuid) : Next a (firing e)
  | refire (e : Uuid) : Next (recovering e) (firing e)
  | expire (p : List Uuid) (h : p ≠ []) : Next (watching p h) clean
  | recover (e : Uuid) : Next (firing e) (recovering e)
  | close (e : Uuid) : Next (recovering e) clean

end Alarm

/-! ## Showing an alarm -/

/-- A status, an event id and a number of pending findings that belong together. -/
structure Sound {α : Type} (status : PolicyStateStatus) (openEventId : Option Uuid)
    (pending : List α) : Prop where
  status_mem : status ∈ ([.clean, .watching, .firing, .recovering] : List PolicyStateStatus)
  openEventId_iff : openEventId ≠ none ↔ status = .firing ∨ status = .recovering
  pending_iff : pending ≠ [] ↔ status = .watching

/-- The state shows the alarm `a`. -/
structure PolicyState.Shows (s : PolicyState) (a : Alarm) : Prop where
  status : s.status = a.status
  event : s.openEventId = a.event
  pending : s.pendingFindings.map PendingFinding.id = a.pending

/-- The row shows the alarm `a`. -/
structure PolicyRow.Shows (row : PolicyRow) (a : Alarm) : Prop where
  status : row.status = a.status
  event : row.openEventId = a.event
  pending : row.pendingFindings = a.pending

theorem Alarm.sound (a : Alarm) : Sound a.status a.event a.pending := by
  cases a with
  | clean => exact ⟨by decide, by simp [status, event], by simp [status, pending]⟩
  | watching p h => exact ⟨by simp [status], by simp [status, event], by simp [status, pending, h]⟩
  | firing e => exact ⟨by simp [status], by simp [status, event], by simp [status, pending]⟩
  | recovering e => exact ⟨by simp [status], by simp [status, event], by simp [status, pending]⟩

/-- A state that shows an alarm has a status, an event id and pending findings that fit. -/
theorem PolicyState.Shows.sound {s : PolicyState} {a : Alarm} (h : s.Shows a) :
    Sound s.status s.openEventId s.pendingFindings := by
  obtain ⟨h1, h2, h3⟩ := a.sound
  refine ⟨h.status ▸ h1, by rw [h.status, h.event]; exact h2, ?_⟩
  rw [h.status, ← h3, ← h.pending, ne_eq, ne_eq, List.map_eq_nil_iff]

theorem PolicyRow.Shows.sound {row : PolicyRow} {a : Alarm} (h : row.Shows a) :
    Sound row.status row.openEventId row.pendingFindings := by
  obtain ⟨h1, h2, h3⟩ := a.sound
  exact ⟨h.status ▸ h1, by rw [h.status, h.event]; exact h2, by rw [h.status, h.pending]; exact h3⟩

/-- A save keeps the alarm. -/
theorem PolicyState.Shows.stored {s : PolicyState} {a : Alarm} (h : s.Shows a) :
    s.stored.Shows a :=
  ⟨h.status, h.event, h.pending⟩

/-- Reading a row back keeps the alarm. -/
theorem PolicyRow.Shows.hydrate {row : PolicyRow} {a : Alarm} (h : row.Shows a) :
    row.hydrate.Shows a :=
  ⟨h.status, h.event, by simpa [PolicyRow.hydrate, Function.comp_def] using h.pending⟩

theorem PolicyState.fresh_shows (now : Time) : (PolicyState.fresh now).Shows .clean :=
  ⟨rfl, rfl, rfl⟩

/-! ## The transitions move the alarm -/

section

variable {s : PolicyState} {a : Alarm}

theorem PolicyState.Shows.event_none_of_quiet (h : s.Shows a) (hq : s.Quiet) : a.event = none := by
  cases a with
  | clean => rfl
  | watching => rfl
  | firing e => exact absurd (.inl h.status) hq.not_alarmed
  | recovering e => exact absurd (.inr h.status) hq.not_alarmed

/-- Noting a finding turns a clean alarm into a watching one, and adds to a watching one. -/
theorem PolicyState.Shows.watch (h : s.Shows a) (hq : s.Quiet) (cfg : PolicyEngineConfig)
    (finding : Finding) (id : Uuid) :
    ∃ a', (s.watch cfg finding id).Shows a' ∧ Alarm.Next a a' := by
  cases a with
  | clean =>
    have hw : s.watch cfg finding id = (s.score cfg finding).startWatching finding id :=
      if_pos h.status
    exact ⟨_, ⟨by rw [hw]; rfl, by rw [hw]; exact h.event, by rw [hw]; rfl⟩, .notice id⟩
  | watching p hp =>
    have hw : s.watch cfg finding id = (s.score cfg finding).keepWatching finding id :=
      if_neg (by rw [h.status]; simp [Alarm.status])
    refine ⟨_, ⟨by rw [hw]; exact h.status, by rw [hw]; exact h.event, ?_⟩, .collect p hp id⟩
    have hpend : s.pendingFindings.map PendingFinding.id = p := h.pending
    rw [hw]
    simp [PolicyState.keepWatching, PolicyState.score, Alarm.pending, hpend]
  | firing e => exact absurd (.inl h.status) hq.not_alarmed
  | recovering e => exact absurd (.inr h.status) hq.not_alarmed

/-- An alarm shown by a firing state. -/
theorem PolicyState.Shows.eq_firing (h : s.Shows a) (hs : s.status = .firing) {e : Uuid}
    (he : s.openEventId = some e) : a = .firing e := by
  have hst := h.status
  have hev := h.event
  rw [hs] at hst
  rw [he] at hev
  cases a with
  | firing e' => rw [Option.some.inj hev]
  | clean => cases hst
  | watching => cases hst
  | recovering => cases hst

/-- An alarm shown by a recovering state. -/
theorem PolicyState.Shows.eq_recovering (h : s.Shows a) (hs : s.status = .recovering) {e : Uuid}
    (he : s.openEventId = some e) : a = .recovering e := by
  have hst := h.status
  have hev := h.event
  rw [hs] at hst
  rw [he] at hev
  cases a with
  | recovering e' => rw [Option.some.inj hev]
  | clean => cases hst
  | watching => cases hst
  | firing => cases hst

theorem PolicyState.Shows.event_of_alarmed (h : s.Shows a) (hs : s.Alarmed) :
    s.openEventId ≠ none :=
  h.sound.openEventId_iff.mpr hs

/-- **`ApplyFinding` moves the alarm.** -/
theorem Applied.refines {cfg : PolicyEngineConfig} {env : ApplyEnv} {k : SeriesKey}
    {finding : Finding} {id : Uuid} {db : Database} {r : PolicyState × Database × Option Halt}
    (h : Applied cfg env k finding id s db r) (hs : s.Shows a) :
    ∃ a', r.1.Shows a' ∧ Alarm.Next a a' := by
  cases h with
  | watch hq => exact hs.watch hq cfg finding id
  | refused _ _ hq => exact hs.watch hq cfg finding id
  | orphaned _ hq => exact hs.watch hq cfg finding id
  | opened _ hq =>
    exact ⟨.firing env.eventId, ⟨rfl, rfl, rfl⟩, .raise a (hs.event_none_of_quiet hq) _⟩
  | attach e hst he =>
    obtain rfl := hs.eq_firing hst he
    exact ⟨.firing e, ⟨hst, he, hs.pending⟩, .stay _⟩
  | refire e hst he =>
    obtain rfl := hs.eq_recovering hst he
    exact ⟨.firing e, ⟨rfl, he, hs.pending⟩, .refire e⟩
  | stuck e hst he =>
    obtain rfl := hs.eq_recovering hst he
    exact ⟨.recovering e, ⟨hst, he, hs.pending⟩, .stay _⟩
  | missing _ hst he => exact absurd he (hs.event_of_alarmed hst)
  | other text hst =>
    have hc := hs.status
    rw [hst] at hc
    cases a <;> simp [Alarm.status] at hc

/-- **`Sweep` moves the alarm.** -/
theorem Swept.refines {cfg : PolicyEngineConfig} {now : Time} {o : Outcome} {db : Database}
    {r : PolicyState × Database × Option Halt} (h : Swept cfg now o s db r) (hs : s.Shows a) :
    ∃ a', r.1.Shows a' ∧ Alarm.Next a a' := by
  cases h with
  | drain => exact ⟨a, ⟨hs.status, hs.event, hs.pending⟩, .stay a⟩
  | expire hst =>
    cases a with
    | watching p hp => exact ⟨.clean, ⟨rfl, hs.event, rfl⟩, .expire p hp⟩
    | clean => rw [hs.status] at hst; cases hst
    | firing => rw [hs.status] at hst; cases hst
    | recovering => rw [hs.status] at hst; cases hst
  | recover hst =>
    obtain ⟨e, he⟩ := Option.ne_none_iff_exists'.mp (hs.event_of_alarmed (.inl hst))
    obtain rfl := hs.eq_firing hst he
    exact ⟨.recovering e, ⟨rfl, he, hs.pending⟩, .recover e⟩
  | close e hst he =>
    obtain rfl := hs.eq_recovering hst.1 he
    exact ⟨.clean, ⟨rfl, rfl, rfl⟩, .close e⟩
  | unclosed e hst he =>
    exact ⟨a, ⟨hs.status, hs.event, hs.pending⟩, .stay a⟩

end

/-! ## In every run -/

/-- Every state in memory and every row shows an alarm. -/
def ShowsAlarms (w : World) : Prop :=
  Pointwise (fun s => ∃ a, s.Shows a) (fun row => ∃ a, row.Shows a) w

theorem ShowsAlarms.step {cfg : PolicyEngineConfig} {w : World} {c : Call} (hw : ShowsAlarms w)
    (hl : c.Legal w) : ShowsAlarms (Argus.step cfg w c) := by
  refine Pointwise.step hw hl ?_ ?_ ?_ ?_
  · rintro s ⟨a, ha⟩
    exact ⟨a, ha.stored⟩
  · rintro row ⟨a, ha⟩ -
    exact ⟨a, ha.hydrate⟩
  · rintro k finding id env s s' db h - - hload happ
    have hs : ∃ a, s.Shows a := by
      rcases hload with hs | ⟨row, ⟨a, ha⟩, rfl⟩ | rfl
      · exact hs
      · exact ⟨a, ha.hydrate⟩
      · exact ⟨_, PolicyState.fresh_shows _⟩
    obtain ⟨a, ha⟩ := hs
    obtain ⟨a', ha', -⟩ := happ.refines ha
    exact ⟨a', ha'⟩
  · rintro env k s s' db db' h - - - ⟨a, ha⟩ - hsw
    obtain ⟨a', ha', -⟩ := hsw.refines ha
    exact ⟨a', ha'⟩

/-- **Every state and every row shows an alarm, whatever fails and whenever the process dies.** -/
theorem engine_shows_alarm (cfg : PolicyEngineConfig) {calls : List Call}
    (hl : Along (step cfg) (fun w c => c.Legal w) World.init calls) :
    ShowsAlarms (run (step cfg) World.init calls) :=
  run_invariant (fun _ _ hw hc => ShowsAlarms.step hw hc) (Pointwise.init _ _) hl

/-- A state that `ApplyFinding` loads shows an alarm. -/
theorem ShowsAlarms.loaded {w : World} (hw : ShowsAlarms w) {env : ApplyEnv} {k : SeriesKey}
    {s : PolicyState} (h : loadState env k w = .ok s) : ∃ a, s.Shows a := by
  rcases hw.loadable h with hs | ⟨row, ⟨a, ha⟩, rfl⟩ | rfl
  · exact hs
  · exact ⟨a, ha.hydrate⟩
  · exact ⟨_, PolicyState.fresh_shows _⟩

/-- A way of `ApplyFinding` from a state that shows an alarm ends with no error of the engine's
own. -/
theorem Applied.external {cfg : PolicyEngineConfig} {env : ApplyEnv} {k : SeriesKey}
    {finding : Finding} {id : Uuid} {s s' : PolicyState} {db db' : Database} {a : Alarm}
    {h : Halt} (ha : Applied cfg env k finding id s db (s', db', some h)) (hs : s.Shows a) :
    h.External := by
  generalize hr : (s', db', some h) = r at ha
  cases ha with
  | watch => cases hr
  | refused h' hh => cases hr; exact hh
  | orphaned => cases hr; trivial
  | opened => cases hr
  | attach =>
    simp only [Prod.mk.injEq] at hr
    exact Outcome.halt_external hr.2.2.symm
  | refire => cases hr
  | stuck =>
    simp only [Prod.mk.injEq] at hr
    exact Outcome.halt_external hr.2.2.symm
  | missing _ hst he => exact absurd he (hs.event_of_alarmed hst)
  | other => cases hr

theorem loadState_external {env : ApplyEnv} {k : SeriesKey} {w : World} {h : Halt}
    (hh : loadState env k w = .error h) : h.External :=
  Outcome.halt_external (loadState_error hh)

/-- No call of `ApplyFinding` ends with an error of the engine's own. -/
theorem ShowsAlarms.applyFinding_external {w : World} (hw : ShowsAlarms w)
    (cfg : PolicyEngineConfig) (env : ApplyEnv) (k : SeriesKey) (finding : Finding) (id : Uuid)
    {h : Halt} (hh : (applyFinding cfg env k finding id w).2 = some h) : h.External := by
  rcases applyFinding_cases cfg env k finding id w with
    ⟨h', hld, he⟩ | ⟨s, s', db, hld, ⟨h', ha, he⟩ | ⟨-, he⟩⟩
  · rw [he] at hh
    exact Option.some.inj hh ▸ loadState_external hld
  · obtain ⟨a, hs⟩ := hw.loaded hld
    rw [he] at hh
    exact Option.some.inj hh ▸ ha.external hs
  · rw [he] at hh
    exact Outcome.halt_external hh

/--
**The status, the event id and the pending findings of a series always fit together.**

It holds in memory and in the table, from empty tables on, in every run, whatever statements fail
or lose their answer and whenever the process dies. So neither "missing open id" branch of
`ApplyFinding` is ever taken, and no recovering series that `Sweep` comes to lacks its event.
-/
theorem engine_sound (cfg : PolicyEngineConfig) {calls : List Call}
    (hl : Along (step cfg) (fun w c => c.Legal w) World.init calls) :
    (∀ k s, (run (step cfg) World.init calls).states.lookup k = some s →
        Sound s.status s.openEventId s.pendingFindings) ∧
      (∀ r row, (run (step cfg) World.init calls).db.policyStates.lookup r = some row →
        Sound row.status row.openEventId row.pendingFindings) ∧
      (∀ env k finding id text,
        (applyFinding cfg env k finding id (run (step cfg) World.init calls)).2 ≠
          some (.error (.text text))) ∧
      ∀ rows k s, ((run (step cfg) World.init calls).hydrated rows).states.lookup k = some s →
        s.status = .recovering → s.openEventId ≠ none := by
  have hw := engine_shows_alarm cfg hl
  refine ⟨?_, ?_, ?_, ?_⟩
  · intro k s hs
    obtain ⟨a, ha⟩ := hw.states k s hs
    exact ha.sound
  · intro r row hr
    obtain ⟨a, ha⟩ := hw.rows r row hr
    exact ha.sound
  · intro env k finding id text hh
    exact hw.applyFinding_external cfg env k finding id hh
  · intro rows k s hs hst
    have hh : ShowsAlarms ((run (step cfg) World.init calls).hydrated rows) :=
      hw.hydrated (fun row ⟨a, ha⟩ _ => ⟨a, ha.hydrate⟩) rows
    obtain ⟨a, ha⟩ := hh.states k s hs
    exact ha.event_of_alarmed (.inr hst)

/-- Agent "b" is firing, and its row names the event. -/
theorem twoAlarms_sound :
    ∃ row, (run (step startConfig) World.init twoAlarms).db.policyStates.lookup
      (pingKey "b").rowKey = some row ∧ row.status = .firing ∧
        Sound row.status row.openEventId row.pendingFindings := by
  obtain ⟨row, hrow, hs⟩ :
      ∃ row ∈ (run (step startConfig) World.init twoAlarms).db.policyStates.lookup
        (pingKey "b").rowKey, row.status = .firing := by
    decide +kernel
  exact ⟨row, hrow, hs, (engine_sound startConfig (by decide +kernel)).2.1 _ row hrow⟩

end Cepheus.Argus
