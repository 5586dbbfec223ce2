import Cepheus.Argus.Properties.Success

/-!
# Scores and statuses

The score of a series decides when its event opens and when it starts to recover. The engine acts
on edges, so an edge that is missed is missed for good.

* `unparked_iff` - a watching series stays under the opening threshold just when no finding meets a
  score that is over it already
* `firing_leaves` - a firing series is never under the closing threshold, and leaves as soon as a
  sweep finds it there
* `clean_is_empty` - a clean series has an empty bucket, as long as no event is closed over one
  that is not
-/

namespace Cepheus.Argus

open Infra

/-! ## The score after a transition -/

section

variable {cfg : PolicyEngineConfig} {finding : Finding} {id : Uuid} {s : PolicyState}

/-- Whatever way it takes, `ApplyFinding` adds the finding to the bucket. -/
theorem Applied.bucketState {env : ApplyEnv} {k : SeriesKey} {db : Database}
    {r : PolicyState × Database × Option Halt} (h : Applied cfg env k finding id s db r) :
    r.1.bucketState = (cfg.bucket.add s.bucketState finding.severity finding.ts).newState := by
  cases h with
  | watch => exact PolicyState.watch_bucketState
  | refused => exact PolicyState.watch_bucketState
  | orphaned => exact PolicyState.watch_bucketState
  | opened => exact PolicyState.watch_bucketState
  | attach => rfl
  | refire => rfl
  | stuck => rfl
  | missing => rfl
  | other => rfl

/-- No series is clean after `ApplyFinding`. -/
theorem Applied.not_clean {env : ApplyEnv} {k : SeriesKey} {db : Database}
    {r : PolicyState × Database × Option Halt} (h : Applied cfg env k finding id s db r) :
    r.1.status ≠ .clean := by
  cases h with
  | watch hq => rw [PolicyState.watch_status hq]; simp
  | refused _ _ hq => rw [PolicyState.watch_status hq]; simp
  | orphaned _ hq => rw [PolicyState.watch_status hq]; simp
  | opened => simp [PolicyState.fire]
  | attach e hs => simp [PolicyState.score, hs]
  | refire => simp [PolicyState.enter]
  | stuck e hs => simp [PolicyState.score, hs]
  | missing _ hs => rcases hs with hs | hs <;> simp [PolicyState.score, hs]
  | other text hs => simp [PolicyState.score, hs]

end

/-! ## Watching -/

/-- Every watching series in memory is under the opening threshold. -/
def Clocked.Unparked (cfg : PolicyEngineConfig) (s : Clocked) : Prop :=
  ∀ k st, s.world.states.lookup k = some st → st.status = .watching →
    st.bucketState.score < cfg.bucket.openThreshold

/-- A finding for a series without an event meets a score under the opening threshold, taken at the
time of the finding. -/
def Call.MeetsLowScore (cfg : PolicyEngineConfig) (w : World) : Call → Prop
  | .applyFinding k finding _ env => ∀ s, loadState env k w = .ok s → s.Quiet →
      cfg.bucket.decayed s.bucketState finding.ts < cfg.bucket.openThreshold
  | _ => True

/-- A state whose bucket no later sweep can raise, and that is under the threshold if it watches. -/
structure PolicyState.Below (cfg : PolicyEngineConfig) (clock : Time) (s : PolicyState) : Prop where
  nonneg : 0 ≤ s.bucketState.score
  updated : s.bucketState.scoreUpdatedAt ≤ clock
  below : s.status = .watching → s.bucketState.score < cfg.bucket.openThreshold

section

variable {cfg : PolicyEngineConfig} {clock clock' : Time} {s : PolicyState}

theorem PolicyState.Below.mono (h : s.Below cfg clock) (hc : clock ≤ clock') :
    s.Below cfg clock' :=
  ⟨h.nonneg, le_trans h.updated hc, h.below⟩

theorem PolicyState.Below.stored (h : s.Below cfg clock) : s.stored.hydrate.Below cfg clock :=
  ⟨h.nonneg, le_trans (Time.micros_le _) h.updated, h.below⟩

/-- A successful `ApplyFinding` that meets a low score leaves a series under the threshold, unless
it opens an event. -/
theorem AppliedOk.below {env : ApplyEnv} {k : SeriesKey} {finding : Finding} {id : Uuid}
    {db : Database} {r : PolicyState × Database} (h : AppliedOk cfg env k finding id s db r)
    (ht : finding.ts ≤ clock)
    (hlow : s.Quiet → cfg.bucket.decayed s.bucketState finding.ts < cfg.bucket.openThreshold) :
    r.1.Below cfg clock := by
  have hscore := cfg.bucket.add_score_nonneg s.bucketState finding.severity finding.ts
  cases h with
  | watch hq hc =>
    refine ⟨?_, ?_, ?_⟩
    · rw [PolicyState.watch_bucketState]; exact hscore
    · rw [PolicyState.watch_bucketState]; exact ht
    · intro _
      rw [PolicyState.watch_bucketState]
      by_contra hge
      exact hc (cfg.bucket.add_crossedOpen.mpr ⟨hlow hq, not_lt.mp hge⟩)
  | opened tx hq hc htx =>
    refine ⟨?_, ?_, fun hst => by simp [PolicyState.fire] at hst⟩
    · show 0 ≤ (s.watch cfg finding id).bucketState.score
      rw [PolicyState.watch_bucketState]; exact hscore
    · show (s.watch cfg finding id).bucketState.scoreUpdatedAt ≤ clock
      rw [PolicyState.watch_bucketState]; exact ht
  | attach e hs => exact ⟨hscore, ht, fun hst => by simp [PolicyState.score, hs] at hst⟩
  | refire e hs => exact ⟨hscore, ht, fun hst => by simp [PolicyState.enter] at hst⟩

/-- Sweeping a series keeps it under the threshold. -/
theorem Swept.below {now : Time} {o : Outcome} {db : Database}
    {r : PolicyState × Database × Option Halt} (h : Swept cfg now o s db r)
    (hd : 0 ≤ cfg.bucket.decayPerSecond) (hs : s.Below cfg clock) (ht : clock ≤ now) :
    r.1.Below cfg now := by
  have hdrain : (s.drain cfg now).Below cfg now := by
    refine ⟨cfg.bucket.decayed_nonneg _ _, le_refl now, ?_⟩
    intro hst
    exact lt_of_le_of_lt (cfg.bucket.decayed_le hd hs.nonneg (le_trans hs.updated ht))
      (hs.below hst)
  cases h with
  | drain => exact hdrain
  | expire => exact ⟨le_refl _, le_refl now, fun hst => by simp [PolicyState.expire] at hst⟩
  | recover =>
    exact ⟨hdrain.nonneg, hdrain.updated, fun hst => by simp [PolicyState.enter] at hst⟩
  | close => exact ⟨hdrain.nonneg, hdrain.updated, fun hst => by simp [PolicyState.close] at hst⟩
  | unclosed => exact hdrain

/-- No call is made before the clock. -/
theorem Call.InOrder.le_clock {c : Call} (h : c.InOrder clock) : clock ≤ c.time.getD clock := by
  cases ht : c.time with
  | none => exact le_refl clock
  | some t => exact h t ht

/-- Every state and every row is under the threshold if it watches. -/
structure Clocked.LowScores (cfg : PolicyEngineConfig) (s : Clocked) : Prop where
  alarms : ShowsAlarms s.world
  below : Pointwise (fun st => st.Below cfg s.clock) (fun row => row.hydrate.Below cfg s.clock)
    s.world

theorem Clocked.LowScores.unparked {s : Clocked} (h : s.LowScores cfg) : s.Unparked cfg :=
  fun k st hst => (h.below.states k st hst).below

/-- What the environment guarantees: it behaves, nothing fails, the clock does not run backwards
and no finding comes from the future. -/
def Clocked.Smooth (s : Clocked) (c : Call) : Prop :=
  c.Legal s.world ∧ c.Succeeds s.world ∧ c.InOrder s.clock ∧ c.NotFromFuture

theorem Clocked.LowScores.step {s : Clocked} {c : Call} (h : s.LowScores cfg)
    (hd : 0 ≤ cfg.bucket.decayPerSecond) (henv : s.Smooth c)
    (hlow : c.MeetsLowScore cfg s.world) : (s.step cfg c).LowScores cfg := by
  obtain ⟨hlegal, hok, htime, hfut⟩ := henv
  have hclock := htime.le_clock
  have hw : Pointwise (fun st => st.Below cfg (c.time.getD s.clock))
      (fun row => row.hydrate.Below cfg (c.time.getD s.clock)) s.world :=
    h.below.imp (fun st hst => hst.mono hclock) fun row hrow => hrow.mono hclock
  refine ⟨ShowsAlarms.step h.alarms hlegal, Pointwise.step hw hlegal ?_ ?_ ?_ ?_⟩
  · exact fun st hst => hst.stored
  · exact fun row hrow _ => hrow
  · rintro k finding id env st st' db x rfl hld - happ
    obtain ⟨a, ha⟩ := h.alarms.loaded hld
    exact (happ.succeeds hok ha).2.below hfut (hlow st hld)
  · rintro env k st st' db db' x rfl - - hst - hsw
    exact hsw.below hd hst (le_refl env.now)

/-- A call that leaves no parked series has met a low score. -/
theorem Call.meetsLowScore_of_unparked {s : Clocked} {c : Call} (h : ShowsAlarms s.world)
    (henv : s.Smooth c) (hp : (s.step cfg c).Unparked cfg) : c.MeetsLowScore cfg s.world := by
  cases c with
  | insertFinding => trivial
  | sweep => trivial
  | restart => trivial
  | applyFinding k finding id env =>
    intro st hld hq
    obtain ⟨st₀, st', db, hld₀, happ, hstep⟩ := @step_applyFinding cfg _ h _ henv.2.1 k finding id
    obtain rfl : st = st₀ := Except.ok.inj (hld ▸ hld₀)
    have hk : (Argus.step cfg s.world (.applyFinding k finding id env)).states.lookup k =
        some st' := by
      rw [hstep, Table.lookup_insert_if, if_pos rfl]
    cases happ with
    | watch _ hc =>
      have hlt := hp k _ hk (PolicyState.watch_status hq)
      rw [PolicyState.watch_bucketState, LeakyBucket.add_score] at hlt
      linarith [abs_nonneg finding.severity]
    | opened _ _ hc => exact (cfg.bucket.add_crossedOpen.mp hc).1
    | attach e hs => exact absurd (.inl hs) hq.not_alarmed
    | refire e hs => exact absurd (.inr hs) hq.not_alarmed

/--
**A watching series stays under the opening threshold just when no finding meets a score that is
over it already.**

The score is taken at the time of the finding. A finding that is older than the last update of the
score raises it by what has drained since, and if that alone takes it over the threshold, the
rising edge is not seen.
-/
theorem unparked_iff (cfg : PolicyEngineConfig) (hd : 0 ≤ cfg.bucket.decayPerSecond) (t : Time)
    {calls : List Call}
    (henv : Along (Clocked.step cfg) Clocked.Smooth { world := World.init, clock := t } calls) :
    Throughout (Clocked.step cfg) (Clocked.Unparked cfg) { world := World.init, clock := t } calls ↔
      Along (Clocked.step cfg) (fun s c => c.MeetsLowScore cfg s.world)
        { world := World.init, clock := t } calls := by
  have hinit : Clocked.LowScores cfg { world := World.init, clock := t } :=
    ⟨Pointwise.init _ _, Pointwise.init _ _⟩
  refine throughout_iff_along (fun s c hs _ hc => ⟨?_, ?_⟩)
    (fun s c hs _ hc hlow => hs.step hd hc hlow) hinit hinit.unparked henv
  · exact Call.meetsLowScore_of_unparked hs.alarms hc
  · intro hlow
    exact (hs.step hd hc hlow).unparked

end

/-- A finding of 1000 s, a sweep, and a finding of 990 s that arrives late. -/
def lateFinding : List Call :=
  [.report (pingKey "a") (1000 * second) (9 / 2) 0 0,
   .sweep (SweepEnv.ok (1030 * second) [(pingKey "a").rowKey]
     [pingKey "a", (pingKey "a").rowKey.hydratedKey]),
   .applyFinding (pingKey "a") { ts := 990 * second, value := 0, severity := 4 } 1
     (ApplyEnv.ok (1031 * second) 0)]

theorem lateFinding_smooth :
    Along (Clocked.step startConfig) Clocked.Smooth
      { world := World.init, clock := 1000 * second } lateFinding :=
  ⟨⟨trivial, ApplyEnv.succeeds_ok (by decide +kernel), by decide +kernel, by decide +kernel⟩,
    ⟨by decide +kernel, SweepEnv.succeeds_ok _ _ _, by decide +kernel, trivial⟩,
    ⟨trivial, ApplyEnv.succeeds_ok (by decide +kernel), by decide +kernel, by decide +kernel⟩,
    trivial⟩

/-- The late finding leaves the series watching with a score of 9.5, and no event. -/
theorem lateFinding_parks :
    ¬ ∀ (cfg : PolicyEngineConfig), 0 ≤ cfg.bucket.decayPerSecond →
      0 ≤ cfg.bucket.closeThreshold → cfg.bucket.closeThreshold ≤ cfg.bucket.openThreshold →
      ∀ (t : Time) (calls : List Call),
        Along (Clocked.step cfg) Clocked.Smooth { world := World.init, clock := t } calls →
          Throughout (Clocked.step cfg) (Clocked.Unparked cfg)
            { world := World.init, clock := t } calls := by
  intro h
  have hlast := (h startConfig (by decide +kernel) (by decide +kernel) (by decide +kernel) _ _
    lateFinding_smooth).last
  obtain ⟨st, hst, hw, hge⟩ : ∃ st ∈ (run (Clocked.step startConfig)
      { world := World.init, clock := 1000 * second } lateFinding).world.states.lookup
        (pingKey "a"), st.status = .watching ∧
          startConfig.bucket.openThreshold ≤ st.bucketState.score := by
    decide +kernel
  exact absurd (hlast _ st hst hw) (not_lt.mpr hge)

/-- The first two calls alone park nothing. -/
theorem lateFinding_take_two_unparked :
    Throughout (Clocked.step startConfig) (Clocked.Unparked startConfig)
      { world := World.init, clock := 1000 * second } (lateFinding.take 2) := by
  refine (unparked_iff startConfig (by decide +kernel) _ ?_).mpr ?_
  · exact ⟨lateFinding_smooth.1, lateFinding_smooth.2.1, trivial⟩
  · refine ⟨?_, trivial, trivial⟩
    intro s hld _
    obtain rfl := Except.ok.inj hld
    decide +kernel

/-! ## Firing -/

section

variable {cfg : PolicyEngineConfig}

/-- Every firing series, in memory and in the table, has at least the closing threshold. -/
def FiringHigh (cfg : PolicyEngineConfig) (w : World) : Prop :=
  Pointwise (fun s => s.status = .firing → cfg.bucket.closeThreshold ≤ s.bucketState.score)
    (fun row => row.status = .firing → cfg.bucket.closeThreshold ≤ row.score) w

/-- A series that goes on firing through a sweep has at least the closing threshold after it. -/
theorem Swept.firing_high {now : Time} {o : Outcome} {s : PolicyState} {db : Database}
    {r : PolicyState × Database × Option Halt} (h : Swept cfg now o s db r)
    (hs : s.status = .firing → cfg.bucket.closeThreshold ≤ s.bucketState.score)
    (hr : r.1.status = .firing) : cfg.bucket.closeThreshold ≤ r.1.bucketState.score := by
  cases h with
  | drain _ hf _ =>
    -- the falling edge was not seen although the score was high before, so it is high still
    have hst : s.status = .firing := hr
    by_contra hlt
    have hedge := cfg.bucket.decay_crossedClose.mpr ⟨hs hst, not_le.mp hlt⟩
    rw [hf hst] at hedge
    cases hedge
  | expire => simp [PolicyState.expire] at hr
  | recover => simp [PolicyState.enter] at hr
  | close => simp [PolicyState.close] at hr
  | unclosed e hdue =>
    have hst : s.status = .firing := hr
    rw [hdue.1] at hst
    cases hst

theorem FiringHigh.step {w : World} {c : Call} (hw : FiringHigh cfg w) (hl : c.Legal w)
    (hsev : c.SeverityAtLeast cfg.bucket.closeThreshold) : FiringHigh cfg (Argus.step cfg w c) := by
  refine Pointwise.step hw hl ?_ ?_ ?_ ?_
  · exact fun s hs => hs
  · exact fun row hrow _ => hrow
  · rintro k finding id env s s' db h rfl - - happ -
    have hb : s'.bucketState = _ := happ.bucketState
    rw [hb]
    exact le_trans hsev (cfg.bucket.le_add_score _ _ _)
  · rintro env k s s' db db' h - - - hs - hsw
    exact hsw.firing_high hs

/-- A firing series that a sweep gets to under the closing threshold starts to recover. -/
theorem FiringHigh.recovers {w : World} (hw : FiringHigh cfg w) {env : SweepEnv}
    (hl : env.Legal w) {k : SeriesKey} {s : PolicyState}
    (hs : (w.hydrated env.rows).states.lookup k = some s) (hf : s.status = .firing)
    (hlow : cfg.bucket.decayed s.bucketState env.now < cfg.bucket.closeThreshold)
    (hr : env.Reaches cfg w k) :
    ∃ s', (sweep cfg env w).1.states.lookup k = some s' ∧ s'.status = .recovering := by
  have hh : FiringHigh cfg (w.hydrated env.rows) := hw.hydrated (fun _ hrow _ => hrow) _
  have hedge := cfg.bucket.decay_crossedClose.mpr ⟨hh.states k s hs hf, hlow⟩
  refine ⟨_, sweep_lookup_of_reaches hl hr hs, ?_⟩
  simp [PolicyState.swept, hf, hedge, PolicyState.enter]

/--
**No series gets stuck firing.**

In every run in which no finding is weaker than the closing threshold, whatever fails and whenever
the process dies, a firing series has at least that score, in memory and in the table. A finding
never takes the score over the falling edge, so the edge is left to the sweeps, and the first sweep
that gets to the series under the threshold sees it.
-/
theorem firing_leaves (cfg : PolicyEngineConfig) {calls : List Call}
    (hcalls : Along (step cfg)
      (fun w c => c.Legal w ∧ c.SeverityAtLeast cfg.bucket.closeThreshold) World.init calls) :
    (∀ k s, (run (step cfg) World.init calls).states.lookup k = some s → s.status = .firing →
        cfg.bucket.closeThreshold ≤ s.bucketState.score) ∧
      (∀ r row, (run (step cfg) World.init calls).db.policyStates.lookup r = some row →
        row.status = .firing → cfg.bucket.closeThreshold ≤ row.score) ∧
      (∀ state value ts, (cfg.bucket.add state value ts).crossedClose = false) ∧
      ∀ env k s, env.Legal (run (step cfg) World.init calls) →
        ((run (step cfg) World.init calls).hydrated env.rows).states.lookup k = some s →
        s.status = .firing →
        cfg.bucket.decayed s.bucketState env.now < cfg.bucket.closeThreshold →
        env.Reaches cfg (run (step cfg) World.init calls) k →
          ∃ s', (sweep cfg env (run (step cfg) World.init calls)).1.states.lookup k = some s' ∧
            s'.status = .recovering := by
  have hw : FiringHigh cfg (run (step cfg) World.init calls) :=
    run_invariant (fun _ _ hw hc => FiringHigh.step hw hc.1 hc.2) (Pointwise.init _ _) hcalls
  refine ⟨hw.states, hw.rows, cfg.bucket.add_crossedClose, ?_⟩
  intro env k s hl hs hf hlow hr
  exact hw.recovers hl hs hf hlow hr

/-- The first sweep after a finding of agent "a", in which the rows cannot be listed. -/
def unlistedSweep : SweepEnv :=
  { SweepEnv.ok (1040 * second) [(pingKey "a").rowKey]
      [pingKey "a", (pingKey "a").rowKey.hydratedKey] with
    listNonClean := .failed }

/-- Such a sweep returns the error and does nothing, though the score is under the closing
threshold by then. -/
theorem unlistedSweep_leaves_firing :
    ¬ ∀ (cfg : PolicyEngineConfig), 0 ≤ cfg.bucket.decayPerSecond →
      0 ≤ cfg.bucket.closeThreshold → cfg.bucket.closeThreshold ≤ cfg.bucket.openThreshold →
      ∀ calls : List Call, Along (step cfg)
        (fun w c => c.Legal w ∧ c.SeverityAtLeast cfg.bucket.closeThreshold) World.init calls →
      ∀ env k s s', env.Legal (run (step cfg) World.init calls) →
        (run (step cfg) World.init calls).states.lookup k = some s → s.status = .firing →
        cfg.bucket.decayed s.bucketState env.now < cfg.bucket.closeThreshold →
        (sweep cfg env (run (step cfg) World.init calls)).1.states.lookup k = some s' →
          s'.status ≠ .firing := by
  intro h
  let calls : List Call := [.report (pingKey "a") (1000 * second) 6 0 0]
  obtain ⟨s, hs, hf, hlow⟩ :
      ∃ s ∈ (run (step startConfig) World.init calls).states.lookup (pingKey "a"),
        s.status = .firing ∧ startConfig.bucket.decayed s.bucketState unlistedSweep.now <
          startConfig.bucket.closeThreshold := by
    decide +kernel
  have hsame : (sweep startConfig unlistedSweep (run (step startConfig) World.init calls)).1 =
      run (step startConfig) World.init calls := rfl
  exact h startConfig (by decide +kernel) (by decide +kernel) (by decide +kernel) calls
    (by decide +kernel) unlistedSweep _ s s (by decide +kernel) hs hf hlow (by rw [hsame]; exact hs)
    hf

/-- A sweep in which nothing fails gets to agent "b". -/
theorem twoAlarms_leaves_firing :
    ∃ s', (sweep startConfig
        (SweepEnv.ok (1200 * second) [(pingKey "a").rowKey, (pingKey "b").rowKey]
          [(pingKey "a").rowKey.hydratedKey, (pingKey "b").rowKey.hydratedKey])
        (run (step startConfig) World.init twoAlarms)).1.states.lookup
          (pingKey "b").rowKey.hydratedKey = some s' ∧ s'.status = .recovering := by
  obtain ⟨s, hs, hf, hlow⟩ :
      ∃ s ∈ ((run (step startConfig) World.init twoAlarms).hydrated
          [(pingKey "a").rowKey, (pingKey "b").rowKey]).states.lookup
        (pingKey "b").rowKey.hydratedKey, s.status = .firing ∧
        startConfig.bucket.decayed s.bucketState (1200 * second) <
          startConfig.bucket.closeThreshold := by
    decide +kernel
  have hcalls : Along (step startConfig)
      (fun w c => c.Legal w ∧ c.SeverityAtLeast startConfig.bucket.closeThreshold) World.init
      twoAlarms := by
    decide +kernel
  exact (firing_leaves startConfig hcalls).2.2.2 _ _ s (by decide +kernel) hs hf hlow
    ⟨rfl, by decide +kernel, fun _ _ _ _ => ⟨fun hb => hb.2.2 rfl, by simp [SweepEnv.ok]⟩⟩

end

/-! ## Clean -/

section

variable {cfg : PolicyEngineConfig}

/-- Every clean series in memory has an empty bucket. -/
def Clocked.CleanEmpty (s : Clocked) : Prop :=
  ∀ k st, s.world.states.lookup k = some st → st.status = .clean → st.bucketState.score = 0

/-- A sweep closes no event of a series whose bucket is not empty by then. -/
def Call.ClosesEmpty (cfg : PolicyEngineConfig) (w : World) : Call → Prop
  | .sweep env => ∀ k s, (w.hydrated env.rows).states.lookup k = some s →
      s.CloseDue cfg env.now → s.openEventId ≠ none → env.Reaches cfg w k →
        env.closeEvent k = .ok → cfg.bucket.decayed s.bucketState env.now = 0
  | _ => True

/-- A state that has an empty bucket if it is clean, and that no later sweep fills. -/
def PolicyState.Emptied (clock : Time) (s : PolicyState) : Prop :=
  s.status = .clean → s.bucketState.score = 0 ∧ s.bucketState.scoreUpdatedAt ≤ clock

theorem PolicyState.Emptied.mono {clock clock' : Time} {s : PolicyState} (h : s.Emptied clock)
    (hc : clock ≤ clock') : s.Emptied clock' :=
  fun hst => ⟨(h hst).1, le_trans (h hst).2 hc⟩

theorem PolicyState.Emptied.stored {clock : Time} {s : PolicyState} (h : s.Emptied clock) :
    s.stored.hydrate.Emptied clock :=
  fun hst => ⟨(h hst).1, le_trans (Time.micros_le _) (h hst).2⟩

theorem Swept.emptied {now : Time} {o : Outcome} {s : PolicyState} {db : Database}
    {r : PolicyState × Database × Option Halt} (h : Swept cfg now o s db r)
    (hd : 0 ≤ cfg.bucket.decayPerSecond) (hs : s.Emptied now)
    (hclose : s.CloseDue cfg now → s.openEventId ≠ none → o = .ok →
      cfg.bucket.decayed s.bucketState now = 0) : r.1.Emptied now := by
  have hdrain : (s.drain cfg now).Emptied now := fun hst =>
    ⟨cfg.bucket.decayed_eq_zero hd (hs hst).1 (hs hst).2, le_refl now⟩
  cases h with
  | drain => exact hdrain
  | expire => exact fun _ => ⟨rfl, le_refl now⟩
  | recover => exact fun hst => by simp [PolicyState.enter] at hst
  | close e hdue he ho => exact fun _ => ⟨hclose hdue (by simp [he]) ho, le_refl now⟩
  | unclosed => exact hdrain

/-- Every state and every row has an empty bucket if it is clean. -/
def Clocked.AllEmptied (s : Clocked) : Prop :=
  Pointwise (fun st => st.Emptied s.clock) (fun row => row.hydrate.Emptied s.clock) s.world

theorem Clocked.AllEmptied.step {s : Clocked} {c : Call} (h : s.AllEmptied)
    (hd : 0 ≤ cfg.bucket.decayPerSecond) (hl : c.Legal s.world) (ht : c.InOrder s.clock)
    (hclose : c.ClosesEmpty cfg s.world) : (s.step cfg c).AllEmptied := by
  have hclock := ht.le_clock
  have hw : Pointwise (fun st => st.Emptied (c.time.getD s.clock))
      (fun row => row.hydrate.Emptied (c.time.getD s.clock)) s.world :=
    h.imp (fun st hst => hst.mono hclock) fun row hrow => hrow.mono hclock
  refine Pointwise.step hw hl ?_ ?_ ?_ ?_
  · exact fun st hst => hst.stored
  · exact fun row hrow _ => hrow
  · rintro k finding id env st st' db x rfl - - happ hst
    exact absurd hst happ.not_clean
  · rintro env k st st' db db' x rfl hlist hlk hst hlk' hsw
    by_cases hr : env.Reaches cfg s.world k
    · exact hsw.emptied hd hst fun hdue he ho => hclose k st hlk hdue he hr ho
    · rw [sweep_lookup_of_not_reaches hl hlist hr, hlk, Option.some.injEq] at hlk'
      exact hlk' ▸ hst

/--
**A clean series has an empty bucket, in every run in which no event is closed over a bucket that
is not empty.**

The other way to become clean, the end of the confirm window, empties the bucket.
-/
theorem clean_is_empty (cfg : PolicyEngineConfig) (hd : 0 ≤ cfg.bucket.decayPerSecond) (t : Time)
    {calls : List Call}
    (henv : Along (Clocked.step cfg) (fun s c => c.Legal s.world ∧ c.InOrder s.clock)
      { world := World.init, clock := t } calls)
    (hclose : Along (Clocked.step cfg) (fun s c => c.ClosesEmpty cfg s.world)
      { world := World.init, clock := t } calls) :
    Throughout (Clocked.step cfg) Clocked.CleanEmpty { world := World.init, clock := t } calls := by
  have hinit : Clocked.AllEmptied { world := World.init, clock := t } := Pointwise.init _ _
  have hall := throughout_of_invariant (fun s c hs hc => Clocked.AllEmptied.step hs hd hc.1.1
    hc.1.2 hc.2) hinit (along_and.mpr ⟨henv, hclose⟩)
  exact hall.imp fun s hs k st hst hclean => (hs.states k st hst hclean).1

end

/-- An event opens at 1000 s, recovers at 1040 s and is looked at once more at `t`. -/
def recovery (t : Time) : List Call :=
  [.report (pingKey "a") (1000 * second) 6 0 0, .restart,
   .sweep (SweepEnv.ok (1040 * second) [(pingKey "a").rowKey] [(pingKey "a").rowKey.hydratedKey]),
   .sweep (SweepEnv.ok t [(pingKey "a").rowKey] [(pingKey "a").rowKey.hydratedKey])]

/-- With a quiet period of 10 s, the event is closed at 1051 s and a score of 0.9 is left over. -/
theorem recovery_leaves_score :
    ¬ ∀ (cfg : PolicyEngineConfig), 0 ≤ cfg.bucket.decayPerSecond →
      0 ≤ cfg.bucket.closeThreshold → cfg.bucket.closeThreshold ≤ cfg.bucket.openThreshold →
      ∀ (t : Time) (calls : List Call),
        Along (Clocked.step cfg) (fun s c => c.Legal s.world ∧ c.InOrder s.clock)
          { world := World.init, clock := t } calls →
        Throughout (Clocked.step cfg) Clocked.CleanEmpty
          { world := World.init, clock := t } calls := by
  intro h
  let cfg : PolicyEngineConfig := { startConfig with quietPeriod := 10 * second }
  have hlast := (h cfg (by decide +kernel) (by decide +kernel) (by decide +kernel) 0
    (recovery (1051 * second)) (by decide +kernel)).last
  obtain ⟨st, hst, hclean, hne⟩ : ∃ st ∈ (run (Clocked.step cfg)
      { world := World.init, clock := 0 } (recovery (1051 * second))).world.states.lookup
        (pingKey "a").rowKey.hydratedKey, st.status = .clean ∧ st.bucketState.score ≠ 0 := by
    decide +kernel
  exact hne (hlast _ st hst hclean)

/-- With the settings of `Argus.Start` the bucket is empty long before the event is closed. -/
theorem recovery_empties :
    Throughout (Clocked.step startConfig) Clocked.CleanEmpty
      { world := World.init, clock := 0 } (recovery (1170 * second)) := by
  refine clean_is_empty startConfig (by decide +kernel) 0 (by decide +kernel) ?_
  refine ⟨trivial, trivial, ?_, ?_, trivial⟩
  · intro k s hs hdue _ _ _
    have hall : ∀ k ∈ ((run (step startConfig) World.init
        ((recovery 0).take 2)).hydrated [(pingKey "a").rowKey]).states.keys,
        ∀ s ∈ ((run (step startConfig) World.init
          ((recovery 0).take 2)).hydrated [(pingKey "a").rowKey]).states.lookup k,
        ¬ s.CloseDue startConfig (1040 * second) := by
      decide +kernel
    exact absurd hdue (hall k (Table.mem_keys.mpr ⟨s, hs⟩) s hs)
  · intro k s hs hdue _ _ _
    have hall : ∀ k ∈ ((run (step startConfig) World.init
        ((recovery 0).take 3)).hydrated [(pingKey "a").rowKey]).states.keys,
        ∀ s ∈ ((run (step startConfig) World.init
          ((recovery 0).take 3)).hydrated [(pingKey "a").rowKey]).states.lookup k,
        startConfig.bucket.decayed s.bucketState (1170 * second) = 0 := by
      decide +kernel
    exact hall k (Table.mem_keys.mpr ⟨s, hs⟩) s hs

end Cepheus.Argus
