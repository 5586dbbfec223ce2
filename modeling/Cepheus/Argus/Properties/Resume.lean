import Cepheus.Infra.Once
import Cepheus.Argus.Properties.Provenance

/-!
# No sample is folded twice

When a process ends, the messages that are not acknowledged come again, and the new process resumes
from the baselines. What has been folded already is recognised by its timestamp. The column keeps
microseconds, so this works unless a sample was rounded down to the cursor.

* `System.Holds`, `System.Gone` - the messages that the process may still fold, and those that it
  will not see again
* `RowUsed`, `MonitorUsed` - what is known about the messages that were folded into a row, and into
  a monitor
* `folded_once` - if no worker resumes from a cursor that was rounded down, no message is folded
  twice into a baseline
* `rounded_cursor_folds_twice` - otherwise it may be
-/

namespace Cepheus.Argus

open Infra

variable {V S : Type}

/-! ## The property -/

/-- What folding a message into the row `r` does to a state: the message is of a series that is
watched in this row, and it gets through. -/
def Pipeline.Folds (p : Pipeline V S) (r : RowKey) (state : Option S) (id : MsgId)
    (next : Option S) : Prop :=
  ∃ series sample, p.decode id = some (series, sample) ∧
    ∃ watch ∈ p.worker.watches series.type, watch.baselineKey series = r ∧
      ∃ result, stepSample watch.extractor watch.detector state sample = some result ∧
        next = some result.1

/-- Every baseline is the fold of messages that were handed out, none of them twice. -/
def FoldedOnce (p : Pipeline V S) (s : System V S) : Prop :=
  ∀ r row, s.db.baselines.lookup r = some row →
    Once (p.Folds r) none (· ∈ s.db.delivered) (some row.state)

/-! ## The condition -/

/-- No message that may come again was rounded down to the cursor of the row. -/
def Stores.Exact (p : Pipeline V S) (db : Stores S) (series : DiscoveredSeries) (r : RowKey) :
    Prop :=
  ∀ row ∈ db.baselines.lookup r, ∀ id ∈ db.delivered, id ∉ db.acked →
    ∀ x ∈ p.decode id, x.1 = series → Time.micros x.2.ts = row.lastSeen → x.2.ts = row.lastSeen

instance (p : Pipeline V S) (db : Stores S) (series : DiscoveredSeries) (r : RowKey) :
    Decidable (db.Exact p series r) :=
  inferInstanceAs (Decidable (∀ row ∈ db.baselines.lookup r, ∀ id ∈ db.delivered, id ∉ db.acked →
    ∀ x ∈ p.decode id, x.1 = series → Time.micros x.2.ts = row.lastSeen → x.2.ts = row.lastSeen))

/-- The baseline can be read. -/
def Tick.reads : Tick → Bool
  | .load .ok => true
  | _ => false

/-- A worker that loads a baseline loads one that is exact. -/
def System.Resumes (p : Pipeline V S) (s : System V S) : Move → Prop
  | .work series tick => tick.reads → ∀ g ∈ s.routes.lookup series,
      ∀ watch ∈ g.phase.unplanned.head?, s.db.Exact p series (watch.baselineKey series)
  | _ => True

instance (p : Pipeline V S) (s : System V S) (move : Move) : Decidable (s.Resumes p move) :=
  match move with
  | .work series tick => inferInstanceAs (Decidable (tick.reads → ∀ g ∈ s.routes.lookup series,
      ∀ watch ∈ g.phase.unplanned.head?, s.db.Exact p series (watch.baselineKey series)))
  | .fetch _ => inferInstanceAs (Decidable True)
  | .dispatch => inferInstanceAs (Decidable True)
  | .send => inferInstanceAs (Decidable True)
  | .sweep _ => inferInstanceAs (Decidable True)
  | .crash => inferInstanceAs (Decidable True)

/-! ## Messages that are gone -/

/-- The message is somewhere in the process. -/
def System.Holds (s : System V S) (id : MsgId) : Prop :=
  id ∈ s.fetched ∨ (∃ x ∈ s.sending, x.2.msg = id) ∨
    ∃ series g, s.routes.lookup series = some g ∧ ∃ it ∈ g.items, it.msg = id

/-- The message is acknowledged, and the process has no copy of it. -/
def System.Gone (s : System V S) (id : MsgId) : Prop := id ∈ s.db.acked ∧ ¬ s.Holds id

theorem System.not_holds_boot (db : Stores S) (id : MsgId) :
    ¬ (System.boot db : System V S).Holds id := by
  rintro (h | ⟨x, h, -⟩ | ⟨series, g, h, -⟩)
  · exact absurd h List.not_mem_nil
  · exact absurd h (Option.not_mem_none _)
  · exact workers_boot (fun _ _ => False) db series g h

section Next

variable {p : Pipeline V S} {s s' : System V S} {move : Move} {ev : Option (Event V S)}
  {series : DiscoveredSeries} {id : MsgId} {g g' : Goroutine V S} {db db' : Stores S} {tick : Tick}
  {halt : Option Halt}

/-- The process gets a message from the stream only, and only if it is not acknowledged. -/
theorem System.Next.holds (hnext : s.Next p move ev s') (h : s'.Holds id) :
    s.Holds id ∨ id ∉ s.db.acked := by
  -- what the workers hold afterwards
  have hworkers : s'.Workers fun series g => ∀ it ∈ g.items, s.Holds it.msg := by
    refine hnext.workers (P := fun series g => ∀ it ∈ g.items, s.Holds it.msg) ?_ ?_ ?_ ?_ ?_
    · intro series g hg it hit
      exact .inr (.inr ⟨series, g, hg, it, hit, rfl⟩)
    · exact fun _ _ hg => hg
    · exact fun _ it hit => absurd hit List.not_mem_nil
    · intro series it g hs hg it' hit'
      rcases Goroutine.mem_items_handed hit' with hit' | rfl
      · exact hg it' hit'
      · exact .inr (.inl ⟨_, hs, rfl⟩)
    · intro series tick g g' halt _ _ hstep _ hg it hit
      exact hg it (hstep.items_subset hit)
  rcases h with h | ⟨x, hx, rfl⟩ | ⟨series, g, hg, it, hit, rfl⟩
  · cases hnext with
    | fetched hn =>
      rcases List.mem_append.mp h with h | h
      · exact .inl (.inl h)
      · obtain rfl := List.mem_singleton.mp h
        exact .inr hn
    | terminated _ hf _ | dispatched _ hf _ =>
      refine .inl (.inl ?_)
      rw [hf]
      exact List.mem_cons_of_mem _ h
    | _ => exact .inl (.inl h)
  · cases hnext with
    | dispatched _ hf _ =>
      obtain rfl := Option.mem_some_iff.mp hx
      refine .inl (.inl ?_)
      rw [hf]
      exact List.mem_cons_self
    | sent _ _ _ => cases hx
    | _ => exact .inl (.inr (.inl ⟨x, hx, rfl⟩))
  · exact .inl (hworkers series g hg it hit)

theorem Goroutine.Step.acked_subset (hstep : g.Step p series db tick ev g' db' halt) :
    db.acked ⊆ db'.acked := by
  cases hstep with
  | saved _ _ _ _ => rw [saveBaseline_eq]
  | acked _ =>
    split
    · exact Finset.subset_insert _ _
    · exact Finset.Subset.refl _
  | _ => exact Finset.Subset.refl _

theorem System.Next.acked_subset (hnext : s.Next p move ev s') : s.db.acked ⊆ s'.db.acked := by
  cases hnext with
  | worked _ hstep _ => exact hstep.acked_subset
  | _ => exact Finset.Subset.refl _

theorem System.Gone.next (h : s.Gone id) (hnext : s.Next p move ev s') : s'.Gone id := by
  refine ⟨hnext.acked_subset h.1, fun hh => ?_⟩
  rcases hnext.holds hh with hh | hn
  · exact h.2 hh
  · exact hn h.1

/-! ## Workers that have not started to fold -/

/-- The worker of the series is in `plan`, or not started. -/
def System.Planning (s : System V S) (series : DiscoveredSeries) : Prop :=
  ∀ g, s.routes.lookup series = some g → ∃ todo, g.phase = .plan todo

theorem Goroutine.Step.planning (hstep : g.Step p series db tick ev g' db' halt)
    (h : ∃ todo, g'.phase = .plan todo) : ∃ todo, g.phase = .plan todo := by
  obtain ⟨todo, h⟩ := h
  cases hstep with
  | idle | unloaded => exact ⟨todo, h⟩
  | loaded hp _ | skipped hp _ => exact ⟨_, hp⟩
  | closed _ _ | saved _ _ _ _ | unsaved _ _ _ _ => exact absurd h (g.enter_ne_plan _ _ _)
  | folded _ _ _ => exact absurd h (g.foldItem_ne_plan _ _ _ _ _)
  | _ => cases h

theorem System.Next.planning (hnext : s.Next p move ev s') (h : s'.Planning series) :
    s.Planning series := by
  intro g hg
  cases hnext with
  | idle | fetched _ | terminated _ _ _ | swept _ _ => exact h g hg
  | @dispatched id rest series' sample _ _ _ =>
    refine h g ?_
    rw [lookup_started]
    by_cases he : series = series'
    · subst he
      rw [if_pos rfl, hg]
      rfl
    · rw [if_neg he]
      exact hg
  | @sent series' it g₀ _ hg₀ _ =>
    by_cases he : series = series'
    · subst he
      obtain rfl : g = g₀ := Option.some.inj (hg.symm.trans hg₀)
      exact h { g with inbox := g.inbox ++ [it] }
        ((Table.lookup_insert_if _ _ _ _).trans (if_pos rfl))
    · exact h g (((Table.lookup_insert_if _ _ _ _).trans (if_neg he)).trans hg)
  | @worked series' tick _ g₀ g' db halt hg₀ hstep _ =>
    by_cases he : series = series'
    · subst he
      obtain rfl : g = g₀ := Option.some.inj (hg.symm.trans hg₀)
      exact hstep.planning (h _ ((Table.lookup_insert_if _ _ _ _).trans (if_pos rfl)))
    · exact h g (((Table.lookup_insert_if _ _ _ _).trans (if_neg he)).trans hg)

/-- While a worker plans, none of the messages it is about to get is acknowledged. -/
def System.Fresh (p : Pipeline V S) (s : System V S) : Prop :=
  ∀ series, s.Planning series → ∀ id, s.Holds id → ∀ x ∈ p.decode id, x.1 = series →
    id ∉ s.db.acked

theorem System.Fresh.next (h : s.Fresh p) (hprov : s.Provenance p)
    (hnext : s.Next p move ev s') : s'.Fresh p := by
  intro series hplan id hholds x hx hseries hacked
  have hplan' := hnext.planning hplan
  have hnew : id ∉ s.db.acked := by
    rcases hnext.holds hholds with hholds | hn
    · exact h series hplan' id hholds x hx hseries
    · exact hn
  -- so it has just been acknowledged, by a worker of its series that does not plan any more
  rcases hnext.acked_cases hacked with hacked | ⟨series', g, it, todo, hg, hp, rfl⟩
  · exact hnew hacked
  · have hdec := ((hprov.workers _ _ hg).ack hp).decode
    obtain rfl : (series', it.sample) = x := Option.some.inj (hdec.symm.trans hx)
    subst hseries
    obtain ⟨todo', hp'⟩ := hplan' g hg
    rw [hp] at hp'
    cases hp'

end Next

/-! ## What is known about the messages that were folded -/

/-- A message that was folded into the row: it does not come again, or the row is past it, up to
the precision of the column. -/
structure RowUsed (p : Pipeline V S) (db : Stores S) (row : BaselineRow S) (id : MsgId) : Prop where
  delivered : id ∈ db.delivered
  past : id ∈ db.acked ∨ ∀ x ∈ p.decode id, Time.micros x.2.ts ≤ row.lastSeen

/-- A message that was folded into the monitor. If it is of the series of the monitor, the process
does not see it again, or the cursor is past it. -/
structure MonitorUsed (p : Pipeline V S) (s : System V S) (series : DiscoveredSeries)
    (m : Monitor V S) (id : MsgId) : Prop where
  delivered : id ∈ s.db.delivered
  past : id ∈ s.db.acked ∨ ∀ x ∈ p.decode id, Time.micros x.2.ts ≤ Time.micros m.cursor
  own : ∀ x ∈ p.decode id, x.1 = series → s.Gone id ∨ x.2.ts ≤ m.cursor

section Used

variable {p : Pipeline V S} {s s' : System V S} {move : Move} {ev : Option (Event V S)}
  {series : DiscoveredSeries} {m : Monitor V S} {id : MsgId}

theorem RowUsed.next {row : BaselineRow S} (h : RowUsed p s.db row id)
    (hnext : s.Next p move ev s') : RowUsed p s'.db row id :=
  ⟨hnext.delivered_subset h.delivered, h.past.imp_left fun ha => hnext.acked_subset ha⟩

theorem MonitorUsed.next (h : MonitorUsed p s series m id) (hnext : s.Next p move ev s') :
    MonitorUsed p s' series m id :=
  ⟨hnext.delivered_subset h.delivered, h.past.imp_left fun ha => hnext.acked_subset ha,
    fun x hx he => (h.own x hx he).imp_left fun hg => hg.next hnext⟩

/-- The cursor only moves forward. -/
theorem MonitorUsed.foldSample (h : MonitorUsed p s series m id) (rs : RawSample) :
    MonitorUsed p s series (m.foldSample rs).1 id := by
  have hle := m.cursor_le_foldSample rs
  refine ⟨h.delivered, h.past.imp_right ?_, ?_⟩
  · intro hpast x hx
    exact le_trans (hpast x hx) (Time.micros_mono hle)
  · intro x hx he
    exact (h.own x hx he).imp_right fun ht => le_trans ht hle

/-- A worker that starts with an exact baseline recognises what was folded into it. -/
theorem RowUsed.resume {watch : Watch V S} {row : BaselineRow S} (h : RowUsed p s.db row id)
    (hmicros : Time.micros row.lastSeen = row.lastSeen) (hfresh : s.Fresh p)
    (hplan : s.Planning series) (hrow : s.db.baselines.lookup (watch.baselineKey series) = some row)
    (hexact : s.db.Exact p series (watch.baselineKey series)) :
    MonitorUsed p s series (watch.resume series (some row)) id := by
  refine ⟨h.delivered, ?_, ?_⟩
  · show _ ∨ ∀ x ∈ p.decode id, Time.micros x.2.ts ≤ Time.micros row.lastSeen
    rw [hmicros]
    exact h.past
  · intro x hx he
    show s.Gone id ∨ x.2.ts ≤ row.lastSeen
    by_cases hacked : id ∈ s.db.acked
    · exact .inl ⟨hacked, fun hholds => hfresh series hplan id hholds x hx he hacked⟩
    · right
      have hle : Time.micros x.2.ts ≤ row.lastSeen := h.past.resolve_left hacked x hx
      rcases lt_or_eq_of_le hle with hlt | heq
      · exact Time.le_of_micros_lt hlt hmicros
      · exact le_of_eq (hexact row hrow id h.delivered hacked x hx he heq)

end Used

/-! ## The invariant -/

/-- Every row and every monitor is folded from messages of which none was used twice. -/
structure System.Accounted (p : Pipeline V S) (s : System V S) : Prop where
  provenance : s.Provenance p
  fresh : s.Fresh p
  micros : ∀ r row, s.db.baselines.lookup r = some row →
    Time.micros row.lastSeen = row.lastSeen
  rows : ∀ r row, s.db.baselines.lookup r = some row →
    Once (p.Folds r) none (RowUsed p s.db row) (some row.state)
  monitors : s.Workers fun series g => ∀ m ∈ g.monitors,
    Once (p.Folds m.key.rowKey) none (MonitorUsed p s series m) m.state

/-- A monitor folds a message of its series that the process still has. -/
theorem once_foldSample {p : Pipeline V S} {s : System V S} {series : DiscoveredSeries}
    {g : Goroutine V S} (hg : s.routes.lookup series = some g)
    (hprov : g.Provenance p s.db.delivered series) {m : Monitor V S} (hm : m ∈ g.monitors)
    {it : Item} (hit : it ∈ g.items)
    (h : Once (p.Folds m.key.rowKey) none (MonitorUsed p s series m) m.state) :
    Once (p.Folds (m.foldSample it.sample).1.key.rowKey) none
      (MonitorUsed p s series (m.foldSample it.sample).1) (m.foldSample it.sample).1.state := by
  have hkeep : ∀ id, MonitorUsed p s series m id →
      MonitorUsed p s series (m.foldSample it.sample).1 id := fun _ hu => hu.foldSample it.sample
  obtain ⟨hdec, hdel⟩ := hprov.items it hit
  rw [Monitor.foldSample_key]
  rcases m.foldSample_cases it.sample with ⟨next, finding, hlt, hstep, he⟩ | ⟨_, he⟩
  · obtain ⟨watch, hw, hmw⟩ := hprov.monitors m hm
    rw [he] at hkeep ⊢
    refine h.use (i := it.msg) ?_ ?_ hkeep ⟨hdel, .inr ?_, ?_⟩
    · -- it is still in the process, and newer than the cursor
      intro hused
      rcases hused.own _ hdec rfl with hgone | hle
      · exact hgone.2 (.inr (.inr ⟨series, g, hg, it, hit, rfl⟩))
      · exact absurd hle (not_le.mpr hlt)
    · refine ⟨series, it.sample, hdec, watch, hw, ?_, (next, finding), ?_, rfl⟩
      · rw [hmw.key, Watch.rowKey_key]
      · rw [← hmw.extractor, ← hmw.detector]
        exact hstep
    · intro x hx
      obtain rfl : (series, it.sample) = x := Option.some.inj (hdec.symm.trans hx)
      exact le_refl _
    · intro x hx _
      obtain rfl : (series, it.sample) = x := Option.some.inj (hdec.symm.trans hx)
      exact .inr (le_refl _)
  · rw [he]
    exact h

/-- A monitor that is loaded takes over what is known about its row. -/
theorem System.Accounted.once_resume {p : Pipeline V S} {s : System V S} (h : s.Accounted p)
    {series : DiscoveredSeries} (hplan : s.Planning series) {watch : Watch V S}
    (hexact : s.db.Exact p series (watch.baselineKey series)) {m : Monitor V S}
    (hm : m = watch.resume series (s.db.baselines.lookup (watch.baselineKey series))) :
    Once (p.Folds m.key.rowKey) none (MonitorUsed p s series m) m.state := by
  subst hm
  cases hrow : s.db.baselines.lookup (watch.baselineKey series) with
  | none => exact Once.start _ _ _
  | some row =>
    refine (h.rows _ row hrow).imp ?_
    intro id hused
    exact hused.resume (h.micros _ row hrow) h.fresh hplan hrow hexact

theorem System.Accounted.next {p : Pipeline V S} {s s' : System V S} {move : Move}
    {ev : Option (Event V S)} (h : s.Accounted p) (hnext : s.Next p move ev s')
    (hs : s.Resumes p move) : s'.Accounted p := by
  have hrows : ∀ r row, s'.db.baselines.lookup r = some row →
      s.db.baselines.lookup r = some row ∨ ∃ series g, s.routes.lookup series = some g ∧
        ∃ m ∈ g.monitors, r = m.key.rowKey ∧ m.state = some row.state ∧
          row.lastSeen = Time.micros m.cursor := by
    intro r row hrow
    cases hnext with
    | worked hg hstep _ => exact (hstep.row_cases hrow).imp_right fun hm => ⟨_, _, hg, hm⟩
    | _ => exact .inl hrow
  refine ⟨h.provenance.next hnext, h.fresh.next h.provenance hnext, ?_, ?_, ?_⟩
  · intro r row hrow
    rcases hrows r row hrow with hrow | ⟨series, g, _, m, _, _, _, hlast⟩
    · exact h.micros r row hrow
    · rw [hlast, Time.micros_micros]
  · intro r row hrow
    rcases hrows r row hrow with hrow | ⟨series, g, hg, m, hm, rfl, hstate, hlast⟩
    · exact (h.rows r row hrow).imp fun _ hused => hused.next hnext
    · rw [← hstate]
      refine (h.monitors series g hg m hm).imp ?_
      intro id hused
      have hused := hused.next hnext
      exact ⟨hused.delivered, by rw [hlast]; exact hused.past⟩
  · refine hnext.workers h.monitors ?_ ?_ ?_ ?_
    · exact fun _ _ hg m hm => (hg m hm).imp fun _ hused => hused.next hnext
    · exact fun _ m hm => absurd hm List.not_mem_nil
    · exact fun _ _ _ _ hg m hm => (hg m hm).imp fun _ hused => hused.next hnext
    · rintro series tick g g' halt rfl hg hstep _ hmon m' hm'
      have hprov := h.provenance.workers series g hg
      have hold : Once (p.Folds m'.key.rowKey) none (MonitorUsed p s series m') m'.state := by
        rcases hstep.monitor hprov.taken hm' with hm | ⟨watch, todo, hp, rfl, he⟩ |
          ⟨m, hm, it, hit, rfl⟩
        · exact hmon m' hm
        · refine h.once_resume ?_ (hs rfl g hg watch ?_) he
          · intro g₀ hg₀
            obtain rfl : g = g₀ := Option.some.inj (hg.symm.trans hg₀)
            exact ⟨_, hp⟩
          · rw [hp]
            rfl
        · exact once_foldSample hg hprov hm hit (hmon m hm)
      exact hold.imp fun _ hused => hused.next hnext

/-- **What one move of the service preserves.** -/
theorem System.Accounted.step {p : Pipeline V S} {s : System V S} (h : s.Accounted p)
    (move : Move) (hs : s.Resumes p move) : (s.step p move).Accounted p := by
  by_cases hd : s.Dies p move
  · rw [(s.step_death p move hd).eq]
    exact ⟨System.provenance_boot p _, fun _ _ id hh => absurd hh (System.not_holds_boot _ id),
      h.micros, fun r row hrow => (h.rows r row hrow).imp fun _ hu => ⟨hu.delivered, hu.past⟩,
      System.workers_boot _ _⟩
  · exact h.next (s.step_next p move hd) hs

/--
**No message is folded twice into a baseline, if no cursor was rounded down.**

In every run in which a worker never resumes from a baseline whose `last_seen` is the timestamp,
rounded down, of a message that may come again: every persisted state is a fold of messages of
which none occurs twice. The process may end at any point.
-/
theorem folded_once (p : Pipeline V S) (db : Stores S) (hempty : db.baselines = ∅)
    (moves : List Move) (h : Along (System.step p) (System.Resumes p) (System.boot db) moves) :
    Throughout (System.step p) (FoldedOnce p) (System.boot db) moves := by
  have hnone : ∀ r row, (System.boot db : System V S).db.baselines.lookup r ≠ some row := by
    intro r row hrow
    have hrow : db.baselines.lookup r = some row := hrow
    rw [hempty] at hrow
    cases hrow
  have hboot : (System.boot db : System V S).Accounted p :=
    ⟨System.provenance_boot p db, fun _ _ id hh => absurd hh (System.not_holds_boot _ id),
      fun r row hrow => absurd hrow (hnone r row), fun r row hrow => absurd hrow (hnone r row),
      System.workers_boot _ _⟩
  refine (throughout_of_invariant (fun _ move hs hm => hs.step move hm) hboot h).imp ?_
  intro s hs r row hrow
  exact (hs.rows r row hrow).imp fun _ hused => hused.delivered

/-- A measurement is folded and saved. The process ends before it is acknowledged, and the
measurement comes again. -/
def foldCrashFold : List Move :=
  Move.deliver 0 ++
    Move.ping [.load .ok, .load .ok, .receive, .drain, .fold, .insert 0 .failed, .save .ok] ++
    [.crash] ++ Move.deliver 0 ++
    Move.ping [.load .ok, .load .ok, .receive, .drain, .fold, .insert 0 .failed, .save .ok]

/-- With a whole number of microseconds the measurement is recognised. -/
theorem foldCrashFold_once :
    (run (System.step (pingPipeline ["000001000"])) (System.boot Stores.empty)
      foldCrashFold).db.baselines.lookup (pingWatch.baselineKey pingSeries) =
        some { state := 1, lastSeen := newYear + 1000 } ∧
    Throughout (System.step (pingPipeline ["000001000"])) (FoldedOnce (pingPipeline ["000001000"]))
      (System.boot Stores.empty) foldCrashFold :=
  ⟨by decide +kernel, folded_once _ Stores.empty rfl foldCrashFold (by decide +kernel)⟩

/-- `tally` counts what was folded. -/
theorem tally_trace {messages : List String} {r : RowKey} {ids : List MsgId} {state : Option Nat}
    (h : Trace ((pingPipeline messages).Folds r) none ids state) :
    state.getD 0 = ids.length := by
  induction h with
  | nil => rfl
  | snoc _ hs ih =>
    obtain ⟨series, sample, _, watch, hw, _, result, hstep, rfl⟩ := hs
    rw [detector_of_mem_watches hw] at hstep
    unfold stepSample at hstep
    split at hstep
    · cases hstep
    · obtain rfl := Option.some.inj hstep
      rw [List.length_append, ← ih]
      rfl

/-- One nanosecond later it is folded twice: its row says 2, and there was only one measurement. -/
theorem rounded_cursor_folds_twice :
    ¬ Throughout (System.step (pingPipeline ["000000001"]))
      (FoldedOnce (pingPipeline ["000000001"])) (System.boot Stores.empty) foldCrashFold := by
  intro h
  obtain ⟨hrow, hdelivered⟩ :
      (run (System.step (pingPipeline ["000000001"])) (System.boot Stores.empty)
        foldCrashFold).db.baselines.lookup (pingWatch.baselineKey pingSeries) =
          some { state := 2, lastSeen := newYear } ∧
      (run (System.step (pingPipeline ["000000001"])) (System.boot Stores.empty)
        foldCrashFold).db.delivered = {0} := by
    decide +kernel
  obtain ⟨ids, hnodup, hids, htrace⟩ := h.last _ _ hrow
  rw [hdelivered] at hids
  have hlen : ids.length = 2 := (tally_trace htrace).symm
  have hle : ids.toFinset.card ≤ 1 :=
    Finset.card_le_card fun id hid => hids id (List.mem_toFinset.mp hid)
  rw [List.toFinset_card_of_nodup hnodup, hlen] at hle
  omega

end Cepheus.Argus
