import Cepheus.Argus.Properties.Provenance

/-!
# Acknowledged samples are in the baselines

A message is acknowledged after its batch was folded, whatever became of the folding. `Durable`
says that nothing is lost if the process ends right after an acknowledgement: every baseline that
the sample belongs to has got as far as the sample.

* `Monitor.Saved` - the baseline of a monitor is as far as the monitor was at some point
* `Goroutine.Secured` - what a worker has in hand is folded and saved before it is acknowledged
* `acked_durable` - if no load, fold or save goes wrong, what is acknowledged is durable
* `failed_save_acked` - the acknowledgement does not wait for a save that works
-/

namespace Cepheus.Argus

open Infra

variable {V S : Type}

/-- The baseline has got as far as `t`. -/
def Stores.Covered (db : Stores S) (r : RowKey) (t : Time) : Prop :=
  ∃ row ∈ db.baselines.lookup r, t ≤ row.lastSeen

instance (db : Stores S) (r : RowKey) (t : Time) : Decidable (db.Covered r t) :=
  inferInstanceAs (Decidable (∃ row ∈ db.baselines.lookup r, t ≤ row.lastSeen))

/-- Every acknowledged sample is in the baselines of all that the registry has for its series. -/
def Durable (p : Pipeline V S) (s : System V S) : Prop :=
  ∀ id ∈ s.db.acked, ∀ series sample, p.decode id = some (series, sample) →
    ∀ watch ∈ p.worker.watches series.type, s.db.Covered (watch.baselineKey series) sample.ts

/-! ## The condition -/

/-- The monitor that is being folded, and where the worker is with it. -/
def Goroutine.current (g : Goroutine V S) : Option (FoldPoint × Monitor V S) :=
  match g.phase with
  | .fold point => (g.monitors[point.index]?).map fun m => (point, m)
  | _ => none

theorem Goroutine.mem_current {g : Goroutine V S} {point : FoldPoint} {m : Monitor V S}
    (hp : g.phase = .fold point) (hm : g.monitors[point.index]? = some m) :
    (point, m) ∈ g.current := by
  unfold current
  simp only [hp, hm, Option.map_some, Option.mem_some_iff]

/-- The next sample gets through the extractor and the detector, unless it is to be skipped. -/
def Monitor.Takes (m : Monitor V S) : List Item → Prop
  | [] => True
  | it :: _ => m.cursor < it.sample.ts → (m.stepSample m.state it.sample).isSome

instance (m : Monitor V S) (rows : List Item) : Decidable (m.Takes rows) :=
  match rows with
  | [] => inferInstanceAs (Decidable True)
  | it :: _ =>
    inferInstanceAs (Decidable (m.cursor < it.sample.ts → (m.stepSample m.state it.sample).isSome))

/-- A sample that the monitor takes, or has had before, does not take it beyond its cursor. -/
theorem Monitor.le_cursor_foldSample {m : Monitor V S} {it : Item} {rows : List Item}
    (h : m.Takes (it :: rows)) : it.sample.ts ≤ (m.foldSample it.sample).1.cursor := by
  rcases m.foldSample_cases it.sample with ⟨next, finding, _, _, he⟩ | ⟨hnone, he⟩
  · rw [he]
  · rw [he]
    by_contra hlt
    have hlt := not_le.mp hlt
    have hsome := h hlt
    rw [hnone hlt] at hsome
    cases hsome

/-- The baseline gets as far as the monitor, and does not fall back. -/
structure Monitor.Saves (m : Monitor V S) (db : Stores S) (o : Outcome) : Prop where
  outcome : o ≠ .failed
  micros : Time.micros m.cursor = m.cursor
  row : ∀ row ∈ db.baselines.lookup m.key.rowKey, row.lastSeen ≤ m.cursor

instance (m : Monitor V S) (db : Stores S) (o : Outcome) : Decidable (m.Saves db o) :=
  decidable_of_iff (o ≠ .failed ∧ Time.micros m.cursor = m.cursor ∧
      ∀ row ∈ db.baselines.lookup m.key.rowKey, row.lastSeen ≤ m.cursor)
    ⟨fun ⟨h₁, h₂, h₃⟩ => ⟨h₁, h₂, h₃⟩, fun ⟨h₁, h₂, h₃⟩ => ⟨h₁, h₂, h₃⟩⟩

/-- The baselines are loaded, every new sample is folded, and every monitor that has moved on is
saved. -/
def Goroutine.Secures (g : Goroutine V S) (db : Stores S) : Tick → Prop
  | .load o => o = .ok ∨ o = .crash
  | .fold => ∀ x ∈ g.current, x.2.Takes x.1.rows
  | .save o => ∀ x ∈ g.current, x.1.rows = [] → x.1.start < x.2.cursor → x.2.Saves db o
  | _ => True

instance (g : Goroutine V S) (db : Stores S) (tick : Tick) : Decidable (g.Secures db tick) :=
  match tick with
  | .load o => inferInstanceAs (Decidable (o = .ok ∨ o = .crash))
  | .fold => inferInstanceAs (Decidable (∀ x ∈ g.current, x.2.Takes x.1.rows))
  | .save o => inferInstanceAs (Decidable (∀ x ∈ g.current, x.1.rows = [] →
      x.1.start < x.2.cursor → x.2.Saves db o))
  | .receive => inferInstanceAs (Decidable True)
  | .drain => inferInstanceAs (Decidable True)
  | .insert _ _ => inferInstanceAs (Decidable True)
  | .apply _ => inferInstanceAs (Decidable True)
  | .ack _ => inferInstanceAs (Decidable True)

/-- Nothing goes wrong in the workers, and messages come with a timestamp. -/
def System.Secures (p : Pipeline V S) (s : System V S) : Move → Prop
  | .dispatch => ∀ id ∈ s.fetched.head?, ∀ x ∈ p.decode id, 0 < x.2.ts
  | .work series tick => ∀ g ∈ s.routes.lookup series, g.Secures s.db tick
  | _ => True

instance (p : Pipeline V S) (s : System V S) (move : Move) : Decidable (s.Secures p move) :=
  match move with
  | .dispatch => inferInstanceAs (Decidable (∀ id ∈ s.fetched.head?, ∀ x ∈ p.decode id, 0 < x.2.ts))
  | .work series tick =>
    inferInstanceAs (Decidable (∀ g ∈ s.routes.lookup series, g.Secures s.db tick))
  | .fetch _ => inferInstanceAs (Decidable True)
  | .send => inferInstanceAs (Decidable True)
  | .sweep _ => inferInstanceAs (Decidable True)
  | .crash => inferInstanceAs (Decidable True)

/-! ## Baselines that advance -/

/-- No baseline falls back. -/
def Stores.Advances (db db' : Stores S) : Prop := ∀ r t, db.Covered r t → db'.Covered r t

theorem Stores.advances_of_eq {db db' : Stores S} (h : db'.baselines = db.baselines) :
    db.Advances db' := by
  intro r t hc
  unfold Covered at *
  rw [h]
  exact hc

/-- The baseline of the monitor is as far as `t`, where the monitor has been. -/
structure Monitor.Saved (db : Stores S) (t : Time) (m : Monitor V S) : Prop where
  le : t ≤ m.cursor
  moved : t < m.cursor → m.state.isSome
  /-- The zero instant stands for a baseline that does not exist. -/
  covered : 0 < t → db.Covered m.key.rowKey t

theorem Monitor.Saved.advance {db db' : Stores S} {t : Time} {m : Monitor V S}
    (h : m.Saved db t) (hadv : db.Advances db') : m.Saved db' t :=
  ⟨h.le, h.moved, fun ht => hadv _ _ (h.covered ht)⟩

theorem Monitor.Saved.foldSample {db : Stores S} {t : Time} {m : Monitor V S} (h : m.Saved db t)
    (rs : RawSample) : (m.foldSample rs).1.Saved db t := by
  refine ⟨le_trans h.le (m.cursor_le_foldSample rs), ?_, ?_⟩
  · rcases m.foldSample_cases rs with ⟨next, finding, _, _, he⟩ | ⟨_, he⟩
    · rw [he]
      exact fun _ => rfl
    · rw [he]
      exact h.moved
  · rw [foldSample_key]
    exact h.covered

/-- A monitor that was just loaded is as far as its baseline. -/
theorem Watch.saved_resume (watch : Watch V S) (series : DiscoveredSeries) (db : Stores S) :
    (watch.resume series (db.baselines.lookup (watch.baselineKey series))).Saved db
      (watch.resume series (db.baselines.lookup (watch.baselineKey series))).cursor := by
  refine ⟨le_refl _, fun h => absurd h (lt_irrefl _), ?_⟩
  cases hrow : db.baselines.lookup (watch.baselineKey series) with
  | none => exact fun h => absurd h (lt_irrefl _)
  | some row => exact fun _ => ⟨row, hrow, le_refl _⟩

theorem lookup_saveBaseline {o : Outcome} {m : Monitor V S} {state : S} (db : Stores S)
    (hs : m.state = some state) (ho : o.Applies) (r : RowKey) :
    (saveBaseline o m db).baselines.lookup r =
      if r = m.key.rowKey then some { state, lastSeen := Time.micros m.cursor }
      else db.baselines.lookup r := by
  unfold saveBaseline
  simp only [hs, if_pos ho]
  exact Table.lookup_insert_if _ _ _ _

/-- After a save the baseline is as far as the monitor, and all others are as they were. -/
theorem Monitor.Saves.advances {db : Stores S} {o : Outcome} {m : Monitor V S}
    (h : m.Saves db o) (hc : o ≠ .crash) (hs : m.state.isSome) :
    db.Advances (saveBaseline o m db) ∧ (saveBaseline o m db).Covered m.key.rowKey m.cursor := by
  obtain ⟨state, hs⟩ := Option.isSome_iff_exists.mp hs
  have ho : o.Applies := by
    cases o with
    | ok | lost => simp [Outcome.Applies]
    | failed => exact absurd rfl h.outcome
    | crash => exact absurd rfl hc
  have hlook := lookup_saveBaseline db hs ho
  rw [h.micros] at hlook
  refine ⟨?_, ⟨_, (hlook _).trans (if_pos rfl), le_refl _⟩⟩
  rintro r t ⟨row, hrow, ht⟩
  by_cases hr : r = m.key.rowKey
  · subst hr
    exact ⟨_, (hlook _).trans (if_pos rfl), le_trans ht (h.row row hrow)⟩
  · exact ⟨row, (hlook r).trans ((if_neg hr).trans hrow), ht⟩

/-! ## The invariant of a worker -/

/-- How far the monitor at position `i` is certain to be saved: while it is being folded, as far as
it was before. -/
def Phase.mark (i : Nat) (m : Monitor V S) : Phase V S → Time
  | .plan _ => m.cursor
  | .select => m.cursor
  | .drain _ => m.cursor
  | .fold point => if i = point.index then point.start else m.cursor
  | .insert point _ _ => if i = point.index then point.start else m.cursor
  | .apply point _ _ _ => if i = point.index then point.start else m.cursor
  | .ack _ => m.cursor

theorem Goroutine.mark_enter (g : Goroutine V S) (batch : List Item) (i : Nat) {j : Nat}
    {m : Monitor V S} (hm : g.monitors[j]? = some m) : (g.enter batch i).mark j m = m.cursor := by
  unfold enter
  cases hi : g.monitors[i]? with
  | none => rfl
  | some m' =>
    simp only [Phase.mark]
    split
    case isTrue hj =>
      subst hj
      rw [Option.some.inj (hi.symm.trans hm)]
    case isFalse => rfl

theorem Goroutine.mark_foldItem (g : Goroutine V S) (point : FoldPoint) (m : Monitor V S)
    (it : Item) (rows : List Item) (i : Nat) (m' : Monitor V S) :
    (g.foldItem point m it rows).phase.mark i m' =
      if i = point.index then point.start else m'.cursor := by
  unfold foldItem
  cases (m.foldSample it.sample).2 <;> rfl

/-- What a worker has in hand is folded into every monitor, and every monitor is saved, before
anything is acknowledged. -/
structure Goroutine.Secured (p : Pipeline V S) (db : Stores S) (series : DiscoveredSeries)
    (g : Goroutine V S) : Prop where
  stamped : ∀ it ∈ g.items, 0 < it.sample.ts
  planned : ∀ watch ∈ p.worker.watches series.type,
    watch ∈ g.phase.unplanned ∨ ∃ m ∈ g.monitors, m.Watches series watch
  folded : ∀ (i : Nat) (m : Monitor V S), g.monitors[i]? = some m →
    ∀ it ∈ g.phase.held, it ∈ g.phase.taken i ∨ it.sample.ts ≤ m.cursor
  saved : ∀ (i : Nat) (m : Monitor V S), g.monitors[i]? = some m → m.Saved db (g.phase.mark i m)

theorem Pipeline.secured_start (p : Pipeline V S) (db : Stores S) (series : DiscoveredSeries) :
    (p.start series).Secured p db series :=
  ⟨fun _ h => absurd h List.not_mem_nil, fun _ hw => .inl hw, fun _ _ h => by simp [start] at h,
    fun _ _ h => by simp [start] at h⟩

section Secured

variable {p : Pipeline V S} {series : DiscoveredSeries} {g g' : Goroutine V S} {db db' : Stores S}
  {tick : Tick} {ev : Option (Event V S)} {halt : Option Halt}

theorem Goroutine.Secured.advance (h : g.Secured p db series) (hadv : db.Advances db') :
    g.Secured p db' series :=
  ⟨h.stamped, h.planned, h.folded, fun i m hi => (h.saved i m hi).advance hadv⟩

theorem Goroutine.Secured.handed (h : g.Secured p db series) {it : Item}
    (hit : 0 < it.sample.ts) :
    ({ g with inbox := g.inbox ++ [it] } : Goroutine V S).Secured p db series := by
  refine ⟨?_, h.planned, h.folded, h.saved⟩
  intro it' hit'
  rcases mem_items_handed hit' with hmem | rfl
  · exact h.stamped it' hmem
  · exact hit

/-- A move that leaves the monitors and the baselines as they are. -/
theorem Goroutine.Secured.silent (h : g.Secured p db series) (hm : g'.monitors = g.monitors)
    (hitems : g'.items ⊆ g.items) (hplan : g'.phase.unplanned = g.phase.unplanned)
    (hheld : ∀ i, i < g.monitors.length → ∀ it ∈ g'.phase.held,
      it ∈ g'.phase.taken i ∨ it ∈ g.phase.held ∧ (it ∈ g.phase.taken i → it ∈ g'.phase.taken i))
    (hmark : ∀ (i : Nat) (m : Monitor V S), g.monitors[i]? = some m →
      g'.phase.mark i m = g.phase.mark i m) :
    g'.Secured p db series := by
  refine ⟨fun it hit => h.stamped it (hitems hit), ?_, ?_, ?_⟩
  · rw [hm, hplan]
    exact h.planned
  · intro i m hi it hit
    rw [hm] at hi
    rcases hheld i (List.getElem?_eq_some_iff.mp hi).1 it hit with hit | ⟨hit, hsub⟩
    · exact .inl hit
    · exact (h.folded i m hi it hit).imp_left hsub
  · intro i m hi
    rw [hm] at hi
    rw [hmark i m hi]
    exact h.saved i m hi

/-- A monitor is loaded. -/
theorem Goroutine.Secured.loaded (h : g.Secured p db series) {watch : Watch V S}
    {todo : List (Watch V S)} (hp : g.phase = .plan (watch :: todo)) :
    ({ g with
       monitors :=
         g.monitors ++ [watch.resume series (db.baselines.lookup (watch.baselineKey series))]
       phase := .plan todo } : Goroutine V S).Secured p db series := by
  refine ⟨?_, ?_, fun i m _ it hit => absurd hit List.not_mem_nil, ?_⟩
  · intro it hit
    refine h.stamped it ?_
    rw [items, hp]
    exact hit
  · intro w hw
    rcases h.planned w hw with hun | ⟨m, hm, hmw⟩
    · rw [hp] at hun
      rcases List.mem_cons.mp hun with rfl | hun
      · exact .inr ⟨_, List.mem_append_right _ List.mem_cons_self, w.watches_resume _ _⟩
      · exact .inl hun
    · exact .inr ⟨m, List.mem_append_left _ hm, hmw⟩
  · intro i m hi
    rcases List.mem_append.mp (List.mem_of_getElem? hi) with hm | hm
    · obtain ⟨j, hj⟩ := List.mem_iff_getElem?.mp hm
      have hs := h.saved j m hj
      rw [hp] at hs
      exact hs
    · obtain rfl := List.mem_singleton.mp hm
      exact watch.saved_resume series db

/-- The monitor that is being folded is saved as far as it was before. -/
theorem Goroutine.Secured.saved_current (h : g.Secured p db series) {point : FoldPoint}
    {m : Monitor V S} (hp : g.phase = .fold point) (hm : g.monitors[point.index]? = some m) :
    m.Saved db point.start := by
  have hs := h.saved _ m hm
  rw [hp] at hs
  simp only [Phase.mark, if_true] at hs
  exact hs

/-- The other monitors are saved as far as they are. -/
theorem Goroutine.Secured.saved_other (h : g.Secured p db series) {point : FoldPoint} {i : Nat}
    {m : Monitor V S} (hp : g.phase = .fold point) (hm : g.monitors[i]? = some m)
    (hi : i ≠ point.index) : m.Saved db m.cursor := by
  have hs := h.saved i m hm
  rw [hp] at hs
  simp only [Phase.mark, if_neg hi] at hs
  exact hs

/-- One round of the loop of `fold`, for a sample that gets through. -/
theorem Goroutine.Secured.foldItem (h : g.Secured p db series) {point : FoldPoint}
    {m : Monitor V S} {it : Item} {rows : List Item} (hp : g.phase = .fold point)
    (hr : point.rows = it :: rows) (hm : g.monitors[point.index]? = some m)
    (ht : m.Takes (it :: rows)) : (g.foldItem point m it rows).Secured p db series := by
  have hset := g.getElem?_foldItem point m it rows hm
  refine ⟨?_, ?_, ?_, ?_⟩
  · intro it' hit'
    refine h.stamped it' ?_
    rw [items, hp]
    rw [items, held_foldItem] at hit'
    exact hit'
  · intro watch hw
    rcases h.planned watch hw with hun | ⟨m', hm', hmw⟩
    · rw [hp] at hun
      exact absurd hun List.not_mem_nil
    · obtain ⟨i, hi⟩ := List.mem_iff_getElem?.mp hm'
      by_cases he : i = point.index
      · -- the monitor that takes the sample watches what it watched before
        subst he
        obtain rfl : m = m' := Option.some.inj (hm.symm.trans hi)
        exact .inr ⟨_, List.mem_of_getElem? ((hset _).trans (if_pos rfl)), hmw.foldSample _⟩
      · exact .inr ⟨m', List.mem_of_getElem? (((hset i).trans (if_neg he)).trans hi), hmw⟩
  · intro i m' hi it' hit'
    rw [held_foldItem] at hit'
    rw [taken_foldItem]
    have hfold := h.folded i
    rw [hp] at hfold
    rw [hset] at hi
    by_cases he : i = point.index
    · subst he
      rw [if_pos rfl] at hi
      obtain rfl := Option.some.inj hi
      rcases hfold m hm it' hit' with hmem | hle
      · simp only [Phase.taken, FoldPoint.rowsOf, hr, lt_irrefl, if_false, if_true] at hmem ⊢
        rcases List.mem_cons.mp hmem with rfl | hmem
        · exact .inr (Monitor.le_cursor_foldSample ht)
        · exact .inl hmem
      · exact .inr (le_trans hle (m.cursor_le_foldSample _))
    · rw [if_neg he] at hi
      refine (hfold m' hi it' hit').imp_left ?_
      intro hmem
      simpa [Phase.taken, FoldPoint.rowsOf, he] using hmem
  · intro i m' hi
    rw [mark_foldItem]
    rw [hset] at hi
    by_cases he : i = point.index
    · subst he
      rw [if_pos rfl] at hi ⊢
      obtain rfl := Option.some.inj hi
      exact (h.saved_current hp hm).foldSample _
    · rw [if_neg he] at hi ⊢
      exact h.saved_other hp hi he

/-- The worker is done with a monitor, and goes on with the next one. -/
theorem Goroutine.Secured.next (h : g.Secured p db series) {point : FoldPoint} {m : Monitor V S}
    (hp : g.phase = .fold point) (hr : point.rows = [])
    (hm : g.monitors[point.index]? = some m) (hsaved : m.Saved db m.cursor) :
    ({ g with phase := g.enter point.batch (point.index + 1) } : Goroutine V S).Secured p db
      series := by
  refine ⟨?_, ?_, ?_, ?_⟩
  · intro it hit
    refine h.stamped it ?_
    rw [items, held_enter] at hit
    rw [items, hp]
    exact hit
  · intro watch hw
    refine (h.planned watch hw).imp_left fun hun => ?_
    rw [hp] at hun
    exact absurd hun List.not_mem_nil
  · intro i m' hi it hit
    rw [held_enter] at hit
    rw [g.taken_enter _ _ (List.getElem?_eq_some_iff.mp hi).1]
    have hfold := h.folded i m' hi it
    rw [hp] at hfold
    refine (hfold hit).imp_left ?_
    intro hmem
    simp only [Phase.taken, FoldPoint.rowsOf] at hmem
    by_cases hlt : i < point.index
    · rw [if_pos hlt] at hmem
      exact absurd hmem List.not_mem_nil
    · by_cases heq : i = point.index
      · rw [if_neg hlt, if_pos heq, hr] at hmem
        exact absurd hmem List.not_mem_nil
      · rw [if_neg (by omega)]
        exact hit
  · intro i m' hi
    rw [g.mark_enter _ _ hi]
    by_cases heq : i = point.index
    · subst heq
      obtain rfl : m = m' := Option.some.inj (hm.symm.trans hi)
      exact hsaved
    · exact h.saved_other hp hi heq

/-- **What one move of a worker preserves.** -/
theorem Goroutine.Secured.step (h : g.Secured p db series)
    (hstep : g.Step p series db tick ev g' db' halt) (hs : g.Secures db tick)
    (hh : ¬ ∃ x ∈ halt, x.Fatal) : db.Advances db' ∧ g'.Secured p db' series := by
  have hitems := hstep.items_subset
  have hsame : db.Advances db := Stores.advances_of_eq rfl
  cases hstep with
  | idle | unloaded => exact ⟨hsame, h⟩
  | loaded hp hres =>
    subst hres
    exact ⟨hsame, h.loaded hp⟩
  | skipped hp ho => rcases hs with rfl | rfl <;> rcases ho with ho | ho <;> cases ho
  | folded hp hr hm =>
    have ht := hs _ (mem_current hp hm)
    rw [hr] at ht
    exact ⟨hsame, h.foldItem hp hr hm ht⟩
  | @saved point m o hp hr hm hlt =>
    have hsaved := h.saved_current hp hm
    have hc : o ≠ .crash := fun hc => hh ⟨.crash, by rw [if_pos hc]; rfl, trivial⟩
    obtain ⟨hadv, hcov⟩ := (hs _ (mem_current hp hm) hr hlt).advances hc (hsaved.moved hlt)
    have hnow : m.Saved (saveBaseline o m db) m.cursor :=
      ⟨le_refl _, fun h => absurd h (lt_irrefl _), fun _ => hcov⟩
    exact ⟨hadv, (h.advance hadv).next hp hr hm hnow⟩
  | @unsaved point m o hp hr hm hle =>
    have hsaved := h.saved_current hp hm
    -- nothing new was folded
    rw [le_antisymm hsaved.le hle] at hsaved
    exact ⟨hsame, h.next hp hr hm hsaved⟩
  | planned _ hp | finished hp =>
    refine ⟨hsame, h.silent rfl hitems (by rw [hp]; rfl) ?_ (by rw [hp]; exact fun _ _ _ => rfl)⟩
    exact fun _ _ it hit => absurd hit List.not_mem_nil
  | received hp hi | drained hp hi =>
    refine ⟨hsame, h.silent rfl hitems (by rw [hp]; rfl) ?_ (by rw [hp]; exact fun _ _ _ => rfl)⟩
    exact fun _ _ it hit => .inl hit
  | closed hp hi =>
    refine ⟨hsame, h.silent rfl hitems (by rw [unplanned_enter, hp]; rfl) ?_ ?_⟩
    · intro i hlt it hit
      rw [held_enter] at hit
      rw [g.taken_enter _ _ hlt, if_neg (Nat.not_lt_zero i)]
      exact .inl hit
    · intro i m hm
      rw [g.mark_enter _ _ hm, hp]
      rfl
  | inserted hp _ | refused hp _ | applied hp _ =>
    refine ⟨Stores.advances_of_eq rfl, Secured.advance (h.silent rfl hitems (by rw [hp]; rfl) ?_
      (by rw [hp]; exact fun _ _ _ => rfl)) (Stores.advances_of_eq rfl)⟩
    intro i _ it hit
    rw [hp]
    exact .inr ⟨hit, id⟩
  | @acked it todo arrives hp =>
    have hbase : (if arrives then { db with acked := insert it.msg db.acked } else db).baselines =
        db.baselines := by
      split <;> rfl
    refine ⟨Stores.advances_of_eq hbase, Secured.advance (h.silent rfl hitems (by rw [hp]; rfl) ?_
      (by rw [hp]; exact fun _ _ _ => rfl)) (Stores.advances_of_eq hbase)⟩
    intro i _ it' hit
    rw [hp]
    exact .inr ⟨List.mem_cons_of_mem _ hit, id⟩

/-- What a worker is about to acknowledge is durable. -/
theorem Goroutine.Secured.covered (h : g.Secured p db series) {it : Item} {todo : List Item}
    (hp : g.phase = .ack (it :: todo)) {watch : Watch V S}
    (hw : watch ∈ p.worker.watches series.type) :
    db.Covered (watch.baselineKey series) it.sample.ts := by
  have hheld : it ∈ g.phase.held := by
    rw [hp]
    exact List.mem_cons_self
  rcases h.planned watch hw with hun | ⟨m, hm, hmw⟩
  · rw [hp] at hun
    exact absurd hun List.not_mem_nil
  · obtain ⟨i, hi⟩ := List.mem_iff_getElem?.mp hm
    have hle : it.sample.ts ≤ m.cursor := by
      rcases h.folded i m hi it hheld with htaken | hle
      · rw [hp] at htaken
        exact absurd htaken List.not_mem_nil
      · exact hle
    have hpos : 0 < it.sample.ts := h.stamped it (List.mem_append_left _ hheld)
    have hs := h.saved i m hi
    rw [hp] at hs
    obtain ⟨row, hrow, hlast⟩ := hs.covered (lt_of_lt_of_le hpos hle)
    rw [hmw.key, Watch.rowKey_key] at hrow
    exact ⟨row, hrow, le_trans hle hlast⟩

end Secured

/-! ## Runs -/

/-- Every worker is in order, and what has been acknowledged is durable. -/
structure System.Secured (p : Pipeline V S) (s : System V S) : Prop where
  provenance : s.Provenance p
  sending : ∀ x ∈ s.sending, 0 < x.2.sample.ts
  workers : s.Workers (Goroutine.Secured p s.db)
  durable : Durable p s

theorem System.Secured.next {p : Pipeline V S} {s s' : System V S} {move : Move}
    {ev : Option (Event V S)} (h : s.Secured p) (hnext : s.Next p move ev s')
    (hs : s.Secures p move) : s'.Secured p := by
  have hadv : s.db.Advances s'.db := by
    cases hnext with
    | worked hg hstep hh => exact ((h.workers _ _ hg).step hstep (hs _ hg) hh).1
    | _ => exact Stores.advances_of_eq rfl
  refine ⟨h.provenance.next hnext, ?_, ?_, ?_⟩
  · intro x hx
    cases hnext with
    | @dispatched id rest series sample _ hf hd =>
      obtain rfl := Option.mem_some_iff.mp hx
      exact hs id (by rw [hf]; rfl) _ hd
    | sent _ _ _ => cases hx
    | _ => exact h.sending x hx
  · refine hnext.workers h.workers (fun _ _ hg => hg.advance hadv) (p.secured_start _) ?_ ?_
    · intro series it g hsend hg
      exact (hg.handed (h.sending _ hsend)).advance hadv
    · rintro series tick g g' halt rfl hlook hstep hh hg
      exact (hg.step hstep (hs g hlook) hh).2
  · intro id hid series sample hdec watch hw
    rcases hnext.acked_cases hid with hid | ⟨series', g, it, todo, hg, hp, rfl⟩
    · exact hadv _ _ (h.durable id hid series sample hdec watch hw)
    · have hit := ((h.provenance.workers _ _ hg).ack hp).decode
      obtain ⟨rfl, rfl⟩ := Prod.mk.inj (Option.some.inj (hit.symm.trans hdec))
      exact hadv _ _ ((h.workers _ _ hg).covered hp hw)

/-- **What one move of the service preserves.** -/
theorem System.Secured.step {p : Pipeline V S} {s : System V S} (h : s.Secured p) (move : Move)
    (hs : s.Secures p move) : (s.step p move).Secured p := by
  by_cases hd : s.Dies p move
  · -- the baselines and the stream are as they were
    rw [(s.step_death p move hd).eq]
    exact ⟨System.provenance_boot p _, fun _ h => absurd h (Option.not_mem_none _),
      System.workers_boot _ _, h.durable⟩
  · exact h.next (s.step_next p move hd) hs

/--
**What is acknowledged is durable, if nothing goes wrong.**

In every run in which the baselines can be loaded, messages come with a timestamp, every sample
that is newer than the cursor gets through its extractor and detector, and every monitor that has
moved on is saved, with a cursor that the column can hold and over a row that is not newer: from
the acknowledgement on, the baselines of everything that the registry has for the series have got
as far as the sample.
-/
theorem acked_durable (p : Pipeline V S) (db : Stores S) (hacked : db.acked = ∅)
    (moves : List Move) (h : Along (System.step p) (System.Secures p) (System.boot db) moves) :
    Throughout (System.step p) (Durable p) (System.boot db) moves := by
  have hboot : (System.boot db : System V S).Secured p := by
    refine ⟨System.provenance_boot p db, fun _ h => absurd h (Option.not_mem_none _),
      System.workers_boot _ _, ?_⟩
    intro id hid
    rw [show (System.boot db : System V S).db.acked = ∅ from hacked] at hid
    exact absurd hid (Finset.notMem_empty id)
  exact (throughout_of_invariant (fun _ move hs hm => hs.step move hm) hboot h).imp
    fun _ hs => hs.durable

/-- Two measurements are folded, saved and acknowledged. -/
theorem pingMoves_durable :
    (run (System.step (pingPipeline ["000001000", "000002000"])) (System.boot Stores.empty)
      pingMoves).db.acked = {0, 1} ∧
    Throughout (System.step (pingPipeline ["000001000", "000002000"]))
      (Durable (pingPipeline ["000001000", "000002000"])) (System.boot Stores.empty) pingMoves :=
  ⟨by decide +kernel, acked_durable _ Stores.empty rfl pingMoves (by decide +kernel)⟩

/-- A measurement whose baseline cannot be saved, and which is acknowledged all the same. -/
def failedSave : List Move :=
  Move.deliver 0 ++ Move.ping [.load .ok, .load .ok, .receive, .drain, .fold, .insert 0 .failed,
    .save .failed, .ack true]

/-- It is lost if the process ends now. -/
theorem failed_save_acked :
    ¬ Throughout (System.step (pingPipeline ["000001000"])) (Durable (pingPipeline ["000001000"]))
      (System.boot Stores.empty) failedSave := by
  intro h
  obtain ⟨hacked, hrow⟩ :
      0 ∈ (run (System.step (pingPipeline ["000001000"])) (System.boot Stores.empty)
        failedSave).db.acked ∧
      ¬ (run (System.step (pingPipeline ["000001000"])) (System.boot Stores.empty)
        failedSave).db.Covered (pingWatch.baselineKey pingSeries) (newYear + 1000) := by
    decide +kernel
  have hdecode : (pingPipeline ["000001000"]).decode 0 =
      some (pingSeries, pingAt (newYear + 1000)) := by
    decide +kernel
  have hwatch : pingWatch ∈ (pingPipeline ["000001000"]).worker.watches pingSeries.type := by
    show pingWatch ∈ tallyWorker.watches pingSeries.type
    rw [watches_pingSeries]
    exact List.mem_cons_self
  exact hrow (h.last 0 hacked pingSeries _ hdecode pingWatch hwatch)

end Cepheus.Argus
