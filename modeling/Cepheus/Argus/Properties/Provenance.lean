import Cepheus.Infra.Run
import Cepheus.Argus.Properties.Move

/-!
# Where items and monitors come from

* `Phase.held`, `Phase.taken` - what a worker has in hand, and what of it a monitor has still to
  fold
* `Goroutine.Provenance` - every item of a worker is a message of its series, and every monitor
  watches something that the registry has for the series
* `System.Next.workers` - what every worker has, after a move of one of them
-/

namespace Cepheus.Argus

open Infra

variable {V S : Type}

/-! ## What a worker has in hand -/

/-- The items that a worker has taken from its channel and not acknowledged. -/
def Phase.held : Phase V S → List Item
  | .plan _ => []
  | .select => []
  | .drain batch => batch
  | .fold point => point.batch
  | .insert point _ _ => point.batch
  | .apply point _ _ _ => point.batch
  | .ack todo => todo

/-- The items of the current batch that are still to be folded into the monitor at position `i`. -/
def FoldPoint.rowsOf (point : FoldPoint) (i : Nat) : List Item :=
  if i < point.index then [] else if i = point.index then point.rows else point.batch

/-- The items that a worker has taken from its channel and not folded into the monitor at
position `i`. -/
def Phase.taken (i : Nat) : Phase V S → List Item
  | .plan _ => []
  | .select => []
  | .drain batch => batch
  | .fold point => point.rowsOf i
  | .insert point _ _ => point.rowsOf i
  | .apply point _ _ _ => point.rowsOf i
  | .ack _ => []

/-- The pairs for which `plan` has not loaded a baseline yet. -/
def Phase.unplanned : Phase V S → List (Watch V S)
  | .plan todo => todo
  | _ => []

/-- All items of a worker. -/
def Goroutine.items (g : Goroutine V S) : List Item := g.phase.held ++ g.inbox

theorem Goroutine.mem_items_handed {g : Goroutine V S} {it it' : Item}
    (h : it' ∈ ({ g with inbox := g.inbox ++ [it] } : Goroutine V S).items) :
    it' ∈ g.items ∨ it' = it := by
  have hmem : it' ∈ g.items ++ [it] := by
    rw [items, List.append_assoc]
    exact h
  exact (List.mem_append.mp hmem).imp_right List.mem_singleton.mp

section Enter

variable (g : Goroutine V S) (batch : List Item) (i : Nat)

@[simp] theorem Goroutine.held_enter : (g.enter batch i).held = batch := by
  unfold enter
  cases g.monitors[i]? <;> rfl

@[simp] theorem Goroutine.unplanned_enter : (g.enter batch i).unplanned = [] := by
  unfold enter
  cases g.monitors[i]? <;> rfl

theorem Goroutine.enter_ne_plan (todo : List (Watch V S)) : g.enter batch i ≠ .plan todo := by
  unfold enter
  cases g.monitors[i]? <;> simp

/-- After the monitor `i` nothing of the batch is left for the monitors up to `i`. -/
theorem Goroutine.taken_enter {j : Nat} (hj : j < g.monitors.length) :
    (g.enter batch i).taken j = if j < i then [] else batch := by
  unfold enter
  cases hm : g.monitors[i]? with
  | none =>
    rw [List.getElem?_eq_none_iff] at hm
    rw [if_pos (lt_of_lt_of_le hj hm)]
    rfl
  | some m =>
    simp only [Phase.taken, FoldPoint.rowsOf]
    split
    · rfl
    · split <;> rfl

theorem Goroutine.taken_enter_subset (j : Nat) : (g.enter batch i).taken j ⊆ batch := by
  unfold enter
  cases g.monitors[i]? with
  | none => exact List.nil_subset _
  | some m =>
    simp only [Phase.taken, FoldPoint.rowsOf]
    split
    · exact List.nil_subset _
    · split <;> exact List.Subset.refl _

end Enter

section FoldItem

variable (g : Goroutine V S) (point : FoldPoint) (m : Monitor V S) (it : Item) (rows : List Item)

@[simp] theorem Goroutine.held_foldItem :
    (g.foldItem point m it rows).phase.held = point.batch := by
  unfold foldItem
  cases (m.foldSample it.sample).2 <;> rfl

@[simp] theorem Goroutine.unplanned_foldItem :
    (g.foldItem point m it rows).phase.unplanned = [] := by
  unfold foldItem
  cases (m.foldSample it.sample).2 <;> rfl

theorem Goroutine.taken_foldItem (i : Nat) :
    (g.foldItem point m it rows).phase.taken i = ({ point with rows } : FoldPoint).rowsOf i := by
  unfold foldItem
  cases (m.foldSample it.sample).2 <;> rfl

theorem Goroutine.foldItem_ne_plan (todo : List (Watch V S)) :
    (g.foldItem point m it rows).phase ≠ .plan todo := by
  unfold foldItem
  cases (m.foldSample it.sample).2 <;> simp

@[simp] theorem Goroutine.length_foldItem :
    (g.foldItem point m it rows).monitors.length = g.monitors.length :=
  List.length_set

/-- The monitor at `point` takes the sample, and the others stay as they are. -/
theorem Goroutine.getElem?_foldItem (hm : g.monitors[point.index]? = some m) (i : Nat) :
    (g.foldItem point m it rows).monitors[i]? =
      if i = point.index then some (m.foldSample it.sample).1 else g.monitors[i]? := by
  have hindex : point.index < g.monitors.length := (List.getElem?_eq_some_iff.mp hm).1
  show (g.monitors.set point.index (m.foldSample it.sample).1)[i]? = _
  by_cases hi : i = point.index
  · rw [if_pos hi, hi, List.getElem?_set_self hindex]
  · rw [if_neg hi, List.getElem?_set_ne (Ne.symm hi)]

end FoldItem

/-! ## The invariant -/

/-- The monitor watches what `watch` says about the series. -/
structure Monitor.Watches (m : Monitor V S) (series : DiscoveredSeries) (watch : Watch V S) :
    Prop where
  key : m.key = watch.key series
  extractor : m.extractor = watch.extractor
  detector : m.detector = watch.detector

theorem Watch.watches_resume (watch : Watch V S) (series : DiscoveredSeries)
    (baseline : Option (BaselineRow S)) : (watch.resume series baseline).Watches series watch :=
  ⟨rfl, rfl, rfl⟩

theorem Monitor.Watches.foldSample {m : Monitor V S} {series : DiscoveredSeries}
    {watch : Watch V S} (h : m.Watches series watch) (rs : RawSample) :
    (m.foldSample rs).1.Watches series watch :=
  ⟨by rw [foldSample_key, h.key], by rw [foldSample_extractor, h.extractor],
    by rw [foldSample_detector, h.detector]⟩

/-- The item is a message of the series that the stream has handed out. -/
structure Item.IsOf (p : Pipeline V S) (delivered : Finset MsgId) (series : DiscoveredSeries)
    (it : Item) : Prop where
  decode : p.decode it.msg = some (series, it.sample)
  delivered : it.msg ∈ delivered

/-- Everything that a worker has belongs to its series. -/
structure Goroutine.Provenance (p : Pipeline V S) (delivered : Finset MsgId)
    (series : DiscoveredSeries) (g : Goroutine V S) : Prop where
  items : ∀ it ∈ g.items, it.IsOf p delivered series
  taken : ∀ i, g.phase.taken i ⊆ g.phase.held
  unplanned : g.phase.unplanned ⊆ p.worker.watches series.type
  monitors : ∀ m ∈ g.monitors, ∃ watch ∈ p.worker.watches series.type, m.Watches series watch

/-! ## Moves of a worker -/

section Step

variable {p : Pipeline V S} {series : DiscoveredSeries} {g g' : Goroutine V S} {db db' : Stores S}
  {tick : Tick} {ev : Option (Event V S)} {halt : Option Halt}

/-- A worker gets new items from its channel only. -/
theorem Goroutine.Step.items_subset (hstep : g.Step p series db tick ev g' db' halt) :
    g'.items ⊆ g.items := by
  cases hstep with
  | idle | unloaded => exact List.Subset.refl _
  | folded hp _ _ =>
    unfold items
    rw [held_foldItem, hp]
    exact List.Subset.refl _
  | closed hp hi | saved hp _ _ _ | unsaved hp _ _ _ =>
    unfold items
    rw [held_enter, hp]
    exact List.Subset.refl _
  | planned _ hp | loaded hp _ | skipped hp _ | inserted hp _ | refused hp _ | applied hp _
  | finished hp =>
    unfold items
    rw [hp]
    exact List.Subset.refl _
  | received hp hi | drained hp hi =>
    unfold items
    rw [hp, hi]
    simp [Phase.held]
  | acked hp =>
    unfold items
    rw [hp]
    exact List.subset_cons_self _ _

/-- A worker has nothing to do with what the stream hands out. -/
theorem Goroutine.Step.delivered (hstep : g.Step p series db tick ev g' db' halt) :
    db'.delivered = db.delivered := by
  cases hstep with
  | saved _ _ _ _ => rw [saveBaseline_eq]
  | acked _ => split <;> rfl
  | _ => rfl

/-- A worker acknowledges what it has in hand, and only when it is done with the batch. -/
theorem Goroutine.Step.acked_cases (hstep : g.Step p series db tick ev g' db' halt) {id : MsgId}
    (hid : id ∈ db'.acked) :
    id ∈ db.acked ∨ ∃ it todo, g.phase = .ack (it :: todo) ∧ it.msg = id := by
  cases hstep with
  | saved _ _ _ _ =>
    rw [saveBaseline_eq] at hid
    exact .inl hid
  | @acked it todo arrives hp =>
    cases arrives with
    | false => exact .inl hid
    | true =>
      rcases Finset.mem_insert.mp hid with rfl | hid
      · exact .inr ⟨it, todo, hp, rfl⟩
      · exact .inl hid
  | _ => exact .inl hid

/-- A worker writes the baselines of its monitors, and no others. -/
theorem Goroutine.Step.row_cases (hstep : g.Step p series db tick ev g' db' halt) {r : RowKey}
    {row : BaselineRow S} (hrow : db'.baselines.lookup r = some row) :
    db.baselines.lookup r = some row ∨ ∃ m ∈ g.monitors, r = m.key.rowKey ∧
      m.state = some row.state ∧ row.lastSeen = Time.micros m.cursor := by
  cases hstep with
  | @saved point m o _ _ hm _ =>
    unfold saveBaseline at hrow
    cases hs : m.state with
    | none =>
      rw [hs] at hrow
      exact .inl hrow
    | some state =>
      simp only [hs] at hrow
      split at hrow
      · rw [Table.lookup_insert_if] at hrow
        split at hrow
        case isTrue hr =>
          obtain rfl := Option.some.inj hrow
          exact .inr ⟨m, List.mem_of_getElem? hm, hr, hs, rfl⟩
        case isFalse => exact .inl hrow
      · exact .inl hrow
  | acked _ =>
    refine .inl (Eq.trans ?_ hrow)
    split <;> rfl
  | _ => exact .inl hrow

/-- What a move of a worker does to its monitors. -/
theorem Goroutine.Step.monitor (hstep : g.Step p series db tick ev g' db' halt)
    (htaken : ∀ i, g.phase.taken i ⊆ g.phase.held) {m' : Monitor V S} (hm : m' ∈ g'.monitors) :
    m' ∈ g.monitors ∨
    (∃ watch todo, g.phase = .plan (watch :: todo) ∧ tick = .load .ok ∧
      m' = watch.resume series (db.baselines.lookup (watch.baselineKey series))) ∨
    ∃ m ∈ g.monitors, ∃ it ∈ g.items, m' = (m.foldSample it.sample).1 := by
  cases hstep with
  | loaded hp hres =>
    rcases List.mem_append.mp hm with hm | hm
    · exact .inl hm
    · obtain rfl := List.mem_singleton.mp hm
      exact .inr (.inl ⟨_, _, hp, rfl, hres⟩)
  | @folded point m it rows hp hr hidx =>
    rcases List.mem_or_eq_of_mem_set hm with hm | rfl
    · exact .inl hm
    · have hit : it ∈ g.phase.taken point.index := by
        simp [hp, Phase.taken, FoldPoint.rowsOf, hr]
      exact .inr (.inr ⟨m, List.mem_of_getElem? hidx, it,
        List.mem_append_left _ (htaken _ hit), rfl⟩)
  | _ => exact .inl hm

/-- The part of a batch that is still to be folded is part of the batch. -/
theorem Goroutine.Step.taken_subset (hstep : g.Step p series db tick ev g' db' halt)
    (h : ∀ i, g.phase.taken i ⊆ g.phase.held) (i : Nat) : g'.phase.taken i ⊆ g'.phase.held := by
  have hi := h i
  cases hstep with
  | idle | unloaded => exact hi
  | closed _ _ | saved _ _ _ _ | unsaved _ _ _ _ =>
    rw [held_enter]
    exact g.taken_enter_subset _ _ i
  | inserted hp _ | refused hp _ | applied hp _ =>
    rw [hp] at hi
    exact hi
  | @folded point m it rows hp hr _ =>
    rw [hp] at hi
    rw [held_foldItem, taken_foldItem]
    -- only the rows of the current monitor have changed
    refine List.Subset.trans ?_ hi
    simp only [Phase.taken, FoldPoint.rowsOf, hr]
    split
    · exact List.Subset.refl _
    · split
      · exact List.subset_cons_self _ _
      · exact List.Subset.refl _
  | _ => first | exact List.nil_subset _ | exact List.Subset.refl _

/-- The pairs that are still to be loaded only get fewer. -/
theorem Goroutine.Step.unplanned_subset (hstep : g.Step p series db tick ev g' db' halt) :
    g'.phase.unplanned ⊆ g.phase.unplanned := by
  cases hstep with
  | idle | unloaded => exact List.Subset.refl _
  | loaded hp _ | skipped hp _ =>
    rw [hp]
    exact List.subset_cons_self _ _
  | closed _ _ | saved _ _ _ _ | unsaved _ _ _ _ =>
    rw [unplanned_enter]
    exact List.nil_subset _
  | folded _ _ _ =>
    rw [unplanned_foldItem]
    exact List.nil_subset _
  | _ => exact List.nil_subset _

/-- **What one move of a worker preserves.** -/
theorem Goroutine.Provenance.step {delivered : Finset MsgId} (h : g.Provenance p delivered series)
    (hstep : g.Step p series db tick ev g' db' halt) : g'.Provenance p delivered series := by
  refine ⟨fun it hit => h.items it (hstep.items_subset hit), hstep.taken_subset h.taken,
    List.Subset.trans hstep.unplanned_subset h.unplanned, ?_⟩
  intro m' hm'
  rcases hstep.monitor h.taken hm' with hm | ⟨watch, todo, hp, -, rfl⟩ | ⟨m, hm, it, -, rfl⟩
  · exact h.monitors m' hm
  · have hw : watch ∈ g.phase.unplanned := by
      rw [hp]
      exact List.mem_cons_self
    exact ⟨watch, h.unplanned hw, watch.watches_resume _ _⟩
  · obtain ⟨watch, hw, hmw⟩ := h.monitors m hm
    exact ⟨watch, hw, hmw.foldSample _⟩

end Step

/-! ## The workers of the service -/

/-- Every worker has `P`. -/
def System.Workers (P : DiscoveredSeries → Goroutine V S → Prop) (s : System V S) : Prop :=
  ∀ series g, s.routes.lookup series = some g → P series g

theorem System.workers_boot (P : DiscoveredSeries → Goroutine V S → Prop) (db : Stores S) :
    (System.boot db).Workers P := by
  intro series g hg
  cases hg

/-- **What every worker has, after a move.** `P` is what they have before, and `Q` afterwards. -/
theorem System.Next.workers {p : Pipeline V S} {s s' : System V S} {move : Move}
    {ev : Option (Event V S)} {P Q : DiscoveredSeries → Goroutine V S → Prop}
    (hnext : s.Next p move ev s') (h : s.Workers P) (hframe : ∀ series g, P series g → Q series g)
    (hstart : ∀ series, Q series (p.start series))
    (hsent : ∀ series it g, s.sending = some (series, it) → P series g →
      Q series { g with inbox := g.inbox ++ [it] })
    (hwork : ∀ series tick g g' halt, move = .work series tick →
      s.routes.lookup series = some g → g.Step p series s.db tick ev g' s'.db halt →
      (¬ ∃ x ∈ halt, x.Fatal) → P series g → Q series g') :
    s'.Workers Q := by
  intro series g hg
  cases hnext with
  | idle | fetched _ | terminated _ _ _ | swept _ _ => exact hframe _ _ (h series g hg)
  | @dispatched id rest series' sample _ _ _ =>
    rw [lookup_started] at hg
    by_cases he : series = series'
    · subst he
      rw [if_pos rfl] at hg
      cases hl : s.routes.lookup series with
      | none =>
        rw [hl] at hg
        obtain rfl := Option.some.inj hg
        exact hstart series
      | some g₀ =>
        rw [hl] at hg
        obtain rfl := Option.some.inj hg
        exact hframe _ _ (h series g₀ hl)
    · rw [if_neg he] at hg
      exact hframe _ _ (h series g hg)
  | @sent series' it g₀ hs hg₀ _ =>
    rw [Table.lookup_insert_if] at hg
    by_cases he : series = series'
    · subst he
      rw [if_pos rfl] at hg
      obtain rfl := Option.some.inj hg
      exact hsent series it g₀ hs (h series g₀ hg₀)
    · rw [if_neg he] at hg
      exact hframe _ _ (h series g hg)
  | @worked series' tick _ g₀ g' db halt hg₀ hstep hh =>
    rw [Table.lookup_insert_if] at hg
    by_cases he : series = series'
    · subst he
      rw [if_pos rfl] at hg
      obtain rfl := Option.some.inj hg
      exact hwork series tick g₀ g' halt rfl hg₀ hstep hh (h series g₀ hg₀)
    · rw [if_neg he] at hg
      exact hframe _ _ (h series g hg)

/-- What a worker acknowledges is a message of its series. -/
theorem Goroutine.Provenance.ack {p : Pipeline V S} {delivered : Finset MsgId}
    {series : DiscoveredSeries} {g : Goroutine V S} (h : g.Provenance p delivered series)
    {it : Item} {todo : List Item} (hp : g.phase = .ack (it :: todo)) :
    it.IsOf p delivered series := by
  refine h.items it (List.mem_append_left _ ?_)
  rw [hp]
  exact List.mem_cons_self

/-- Everything in the process belongs where it is. -/
structure System.Provenance (p : Pipeline V S) (s : System V S) : Prop where
  fetched : ∀ id ∈ s.fetched, id ∈ s.db.delivered
  sending : ∀ x ∈ s.sending, x.2.IsOf p s.db.delivered x.1
  workers : s.Workers (Goroutine.Provenance p s.db.delivered)

theorem System.provenance_boot (p : Pipeline V S) (db : Stores S) :
    (System.boot db : System V S).Provenance p :=
  ⟨fun _ h => absurd h List.not_mem_nil, fun _ h => absurd h (Option.not_mem_none _),
    workers_boot _ _⟩

theorem Pipeline.provenance_start (p : Pipeline V S) (delivered : Finset MsgId)
    (series : DiscoveredSeries) : (p.start series).Provenance p delivered series :=
  ⟨fun _ h => absurd h List.not_mem_nil, fun _ => List.nil_subset _, List.Subset.refl _,
    fun _ h => absurd h List.not_mem_nil⟩

/-- The stream does not take back what it has handed out. -/
theorem Goroutine.Provenance.mono {p : Pipeline V S} {delivered delivered' : Finset MsgId}
    {series : DiscoveredSeries} {g : Goroutine V S} (h : g.Provenance p delivered series)
    (hsub : delivered ⊆ delivered') : g.Provenance p delivered' series :=
  ⟨fun it hit => ⟨(h.items it hit).decode, hsub (h.items it hit).delivered⟩, h.taken, h.unplanned,
    h.monitors⟩

/-- The router hands a message of the series over. -/
theorem Goroutine.Provenance.handed {p : Pipeline V S} {delivered : Finset MsgId}
    {series : DiscoveredSeries} {g : Goroutine V S} (h : g.Provenance p delivered series)
    {it : Item} (hit : it.IsOf p delivered series) :
    ({ g with inbox := g.inbox ++ [it] } : Goroutine V S).Provenance p delivered series := by
  refine ⟨?_, h.taken, h.unplanned, h.monitors⟩
  intro it' hit'
  rcases mem_items_handed hit' with hmem | rfl
  · exact h.items it' hmem
  · exact hit

theorem System.Next.delivered_subset {p : Pipeline V S} {s s' : System V S} {move : Move}
    {ev : Option (Event V S)} (hnext : s.Next p move ev s') :
    s.db.delivered ⊆ s'.db.delivered := by
  cases hnext with
  | fetched _ => exact Finset.subset_insert _ _
  | worked _ hstep _ => exact hstep.delivered.symm.subset
  | _ => exact Finset.Subset.refl _

/-- Messages are acknowledged by workers, when they are done with a batch. -/
theorem System.Next.acked_cases {p : Pipeline V S} {s s' : System V S} {move : Move}
    {ev : Option (Event V S)} (hnext : s.Next p move ev s') {id : MsgId}
    (hid : id ∈ s'.db.acked) :
    id ∈ s.db.acked ∨ ∃ series g it todo, s.routes.lookup series = some g ∧
      g.phase = .ack (it :: todo) ∧ it.msg = id := by
  cases hnext with
  | worked hg hstep _ =>
    rcases hstep.acked_cases hid with hid | ⟨it, todo, hp, he⟩
    · exact .inl hid
    · exact .inr ⟨_, _, it, todo, hg, hp, he⟩
  | _ => exact .inl hid

/-- **What one move of the service preserves.** -/
theorem System.Provenance.next {p : Pipeline V S} {s s' : System V S} {move : Move}
    {ev : Option (Event V S)} (h : s.Provenance p) (hnext : s.Next p move ev s') :
    s'.Provenance p := by
  have hsub := hnext.delivered_subset
  refine ⟨?_, ?_, ?_⟩
  · intro id hid
    cases hnext with
    | fetched _ =>
      rcases List.mem_append.mp hid with hid | hid
      · exact Finset.mem_insert_of_mem (h.fetched id hid)
      · obtain rfl := List.mem_singleton.mp hid
        exact Finset.mem_insert_self _ _
    | terminated _ hf _ | dispatched _ hf _ =>
      refine h.fetched id ?_
      rw [hf]
      exact List.mem_cons_of_mem _ hid
    | _ => exact hsub (h.fetched id hid)
  · intro x hx
    cases hnext with
    | @dispatched id rest series sample _ hf hd =>
      obtain rfl := Option.mem_some_iff.mp hx
      refine ⟨hd, h.fetched id ?_⟩
      rw [hf]
      exact List.mem_cons_self
    | sent _ _ _ => cases hx
    | _ => exact ⟨(h.sending x hx).decode, hsub (h.sending x hx).delivered⟩
  · refine hnext.workers h.workers (fun _ _ hg => hg.mono hsub) (p.provenance_start _) ?_ ?_
    · intro series it g hs hg
      have hit := h.sending _ hs
      exact (hg.handed hit).mono hsub
    · intro series tick g g' halt _ _ hstep _ hg
      exact (hg.step hstep).mono hsub

/-- What is in memory when a process starts belongs where it is, as there is nothing. -/
theorem System.Provenance.step {p : Pipeline V S} {s : System V S} (h : s.Provenance p)
    (move : Move) : (s.step p move).Provenance p := by
  by_cases hd : s.Dies p move
  · rw [(s.step_death p move hd).eq]
    exact provenance_boot p _
  · exact h.next (s.step_next p move hd)

end Cepheus.Argus
