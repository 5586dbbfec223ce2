import Cepheus.Infra.Backlog
import Cepheus.Argus.Properties.Provenance

/-!
# The pipeline refines a sequential fold

Seen from one monitor, the goroutines and channels do not matter. It folds the samples of its own
series, in the order in which the router hands them over:

* `Goroutine.outstanding` - what a worker has been handed and has not folded into a monitor yet
* `Refines` - every monitor is the fold of all but what is outstanding
* `pipeline_refines` - when nothing is outstanding, it is the fold of everything
-/

namespace Cepheus.Argus

open Infra

variable {V S : Type}

/-! ## What has been seen -/

/-- The samples that were handed to the worker of a series, in order. -/
def handedTo (series : DiscoveredSeries) (log : List (Event V S)) : List RawSample :=
  log.filterMap fun
    | .handed s it => if s = series then some it.sample else none
    | _ => none

/-- The monitors of a series as they were loaded, in order. -/
def loadedBy (series : DiscoveredSeries) (log : List (Event V S)) : List (Monitor V S) :=
  log.filterMap fun
    | .loaded s m => if s = series then some m else none
    | _ => none

/-- The findings that the monitor at position `i` of a series has reported, in order. -/
def reportedBy (series : DiscoveredSeries) (i : Nat) (log : List (Event V S)) : List Finding :=
  log.filterMap fun
    | .reported s j finding => if s = series ∧ j = i then some finding else none
    | _ => none

/-- The messages that the router has dispatched, in order. -/
def dispatched (log : List (Event V S)) : List MsgId :=
  log.filterMap fun
    | .handed _ it => some it.msg
    | _ => none

/-- The samples of those of the messages that belong to the series. -/
def samplesOf (p : Pipeline V S) (series : DiscoveredSeries) (ids : List MsgId) :
    List RawSample :=
  ids.filterMap fun id =>
    match p.decode id with
    | some (s, sample) => if s = series then some sample else none
    | none => none

/-- What a worker has been handed are the messages of its series. -/
theorem handedTo_eq_samplesOf {p : Pipeline V S} {log : List (Event V S)}
    (h : ∀ series it, .handed series it ∈ log → p.decode it.msg = some (series, it.sample))
    (series : DiscoveredSeries) : handedTo series log = samplesOf p series (dispatched log) := by
  unfold handedTo samplesOf dispatched
  rw [List.filterMap_filterMap]
  refine List.filterMap_congr ?_
  intro e he
  cases e with
  | handed s it => simp only [Option.bind_some, h s it he]
  | _ => rfl

/-! ## What is outstanding -/

/-- The samples that have been handed to the worker and not folded into the monitor at
position `i`. -/
def Goroutine.outstanding (g : Goroutine V S) (i : Nat) : List RawSample :=
  (g.phase.taken i ++ g.inbox).map Item.sample

/-- The worker waits, and there is nothing in its channel. -/
def Goroutine.Idle (g : Goroutine V S) : Prop := g.phase = .select ∧ g.inbox = []

instance (g : Goroutine V S) : Decidable g.Idle :=
  match hp : g.phase with
  | .select => decidable_of_iff (g.inbox = []) (by simp [Goroutine.Idle, hp])
  | .plan _ => .isFalse (by simp [Goroutine.Idle, hp])
  | .drain _ => .isFalse (by simp [Goroutine.Idle, hp])
  | .fold _ => .isFalse (by simp [Goroutine.Idle, hp])
  | .insert .. => .isFalse (by simp [Goroutine.Idle, hp])
  | .apply .. => .isFalse (by simp [Goroutine.Idle, hp])
  | .ack _ => .isFalse (by simp [Goroutine.Idle, hp])

theorem Goroutine.Idle.outstanding {g : Goroutine V S} (h : g.Idle) (i : Nat) :
    g.outstanding i = [] := by
  simp [Goroutine.outstanding, h.1, h.2, Phase.taken]

/-- A monitor whose rows are all folded is done with the batch. -/
theorem Goroutine.outstanding_enter (g : Goroutine V S) {point : FoldPoint} {i : Nat}
    (hp : g.phase = .fold point) (hr : point.rows = []) (hi : i < g.monitors.length) :
    ({ g with phase := g.enter point.batch (point.index + 1) } : Goroutine V S).outstanding i =
      g.outstanding i := by
  show (((g.enter point.batch (point.index + 1)).taken i) ++ g.inbox).map Item.sample = _
  rw [g.taken_enter _ _ hi, outstanding, hp]
  simp only [Phase.taken, FoldPoint.rowsOf, hr]
  by_cases hlt : i < point.index
  · rw [if_pos hlt, if_pos (by omega)]
  · by_cases heq : i = point.index
    · rw [if_neg hlt, if_pos heq, if_pos (by omega)]
    · rw [if_neg hlt, if_neg heq, if_neg (by omega)]

/-! ## The invariant -/

/-- The worker is in step with what it has been handed. -/
structure Goroutine.InStep (series : DiscoveredSeries) (log : List (Event V S))
    (g : Goroutine V S) : Prop where
  length : (loadedBy series log).length = g.monitors.length
  /-- Nothing is taken from the channel before the monitors are there. -/
  planning : ∀ todo, g.phase = .plan todo → handedTo series log = g.inbox.map Item.sample
  unreported : ∀ i, g.monitors.length ≤ i → reportedBy series i log = []
  /-- Every monitor lags behind by what is outstanding. -/
  backlog : ∀ i m m₀, g.monitors[i]? = some m → (loadedBy series log)[i]? = some m₀ →
    Backlog Monitor.absorb (m₀, []) (handedTo series log) (g.outstanding i)
      (m, reportedBy series i log)

/-- The worker of a series, started or not. -/
def System.workerOf (p : Pipeline V S) (s : System V S) (series : DiscoveredSeries) :
    Goroutine V S :=
  (s.routes.lookup series).getD (p.start series)

/-- Every worker is in step with what it has been handed. -/
def Refines (p : Pipeline V S) (o : Observed V S) : Prop :=
  ∀ series, (o.sys.workerOf p series).InStep series o.log

section Log

variable {series : DiscoveredSeries} {log log' : List (Event V S)}

@[simp] theorem handedTo_append :
    handedTo series (log ++ log') = handedTo series log ++ handedTo series log' :=
  List.filterMap_append

@[simp] theorem loadedBy_append :
    loadedBy series (log ++ log') = loadedBy series log ++ loadedBy series log' :=
  List.filterMap_append

@[simp] theorem reportedBy_append {i : Nat} :
    reportedBy series i (log ++ log') = reportedBy series i log ++ reportedBy series i log' :=
  List.filterMap_append

end Log

/-- A worker that has not been started has nothing to fold. -/
theorem Pipeline.inStep_start (p : Pipeline V S) (series : DiscoveredSeries) :
    (p.start series).InStep series [] :=
  ⟨rfl, fun _ _ => rfl, fun _ _ => rfl, fun i m m₀ h => by simp [Pipeline.start] at h⟩

/-- Nothing of what is seen matters to the monitors of the series. -/
structure Irrelevant (series : DiscoveredSeries) (ev : Option (Event V S)) : Prop where
  handed : handedTo series ev.toList = []
  loaded : loadedBy series ev.toList = []
  reported : ∀ i, reportedBy series i ev.toList = []

theorem irrelevant_none (series : DiscoveredSeries) :
    Irrelevant series (none : Option (Event V S)) :=
  ⟨rfl, rfl, fun _ => rfl⟩

theorem irrelevant_applied (series series' : DiscoveredSeries) (findingId : Uuid) :
    Irrelevant series (some (.applied series' findingId) : Option (Event V S)) :=
  ⟨rfl, rfl, fun _ => rfl⟩

theorem irrelevant_of_ne {series : DiscoveredSeries} {ev : Option (Event V S)}
    (h : ∀ e ∈ ev, e.series ≠ series) : Irrelevant series ev := by
  cases ev with
  | none => exact irrelevant_none series
  | some e =>
    have hne : e.series ≠ series := h e rfl
    constructor <;> cases e <;> simp [handedTo, loadedBy, reportedBy] <;>
      exact fun he => absurd he hne

section InStep

variable {p : Pipeline V S} {series : DiscoveredSeries} {log : List (Event V S)}
  {g g' : Goroutine V S} {ev : Option (Event V S)}

/-- The worker stays in step with a log that says nothing new about it. -/
theorem Goroutine.InStep.unseen (h : g.InStep series log)
    (hev : Irrelevant series ev) : g.InStep series (log ++ ev.toList) := by
  refine ⟨?_, ?_, ?_, ?_⟩
  · rw [loadedBy_append, hev.loaded, List.append_nil]
    exact h.length
  · rw [handedTo_append, hev.handed, List.append_nil]
    exact h.planning
  · intro i
    rw [reportedBy_append, hev.reported, List.append_nil]
    exact h.unreported i
  · intro i m m₀ hi hi₀
    rw [loadedBy_append, hev.loaded, List.append_nil] at hi₀
    rw [handedTo_append, hev.handed, reportedBy_append, hev.reported, List.append_nil,
      List.append_nil]
    exact h.backlog i m m₀ hi hi₀

/-- A move that leaves the monitors and what is outstanding as they are. -/
theorem Goroutine.InStep.silent (h : g.InStep series log) (hm : g'.monitors = g.monitors)
    (ho : ∀ i, i < g.monitors.length → g'.outstanding i = g.outstanding i)
    (hp : ∀ todo, g'.phase = .plan todo → g'.inbox = g.inbox ∧ ∃ todo', g.phase = .plan todo') :
    g'.InStep series log := by
  refine ⟨by rw [h.length, hm], ?_, by rw [hm]; exact h.unreported, ?_⟩
  · intro todo hplan
    obtain ⟨hi, todo', hplan'⟩ := hp todo hplan
    rw [hi]
    exact h.planning todo' hplan'
  · intro i m m₀ hi hi₀
    rw [hm] at hi
    rw [ho i (List.getElem?_eq_some_iff.mp hi).1]
    exact h.backlog i m m₀ hi hi₀

/-- The router hands a sample over. -/
theorem Goroutine.InStep.handed (h : g.InStep series log) (it : Item) :
    ({ g with inbox := g.inbox ++ [it] } : Goroutine V S).InStep series
      (log ++ [.handed series it]) := by
  have hh : handedTo series [(.handed series it : Event V S)] = [it.sample] := by
    simp [handedTo]
  have hl : loadedBy series [(.handed series it : Event V S)] = [] := rfl
  have hr : ∀ i, reportedBy series i [(.handed series it : Event V S)] = [] := fun _ => rfl
  refine ⟨?_, ?_, ?_, ?_⟩
  · rw [loadedBy_append, hl, List.append_nil]
    exact h.length
  · intro todo hplan
    rw [handedTo_append, hh, h.planning todo hplan, List.map_append, List.map_singleton]
  · intro i hi
    rw [reportedBy_append, hr, List.append_nil]
    exact h.unreported i hi
  · intro i m m₀ hi hi₀
    rw [loadedBy_append, hl, List.append_nil] at hi₀
    rw [handedTo_append, hh, reportedBy_append, hr, List.append_nil]
    have hout : ({ g with inbox := g.inbox ++ [it] } : Goroutine V S).outstanding i =
        g.outstanding i ++ [it.sample] := by
      simp [outstanding]
    rw [hout]
    exact (h.backlog i m m₀ hi hi₀).push it.sample

/-- A monitor is loaded; everything that has been handed over is still to be folded into it. -/
theorem Goroutine.InStep.loaded (h : g.InStep series log) {todo todo' : List (Watch V S)}
    (hp : g.phase = .plan todo) (m : Monitor V S) :
    ({ g with monitors := g.monitors ++ [m], phase := .plan todo' } : Goroutine V S).InStep series
      (log ++ [.loaded series m]) := by
  have hh : handedTo series [(.loaded series m : Event V S)] = [] := rfl
  have hl : loadedBy series [(.loaded series m : Event V S)] = [m] := by simp [loadedBy]
  have hr : ∀ i, reportedBy series i [(.loaded series m : Event V S)] = [] := fun _ => rfl
  have hout : ∀ i, ({ g with monitors := g.monitors ++ [m], phase := .plan todo' } :
      Goroutine V S).outstanding i = g.inbox.map Item.sample := fun i => by
    simp [outstanding, Phase.taken]
  have hout' : ∀ i, g.outstanding i = g.inbox.map Item.sample := fun i => by
    simp [outstanding, Phase.taken, hp]
  refine ⟨?_, ?_, ?_, ?_⟩
  · rw [loadedBy_append, hl, List.length_append, List.length_append, h.length]
  · intro _ _
    rw [handedTo_append, hh, List.append_nil]
    exact h.planning todo hp
  · intro i hi
    rw [List.length_append] at hi
    rw [reportedBy_append, hr, List.append_nil]
    exact h.unreported i (le_trans (Nat.le_add_right _ _) hi)
  · intro i m' m₀ hi hi₀
    rw [loadedBy_append, hl] at hi₀
    rw [handedTo_append, hh, List.append_nil, reportedBy_append, hr, List.append_nil, hout]
    rcases lt_or_ge i g.monitors.length with hlt | hge
    · rw [List.getElem?_append_left hlt] at hi
      rw [List.getElem?_append_left (h.length ▸ hlt)] at hi₀
      rw [← hout' i]
      exact h.backlog i m' m₀ hi hi₀
    · -- the new monitor is at the end of both lists
      rw [List.getElem?_append_right hge] at hi
      rw [List.getElem?_append_right (h.length ▸ hge), h.length] at hi₀
      obtain rfl : m' = m₀ := Option.some.inj (hi.symm.trans hi₀)
      rw [h.unreported i hge, h.planning todo hp]
      obtain rfl : m = m' := by
        rcases hn : i - g.monitors.length with - | n
        · rw [hn] at hi
          exact Option.some.inj hi
        · rw [hn] at hi
          cases hi
      exact Backlog.start _ _ _

/-- One round of the loop of `fold`. -/
theorem Goroutine.InStep.folded (h : g.InStep series log) {point : FoldPoint} {m : Monitor V S}
    {it : Item} {rows : List Item} (hp : g.phase = .fold point) (hr : point.rows = it :: rows)
    (hm : g.monitors[point.index]? = some m) :
    (g.foldItem point m it rows).InStep series
      (log ++ ((m.foldSample it.sample).2.map (.reported series point.index)).toList) := by
  obtain ⟨finding, hf⟩ : ∃ finding, (m.foldSample it.sample).2 = finding := ⟨_, rfl⟩
  have hh : handedTo series (log ++ (finding.map (.reported series point.index)).toList) =
      handedTo series log := by
    cases finding <;> simp [handedTo]
  have hl : loadedBy series (log ++ (finding.map (.reported series point.index)).toList) =
      loadedBy series log := by
    cases finding <;> simp [loadedBy]
  have hrep : ∀ i, reportedBy series i
      (log ++ (finding.map (.reported series point.index)).toList) =
        reportedBy series i log ++ if i = point.index then finding.toList else [] := by
    intro i
    cases finding with
    | none => simp
    | some finding => by_cases hi : i = point.index <;> simp [reportedBy, hi, eq_comm]
  have hset := g.getElem?_foldItem point m it rows hm
  have hindex : point.index < g.monitors.length := (List.getElem?_eq_some_iff.mp hm).1
  rw [hf]
  refine ⟨?_, ?_, ?_, ?_⟩
  · rw [hl, length_foldItem]
    exact h.length
  · exact fun todo hplan => absurd hplan (g.foldItem_ne_plan _ _ _ _ _)
  · intro i hi
    rw [length_foldItem] at hi
    rw [hrep, h.unreported i hi, if_neg (by omega)]
    rfl
  · intro i m' m₀ hi hi₀
    rw [hl] at hi₀
    rw [hh, hrep]
    rw [hset] at hi
    simp only [outstanding, taken_foldItem]
    by_cases hindex' : i = point.index
    · -- this monitor takes the sample
      subst hindex'
      rw [if_pos rfl] at hi
      obtain rfl := Option.some.inj hi
      have hb := h.backlog point.index m m₀ hm hi₀
      have hout : g.outstanding point.index =
          it.sample :: (rows ++ g.inbox).map Item.sample := by
        simp [outstanding, hp, Phase.taken, FoldPoint.rowsOf, hr]
      rw [hout] at hb
      have hadv := hb.advance
      rw [Monitor.absorb, hf] at hadv
      simp only [FoldPoint.rowsOf, lt_irrefl, if_false, if_true]
      exact hadv
    · -- the others are not affected
      rw [if_neg hindex'] at hi
      rw [if_neg hindex', List.append_nil]
      have hb := h.backlog i m' m₀ hi hi₀
      have hout : g.outstanding i =
          ((({ point with rows } : FoldPoint).rowsOf i) ++ g.inbox).map Item.sample := by
        simp [outstanding, hp, Phase.taken, FoldPoint.rowsOf, hindex']
      rw [hout] at hb
      exact hb

/-- **What one move of a worker preserves.** -/
theorem Goroutine.InStep.step {db db' : Stores S} {tick : Tick} {halt : Option Halt}
    (h : g.InStep series log)
    (hstep : g.Step p series db tick ev g' db' halt) : g'.InStep series (log ++ ev.toList) := by
  have hnone := irrelevant_none (V := V) (S := S) series
  cases hstep with
  | loaded hp _ => exact h.loaded hp _
  | folded hp hr hm => exact h.folded hp hr hm
  | idle | unloaded => exact h.unseen hnone
  | planned _ hp | inserted hp _ | refused hp _ | acked hp | finished hp =>
    exact .unseen (h.silent rfl (by simp [outstanding, Phase.taken, hp]) (by simp)) hnone
  | skipped hp _ =>
    refine .unseen (h.silent rfl (by simp [outstanding, Phase.taken, hp]) ?_) hnone
    intro todo _
    exact ⟨rfl, _, hp⟩
  | received hp hi | drained hp hi =>
    exact .unseen (h.silent rfl (by simp [outstanding, Phase.taken, hp, hi]) (by simp)) hnone
  | closed hp hi =>
    refine .unseen (h.silent rfl ?_ (fun todo hq => absurd hq (g.enter_ne_plan _ _ _))) hnone
    intro i hlt
    rw [outstanding, outstanding, hp, g.taken_enter _ _ hlt, if_neg (Nat.not_lt_zero i)]
    rfl
  | applied hp _ =>
    refine .unseen (h.silent rfl (by simp [outstanding, Phase.taken, hp]) (by simp)) ?_
    split
    · exact irrelevant_applied _ _ _
    · exact hnone
  | saved hp hr _ _ | unsaved hp hr _ _ =>
    refine .unseen (h.silent rfl ?_ (fun todo hq => absurd hq (g.enter_ne_plan _ _ _))) hnone
    intro i hlt
    exact g.outstanding_enter hp hr hlt

end InStep

/-! ## Runs -/

theorem System.workerOf_of_lookup {p : Pipeline V S} {s : System V S} {series : DiscoveredSeries}
    {g : Goroutine V S} (h : s.routes.lookup series = some g) : s.workerOf p series = g := by
  rw [workerOf, h]
  rfl

/-- One worker moves, and what is observed is of its series: the others see nothing of it. -/
theorem Refines.moved {p : Pipeline V S} {sys sys' : System V S} {log : List (Event V S)}
    (h : Refines p ⟨sys, log⟩) {series' : DiscoveredSeries} {g g' : Goroutine V S}
    {ev : Option (Event V S)} (hg : sys.routes.lookup series' = some g)
    (hroutes : sys'.routes = sys.routes.insert series' g')
    (hev : ∀ e ∈ ev, e.series = series')
    (hstep : g.InStep series' log → g'.InStep series' (log ++ ev.toList))
    (series : DiscoveredSeries) : (sys'.workerOf p series).InStep series (log ++ ev.toList) := by
  unfold System.workerOf
  rw [hroutes, Table.lookup_insert_if]
  by_cases he : series = series'
  · rw [if_pos he, he]
    have hg' := h series'
    rw [System.workerOf_of_lookup hg] at hg'
    exact hstep hg'
  · rw [if_neg he]
    refine (h series).unseen (irrelevant_of_ne ?_)
    intro e hmem
    rw [hev e hmem]
    exact Ne.symm he

/-- **What one move of the service preserves.** -/
theorem Refines.step {p : Pipeline V S} {o : Observed V S} (h : Refines p o) (move : Move) :
    Refines p (o.step p move) := by
  intro series
  unfold Observed.step
  by_cases hd : o.sys.Dies p move
  · -- a new process has been handed nothing
    rw [if_pos hd]
    have he := (o.sys.step_death p move hd).eq
    have hw : (o.sys.step p move).workerOf p series = p.start series := by
      rw [he]
      rfl
    show ((o.sys.step p move).workerOf p series).InStep series []
    rw [hw]
    exact p.inStep_start series
  · rw [if_neg hd]
    obtain ⟨sys, log⟩ := o
    have hnext := sys.step_next p move hd
    revert hnext
    show sys.Next p move (sys.observe p move) (sys.step p move) →
      ((sys.step p move).workerOf p series).InStep series (log ++ (sys.observe p move).toList)
    generalize sys.step p move = sys', sys.observe p move = ev
    intro hnext
    have hs := h series
    cases hnext with
    | idle | fetched _ | terminated _ _ _ | swept _ _ =>
      rw [Option.toList_none, List.append_nil]
      exact hs
    | @dispatched id rest series' sample _ _ _ =>
      -- a worker that is started now was as good as started before
      rw [Option.toList_none, List.append_nil]
      unfold System.workerOf
      rw [lookup_started]
      by_cases he : series = series'
      · rw [if_pos he, he]
        exact h series'
      · rw [if_neg he]
        exact hs
    | @sent series' it g _ hg _ =>
      refine h.moved hg rfl ?_ ?_ series
      · rintro e ⟨⟩
        rfl
      · exact fun hg' => hg'.handed it
    | @worked series' tick ev g g' db halt hg hstep _ =>
      exact h.moved hg rfl hstep.event_series (fun hg' => hg'.step hstep) series

/-- What the router hands over is the content of the message. -/
structure Observed.Decoded (p : Pipeline V S) (o : Observed V S) : Prop where
  sys : o.sys.Provenance p
  log : ∀ series it, .handed series it ∈ o.log → p.decode it.msg = some (series, it.sample)

theorem Observed.Decoded.step {p : Pipeline V S} {o : Observed V S} (h : o.Decoded p)
    (move : Move) : (o.step p move).Decoded p := by
  refine ⟨h.sys.step move, ?_⟩
  intro series it hit
  unfold Observed.step at hit
  by_cases hd : o.sys.Dies p move
  · simp [hd] at hit
  · simp only [hd, if_false, List.mem_append, Option.mem_toList] at hit
    rcases hit with hit | hit
    · exact h.log series it hit
    · exact (h.sys.sending _ ((o.sys.step_next p move hd).sending_of_handed hit)).decode

/-- A process that has just been started is in step. -/
theorem refines_boot (p : Pipeline V S) (db : Stores S) :
    Refines p { sys := System.boot db, log := [] } :=
  fun series => p.inStep_start series

theorem decoded_boot (p : Pipeline V S) (db : Stores S) :
    Observed.Decoded p { sys := System.boot db, log := [] } :=
  ⟨System.provenance_boot p db, fun _ _ h => absurd h List.not_mem_nil⟩

/--
**The pipeline refines a sequential fold.**

For every stream of messages, every interleaving of the router with the workers, and every way in
which a worker groups what is queued into batches: when a worker waits and nothing is in its
channel, each of its monitors, and the list of findings it has reported, are those of a left fold
of the loop of `fold` over the messages of its own series, in the order in which the router has
dispatched them, from the monitor as it was loaded.
-/
theorem pipeline_refines (p : Pipeline V S) (db : Stores S) (moves : List Move)
    {o : Observed V S} (ho : run (Observed.step p) { sys := System.boot db, log := [] } moves = o)
    {series : DiscoveredSeries} {g : Goroutine V S} (hg : o.sys.routes.lookup series = some g)
    (hidle : g.Idle) :
    (loadedBy series o.log).length = g.monitors.length ∧
      ∀ i m m₀, g.monitors[i]? = some m → (loadedBy series o.log)[i]? = some m₀ →
        (m, reportedBy series i o.log) = m₀.fold (samplesOf p series (dispatched o.log)) := by
  have href : Refines p o := by
    subst ho
    exact run_always (fun _ move h => h.step move) (refines_boot p db)
  have hdec : o.Decoded p := by
    subst ho
    exact run_always (fun _ move h => h.step move) (decoded_boot p db)
  have hstep := href series
  rw [System.workerOf_of_lookup hg] at hstep
  refine ⟨hstep.length, ?_⟩
  intro i m m₀ hi hi₀
  have hb := hstep.backlog i m m₀ hi hi₀
  rw [hidle.outstanding i, handedTo_eq_samplesOf hdec.log] at hb
  exact hb.finished

/-- The worker ends up idle, with two samples folded and two findings reported. -/
theorem pingMoves_refines :
    ∃ g ∈ (run (Observed.step (pingPipeline ["000001000", "000002000"]))
        { sys := System.boot Stores.empty, log := [] } pingMoves).sys.routes.lookup pingSeries,
      g.Idle ∧ g.monitors.map Monitor.state = [some 2] ∧
      (loadedBy pingSeries (run (Observed.step (pingPipeline ["000001000", "000002000"]))
        { sys := System.boot Stores.empty, log := [] } pingMoves).log).length =
          g.monitors.length := by
  obtain ⟨g, hg, hidle, hstate⟩ :
      ∃ g ∈ (run (Observed.step (pingPipeline ["000001000", "000002000"]))
        { sys := System.boot Stores.empty, log := [] } pingMoves).sys.routes.lookup pingSeries,
      g.Idle ∧ g.monitors.map Monitor.state = [some 2] := by
    decide +kernel
  exact ⟨g, hg, hidle, hstate, (pipeline_refines _ _ pingMoves rfl hg hidle).1⟩

end Cepheus.Argus
