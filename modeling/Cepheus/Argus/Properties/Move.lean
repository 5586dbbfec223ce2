import Cepheus.Argus.Pipeline

/-!
# All that a move can do

* `Goroutine.Step` - the ways through one move of a worker, one constructor each
* `System.Next`, `System.Death` - the ways through one move of the service, while the process goes
  on and when it ends
* `Goroutine.step_step`, `System.step_next`, `System.step_death` - there are no others

The invariants of the pipeline are proved by cases on these relations, and no proof after this
module looks into the step functions.
-/

namespace Cepheus.Argus

open Infra

variable {V S : Type}

/-! ## Moves of a worker -/

/-- The ways through one move of a worker: what is seen of it, and where it leads. -/
inductive Goroutine.Step (p : Pipeline V S) (series : DiscoveredSeries) (g : Goroutine V S)
    (db : Stores S) :
    Tick → Option (Event V S) → Goroutine V S → Stores S → Option Halt → Prop
  /-- The worker is somewhere else. -/
  | idle (tick : Tick) : g.Step p series db tick none g db none
  | planned (o : Outcome) (h : g.phase = .plan []) :
      g.Step p series db (.load o) none { g with phase := .select } db none
  | loaded {watch : Watch V S} {todo : List (Watch V S)} {m : Monitor V S}
      (h : g.phase = .plan (watch :: todo))
      (hm : m = watch.resume series (db.baselines.lookup (watch.baselineKey series))) :
      g.Step p series db (.load .ok) (some (.loaded series m))
        { g with monitors := g.monitors ++ [m], phase := .plan todo } db none
  /-- The baseline cannot be read, and the pair gets no monitor. -/
  | skipped {watch : Watch V S} {todo : List (Watch V S)} {o : Outcome}
      (h : g.phase = .plan (watch :: todo)) (ho : o = .failed ∨ o = .lost) :
      g.Step p series db (.load o) none { g with phase := .plan todo } db none
  | unloaded {watch : Watch V S} {todo : List (Watch V S)} (h : g.phase = .plan (watch :: todo)) :
      g.Step p series db (.load .crash) none g db (some .crash)
  | received {it : Item} {rest : List Item} (h : g.phase = .select) (hi : g.inbox = it :: rest) :
      g.Step p series db .receive none { g with inbox := rest, phase := .drain [it] } db none
  | drained {batch : List Item} {it : Item} {rest : List Item} (h : g.phase = .drain batch)
      (hi : g.inbox = it :: rest) :
      g.Step p series db .drain none { g with inbox := rest, phase := .drain (batch ++ [it]) } db
        none
  /-- The channel is empty, and the batch complete. -/
  | closed {batch : List Item} (h : g.phase = .drain batch) (hi : g.inbox = []) :
      g.Step p series db .drain none { g with phase := g.enter batch 0 } db none
  | folded {point : FoldPoint} {m : Monitor V S} {it : Item} {rows : List Item}
      (h : g.phase = .fold point) (hr : point.rows = it :: rows)
      (hm : g.monitors[point.index]? = some m) :
      g.Step p series db .fold ((m.foldSample it.sample).2.map (.reported series point.index))
        (g.foldItem point m it rows) db none
  | inserted {point : FoldPoint} {key : SeriesKey} {finding : Finding} {id : Uuid} {o : Outcome}
      {world : World} {findingId : Uuid} (h : g.phase = .insert point key finding)
      (hw : insertFinding o id key finding db.world = (world, .ok findingId)) :
      g.Step p series db (.insert id o) none
        { g with phase := .apply point key finding findingId } { db with world } none
  | refused {point : FoldPoint} {key : SeriesKey} {finding : Finding} {id : Uuid} {o : Outcome}
      {world : World} {halt : Halt} (h : g.phase = .insert point key finding)
      (hw : insertFinding o id key finding db.world = (world, .error halt)) :
      g.Step p series db (.insert id o) none { g with phase := .fold point } { db with world }
        (some halt)
  | applied {point : FoldPoint} {key : SeriesKey} {finding : Finding} {findingId : Uuid}
      {env : ApplyEnv} {world : World} {halt : Option Halt}
      (h : g.phase = .apply point key finding findingId)
      (hw : applyFinding p.config env key finding findingId db.world = (world, halt)) :
      g.Step p series db (.apply env)
        (if world.TakenIn key findingId then some (.applied series findingId) else none)
        { g with phase := .fold point } { db with world } halt
  /-- The monitor has moved on, and its baseline is saved. -/
  | saved {point : FoldPoint} {m : Monitor V S} {o : Outcome} (h : g.phase = .fold point)
      (hr : point.rows = []) (hm : g.monitors[point.index]? = some m)
      (hlt : point.start < m.cursor) :
      g.Step p series db (.save o) none
        { g with phase := g.enter point.batch (point.index + 1) }
        (saveBaseline o m db) (if o = .crash then some .crash else none)
  | unsaved {point : FoldPoint} {m : Monitor V S} {o : Outcome} (h : g.phase = .fold point)
      (hr : point.rows = []) (hm : g.monitors[point.index]? = some m)
      (hle : m.cursor ≤ point.start) :
      g.Step p series db (.save o) none
        { g with phase := g.enter point.batch (point.index + 1) } db none
  | acked {it : Item} {todo : List Item} {arrives : Bool} (h : g.phase = .ack (it :: todo)) :
      g.Step p series db (.ack arrives) none { g with phase := .ack todo }
        (if arrives then { db with acked := insert it.msg db.acked } else db) none
  | finished {arrives : Bool} (h : g.phase = .ack []) :
      g.Step p series db (.ack arrives) none { g with phase := .select } db none

theorem Goroutine.step_step (p : Pipeline V S) (series : DiscoveredSeries) (g : Goroutine V S)
    (db : Stores S) (tick : Tick) :
    g.Step p series db tick (g.observe p series db tick) (g.step p series db tick).1
      (g.step p series db tick).2.1 (g.step p series db tick).2.2 := by
  cases tick with
  | load o =>
    cases hp : g.phase with
    | plan todo =>
      cases todo with
      | nil => cases o <;> simp only [step, observe, hp] <;> exact .planned _ hp
      | cons watch todo =>
        cases o <;> simp only [step, observe, hp, load]
        · exact .loaded hp rfl
        · exact .skipped hp (.inl rfl)
        · exact .skipped hp (.inr rfl)
        · exact .unloaded hp
    | _ => cases o <;> simp only [step, observe, hp] <;> exact .idle _
  | receive =>
    cases hp : g.phase <;> cases hi : g.inbox <;> simp only [step, observe, hp, hi] <;>
      first | exact .idle _ | exact .received hp hi
  | drain =>
    cases hp : g.phase with
    | drain batch =>
      cases hi : g.inbox with
      | nil =>
        simp only [step, observe, hp, hi]
        rw [← hi]
        exact .closed hp hi
      | cons it rest =>
        simp only [step, observe, hp, hi]
        exact .drained hp hi
    | _ => simp only [step, observe, hp]; exact .idle _
  | fold =>
    cases hp : g.phase with
    | fold point =>
      cases hr : point.rows <;> cases hm : g.monitors[point.index]? <;>
        simp only [step, observe, hp, hr, hm] <;> first | exact .idle _ | exact .folded hp hr hm
    | _ => simp only [step, observe, hp]; exact .idle _
  | insert id o =>
    cases hp : g.phase with
    | insert point key finding =>
      rcases hw : insertFinding o id key finding db.world with ⟨world, r⟩
      cases r <;> simp only [step, observe, hp, hw]
      · exact .refused hp hw
      · exact .inserted hp hw
    | _ => simp only [step, observe, hp]; exact .idle _
  | apply env =>
    cases hp : g.phase with
    | apply point key finding findingId =>
      simp only [step, observe, hp]
      exact .applied hp rfl
    | _ => simp only [step, observe, hp]; exact .idle _
  | save o =>
    cases hp : g.phase with
    | fold point =>
      cases hr : point.rows <;> cases hm : g.monitors[point.index]? <;>
        simp only [step, observe, hp, hr, hm] <;> try exact .idle _
      split
      case isTrue hlt => exact .saved hp hr hm hlt
      case isFalse hlt => exact .unsaved hp hr hm (not_lt.mp hlt)
    | _ => simp only [step, observe, hp]; exact .idle _
  | ack arrives =>
    cases hp : g.phase with
    | ack todo =>
      cases todo <;> simp only [step, observe, hp]
      · exact .finished hp
      · exact .acked hp
    | _ => simp only [step, observe, hp]; exact .idle _

/-- What is seen of a worker is about its own series. -/
theorem Goroutine.Step.event_series {p : Pipeline V S} {series : DiscoveredSeries}
    {g g' : Goroutine V S} {db db' : Stores S} {tick : Tick} {ev : Option (Event V S)}
    {h : Option Halt} (hstep : g.Step p series db tick ev g' db' h) :
    ∀ e ∈ ev, e.series = series := by
  intro e he
  cases hstep with
  | loaded _ _ =>
    obtain rfl := Option.mem_some_iff.mp he
    rfl
  | folded _ _ _ =>
    obtain ⟨finding, -, rfl⟩ := Option.map_eq_some_iff.mp he
    rfl
  | applied _ _ =>
    split at he
    · obtain rfl := Option.mem_some_iff.mp he
      rfl
    · cases he
  | _ => cases he

/-- Only the router hands messages over. -/
theorem Goroutine.Step.ne_handed {p : Pipeline V S} {series : DiscoveredSeries}
    {g g' : Goroutine V S} {db db' : Stores S} {tick : Tick} {ev : Option (Event V S)}
    {h : Option Halt} (hstep : g.Step p series db tick ev g' db' h) (series' : DiscoveredSeries)
    (it : Item) : ev ≠ some (.handed series' it) := by
  cases hstep with
  | folded _ _ _ => simp
  | applied _ _ => split <;> simp
  | _ => simp

/-- A worker that dies has changed no more than what the engine works on. -/
theorem Goroutine.Step.of_fatal {p : Pipeline V S} {series : DiscoveredSeries}
    {g g' : Goroutine V S} {db db' : Stores S} {tick : Tick} {ev : Option (Event V S)}
    {h : Option Halt} (hstep : g.Step p series db tick ev g' db' h) (hh : ∃ x ∈ h, x.Fatal) :
    db' = { db with world := db'.world } := by
  cases hstep with
  | saved _ _ _ _ =>
    split at hh
    case isTrue ho =>
      subst ho
      unfold saveBaseline
      split
      · rfl
      · rw [if_neg (by simp [Outcome.Applies])]
    case isFalse => simp at hh
  | acked _ => simp at hh
  | _ => rfl

/-! ## Moves of the service -/

/-- The ways through one move of the service: what is seen of it, and where it leads. -/
inductive System.Next (p : Pipeline V S) (s : System V S) :
    Move → Option (Event V S) → System V S → Prop
  | idle (move : Move) : s.Next p move none s
  | fetched {id : MsgId} (h : id ∉ s.db.acked) :
      s.Next p (.fetch id) none
        { s with
          fetched := s.fetched ++ [id]
          db := { s.db with delivered := insert id s.db.delivered } }
  | terminated {id : MsgId} {rest : List MsgId} (hs : s.sending = none)
      (hf : s.fetched = id :: rest) (hd : p.decode id = none) :
      s.Next p .dispatch none { s with fetched := rest }
  | dispatched {id : MsgId} {rest : List MsgId} {series : DiscoveredSeries} {sample : RawSample}
      (hs : s.sending = none) (hf : s.fetched = id :: rest)
      (hd : p.decode id = some (series, sample)) :
      s.Next p .dispatch none
        { s with
          fetched := rest
          sending := some (series, { sample, msg := id })
          routes :=
            if series ∈ s.routes then s.routes else s.routes.insert series (p.start series) }
  | sent {series : DiscoveredSeries} {it : Item} {g : Goroutine V S}
      (hs : s.sending = some (series, it)) (hg : s.routes.lookup series = some g)
      (hl : g.inbox.length < inboxSize) :
      s.Next p .send (some (.handed series it))
        { s with
          sending := none
          routes := s.routes.insert series { g with inbox := g.inbox ++ [it] } }
  | worked {series : DiscoveredSeries} {tick : Tick} {ev : Option (Event V S)}
      {g g' : Goroutine V S} {db : Stores S} {h : Option Halt}
      (hg : s.routes.lookup series = some g)
      (hstep : g.Step p series s.db tick ev g' db h) (hh : ¬ ∃ x ∈ h, x.Fatal) :
      s.Next p (.work series tick) ev { s with routes := s.routes.insert series g', db }
  | swept {env : SweepEnv} {world : World} {h : Option Halt}
      (hw : Argus.sweep p.config env s.db.world = (world, h)) (hh : ¬ ∃ x ∈ h, x.Fatal) :
      s.Next p (.sweep env) none { s with db := { s.db with world } }

/-- The ways in which the process can end. -/
inductive System.Death (p : Pipeline V S) (s : System V S) :
    Move → Option (Event V S) → System V S → Prop
  /-- A worker brings it down. -/
  | worked {series : DiscoveredSeries} {tick : Tick} {ev : Option (Event V S)}
      {g g' : Goroutine V S} {db : Stores S} {h : Option Halt}
      (hg : s.routes.lookup series = some g)
      (hstep : g.Step p series s.db tick ev g' db h) (hh : ∃ x ∈ h, x.Fatal) :
      s.Death p (.work series tick) ev { s with db }.crash
  | swept {env : SweepEnv} {world : World} {h : Option Halt}
      (hw : Argus.sweep p.config env s.db.world = (world, h)) (hh : ∃ x ∈ h, x.Fatal) :
      s.Death p (.sweep env) none { s with db := { s.db with world } }.crash
  | crashed : s.Death p .crash none s.crash

theorem System.step_next (p : Pipeline V S) (s : System V S) (move : Move)
    (hd : ¬ s.Dies p move) : s.Next p move (s.observe p move) (s.step p move) := by
  cases move with
  | fetch id =>
    simp only [step, observe]
    split
    case isTrue => exact .idle _
    case isFalse hn => exact .fetched hn
  | dispatch =>
    cases hs : s.sending with
    | some x => simp only [step, observe, hs]; exact .idle _
    | none =>
      cases hf : s.fetched with
      | nil => simp only [step, observe, hs, hf]; exact .idle _
      | cons id rest =>
        simp only [step, observe, hs, hf, dispatch]
        cases hd : p.decode id with
        | none => simpa only [hs] using System.Next.terminated hs hf hd
        | some x => exact .dispatched hs hf hd
  | send =>
    cases hs : s.sending with
    | none => simp only [step, observe, hs]; exact .idle _
    | some x =>
      obtain ⟨series, it⟩ := x
      cases hg : s.routes.lookup series with
      | none => simp only [step, observe, hs, hg]; exact .idle _
      | some g =>
        simp only [step, observe, hs, hg]
        by_cases hl : g.inbox.length < inboxSize
        · rw [if_pos hl, if_pos hl]
          exact .sent hs hg hl
        · rw [if_neg hl, if_neg hl]
          exact .idle _
  | work series tick =>
    cases hg : s.routes.lookup series with
    | none => simp only [step, observe, hg]; exact .idle _
    | some g =>
      simp only [Dies, halt, hg, Option.bind_some] at hd
      simp only [step, observe, hg, settle, Option.bind_some]
      rw [if_neg hd]
      exact .worked hg (g.step_step p series s.db tick) hd
  | sweep env =>
    simp only [Dies, halt] at hd
    simp only [step, observe, settle]
    rw [if_neg hd]
    exact .swept rfl hd
  | crash => exact absurd ⟨.crash, rfl, trivial⟩ hd

theorem System.step_death (p : Pipeline V S) (s : System V S) (move : Move)
    (hd : s.Dies p move) : s.Death p move (s.observe p move) (s.step p move) := by
  cases move with
  | fetch id => simp [Dies, halt] at hd
  | dispatch => simp [Dies, halt] at hd
  | send => simp [Dies, halt] at hd
  | work series tick =>
    cases hg : s.routes.lookup series with
    | none => simp [Dies, halt, hg] at hd
    | some g =>
      simp only [Dies, halt, hg, Option.bind_some] at hd
      simp only [step, observe, hg, settle, Option.bind_some]
      rw [if_pos hd]
      exact .worked hg (g.step_step p series s.db tick) hd
  | sweep env =>
    simp only [Dies, halt] at hd
    simp only [step, observe, settle]
    rw [if_pos hd]
    exact .swept rfl hd
  | crash => exact .crashed

/-- What the router hands over is what it was sending. -/
theorem System.Next.sending_of_handed {p : Pipeline V S} {s s' : System V S} {move : Move}
    {ev : Option (Event V S)} (h : s.Next p move ev s') {series : DiscoveredSeries} {it : Item}
    (hev : ev = some (.handed series it)) : s.sending = some (series, it) := by
  cases h with
  | sent hs _ _ =>
    cases hev
    exact hs
  | worked _ hstep _ => exact absurd hev (hstep.ne_handed series it)
  | _ => cases hev

/-- When the process ends, its memory is gone; the baselines and the stream are as they were. -/
theorem System.Death.eq {p : Pipeline V S} {s s' : System V S} {move : Move}
    {ev : Option (Event V S)} (h : s.Death p move ev s') :
    s' = System.boot { s.db with world := s'.db.world } := by
  cases h with
  | worked _ hstep hh =>
    have he := hstep.of_fatal hh
    unfold System.crash
    rw [he]
    rfl
  | swept _ _ => rfl
  | crashed => rfl

/-- The worker of a series, after the router has looked for it. -/
theorem lookup_started (p : Pipeline V S) (routes : Table DiscoveredSeries (Goroutine V S))
    (series s : DiscoveredSeries) :
    (if series ∈ routes then routes else routes.insert series (p.start series)).lookup s =
      if s = series then some ((routes.lookup series).getD (p.start series))
      else routes.lookup s := by
  by_cases hm : series ∈ routes
  · obtain ⟨g, hg⟩ := Option.isSome_iff_exists.mp (Finmap.lookup_isSome.mpr hm)
    rw [if_pos hm]
    by_cases hs : s = series
    · rw [if_pos hs, hs, hg]
      rfl
    · rw [if_neg hs]
  · rw [if_neg hm, Table.lookup_insert_if, Finmap.lookup_eq_none.mpr hm]
    rfl

end Cepheus.Argus
