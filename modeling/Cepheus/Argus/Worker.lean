import Cepheus.Argus.Registry

/-!
# Monitors

`services/argus/worker.go`. A worker owns one series. For every metric of the series and every
detector of the metric it has a monitor: the state of the detector, and a cursor that says how far
the samples of the series have been folded into it. Both are saved to `argus_baselines`, and a
worker that starts resumes from there.

What happens between the statements of a worker, and how workers run side by side, is in
`Pipeline.lean`.
-/

namespace Cepheus.Argus

open Infra

/-- One measurement with its timestamp. -/
structure RawSample where
  ts : Time
  row : Metrics
deriving DecidableEq, Repr

/-- The columns of `argus_baselines` outside its primary key. The key has the columns of
`argus_policy_state`, and the worker always writes 0 into `n`. -/
structure BaselineRow (S : Type) where
  state : S
  lastSeen : Time
deriving DecidableEq, Repr

/-- One detector that watches one metric of a series. -/
structure Monitor (V S : Type) where
  key : SeriesKey
  extractor : Extractor V
  detector : Detector V S
  state : Option S
  cursor : Time

/-- The part of `Worker` that decides what it does. -/
structure Worker (V S : Type) where
  pr : PipelineRegistry V
  detectors : DetectorType → Option (Detector V S)

/-- What a monitor is made from: an extractor, and a detector that is registered. -/
structure Watch (V S : Type) where
  extractor : Extractor V
  detectorType : DetectorType
  detector : Detector V S

variable {V S : Type}

/-! ## plan -/

/-- The pairs that the two loops of `plan` get to, in order. -/
def Worker.watches (w : Worker V S) (type : SeriesType) : List (Watch V S) :=
  (w.pr.getExtractors type).flatMap fun extractor =>
    extractor.detectors.filterMap fun detectorType =>
      (w.detectors detectorType).map fun detector => { extractor, detectorType, detector }

/-- The key of the monitor. -/
def Watch.key (watch : Watch V S) (series : DiscoveredSeries) : SeriesKey :=
  series.monitorKey watch.extractor.metricName watch.detectorType

/-- The row that `GetBaseline` is asked for. -/
def Watch.baselineKey (watch : Watch V S) (series : DiscoveredSeries) : RowKey :=
  { serialId := series.serialId, srcIp := "", target := series.target, port := series.port
    metric := watch.extractor.metricName, detector := watch.detectorType }

/-- It is the row that `UpsertBaseline` writes. -/
@[simp] theorem Watch.rowKey_key (watch : Watch V S) (series : DiscoveredSeries) :
    (watch.key series).rowKey = watch.baselineKey series := rfl

/-- A monitor that resumes from its baseline. Without one it starts from nothing, and its cursor
is the zero instant. -/
def Watch.resume (watch : Watch V S) (series : DiscoveredSeries)
    (baseline : Option (BaselineRow S)) : Monitor V S :=
  { key := watch.key series, extractor := watch.extractor, detector := watch.detector
    state := baseline.map BaselineRow.state
    cursor := (baseline.map BaselineRow.lastSeen).getD 0 }

/-- `plan`. The answer to each of its reads is an error (`none`), `pgx.ErrNoRows` (`some none`), or
a baseline. -/
def Worker.plan (w : Worker V S) (series : DiscoveredSeries)
    (answers : Nat → Option (Option (BaselineRow S))) : List (Monitor V S) :=
  (w.watches series.type).zipIdx.filterMap fun (watch, i) => (answers i).map (watch.resume series)

theorem Worker.mem_plan {w : Worker V S} {series : DiscoveredSeries}
    {answers : Nat → Option (Option (BaselineRow S))} {m : Monitor V S}
    (h : m ∈ w.plan series answers) :
    ∃ watch ∈ w.watches series.type, ∃ baseline, m = watch.resume series baseline := by
  obtain ⟨⟨watch, i⟩, hmem, hm⟩ := List.mem_filterMap.mp h
  obtain ⟨baseline, -, rfl⟩ := Option.map_eq_some_iff.mp hm
  exact ⟨watch, List.fst_mem_of_mem_zipIdx hmem, baseline, rfl⟩

/-- When no baseline exists yet, every pair gets a monitor. -/
theorem Worker.mem_plan_none {w : Worker V S} {series : DiscoveredSeries} {watch : Watch V S}
    (h : watch ∈ w.watches series.type) :
    watch.resume series none ∈ w.plan series fun _ => some none := by
  obtain ⟨i, hi⟩ := List.mem_iff_getElem?.mp h
  exact List.mem_filterMap.mpr ⟨(watch, i), List.mem_zipIdx_iff_getElem?.mpr hi, rfl⟩

/-! ## fold -/

/-- One round of the loop of `fold`, and the finding it reports. -/
def Monitor.foldSample (m : Monitor V S) (rs : RawSample) : Monitor V S × Option Finding :=
  if m.cursor < rs.ts then
    match m.extractor.extract rs.row with
    | .error _ => (m, none)
    | .ok value =>
      match m.detector.step m.state rs.ts value with
      | .error _ => (m, none)
      | .ok (next, finding) => ({ m with state := some next, cursor := rs.ts }, finding)
  else (m, none)

/-- One round of the loop, with the list of what has been reported so far. -/
def Monitor.absorb (acc : Monitor V S × List Finding) (rs : RawSample) :
    Monitor V S × List Finding :=
  ((acc.1.foldSample rs).1, acc.2 ++ (acc.1.foldSample rs).2.toList)

/-- The loop of `fold`: the monitor afterwards, and the findings it has reported, in order. -/
def Monitor.fold (m : Monitor V S) (rows : List RawSample) : Monitor V S × List Finding :=
  rows.foldl Monitor.absorb (m, [])

/-- What `process` does to a monitor, one batch after the other. -/
def Monitor.process (m : Monitor V S) (batches : List (List RawSample)) :
    Monitor V S × List Finding :=
  batches.foldl (fun acc rows => ((acc.1.fold rows).1, acc.2 ++ (acc.1.fold rows).2)) (m, [])

/-- The new state and the finding, if the sample gets through the extractor and the detector. -/
def stepSample (extractor : Extractor V) (detector : Detector V S) (state : Option S)
    (rs : RawSample) : Option (S × Option Finding) :=
  match extractor.extract rs.row with
  | .error _ => none
  | .ok value => (detector.step state rs.ts value).toOption

/-- What the monitor makes of a sample in the state `state`, whatever its cursor is. -/
def Monitor.stepSample (m : Monitor V S) (state : Option S) (rs : RawSample) :
    Option (S × Option Finding) :=
  Argus.stepSample m.extractor m.detector state rs

/-- A round of the loop folds a sample that is newer than the cursor, if it gets through. -/
theorem Monitor.foldSample_eq (m : Monitor V S) (rs : RawSample) :
    m.foldSample rs =
      if m.cursor < rs.ts then
        match m.stepSample m.state rs with
        | none => (m, none)
        | some (next, finding) => ({ m with state := some next, cursor := rs.ts }, finding)
      else (m, none) := by
  unfold foldSample Monitor.stepSample Argus.stepSample
  cases m.extractor.extract rs.row with
  | error e => rfl
  | ok value =>
    simp only
    cases m.detector.step m.state rs.ts value <;> rfl

theorem Monitor.foldSample_cases (m : Monitor V S) (rs : RawSample) :
    (∃ next finding, m.cursor < rs.ts ∧ m.stepSample m.state rs = some (next, finding) ∧
      m.foldSample rs = ({ m with state := some next, cursor := rs.ts }, finding)) ∨
    ((m.cursor < rs.ts → m.stepSample m.state rs = none) ∧ m.foldSample rs = (m, none)) := by
  rw [foldSample_eq]
  by_cases hlt : m.cursor < rs.ts
  · rw [if_pos hlt]
    cases hs : m.stepSample m.state rs with
    | none => exact .inr ⟨fun _ => rfl, rfl⟩
    | some r => exact .inl ⟨r.1, r.2, hlt, rfl, rfl⟩
  · rw [if_neg hlt]
    exact .inr ⟨fun h => absurd h hlt, rfl⟩

/-! ## What stays -/

@[simp] theorem Monitor.foldSample_key (m : Monitor V S) (rs : RawSample) :
    (m.foldSample rs).1.key = m.key := by
  rcases m.foldSample_cases rs with ⟨_, _, _, _, h⟩ | ⟨_, h⟩ <;> rw [h]

@[simp] theorem Monitor.foldSample_extractor (m : Monitor V S) (rs : RawSample) :
    (m.foldSample rs).1.extractor = m.extractor := by
  rcases m.foldSample_cases rs with ⟨_, _, _, _, h⟩ | ⟨_, h⟩ <;> rw [h]

@[simp] theorem Monitor.foldSample_detector (m : Monitor V S) (rs : RawSample) :
    (m.foldSample rs).1.detector = m.detector := by
  rcases m.foldSample_cases rs with ⟨_, _, _, _, h⟩ | ⟨_, h⟩ <;> rw [h]

/-- The cursor only moves forward. -/
theorem Monitor.cursor_le_foldSample (m : Monitor V S) (rs : RawSample) :
    m.cursor ≤ (m.foldSample rs).1.cursor := by
  rcases m.foldSample_cases rs with ⟨next, finding, hlt, _, h⟩ | ⟨_, h⟩
  · rw [h]
    exact le_of_lt hlt
  · rw [h]

/-- Findings that were reported earlier only stand in front. -/
theorem Monitor.foldl_absorb (rows : List RawSample) :
    ∀ (m : Monitor V S) (found : List Finding),
      rows.foldl Monitor.absorb (m, found) = ((m.fold rows).1, found ++ (m.fold rows).2) := by
  induction rows with
  | nil =>
    intro m found
    simp [fold]
  | cons rs rows ih =>
    intro m found
    have hcons : m.fold (rs :: rows) = rows.foldl absorb (absorb (m, []) rs) := rfl
    rw [hcons, List.foldl_cons, absorb, absorb, ih, ih]
    simp [List.append_assoc]

@[simp] theorem Monitor.fold_nil (m : Monitor V S) : m.fold [] = (m, []) := rfl

theorem Monitor.fold_cons (m : Monitor V S) (rs : RawSample) (rows : List RawSample) :
    m.fold (rs :: rows) =
      (((m.foldSample rs).1.fold rows).1,
        (m.foldSample rs).2.toList ++ ((m.foldSample rs).1.fold rows).2) :=
  foldl_absorb rows _ _

/-- The batches of a worker make no difference to its monitors. -/
theorem Monitor.process_eq_fold (m : Monitor V S) (batches : List (List RawSample)) :
    m.process batches = m.fold batches.flatten := by
  suffices h : ∀ (batches : List (List RawSample)) (acc : Monitor V S × List Finding),
      batches.foldl (fun acc rows => ((acc.1.fold rows).1, acc.2 ++ (acc.1.fold rows).2)) acc =
        batches.flatten.foldl Monitor.absorb acc from h batches (m, [])
  intro batches
  induction batches with
  | nil =>
    intro acc
    rfl
  | cons rows batches ih =>
    intro acc
    rw [List.foldl_cons, List.flatten_cons, List.foldl_append, ih, ← foldl_absorb rows acc.1 acc.2]

/-! ## A small worker -/

/-- A detector that counts its samples, and has something to report about each. -/
def tally : Detector V Nat where
  step state ts _ := .ok (state.getD 0 + 1, some { ts, value := 0, severity := 6 })

/-- A worker with the default registry, on which only the detector of round trips is registered. -/
def tallyWorker : Worker Extracted Nat :=
  { pr := createDefaultRegistry, detectors := fun d => if d = .ewma then some tally else none }

/-- The pings of agent "a". -/
def pingSeries : DiscoveredSeries :=
  { type := .ping, serialId := "a", target := "10.0.0.1", port := 0, src := "" }

/-- What `tallyWorker` watches about pings. -/
def pingWatch : Watch Extracted Nat :=
  { extractor :=
      { metricName := "rtt_p95_ns", extract := extractPing fun m => .float m.rttP95Ns
        detectors := [.ewma] }
    detectorType := .ewma, detector := tally }

/-- A measurement of pings at `ts`. -/
def pingAt (ts : Time) : RawSample :=
  { ts, row := .ping { rttP95Ns := 1000000, sent := 10, received := 10 } }

theorem watches_pingSeries : tallyWorker.watches pingSeries.type = [pingWatch] := rfl

theorem detector_of_mem_watches {type : SeriesType} {watch : Watch Extracted Nat}
    (h : watch ∈ tallyWorker.watches type) : watch.detector = tally := by
  unfold Worker.watches at h
  obtain ⟨extractor, _, h⟩ := List.mem_flatMap.mp h
  obtain ⟨detectorType, _, h⟩ := List.mem_filterMap.mp h
  obtain ⟨detector, hd, rfl⟩ := Option.map_eq_some_iff.mp h
  have hd : (if detectorType = .ewma then some tally else none) = some detector := hd
  split at hd
  · exact (Option.some.inj hd).symm
  · cases hd

end Cepheus.Argus
