import Cepheus.Argus.Deployment
import Cepheus.Argus.Properties.BetaBinomial
import Cepheus.Argus.Properties.Provenance

/-!
# Findings and baselines of the deployed detectors

* `Unusual` - what a finding says about the sample that it was reported for
* `Baseline.Keeps` - what is known of a document that a detector has written
* `System.Kept` - no worker resumes from anything else, throughout every run
-/

namespace Cepheus.Argus

open Infra

variable {root : Root} {log10 : ℚ → ℚ}

/-! ## Findings -/

/-- What a detector says about a sample: the value is the one of the metric, and the severity is
within its bounds. -/
inductive Unusual (extractor : Extractor Extracted) (sample : RawSample) :
    DetectorType → ℚ → ℚ → Prop
  | ewma {value severity : ℚ} (hvalue : extractor.extract sample.row = .ok (.float value))
      (hlow : 4 ≤ severity) (hhigh : severity ≤ 12) : Unusual extractor sample .ewma value severity
  | betaB {loss : LossSample} {severity : ℚ}
      (hvalue : extractor.extract sample.row = .ok (.loss loss)) (hsent : 0 < loss.sent)
      (hlost : 0 < loss.lost) (hhigh : severity ≤ 12) :
      Unusual extractor sample .betaB (loss.lost / loss.sent) severity

theorem Ewma.step_finding {e : Ewma} {state : EwmaState} {ts : Time} {value : ℚ}
    {f : DetailedFinding EwmaFindingDetails} (h : (e.step state ts value).2 = some f) :
    f.finding.ts = ts ∧ f.finding.value = value ∧ e.config.threshold ≤ |e.z state value| ∧
      f.finding.severity = min 12 |e.z state value| := by
  by_cases hn : state.n = 0
  · simp [step, hn] at h
  · by_cases hc : e.config.warmup ≤ state.n ∧ e.config.threshold ≤ |e.z state value|
    · simp only [step, hn, hc, if_false, if_true, and_self, Option.some.injEq] at h
      subst h
      exact ⟨rfl, rfl, hc.2, rfl⟩
    · simp [step, hn, hc] at h

/-- A step on documents is a step on what they say. -/
theorem Detector.step_onDocuments {V S T : Type} {d : Detector V T} {unmarshal : S → T}
    {marshal : T → S} {state : Option S} {ts : Time} {value : V} {next : S}
    {finding : Option Finding}
    (h : (d.onDocuments unmarshal marshal).step state ts value = .ok (next, finding)) :
    ∃ t, d.step (state.map unmarshal) ts value = .ok (t, finding) ∧ next = marshal t := by
  simp only [onDocuments] at h
  cases hd : d.step (state.map unmarshal) ts value with
  | error e =>
    rw [hd] at h
    cases h
  | ok r =>
    rw [hd] at h
    obtain ⟨rfl, rfl⟩ := Prod.mk.inj (Except.ok.inj h)
    exact ⟨r.1, rfl, rfl⟩

/-- A sample that gets through is of the right kind, and one of the two detectors takes it. -/
inductive Deployed (root : Root) (log10 : ℚ → ℚ) (extractor : Extractor Extracted)
    (state : Option Baseline) (sample : RawSample) :
    DetectorType → Baseline → Option Finding → Prop
  | ewma {value : ℚ} (hvalue : extractor.extract sample.row = .ok (.float value)) :
      Deployed root log10 extractor state sample .ewma
        (.ewma ((deployedEwma root).step ((state.map Baseline.toEwma).getD .zero) sample.ts
          value).1)
        (((deployedEwma root).step ((state.map Baseline.toEwma).getD .zero) sample.ts value).2.map
          DetailedFinding.finding)
  | betaB {loss : LossSample} (hvalue : extractor.extract sample.row = .ok (.loss loss)) :
      Deployed root log10 extractor state sample .betaB
        (.betaB ((deployedBetaBinomial log10).step
          ((state.map Baseline.toBetaBinomial).getD .zero) sample.ts loss).1)
        (((deployedBetaBinomial log10).step ((state.map Baseline.toBetaBinomial).getD .zero)
          sample.ts loss).2.map DetailedFinding.finding)

theorem mem_watches_deployed {type : SeriesType} {watch : Watch Extracted Baseline}
    (h : watch ∈ (deployedWorker root log10).watches type) :
    watch.extractor ∈ createDefaultRegistry.getExtractors type ∧
      deployedDetectors root log10 watch.detectorType = some watch.detector := by
  obtain ⟨extractor, hextractor, h⟩ := List.mem_flatMap.mp h
  obtain ⟨detectorType, -, h⟩ := List.mem_filterMap.mp h
  obtain ⟨detector, hdetector, rfl⟩ := Option.map_eq_some_iff.mp h
  exact ⟨hextractor, hdetector⟩

theorem deployed_of_stepSample {type : SeriesType} {watch : Watch Extracted Baseline}
    (h : watch ∈ (deployedWorker root log10).watches type) {state : Option Baseline}
    {sample : RawSample} {next : Baseline} {finding : Option Finding}
    (hstep : stepSample watch.extractor watch.detector state sample = some (next, finding)) :
    Deployed root log10 watch.extractor state sample watch.detectorType next finding := by
  have hdetector := (mem_watches_deployed h).2
  unfold stepSample at hstep
  cases hvalue : watch.extractor.extract sample.row with
  | error e =>
    rw [hvalue] at hstep
    cases hstep
  | ok value =>
    rw [hvalue] at hstep
    have hok : watch.detector.step state sample.ts value = .ok (next, finding) := by
      dsimp only at hstep
      cases hs : watch.detector.step state sample.ts value with
      | error e =>
        rw [hs] at hstep
        cases hstep
      | ok r =>
        rw [hs] at hstep
        exact congrArg Except.ok (Option.some.inj hstep)
    cases htype : watch.detectorType with
    | ewma =>
      rw [htype] at hdetector
      rw [← Option.some.inj hdetector] at hok
      obtain ⟨t, ht, rfl⟩ := Detector.step_onDocuments hok
      cases value with
      | float v =>
        obtain ⟨rfl, rfl⟩ := Prod.mk.inj (Except.ok.inj ht)
        exact .ewma hvalue
      | _ => cases ht
    | betaB =>
      rw [htype] at hdetector
      rw [← Option.some.inj hdetector] at hok
      obtain ⟨t, ht, rfl⟩ := Detector.step_onDocuments hok
      cases value with
      | loss s =>
        obtain ⟨rfl, rfl⟩ := Prod.mk.inj (Except.ok.inj ht)
        exact .betaB hvalue
      | _ => cases ht
    | _ =>
      rw [htype] at hdetector
      cases hdetector

/-- **What the deployed detectors report.** -/
theorem Deployed.unusual {extractor : Extractor Extracted} {state : Option Baseline}
    {sample : RawSample} {detectorType : DetectorType} {next : Baseline}
    {finding : Option Finding} (h : Deployed root log10 extractor state sample detectorType next
      finding) {f : Finding} (hf : finding = some f) :
    f.ts = sample.ts ∧ Unusual extractor sample detectorType f.value f.severity := by
  cases h with
  | ewma hvalue =>
    obtain ⟨detailed, hd, rfl⟩ := Option.map_eq_some_iff.mp hf
    obtain ⟨hts, hval, hlow, hsev⟩ := Ewma.step_finding hd
    refine ⟨hts, ?_⟩
    rw [hval, hsev]
    exact .ewma hvalue (le_min (by norm_num) hlow) (min_le_left _ _)
  | betaB hvalue =>
    obtain ⟨detailed, hd, rfl⟩ := Option.map_eq_some_iff.mp hf
    obtain ⟨hreports, rfl⟩ := BetaBinomial.step_finding.mp hd
    exact ⟨rfl, .betaB hvalue hreports.1 hreports.2.2.1 (min_le_left _ _)⟩

/-! ## Baselines -/

/-- The document is one of this detector, of at least one sample. -/
def Baseline.Keeps (detectorType : DetectorType) : Baseline → Prop
  | .ewma state => detectorType = .ewma ∧ 1 ≤ state.n ∧ 0 ≤ state.variance
  | .betaB _ => detectorType = .betaB

theorem Ewma.keeps_step {e : Ewma} (halpha : 0 ≤ e.config.alpha ∧ e.config.alpha ≤ 1)
    {state : EwmaState} (h : state = .zero ∨ 1 ≤ state.n ∧ 0 ≤ state.variance) (ts : Time)
    (value : ℚ) :
    let next := (e.step state ts value).1
    1 ≤ next.n ∧ 0 ≤ next.variance ∧ next.lastSeen = ts := by
  rcases h with rfl | ⟨hn, hv⟩
  · exact ⟨le_refl _, le_refl _, rfl⟩
  · have hne : state.n ≠ 0 := by omega
    rw [step_of_ne_zero hne]
    refine ⟨by simp only [fold]; omega, ?_, rfl⟩
    have hsquare := mul_nonneg halpha.1 (mul_self_nonneg (value - state.mean))
    rw [← mul_assoc] at hsquare
    exact mul_nonneg (sub_nonneg.2 halpha.2) (add_nonneg hv hsquare)

theorem Deployed.keeps {extractor : Extractor Extracted} {state : Option Baseline}
    {sample : RawSample} {detectorType : DetectorType} {next : Baseline}
    {finding : Option Finding}
    (h : Deployed root log10 extractor state sample detectorType next finding)
    (hstate : ∀ b ∈ state, b.Keeps detectorType) :
    next.Keeps detectorType ∧ next.lastSeen = sample.ts := by
  cases h with
  | betaB _ => exact ⟨rfl, rfl⟩
  | @ewma value _ =>
    have hold : (state.map Baseline.toEwma).getD .zero = .zero ∨
        1 ≤ ((state.map Baseline.toEwma).getD .zero).n ∧
          0 ≤ ((state.map Baseline.toEwma).getD .zero).variance := by
      cases state with
      | none => exact .inl rfl
      | some b =>
        have hb := hstate b rfl
        cases b with
        | ewma s => exact .inr hb.2
        | betaB s => cases hb
    have halpha : 0 ≤ (deployedEwma root).config.alpha ∧ (deployedEwma root).config.alpha ≤ 1 := by
      norm_num [deployedEwma, startEwma]
    obtain ⟨hn, hv, hts⟩ := Ewma.keeps_step halpha hold sample.ts value
    exact ⟨⟨rfl, hn, hv⟩, hts⟩

/-- The state of the monitor is a document of its detector, and its cursor is the time of the
last sample in it, but for the nanoseconds that the column does not keep. -/
def Monitor.Kept (m : Monitor Extracted Baseline) : Prop :=
  ∀ b ∈ m.state, b.Keeps m.key.detector ∧ Time.micros m.cursor = Time.micros b.lastSeen

def Stores.Kept (db : Stores Baseline) : Prop :=
  ∀ r row, db.baselines.lookup r = some row →
    row.state.Keeps r.detector ∧ row.lastSeen = Time.micros row.state.lastSeen

theorem Monitor.kept_resume {db : Stores Baseline} (h : db.Kept) (series : DiscoveredSeries)
    (watch : Watch Extracted Baseline) :
    (watch.resume series (db.baselines.lookup (watch.baselineKey series))).Kept := by
  intro b hb
  obtain ⟨row, hrow, rfl⟩ := Option.map_eq_some_iff.mp hb
  obtain ⟨hkeeps, hlast⟩ := h _ row hrow
  refine ⟨hkeeps, ?_⟩
  simp only [Watch.resume, hrow, Option.map_some, Option.getD_some, hlast]
  exact Time.micros_micros _

theorem Monitor.Kept.foldSample {m : Monitor Extracted Baseline} (h : m.Kept)
    {series : DiscoveredSeries} {type : SeriesType} {watch : Watch Extracted Baseline}
    (hwatch : watch ∈ (deployedWorker root log10).watches type) (hm : m.Watches series watch)
    (rs : RawSample) : (m.foldSample rs).1.Kept := by
  rcases m.foldSample_cases rs with ⟨next, finding, -, hstep, he⟩ | ⟨-, he⟩
  · rw [Monitor.stepSample, hm.extractor, hm.detector] at hstep
    have hkey : m.key.detector = watch.detectorType := by
      rw [hm.key]
      rfl
    obtain ⟨hkeeps, hlast⟩ := (deployed_of_stepSample hwatch hstep).keeps
      fun b hb => hkey ▸ (h b hb).1
    rw [he]
    intro b hb
    obtain rfl := Option.some.inj hb
    exact ⟨hkey.symm ▸ hkeeps, by rw [hlast]⟩
  · rw [he]
    exact h

/-- Memory and tables have documents of the right detectors. -/
structure System.Kept (p : Pipeline Extracted Baseline) (s : System Extracted Baseline) :
    Prop where
  provenance : s.Provenance p
  monitors : s.Workers fun _ g => ∀ m ∈ g.monitors, m.Kept
  rows : s.db.Kept

section

variable {p : Pipeline Extracted Baseline} {s s' : System Extracted Baseline} {move : Move}
  {ev : Option (Event Extracted Baseline)}

theorem Goroutine.Step.kept {series : DiscoveredSeries} {g g' : Goroutine Extracted Baseline}
    {db db' : Stores Baseline} {tick : Tick} {halt : Option Halt}
    (hworker : p.worker = deployedWorker root log10)
    (hstep : g.Step p series db tick ev g' db' halt) {delivered : Finset MsgId}
    (hprov : g.Provenance p delivered series) (hmonitors : ∀ m ∈ g.monitors, m.Kept)
    (hdb : db.Kept) : (∀ m ∈ g'.monitors, m.Kept) ∧ db'.Kept := by
  refine ⟨fun m' hm' => ?_, fun r row hrow => ?_⟩
  · rcases hstep.monitor hprov.taken hm' with hm | ⟨watch, todo, -, -, rfl⟩ | ⟨m, hm, it, -, rfl⟩
    · exact hmonitors m' hm
    · exact Monitor.kept_resume hdb series watch
    · obtain ⟨watch, hwatch, hmw⟩ := hprov.monitors m hm
      rw [hworker] at hwatch
      exact (hmonitors m hm).foldSample hwatch hmw it.sample
  · rcases hstep.row_cases hrow with hrow | ⟨m, hm, rfl, hstate, hlast⟩
    · exact hdb r row hrow
    · obtain ⟨hkeeps, hcursor⟩ := hmonitors m hm row.state hstate
      exact ⟨hkeeps, hlast.trans hcursor⟩

theorem System.Kept.next (hworker : p.worker = deployedWorker root log10) (h : s.Kept p)
    (hnext : s.Next p move ev s') : s'.Kept p := by
  refine ⟨h.provenance.next hnext, ?_, ?_⟩
  · refine hnext.workers h.monitors (fun _ _ hg => hg) ?_ (fun _ _ _ _ hg => hg) ?_
    · exact fun _ m hm => absurd hm List.not_mem_nil
    · intro series tick g g' halt _ hg hstep _ hmonitors
      exact (hstep.kept hworker (h.provenance.workers series g hg) hmonitors h.rows).1
  · cases hnext with
    | worked hg hstep _ =>
      exact (hstep.kept hworker (h.provenance.workers _ _ hg) (h.monitors _ _ hg) h.rows).2
    | _ => exact h.rows

theorem System.Kept.step (hworker : p.worker = deployedWorker root log10) (h : s.Kept p)
    (move : Move) : (s.step p move).Kept p := by
  by_cases hd : s.Dies p move
  · rw [(s.step_death p move hd).eq]
    exact ⟨provenance_boot p _, workers_boot _ _, h.rows⟩
  · exact h.next hworker (s.step_next p move hd)

end

/-- **A detector only ever gets its own documents.** Throughout every run of the deployed service,
whatever fails and whenever the process ends: each row of `argus_baselines` holds a document that
the detector in its key has written, `last_seen` is the time of the last sample in it, and the
deviation that the moving average divides by is positive. -/
theorem baselines_of_detectors (root : Root) (log10 : ℚ → ℚ) (messages : List Common.Message)
    (moves : List Move) :
    Throughout (System.step ((deployed root log10).reading messages))
      (fun s => ∀ r row, s.db.baselines.lookup r = some row →
        row.state.Keeps r.detector ∧ row.lastSeen = Time.micros row.state.lastSeen ∧
        ∀ state, row.state = .ewma state → 0 < (deployedEwma root).stddev state)
      (System.boot Stores.empty) moves := by
  have hworker : ((deployed root log10).reading messages).worker = deployedWorker root log10 := rfl
  have hboot : (System.boot Stores.empty).Kept ((deployed root log10).reading messages) :=
    ⟨System.provenance_boot _ _, System.workers_boot _ _, fun r row hrow => by cases hrow⟩
  refine (throughout_always (fun s m hs => hs.step hworker m) hboot).imp fun s hs r row hrow => ?_
  obtain ⟨hkeeps, hlast⟩ := hs.rows r row hrow
  refine ⟨hkeeps, hlast, fun state hstate => ?_⟩
  rw [hstate] at hkeeps
  have hepsilon : 0 < (deployedEwma root).config.epsilon := by norm_num [deployedEwma, startEwma]
  exact Ewma.stddev_pos hepsilon hkeeps.2.2

end Cepheus.Argus
