import Cepheus.Infra.Redelivery
import Cepheus.Argus.Worker

/-!
# What the cursor stands for

`fold` skips a sample that is not newer than the cursor, with the comment that it has been folded
already. One timestamp stands for the set of all folded samples:

* `redelivery_harmless` - inside one process this is enough to make repeated deliveries harmless
* `folds_every_sample_iff` - but a sample that was never folded is skipped too, unless the samples
  come in the order of their timestamps
-/

namespace Cepheus.Argus

open Infra

variable {V S : Type}

/-! ## The samples that are folded -/

/-- The sample is folded into the state of the monitor. -/
def Monitor.Folds (m : Monitor V S) (rs : RawSample) : Prop :=
  m.cursor < rs.ts ∧ (m.stepSample m.state rs).isSome

instance (m : Monitor V S) (rs : RawSample) : Decidable (m.Folds rs) :=
  inferInstanceAs (Decidable (_ ∧ _))

/-- The samples of `rows` that are folded, in order. -/
def Monitor.folded (m : Monitor V S) : List RawSample → List RawSample
  | [] => []
  | rs :: rest =>
    if m.Folds rs then rs :: (m.foldSample rs).1.folded rest else (m.foldSample rs).1.folded rest

theorem Monitor.cursor_foldSample {m : Monitor V S} {rs : RawSample} (h : m.Folds rs) :
    (m.foldSample rs).1.cursor = rs.ts := by
  rcases m.foldSample_cases rs with ⟨next, finding, _, _, he⟩ | ⟨hn, _⟩
  · rw [he]
  · have hs := h.2
    rw [hn h.1] at hs
    cases hs

theorem Monitor.foldSample_of_not_folds {m : Monitor V S} {rs : RawSample} (h : ¬ m.Folds rs) :
    m.foldSample rs = (m, none) := by
  rcases m.foldSample_cases rs with ⟨next, finding, hlt, hs, _⟩ | ⟨_, he⟩
  · exact absurd ⟨hlt, by rw [hs]; rfl⟩ h
  · exact he

/-- The samples that are folded are newer than the cursor, and each is newer than the one before. -/
theorem Monitor.folded_pairwise (rows : List RawSample) :
    ∀ m : Monitor V S, (∀ rs ∈ m.folded rows, m.cursor < rs.ts) ∧
      (m.folded rows).Pairwise fun a b => a.ts < b.ts := by
  induction rows with
  | nil =>
    intro m
    exact ⟨fun rs hrs => absurd hrs (by simp [folded]), List.Pairwise.nil⟩
  | cons rs rest ih =>
    intro m
    obtain ⟨hlt, hpair⟩ := ih (m.foldSample rs).1
    by_cases hf : m.Folds rs
    · rw [folded, if_pos hf]
      rw [cursor_foldSample hf] at hlt
      refine ⟨?_, List.pairwise_cons.mpr ⟨hlt, hpair⟩⟩
      intro x hx
      rcases List.mem_cons.mp hx with rfl | hx
      · exact hf.1
      · exact lt_trans hf.1 (hlt x hx)
    · rw [folded, if_neg hf]
      rw [foldSample_of_not_folds hf] at hlt hpair ⊢
      exact ⟨hlt, hpair⟩

/-! ## Redelivery -/

/-- The detector does not fail on a value that its extractor has read. -/
def Monitor.Total (m : Monitor V S) : Prop :=
  ∀ state row ts value, m.extractor.extract row = .ok value →
    ∃ r, m.detector.step state ts value = .ok r

/-- A sample that has been seen, folded or not, changes nothing any more. -/
def Monitor.Seen (m : Monitor V S) (rs : RawSample) : Prop :=
  rs.ts ≤ m.cursor ∨ ∀ state, m.stepSample state rs = none

theorem Monitor.Total.foldSample {m : Monitor V S} (h : m.Total) (rs : RawSample) :
    (m.foldSample rs).1.Total := by
  unfold Total at h ⊢
  rw [foldSample_extractor, foldSample_detector]
  exact h

theorem Monitor.Seen.foldSample {m : Monitor V S} {rs : RawSample} (h : m.Seen rs)
    (rs' : RawSample) : (m.foldSample rs').1.Seen rs := by
  rcases h with h | h
  · exact .inl (le_trans h (m.cursor_le_foldSample rs'))
  · refine .inr ?_
    unfold Monitor.stepSample at h ⊢
    rw [foldSample_extractor, foldSample_detector]
    exact h

theorem Monitor.Total.seen {m : Monitor V S} (h : m.Total) (rs : RawSample) :
    (m.foldSample rs).1.Seen rs := by
  by_cases hf : m.Folds rs
  · exact .inl (le_of_eq (cursor_foldSample hf).symm)
  · rw [foldSample_of_not_folds hf]
    by_cases hlt : m.cursor < rs.ts
    · -- the detector does not fail, so it is the extractor that refuses the sample
      refine .inr ?_
      intro state
      have hnone : m.stepSample m.state rs = none :=
        Option.not_isSome_iff_eq_none.mp fun hs => hf ⟨hlt, hs⟩
      unfold Monitor.stepSample Argus.stepSample at hnone ⊢
      cases he : m.extractor.extract rs.row with
      | error e => rfl
      | ok value =>
        obtain ⟨r, hr⟩ := h m.state rs.row rs.ts value he
        simp [he, hr, Except.toOption] at hnone
    · exact .inl (not_lt.mp hlt)

theorem Monitor.Seen.absorb {m : Monitor V S} {rs : RawSample} (h : m.Seen rs)
    (found : List Finding) : Monitor.absorb (m, found) rs = (m, found) := by
  have he : m.foldSample rs = (m, none) := by
    refine foldSample_of_not_folds ?_
    rintro ⟨hlt, hs⟩
    rcases h with h | h
    · exact absurd hlt (not_lt.mpr h)
    · rw [h] at hs
      cases hs
  simp [Monitor.absorb, he]

/--
**Redelivery within one process is harmless.**

However the deliveries are grouped into batches, and wherever repeated deliveries are put in, the
monitor ends in the same state with the same cursor and has reported the same findings in the same
order. No sample is folded twice.
-/
theorem redelivery_harmless (m : Monitor V S) (hm : m.Total)
    {batches batches' : List (List RawSample)}
    (h : Redelivered batches.flatten batches'.flatten) :
    m.process batches' = m.process batches ∧ (m.folded batches'.flatten).Nodup := by
  refine ⟨?_, ?_⟩
  · rw [m.process_eq_fold, m.process_eq_fold]
    refine @foldl_redelivered _ _ Monitor.absorb (fun acc => acc.1.Total)
      (fun acc rs => acc.1.Seen rs) ?_ ?_ ?_ ?_ _ _ h _ hm
    · intro acc rs hacc
      exact hacc.foldSample rs
    · intro acc rs hacc
      exact hacc.seen rs
    · intro acc rs rs' hs
      exact hs.foldSample rs'
    · intro acc rs hs
      exact hs.absorb acc.2
  · refine (m.folded_pairwise _).2.imp ?_
    rintro a b hlt rfl
    exact lt_irrefl _ hlt

theorem total_pingWatch (baseline : Option (BaselineRow Nat)) :
    (pingWatch.resume pingSeries baseline).Total :=
  fun _ _ _ _ _ => ⟨_, rfl⟩

/-- The second sample comes twice more, in batches of its own and of others. -/
theorem pingAt_redelivered :
    Redelivered [[pingAt 1, pingAt 3], [pingAt 2]].flatten
        [[pingAt 1], [pingAt 3, pingAt 3], [pingAt 2, pingAt 1]].flatten ∧
      (pingWatch.resume pingSeries none).process
          [[pingAt 1], [pingAt 3, pingAt 3], [pingAt 2, pingAt 1]] =
        (pingWatch.resume pingSeries none).process [[pingAt 1, pingAt 3], [pingAt 2]] :=
  have h : Redelivered [[pingAt 1, pingAt 3], [pingAt 2]].flatten
      [[pingAt 1], [pingAt 3, pingAt 3], [pingAt 2, pingAt 1]].flatten :=
    .again (.deliver _ (.again (.deliver _ (.deliver _ .nil)) (by simp))) (by simp)
  ⟨h, (redelivery_harmless _ (total_pingWatch none) h).1⟩

/-! ## Samples that are skipped -/

/-- The samples that get through the extractor and the detector when nothing is skipped. -/
def accepted (extractor : Extractor V) (detector : Detector V S) :
    Option S → List RawSample → List RawSample
  | _, [] => []
  | state, rs :: rest =>
    match stepSample extractor detector state rs with
    | none => accepted extractor detector state rest
    | some (next, _) => rs :: accepted extractor detector (some next) rest

/-- Every sample that the extractor and the detector accept is folded when it is delivered. -/
def Monitor.FoldsEverySample (m : Monitor V S) (rows : List RawSample) : Prop :=
  ∀ before rs after, rows = before ++ rs :: after →
    ((m.fold before).1.stepSample (m.fold before).1.state rs).isSome → (m.fold before).1.Folds rs

/-- The samples that are accepted come in the order of their timestamps, after the cursor. -/
def Monitor.InOrder (m : Monitor V S) (rows : List RawSample) : Prop :=
  (m.cursor :: (accepted m.extractor m.detector m.state rows).map RawSample.ts).IsChain (· < ·)

theorem Monitor.foldsEverySample_cons (m : Monitor V S) (rs : RawSample) (rest : List RawSample) :
    m.FoldsEverySample (rs :: rest) ↔
      ((m.stepSample m.state rs).isSome → m.Folds rs) ∧
        (m.foldSample rs).1.FoldsEverySample rest := by
  constructor
  · intro h
    refine ⟨h [] rs rest rfl, ?_⟩
    intro before x after he
    have := h (rs :: before) x after (by rw [he, List.cons_append])
    rwa [fold_cons] at this
  · rintro ⟨hhead, htail⟩ before x after he
    cases before with
    | nil =>
      obtain ⟨rfl, rfl⟩ := List.cons.inj he
      exact hhead
    | cons y before =>
      obtain ⟨rfl, htl⟩ := List.cons.inj he
      rw [fold_cons]
      exact htail before x after htl

/--
**A sample is skipped only if it was folded, just when the samples come in order.**

`accepted` does not look at the cursor: it is what a monitor that skips nothing would fold.
-/
theorem folds_every_sample_iff (m : Monitor V S) (rows : List RawSample) :
    m.FoldsEverySample rows ↔ m.InOrder rows := by
  induction rows generalizing m with
  | nil =>
    refine iff_of_true ?_ (by simp [Monitor.InOrder, accepted])
    intro before rs after he
    exact absurd he (by simp)
  | cons rs rest ih =>
    rw [m.foldsEverySample_cons, ih]
    unfold Monitor.InOrder
    rw [accepted]
    cases hs : stepSample m.extractor m.detector m.state rs with
    | none =>
      -- a sample that does not get through leaves the monitor as it is
      have hf : ¬ m.Folds rs := fun hf => by simp [Monitor.Folds, Monitor.stepSample, hs] at hf
      rw [Monitor.foldSample_of_not_folds hf]
      simp [Monitor.stepSample, hs]
    | some r =>
      obtain ⟨next, finding⟩ := r
      have hfolds : m.Folds rs ↔ m.cursor < rs.ts := by
        simp [Monitor.Folds, Monitor.stepSample, hs]
      simp only [Monitor.stepSample, hs, Option.isSome_some, forall_const, List.map_cons,
        List.isChain_cons_cons, hfolds]
      refine and_congr_right fun hlt => ?_
      -- a folded sample becomes the cursor, and the rest has to come after it
      have he : (m.foldSample rs).1 = { m with state := some next, cursor := rs.ts } := by
        rw [m.foldSample_eq, if_pos hlt, Monitor.stepSample, hs]
      rw [he]

/-- A measurement that arrives after a later one is lost to the baseline. -/
theorem late_sample_skipped :
    ¬ ∀ (m : Monitor Extracted Nat) (rows : List RawSample), rows.Nodup →
      m.FoldsEverySample rows := by
  intro h
  have hlate := h (pingWatch.resume pingSeries none) [pingAt 2, pingAt 1] (by decide)
    [pingAt 2] (pingAt 1) [] rfl (by decide +kernel)
  exact absurd hlate.1 (by decide +kernel)

end Cepheus.Argus
