import Cepheus.Processor.Delivery
import Cepheus.Processor.Properties.Accounting

/-!
# Duplicated measurements

Nothing in the tables tells the rows of one report from those of another, and a processor does not
ask whether it has stored a report before, or has it already. So a report has at most one
measurement as long as it is delivered neither while the process has it nor once it has been stored:
after a rejection or after a process that has died before the commit all is well, but not after one
that has died later, after an acknowledgement that got lost, or when the stream has waited for too
long.
-/

namespace Cepheus.Processor

open Infra

variable {M P : Type}

/-- The reports of the measurements in the tables. -/
def Intake.reports (s : Intake M) : List Nat := s.rows.map fun row => row.msg.report

/-- No report has two measurements. -/
def Intake.StoredOnce (s : Intake M) : Prop := s.reports.Nodup

instance (s : Intake M) : Decidable s.StoredOnce := inferInstanceAs (Decidable (List.Nodup _))

/-- What a process has: the batch of the flusher, the channel, and what has been fetched. -/
def Ingest.held (s : Ingest M P) : List Msg :=
  (s.flusher.batch ++ s.pending).map Pending.msg ++ s.intake.fetched

/-- No report is delivered that the process has, or that has been stored. -/
def Delivery.Fresh (s : Ingest M P) : Delivery M P → Prop
  | .deliver report =>
    s.intake.CanDeliver report → report ∉ s.held.map Msg.report ∧ report ∉ s.intake.reports
  | _ => True

instance (s : Ingest M P) (d : Delivery M P) : Decidable (d.Fresh s) :=
  match d with
  | .deliver report =>
    inferInstanceAs (Decidable (s.intake.CanDeliver report →
      report ∉ s.held.map Msg.report ∧ report ∉ s.intake.reports))
  | .hand _ _ | .reject | .receive _ _ | .tick _ _ | .crash => .isTrue trivial

/-! ## Effects -/

section

variable (kept : M → M)

@[simp] theorem fetched_perform (s : Intake M) (lost : Bool) (e : Effect M P) :
    (s.perform kept lost e).fetched = s.fetched := by
  cases e <;> rfl

@[simp] theorem rows_perform (s : Intake M) (lost : Bool) (e : Effect M P) :
    (s.perform kept lost e).rows = s.rows ++ e.measurements.map (MeasurementRow.map kept) := by
  cases e <;> simp [Intake.perform, Effect.measurements]

theorem fetched_performAll {lost : Nat → Bool} {effects : List (Effect M P)} :
    ∀ {i : Nat} {s : Intake M}, (s.performAll kept lost i effects).fetched = s.fetched := by
  induction effects with
  | nil => exact rfl
  | cons e effects ih =>
    intro i s
    rw [Intake.performAll, ih, fetched_perform]

theorem rows_performAll {lost : Nat → Bool} {effects : List (Effect M P)} :
    ∀ {i : Nat} {s : Intake M},
      (s.performAll kept lost i effects).rows =
        s.rows ++ (effects.flatMap Effect.measurements).map (MeasurementRow.map kept) := by
  induction effects with
  | nil =>
    intro i s
    exact (List.append_nil _).symm
  | cons e effects ih =>
    intro i s
    rw [Intake.performAll, ih, rows_perform, List.flatMap_cons, List.map_append, List.append_assoc]

/-- The effects that have happened when a process dies are the first ones. -/
theorem rows_settle (s : Intake M) (fate : Fate) (effects : List (Effect M P)) :
    ∃ k, (s.settle kept fate effects).rows =
      s.rows ++ ((effects.take k).flatMap Effect.measurements).map (MeasurementRow.map kept) := by
  unfold Intake.settle
  cases fate.dies with
  | none =>
    refine ⟨effects.length, ?_⟩
    rw [List.take_length]
    exact rows_performAll kept
  | some k => exact ⟨k, rows_performAll kept⟩

/-- What has been fetched is still there, unless the process has died. -/
theorem fetched_settle (s : Intake M) (fate : Fate) (effects : List (Effect M P)) :
    (s.settle kept fate effects).fetched = if fate.dies = none then s.fetched else [] := by
  unfold Intake.settle
  cases fate.dies with
  | none => exact fetched_performAll kept
  | some k => rfl

theorem measurements_take {effects : List (Effect M P)}
    (h : effects.flatMap Effect.measurements = []) (k : Nat) :
    (effects.take k).flatMap Effect.measurements = [] := by
  rw [List.flatMap_eq_nil_iff] at h ⊢
  exact fun e he => h e (List.mem_of_mem_take he)

theorem rows_settle_nil (s : Intake M) (fate : Fate) {effects : List (Effect M P)}
    (h : effects.flatMap Effect.measurements = []) :
    (s.settle kept fate effects).rows = s.rows := by
  obtain ⟨k, heq⟩ := rows_settle kept s fate effects
  rw [heq, measurements_take h, List.map_nil, List.append_nil]

/-- When the commit is the first effect, all of its rows are there or none. -/
theorem rows_settle_committed (s : Intake M) (fate : Fate) {tx : Transaction M P}
    {effects : List (Effect M P)} (h : effects.flatMap Effect.measurements = []) :
    (s.settle kept fate (.committed tx :: effects)).rows = s.rows ∨
      (s.settle kept fate (.committed tx :: effects)).rows =
        s.rows ++ tx.measurements.map (MeasurementRow.map kept) := by
  obtain ⟨k, heq⟩ := rows_settle kept s fate (.committed tx :: effects)
  cases k with
  | zero =>
    left
    rw [heq]
    exact List.append_nil _
  | succ k =>
    right
    rw [heq, List.take_succ_cons, List.flatMap_cons, measurements_take h, List.append_nil]
    rfl

theorem reports_settle_nil (s : Intake M) (fate : Fate) {effects : List (Effect M P)}
    (h : effects.flatMap Effect.measurements = []) :
    (s.settle kept fate effects).reports = s.reports :=
  congrArg (List.map _) (rows_settle_nil kept s fate h)

/-- A commit adds the reports of its rows at most. -/
theorem reports_settle_committed (s : Intake M) (fate : Fate) {tx : Transaction M P}
    {effects : List (Effect M P)} (h : effects.flatMap Effect.measurements = []) :
    List.Sublist (s.settle kept fate (.committed tx :: effects)).reports
      (s.reports ++ tx.measurements.map fun row => row.msg.report) := by
  unfold Intake.reports
  rcases rows_settle_committed kept s fate h with heq | heq
  · rw [heq]
    exact List.sublist_append_left _ _
  · rw [heq, List.map_append, List.map_map]
    exact List.Sublist.refl _

theorem reports_measurementRows {batch : List (Pending M P)} :
    ∀ {id : Nat}, (measurementRows id batch).map (fun row => row.msg.report) =
      (batch.map Pending.msg).map Msg.report := by
  induction batch with
  | nil => exact rfl
  | cons p batch ih =>
    intro id
    rw [measurementRows, List.map_cons, List.map_cons, List.map_cons, ih]

/-- A flush adds the reports of its batch at most. -/
theorem Flushed.reports {firstID : Nat} {batch : List (Pending M P)}
    {effects : List (Effect M P)} (hf : Flushed firstID batch effects) (s : Intake M)
    (fate : Fate) :
    List.Sublist (s.settle kept fate effects).reports
      (s.reports ++ (batch.map Pending.msg).map Msg.report) := by
  cases hf with
  | naked =>
    rw [reports_settle_nil kept s fate (measurements_nakAll batch)]
    exact List.sublist_append_left _ _
  | acked =>
    rw [← reports_measurementRows]
    exact reports_settle_committed kept s fate (measurements_ackAll batch)

/-! ## Flushers -/

/-- The reports of the measurements in the tables and of those that the process has are all
different. -/
structure Ingest.Single (flushSize : Nat) (s : Ingest M P) : Prop where
  reports : (s.intake.reports ++ s.held.map Msg.report).Nodup
  batch : s.flusher.batch.length < flushSize
  running : s.flusher.stopped = false

theorem Ingest.single_init {flushSize : Nat} (h : 0 < flushSize) :
    ({} : Ingest M P).Single flushSize where
  reports := List.nodup_nil
  batch := h
  running := rfl

/-- What an iteration leaves in the batch is not among what it adds to the tables. -/
theorem Flusher.Next.reports {flushSize firstID : Nat} {flusher : Flusher M P}
    {arrived : List (Pending M P)} {next : Flusher M P × List (Effect M P)}
    (hn : flusher.Next flushSize firstID arrived next) (s : Intake M) (fate : Fate) :
    List.Sublist
      ((s.settle kept fate next.2).reports ++ (next.1.batch.map Pending.msg).map Msg.report)
      (s.reports ++ ((flusher.batch ++ arrived).map Pending.msg).map Msg.report) := by
  cases hn with
  | kept hlen => rw [reports_settle_nil kept s fate rfl]
  | flushed hf =>
    rw [List.map_nil, List.map_nil, List.append_nil]
    exact hf.reports kept s fate

theorem Flusher.Next.length_batch {flushSize firstID : Nat} {flusher : Flusher M P}
    {arrived : List (Pending M P)} {next : Flusher M P × List (Effect M P)}
    (hn : flusher.Next flushSize firstID arrived next) (hpos : 0 < flushSize) :
    next.1.batch.length < flushSize := by
  cases hn with
  | kept hlen => exact hlen
  | flushed hf => exact hpos

/-- An iteration, with what has arrived. -/
theorem Ingest.single_settle {flushSize firstID : Nat} {flusher : Flusher M P}
    {arrived pending : List (Pending M P)} {next : Flusher M P × List (Effect M P)}
    {intake : Intake M} (fate : Fate) (hn : flusher.Next flushSize firstID arrived next)
    (hpos : 0 < flushSize) (hrunning : next.1.stopped = false)
    (hreports : (intake.reports ++
      ((flusher.batch ++ arrived ++ pending).map Pending.msg ++ intake.fetched).map
        Msg.report).Nodup) :
    (Ingest.settle kept intake pending fate next).Single flushSize := by
  have hsub := hn.reports kept intake fate
  simp only [List.map_append, List.append_assoc] at hreports hsub
  unfold Ingest.settle
  by_cases hdies : fate.dies = none
  · simp only [if_pos hdies]
    refine ⟨?_, hn.length_batch hpos, hrunning⟩
    simp only [Ingest.held, fetched_settle, if_pos hdies, List.map_append, List.append_assoc]
    simp only [← List.append_assoc] at hreports hsub ⊢
    exact hreports.sublist ((hsub.append_right _).append_right _)
  · simp only [if_neg hdies]
    refine ⟨?_, hpos, rfl⟩
    -- a process that has died has nothing
    simp only [Ingest.held, fetched_settle, if_neg hdies, List.append_nil, List.map_nil]
    refine hreports.sublist ((List.sublist_append_left _ _).trans (hsub.trans ?_))
    simp only [← List.append_assoc]
    exact ((List.sublist_append_left _ _).trans (List.sublist_append_left _ _))

theorem Flusher.stopped_iterate {flushSize firstID : Nat} {faults : Faults} {s : Flusher M P}
    {e : Event M P} (hs : s.stopped = false) (he : e ≠ .done) :
    (s.iterate flushSize faults firstID e).1.stopped = false := by
  unfold Flusher.iterate
  rw [if_neg (by simp [hs])]
  cases e with
  | done => exact absurd rfl he
  | tick => exact hs
  | pending p =>
    simp only
    split
    · exact hs
    · exact hs

theorem Ingest.Single.step {flushSize : Nat} {s : Ingest M P} (h : s.Single flushSize)
    {d : Delivery M P} (hd : d.Fresh s) :
    (s.step kept (Flusher.iterate flushSize) d).Single flushSize := by
  have hpos : 0 < flushSize := Nat.lt_of_le_of_lt (Nat.zero_le _) h.batch
  have hopen : ∀ e : Event M P, s.flusher.stopped = true → e.arrived = [] :=
    fun e hstopped => absurd (hstopped.symm.trans h.running) (by decide)
  have hreports := h.reports
  unfold Ingest.step
  cases d with
  | deliver report =>
    refine ⟨?_, h.batch, h.running⟩
    by_cases hcan : s.intake.CanDeliver report
    · obtain ⟨hheld, hstored⟩ := hd hcan
      -- the report comes last, and is new
      have hnew := hreports.concat fun hmem => (List.mem_append.mp hmem).elim hstored hheld
      simpa [Ingest.held, Intake.reports, Intake.deliver, hcan] using hnew
    · simpa [Ingest.held, Intake.reports, Intake.deliver, hcan] using hreports
  | hand measurement probes =>
    simp only
    split
    · exact h
    · next msg fetched hfetched =>
      split
      · refine ⟨?_, h.batch, h.running⟩
        simpa [Ingest.held, Intake.reports, hfetched] using hreports
      · exact h
  | reject =>
    simp only
    split
    · exact h
    · next msg fetched hfetched =>
      refine ⟨hreports.sublist ?_, h.batch, h.running⟩
      simp only [Ingest.held, hfetched, List.map_append, List.map_cons]
      exact ((List.sublist_cons_self _ _).append_left _).append_left _
  | receive faults fate =>
    simp only
    split
    · exact h
    · next p pending hpending =>
      have hn := s.flusher.iterate_next faults s.intake.nextID h.batch (hopen (.pending p))
      refine Ingest.single_settle kept fate hn hpos (Flusher.stopped_iterate h.running (by simp)) ?_
      simpa [Ingest.held, Event.arrived, hpending] using hreports
  | tick faults fate =>
    have hn := s.flusher.iterate_next faults s.intake.nextID h.batch (hopen .tick)
    refine Ingest.single_settle kept fate hn hpos (Flusher.stopped_iterate h.running (by simp)) ?_
    simpa [Ingest.held, Event.arrived] using hreports
  | crash =>
    refine ⟨?_, hpos, rfl⟩
    show (s.intake.reports ++ []).Nodup
    rw [List.append_nil]
    exact (List.nodup_append.mp hreports).1

/-- A flusher that is given no report that it has or has stored stores no report twice. -/
theorem Ingest.storedOnce {flushSize : Nat} (hpos : 0 < flushSize) {moves : List (Delivery M P)}
    (h : Along (Ingest.step kept (Flusher.iterate flushSize)) (fun s d => d.Fresh s) {} moves) :
    Throughout (Ingest.step kept (Flusher.iterate flushSize)) (fun s => s.intake.StoredOnce) {}
      moves := by
  have hsingle : Throughout (Ingest.step kept (Flusher.iterate flushSize))
      (Ingest.Single flushSize) {} moves :=
    throughout_of_invariant (fun s d hs hd => hs.step kept hd) (Ingest.single_init hpos) h
  exact hsingle.imp fun s hs => (List.nodup_append.mp hs.reports).1

end

end Cepheus.Processor

/-! ## Traces -/

namespace Cepheus.TraceProcessor

open Infra Processor

variable {M : Type}

/-- No report is delivered that the process has, or that has been stored. -/
def Delivery.Fresh (s : Intake M) : Delivery M → Prop
  | .deliver report =>
    s.CanDeliver report → report ∉ s.fetched.map Msg.report ∧ report ∉ s.reports
  | _ => True

instance (s : Intake M) (d : Delivery M) : Decidable (d.Fresh s) :=
  match d with
  | .deliver report =>
    inferInstanceAs (Decidable (s.CanDeliver report →
      report ∉ s.fetched.map Msg.report ∧ report ∉ s.reports))
  | .handle _ _ | .crash => .isTrue trivial

/-- The reports of the measurements in the tables and of those that have been fetched are all
different. -/
def Single (s : Intake M) : Prop := (s.reports ++ s.fetched.map Msg.report).Nodup

variable (kept : M → M)

/-- A report that is dealt with has one measurement at most. -/
theorem reports_handle (s : Intake M) (fate : Fate) (firstID : Nat) (msg : Msg)
    (outcome : Outcome M) :
    List.Sublist (s.settle kept fate (handle firstID msg outcome)).reports
      (s.reports ++ [msg.report]) := by
  cases outcome with
  | failed =>
    rw [reports_settle_nil kept s fate rfl]
    exact List.sublist_append_left _ _
  | skipped =>
    rw [reports_settle_nil kept s fate rfl]
    exact List.sublist_append_left _ _
  | stored measurement => exact reports_settle_committed kept s fate rfl

theorem Single.step {s : Intake M} (h : Single s) {d : Delivery M} (hd : d.Fresh s) :
    Single (step kept s d) := by
  unfold TraceProcessor.step
  cases d with
  | deliver report =>
    by_cases hcan : s.CanDeliver report
    · obtain ⟨hheld, hstored⟩ := hd hcan
      have hnew := List.Nodup.concat (fun hmem => (List.mem_append.mp hmem).elim hstored hheld) h
      simpa [Single, Intake.reports, Intake.deliver, hcan] using hnew
    · simpa [Intake.deliver, hcan] using h
  | handle outcome fate =>
    simp only
    split
    · exact h
    · next msg fetched hfetched =>
      have hsub := reports_handle kept { s with fetched } fate s.nextID msg outcome
      have hrest : List.Sublist
          ({ s with fetched }.settle kept fate (handle s.nextID msg outcome)).fetched fetched := by
        rw [fetched_settle]
        split
        · exact List.Sublist.refl _
        · exact List.nil_sublist _
      rw [Single, hfetched, List.map_cons, List.append_cons] at h
      exact h.sublist (hsub.append (hrest.map _))
  | crash =>
    show (s.reports ++ []).Nodup
    rw [List.append_nil]
    exact (List.nodup_append.mp h).1

theorem storedOnce {moves : List (Delivery M)}
    (h : Along (step kept) (fun s d => d.Fresh s) {} moves) :
    Throughout (step kept) Intake.StoredOnce {} moves := by
  have hsingle : Throughout (step kept) Single ({} : Intake M) moves :=
    throughout_of_invariant (fun _ _ hs hd => hs.step kept hd) List.nodup_nil h
  exact hsingle.imp fun s hs => (List.nodup_append.mp hs).1

end Cepheus.TraceProcessor

namespace Cepheus.Processor

open Infra

/-- **As long as no report is delivered while the process has it or once it has been stored, the
three processors store one measurement for a report at most.** -/
theorem reports_stored_once {M P : Type} (kept : M → M) {stamp ping : List (Delivery M P)}
    {trace : List (TraceProcessor.Delivery M)}
    (hstamp : Along (Ingest.step kept StampProcessor.runFlusher) (fun s d => d.Fresh s) {} stamp)
    (hping : Along (Ingest.step kept PingProcessor.runFlusher) (fun s d => d.Fresh s) {} ping)
    (htrace : Along (TraceProcessor.step kept) (fun s d => d.Fresh s) {} trace) :
    Throughout (Ingest.step kept StampProcessor.runFlusher) (fun s => s.intake.StoredOnce) {}
        stamp ∧
      Throughout (Ingest.step kept PingProcessor.runFlusher) (fun s => s.intake.StoredOnce) {}
        ping ∧
      Throughout (TraceProcessor.step kept) Intake.StoredOnce {} trace :=
  ⟨Ingest.storedOnce kept (by decide) hstamp, Ingest.storedOnce kept (by decide) hping,
    TraceProcessor.storedOnce kept htrace⟩

/-! Measurements that are texts, and kept as they are. -/

/-- A report is fetched and put into the batch. -/
def batched (report : Nat) : List (Delivery String String) :=
  [.deliver report, .hand "m" ["p"], .receive {} {}]

/-- A report that is rejected once, and then lost with its process, is delivered until it is stored.
-/
def persistent : List (Delivery String String) :=
  [.deliver 1, .reject] ++ batched 1 ++ [.tick { commit := true } {}] ++ batched 1 ++
    [.tick {} { dies := some 0 }] ++ batched 1 ++ [.tick {} {}, .deliver 1]

theorem persistent_stored_once :
    Throughout (Ingest.step id StampProcessor.runFlusher) (fun s => s.intake.StoredOnce) {}
        persistent ∧
      Throughout (Ingest.step id PingProcessor.runFlusher) (fun s => s.intake.StoredOnce) {}
        (persistent.take 13) ∧
      Throughout (TraceProcessor.step id) Intake.StoredOnce {}
        [.deliver 1, .handle .failed {}, .deliver 1, .handle (.stored "m") { dies := some 0 },
          .deliver 1, .handle (.stored "m") {}] :=
  reports_stored_once id (by decide +kernel) (by decide +kernel) (by decide +kernel)

/-- An acknowledgement that gets lost, a process that dies before it, or a stream that does not wait
for it, and there are two measurements for one report, in each of the three processors. -/
theorem report_stored_twice :
    ¬ (run (Ingest.step id StampProcessor.runFlusher) ({} : Ingest String String)
        (batched 1 ++ [.tick {} { lost := fun _ => true }] ++ batched 1 ++
          [.tick {} {}])).intake.StoredOnce ∧
      ¬ (run (Ingest.step id PingProcessor.runFlusher) ({} : Ingest String String)
        (batched 1 ++ [.tick {} { dies := some 1 }] ++ batched 1 ++
          [.tick {} {}])).intake.StoredOnce ∧
      ¬ (run (Ingest.step id StampProcessor.runFlusher) ({} : Ingest String String)
        (batched 1 ++ batched 1 ++ [.tick {} {}])).intake.StoredOnce ∧
      ¬ (run (TraceProcessor.step id) ({} : Intake String)
        [.deliver 1, .handle (.stored "m") { dies := some 1 }, .deliver 1,
          .handle (.stored "m") {}]).StoredOnce := by
  decide +kernel

end Cepheus.Processor
