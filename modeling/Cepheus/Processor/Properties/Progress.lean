import Cepheus.Processor.Properties.Sources

/-!
# No report gets stuck

Whatever has gone wrong before, a processor that is left alone stores a report that its consumer
delivers and that it can decode. It finishes what it has begun: the flusher takes what is in the
channel, each round of the loop settles a report that has been fetched, and a tick flushes the rest
(`Consumer.idle_of_clearing`). Then the report can be delivered, if it is not in the tables already
(`Consumer.stored_of_finishing`).
-/

namespace Cepheus.Processor

open Infra Common TraceProcessor

variable {M P : Type} {kept : M → M}

/-! ## Without faults -/

theorem exists_insertBatch (firstID : Nat) : ∀ (batch : List (Pending M P)) (i : Nat)
    (tx : Transaction M P), ∃ tx', insertBatch {} firstID i batch tx = some tx'
  | [], _, tx => ⟨tx, rfl⟩
  | p :: batch, i, tx => by
    unfold insertBatch
    simp only [Bool.false_eq_true, if_false]
    split <;> exact exists_insertBatch firstID batch _ _

/-- A flush in which nothing fails stores the batch. -/
theorem flush_calm (firstID : Nat) (batch : List (Pending M P)) :
    (flush {} firstID batch).flatMap Effect.measurements = measurementRows firstID batch := by
  unfold flush
  split
  · next hempty => simp [List.isEmpty_iff.mp hempty, measurementRows]
  · obtain ⟨tx, htx⟩ := exists_insertBatch firstID batch 0 {}
    simp [htx, insertBatch_eq_some htx, measurements_ackAll, Effect.measurements]

/-- A tick at which nothing fails stores what is waiting. -/
theorem Ingest.tick_calm (kept : M → M) (flushSize : Nat) {s : Ingest M P}
    (hs : s.flusher.stopped = false) :
    (s.step kept (Flusher.iterate flushSize) (.tick {} {})).flusher.batch = [] ∧
      (s.step kept (Flusher.iterate flushSize) (.tick {} {})).intake.rows = s.intake.rows ++
        (measurementRows s.intake.nextID s.flusher.batch).map (MeasurementRow.map kept) := by
  constructor
  · simp [step, settle, Flusher.iterate, hs]
  · simp only [step, settle, Flusher.iterate, hs, Bool.false_eq_true, if_false, Intake.settle]
    rw [rows_performAll, flush_calm]

theorem Ingest.rows_subset_step (kept : M → M) (flushSize : Nat) (s : Ingest M P)
    (d : Delivery M P) :
    s.intake.rows ⊆ (s.step kept (Flusher.iterate flushSize) d).intake.rows := by
  have hsettle : ∀ (pending : List (Pending M P)) (fate : Fate)
      (next : Flusher M P × List (Effect M P)),
      s.intake.rows ⊆ (settle kept s.intake pending fate next).intake.rows := by
    intro pending fate next
    obtain ⟨k, hrows⟩ := rows_settle kept s.intake fate next.2
    rw [settle, hrows]
    exact List.subset_append_left _ _
  cases d with
  | deliver report =>
    simp only [step, Intake.deliver]
    split <;> exact List.Subset.refl _
  | hand _ _ | reject =>
    simp only [step]
    repeat' split
    all_goals exact List.Subset.refl _
  | receive faults fate =>
    simp only [step]
    split
    · exact List.Subset.refl _
    · exact hsettle _ _ _
  | tick faults fate => exact hsettle _ _ _
  | crash => exact List.Subset.refl _

/-! ## The loop over the reports -/

namespace Consumer

variable {flushSize stored : Nat} {decoded : Nat → Decoded M P} {s : Consumer M P}

/-- One step, without the messages. -/
def next (kept : M → M) (flushSize stored : Nat) (decoded : Nat → Decoded M P)
    (s : Consumer M P) (m : Move) : Consumer M P :=
  (s.step kept (Flusher.iterate flushSize) stored decoded m).1

@[simp] theorem ingest_survive (s : Consumer M P) (fate : Fate) (ingest : Ingest M P) :
    (s.survive stored fate ingest).ingest = ingest := by
  unfold survive
  split <;> rfl

/-- What every delivery keeps, the loop keeps. -/
theorem ingest_invariant {I : Ingest M P → Prop} (h : I s.ingest)
    (hstep : ∀ d, I (s.ingest.step kept (Flusher.iterate flushSize) d)) (m : Move) :
    I (s.next kept flushSize stored decoded m).ingest := by
  cases m with
  | deliver _ | take | attempt _ | hand | receive _ _ =>
    simp only [next, step]
    repeat' split
    all_goals
      simp only [ingest_survive, restart]
      first | exact h | exact hstep _
  | tick faults fate =>
    simp only [next, step, ingest_survive]
    exact hstep (.tick faults fate)
  | crash => exact hstep .crash
  | lapse => exact h

/-- A processor in any state that it can get to. -/
def Ready (kept : M → M) (flushSize : Nat) (s : Consumer M P) : Prop :=
  s.ingest.Holds kept flushSize fun _ _ => True

theorem ready_start (h : 0 < flushSize) : (start : Consumer M P).Ready kept flushSize :=
  Ingest.holds_init h

theorem Ready.next (h : s.Ready kept flushSize) (m : Move) :
    (s.next kept flushSize stored decoded m).Ready kept flushSize :=
  ingest_invariant (I := fun i => i.Holds kept flushSize fun _ _ => True) h
    (fun d => h.step (by cases d <;> first | trivial | exact fun _ _ => trivial)) m

theorem Ready.run (h : s.Ready kept flushSize) (stored : Nat) (decoded : Nat → Decoded M P)
    (moves : List Move) :
    (run (Consumer.next kept flushSize stored decoded) s moves).Ready kept flushSize :=
  run_always (fun _ m h => h.next m) h

theorem rows_subset_run (moves : List Move) :
    s.ingest.intake.rows ⊆
      (run (next kept flushSize stored decoded) s moves).ingest.intake.rows := by
  have hstep : ∀ (t : Consumer M P) m, s.ingest.intake.rows ⊆ t.ingest.intake.rows →
      s.ingest.intake.rows ⊆ (t.next kept flushSize stored decoded m).ingest.intake.rows :=
    fun t m h => ingest_invariant (I := fun i => s.ingest.intake.rows ⊆ i.intake.rows) h
      (fun d => List.Subset.trans h (t.ingest.rows_subset_step kept flushSize d)) m
  exact run_always hstep (List.Subset.refl _)

/-! ## Rounds -/

/-- A round of the loop in which nothing fails, and the flusher takes what comes of it. -/
def round : List Move := [.take, .attempt .done, .hand, .receive {} {}]

/-- Nothing is in the channel, and no more than `n` reports have been fetched. -/
structure Remaining (n : Nat) (subscription : Subscription) (s : Consumer M P) : Prop where
  subscription : s.subscription = subscription
  pending : s.ingest.pending = []
  fetched : s.ingest.intake.fetched.length ≤ n

/-- What the flusher changes when it takes a report out of the channel. -/
theorem receive_calm (kept : M → M) (flushSize stored : Nat) (decoded : Nat → Decoded M P)
    (s : Consumer M P) :
    (s.next kept flushSize stored decoded (.receive {} {})).stage = s.stage ∧
      (s.next kept flushSize stored decoded (.receive {} {})).subscription = s.subscription ∧
      (s.next kept flushSize stored decoded (.receive {} {})).ingest.pending =
        s.ingest.pending.tail ∧
      (s.next kept flushSize stored decoded (.receive {} {})).ingest.intake.fetched =
        s.ingest.intake.fetched := by
  cases hpending : s.ingest.pending with
  | nil => simp [next, step, hpending]
  | cons p pending =>
    simp [next, step, hpending, survive, Ingest.step, Ingest.settle, fetched_settle]

/-- The flusher takes what is in the channel. -/
theorem receives_calm (kept : M → M) (flushSize stored : Nat) (decoded : Nat → Decoded M P) :
    ∀ (n : Nat) {s : Consumer M P}, s.ingest.pending.length = n →
    Remaining s.ingest.intake.fetched.length s.subscription
      (run (next kept flushSize stored decoded) s (List.replicate n (.receive {} {})))
  | 0, s, h => ⟨rfl, List.length_eq_zero_iff.1 h, Nat.le_refl _⟩
  | n + 1, s, h => by
    obtain ⟨-, hsubscription, hpending, hfetched⟩ := receive_calm kept flushSize stored decoded s
    rw [← hfetched, ← hsubscription, List.replicate_succ, run_cons]
    exact receives_calm kept flushSize stored decoded n (by simp [hpending, h])

section

variable {subscription : Subscription} {n : Nat}

/-- The next report is settled, or it is about to be put into the channel. -/
theorem Remaining.take (h : Remaining n subscription s) (hlive : subscription.live = true)
    {t : Consumer M P}
    (ht : t = run (next kept flushSize stored decoded) s [.take, .attempt .done]) :
    (Remaining (n - 1) subscription t ∧ t.stage = .fetching) ∨
      Remaining n subscription t ∧ ∃ p, t.stage = .handing p := by
  obtain ⟨rfl, hpending, hfetched⟩ := h
  subst ht
  cases hstage : s.stage with
  | handing p =>
    have hsame : run (next kept flushSize stored decoded) s [.take, .attempt .done] = s := by
      simp [run, next, step, hstage]
    rw [hsame]
    exact .inr ⟨⟨rfl, hpending, hfetched⟩, p, hstage⟩
  | publishing p =>
    have hanswered : run (next kept flushSize stored decoded) s [.take, .attempt .done] =
        { s with stage := .handing p } := by
      simp [run, next, step, hstage, Outgoing.attempt]
    rw [hanswered]
    exact .inr ⟨⟨rfl, hpending, hfetched⟩, p, rfl⟩
  | fetching =>
    cases hmsgs : s.ingest.intake.fetched with
    | nil =>
      have hsame : run (next kept flushSize stored decoded) s [.take, .attempt .done] = s := by
        simp [run, next, step, hstage, hmsgs]
      rw [hsame]
      exact .inl ⟨⟨rfl, hpending, by simp [hmsgs]⟩, hstage⟩
    | cons msg msgs =>
      have hlength : msgs.length ≤ n - 1 := by
        rw [hmsgs, List.length_cons] at hfetched
        omega
      cases hdecoded : decoded msg.report with
      | rejected =>
        refine .inl ⟨⟨?_, ?_, ?_⟩, ?_⟩ <;>
          simp [run, next, step, hstage, hmsgs, hdecoded, Ingest.step, hpending, hlength]
      | panics =>
        refine .inl ⟨⟨?_, ?_, ?_⟩, ?_⟩ <;>
          simp [run, next, step, hstage, hmsgs, hdecoded, restart, Subscription.restart, hlive,
            Ingest.step, Intake.crash]
      | built measurement probes event =>
        refine .inr ⟨⟨?_, ?_, ?_⟩, ⟨measurement, probes, event.outgoing⟩, ?_⟩ <;>
          simp [run, next, step, hstage, hmsgs, hdecoded, Outgoing.attempt, hpending]
        simpa [hmsgs] using hfetched

/-- **A round settles a report.** -/
theorem Remaining.round (h : Remaining n subscription s) (hlive : subscription.live = true) :
    Remaining (n - 1) subscription (run (next kept flushSize stored decoded) s Consumer.round) ∧
      (run (next kept flushSize stored decoded) s Consumer.round).stage = .fetching := by
  obtain ⟨t, ht⟩ : ∃ t, t = run (next kept flushSize stored decoded) s [.take, .attempt .done] :=
    ⟨_, rfl⟩
  have hround : run (next kept flushSize stored decoded) s Consumer.round =
      (t.next kept flushSize stored decoded .hand).next kept flushSize stored decoded
        (.receive {} {}) := by
    rw [ht]
    rfl
  obtain ⟨hstage', hsubscription', hpending', hfetched'⟩ :=
    receive_calm kept flushSize stored decoded (t.next kept flushSize stored decoded .hand)
  rw [hround]
  rcases h.take hlive ht with ⟨⟨hsubscription, hpending, hfetched⟩, hstage⟩ |
    ⟨⟨hsubscription, hpending, hfetched⟩, p, hstage⟩
  · have hsame : t.next kept flushSize stored decoded .hand = t := by simp [next, step, hstage]
    rw [hsame] at hstage' hsubscription' hpending' hfetched' ⊢
    refine ⟨⟨hsubscription'.trans hsubscription, ?_, ?_⟩, hstage'.trans hstage⟩
    · rw [hpending', hpending, List.tail_nil]
    · rw [hfetched']
      exact hfetched
  · have hroom : t.ingest.HasRoom := by simp [Ingest.HasRoom, hpending, pendingBuffer]
    refine ⟨⟨hsubscription'.trans ?_, hpending'.trans ?_, ?_⟩, hstage'.trans ?_⟩
    · simp [next, step, hstage, hroom, hsubscription]
    · cases hmsgs : t.ingest.intake.fetched <;>
        simp [next, step, hstage, hroom, Ingest.step, hmsgs, hpending]
    · rw [hfetched']
      cases hmsgs : t.ingest.intake.fetched with
      | nil => simp [next, step, hstage, hroom, Ingest.step, hmsgs]
      | cons msg msgs =>
        rw [hmsgs, List.length_cons] at hfetched
        simp only [next, step, hstage, hroom, if_true, Ingest.step, hmsgs]
        omega
    · simp [next, step, hstage, hroom]

theorem Remaining.rounds (kept : M → M) (flushSize stored : Nat) (decoded : Nat → Decoded M P)
    (hlive : subscription.live = true) : ∀ (n : Nat) {s : Consumer M P},
    Remaining n subscription s →
      Remaining 0 subscription (run (next kept flushSize stored decoded) s
          (List.replicate (n + 1) Consumer.round).flatten) ∧
        (run (next kept flushSize stored decoded) s
          (List.replicate (n + 1) Consumer.round).flatten).stage = .fetching
  | 0, s, h => h.round hlive
  | n + 1, s, h => by
    rw [List.replicate_succ, List.flatten_cons, run_append]
    exact rounds kept flushSize stored decoded hlive n (h.round hlive).1

end

/-- The processor has nothing to do. -/
structure Idle (s : Consumer M P) : Prop where
  stage : s.stage = .fetching
  pending : s.ingest.pending = []
  fetched : s.ingest.intake.fetched = []
  batch : s.ingest.flusher.batch = []

/-- The moves of a processor that is left alone, until it has nothing to do. -/
def clearing (s : Consumer M P) : List Move :=
  List.replicate s.ingest.pending.length (.receive {} {}) ++
    (List.replicate (s.ingest.intake.fetched.length + 1) round).flatten ++ [.tick {} {}]

theorem idle_of_clearing (hs : s.Ready kept flushSize) (hlive : s.subscription.live = true)
    (stored : Nat) (decoded : Nat → Decoded M P) :
    (run (next kept flushSize stored decoded) s s.clearing).Idle ∧
      (run (next kept flushSize stored decoded) s s.clearing).subscription = s.subscription := by
  obtain ⟨t, ht⟩ : ∃ t, t = run (next kept flushSize stored decoded) s
      (List.replicate s.ingest.pending.length (.receive {} {}) ++
        (List.replicate (s.ingest.intake.fetched.length + 1) round).flatten) := ⟨_, rfl⟩
  have hrun : run (next kept flushSize stored decoded) s s.clearing =
      t.next kept flushSize stored decoded (.tick {} {}) := by
    rw [clearing, run_append, ← ht]
    rfl
  have hready : t.Ready kept flushSize := ht ▸ hs.run stored decoded _
  rw [run_append] at ht
  obtain ⟨⟨hsubscription, hpending, hfetched⟩, hstage⟩ :=
    Remaining.rounds kept flushSize stored decoded hlive _
      (receives_calm kept flushSize stored decoded _ rfl)
  rw [← ht] at hsubscription hpending hfetched hstage
  have hbatch := (Ingest.tick_calm kept flushSize (s := t.ingest) hready.running).1
  rw [hrun]
  refine ⟨⟨?_, ?_, ?_, ?_⟩, ?_⟩
  · simpa [next, step, survive] using hstage
  · simpa [next, step, survive, Ingest.step, Ingest.settle] using hpending
  · have hkept := @Ingest.fetched_tick M P kept (Flusher.iterate flushSize) t.ingest {} {} rfl
    simpa [next, step, hkept] using hfetched
  · simpa [next, step] using hbatch
  · simpa [next, step, survive] using hsubscription

/-! ## A report -/

/-- The moves of a processor that is left alone: it finishes what it has begun, and takes the
report. -/
def finishing (s : Consumer M P) (report : Nat) : List Move :=
  s.clearing ++ (.deliver report :: round ++ [.tick {} {}])

/-- A processor that has nothing to do stores a report that has not been acknowledged. -/
theorem stored_of_idle {report : Nat} {measurement : M} {probes : List P} {event : Message}
    (hsize : 1 < flushSize) (hs : s.Ready kept flushSize) (hidle : s.Idle)
    (hdelivers : s.subscription.Delivers stored report)
    (hacked : report ∉ s.ingest.intake.acked)
    (hdecoded : decoded report = .built measurement probes event) :
    ∃ row ∈ (run (next kept flushSize stored decoded) s
      (.deliver report :: round ++ [.tick {} {}])).ingest.intake.rows, row.msg.report = report := by
  have hcan : s.ingest.intake.CanDeliver report := hacked
  obtain ⟨hstage, hpending, hfetched, hbatch⟩ := hidle
  have hrunning := hs.running
  -- the report gets to a flusher that has nothing else
  let pending : Pending M P :=
    { msg := { delivery := s.ingest.intake.deliveries, report }, measurement, probes }
  have hhanded : run (next kept flushSize stored decoded) s (.deliver report :: round) =
      { stage := .fetching
        subscription := s.subscription
        ingest :=
          { flusher := { batch := [pending], stopped := false }
            intake :=
              { s.ingest.intake with deliveries := s.ingest.intake.deliveries + 1 } } } := by
    simp [run, round, next, step, hdelivers, Ingest.step, Intake.deliver, hcan, hstage, hfetched,
      hdecoded, Outgoing.attempt, Ingest.HasRoom, pendingBuffer, hpending, survive, Ingest.settle,
      Flusher.iterate, hrunning, hbatch, Nat.not_le.2 hsize, Intake.settle, Intake.performAll,
      pending]
  obtain ⟨row, hrow, hmsg⟩ := exists_mem_measurementRows (p := pending)
    s.ingest.intake.nextID (List.mem_singleton.2 rfl)
  refine ⟨row.map kept, ?_, by rw [MeasurementRow.map, hmsg]⟩
  rw [run_append, hhanded]
  simp only [run, List.foldl_cons, List.foldl_nil, next, step, ingest_survive]
  rw [(Ingest.tick_calm kept flushSize rfl).2]
  exact List.mem_append_right _ (List.mem_map_of_mem hrow)

/-- **A processor that is left alone stores every report that it is given and can decode.** -/
theorem stored_of_finishing {report : Nat} {measurement : M} {probes : List P} {event : Message}
    (hsize : 1 < flushSize) (hs : s.Ready kept flushSize)
    (hdelivers : s.subscription.Delivers stored report)
    (hdecoded : decoded report = .built measurement probes event) :
    ∃ row ∈ (run (next kept flushSize stored decoded) s (s.finishing report)).ingest.intake.rows,
      row.msg.report = report := by
  obtain ⟨hidle, hsubscription⟩ := idle_of_clearing hs hdelivers.1 stored decoded
  have hready := hs.run stored decoded s.clearing
  rw [finishing, run_append]
  by_cases hacked : report ∈
      (run (next kept flushSize stored decoded) s s.clearing).ingest.intake.acked
  · obtain ⟨row, hrow, hreport⟩ := (hready.intake.acked report hacked).resolve_right id
    exact ⟨row, rows_subset_run _ hrow, hreport⟩
  · exact stored_of_idle hsize hready hidle (hsubscription ▸ hdelivers) hacked hdecoded

end Consumer

end Cepheus.Processor
