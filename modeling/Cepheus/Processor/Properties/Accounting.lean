import Mathlib.Data.List.Nodup
import Cepheus.Infra.Journal
import Cepheus.Processor.Flusher

/-!
# Accounting for messages

A flush either leaves nothing in the tables and rejects every message of its batch, or it stores
them all and then acknowledges them (`Flushed`). Over a whole run, what has been flushed and what
has been done with it agree (`Ledger`).
-/

namespace Cepheus.Processor

open Infra

variable {M P : Type}

/-! ## A flush -/

/-- The rows for the measurements of a batch, with the ids from `id` on. -/
def measurementRows (id : Nat) : List (Pending M P) → List (MeasurementRow M)
  | [] => []
  | p :: batch =>
    { id, msg := p.msg, measurement := p.measurement } :: measurementRows (id + 1) batch

/-- The rows for the probes of a batch. -/
def probeRows (id : Nat) : List (Pending M P) → List (ProbeRow P)
  | [] => []
  | p :: batch =>
    (p.probes.map fun probe => { measurementID := id, msg := p.msg, probe }) ++
      probeRows (id + 1) batch

/-- The loop over the batch inserts all rows of all messages, or it fails. -/
theorem insertBatch_eq_some {faults : Faults} {firstID : Nat} {batch : List (Pending M P)} :
    ∀ {i : Nat} {tx tx' : Transaction M P}, insertBatch faults firstID i batch tx = some tx' →
      tx' =
        { measurements := tx.measurements ++ measurementRows (firstID + i) batch
          probes := tx.probes ++ probeRows (firstID + i) batch } := by
  induction batch with
  | nil =>
    intro i tx tx' h
    obtain rfl := Option.some.inj h
    simp [measurementRows, probeRows]
  | cons p batch ih =>
    intro i tx tx' h
    unfold insertBatch at h
    split at h
    · cases h
    · simp only at h
      split at h
      · next hempty =>
        rw [ih h]
        simp [measurementRows, probeRows, List.isEmpty_iff.mp hempty, Nat.add_assoc]
      · split at h
        · cases h
        · rw [ih h]
          simp [measurementRows, probeRows, Nat.add_assoc]

/-- What a flush comes to. -/
inductive Flushed (firstID : Nat) (batch : List (Pending M P)) : List (Effect M P) → Prop
  | naked : Flushed firstID batch (nakAll batch)
  | acked : Flushed firstID batch
      (.committed
          { measurements := measurementRows firstID batch, probes := probeRows firstID batch } ::
        ackAll batch)

theorem flush_flushed (faults : Faults) (firstID : Nat) (batch : List (Pending M P)) :
    Flushed firstID batch (flush faults firstID batch) := by
  unfold flush
  split
  · next hempty =>
    rw [List.isEmpty_iff.mp hempty]
    exact .naked
  · split
    · exact .naked
    · split
      · exact .naked
      · next tx htx =>
        split
        · exact .naked
        · rw [insertBatch_eq_some htx]
          exact .acked

/-! ## Rows -/

/-- The messages that a transaction has rows of. -/
def Transaction.msgs (tx : Transaction M P) : List Msg :=
  tx.measurements.map MeasurementRow.msg ++ tx.probes.map ProbeRow.msg

/-- A transaction has one measurement for a message, and its probes with the id of this measurement.
-/
def Transaction.Stores (tx : Transaction M P) (p : Pending M P) : Prop :=
  ∃ id,
    tx.measurements.filter (fun row => row.msg = p.msg) =
      [{ id, msg := p.msg, measurement := p.measurement }] ∧
    tx.probes.filter (fun row => row.msg = p.msg) =
      p.probes.map fun probe => { measurementID := id, msg := p.msg, probe }

theorem msg_of_mem_measurementRows {row : MeasurementRow M} {batch : List (Pending M P)} :
    ∀ {id : Nat}, row ∈ measurementRows id batch → ∃ p ∈ batch, p.msg = row.msg := by
  induction batch with
  | nil => exact fun h => absurd h List.not_mem_nil
  | cons p batch ih =>
    intro id h
    rcases List.mem_cons.mp h with rfl | h
    · exact ⟨p, List.mem_cons_self, rfl⟩
    · obtain ⟨q, hq, heq⟩ := ih h
      exact ⟨q, List.mem_cons_of_mem _ hq, heq⟩

theorem msg_of_mem_probeRows {row : ProbeRow P} {batch : List (Pending M P)} :
    ∀ {id : Nat}, row ∈ probeRows id batch → ∃ p ∈ batch, p.msg = row.msg := by
  induction batch with
  | nil => exact fun h => absurd h List.not_mem_nil
  | cons p batch ih =>
    intro id h
    rcases List.mem_append.mp h with h | h
    · obtain ⟨probe, -, rfl⟩ := List.mem_map.mp h
      exact ⟨p, List.mem_cons_self, rfl⟩
    · obtain ⟨q, hq, heq⟩ := ih h
      exact ⟨q, List.mem_cons_of_mem _ hq, heq⟩

theorem ids_measurementRows {batch : List (Pending M P)} :
    ∀ {id : Nat},
      (measurementRows id batch).map MeasurementRow.id = List.range' id batch.length := by
  induction batch with
  | nil => exact rfl
  | cons p batch ih =>
    intro id
    rw [measurementRows, List.map_cons, ih]
    rfl

/-- The rows of one message, in a batch of different messages. -/
theorem stores_rows {p : Pending M P} {batch : List (Pending M P)} :
    ∀ {id : Nat}, (batch.map Pending.msg).Nodup → p ∈ batch →
      Transaction.Stores
        { measurements := measurementRows id batch, probes := probeRows id batch } p := by
  induction batch with
  | nil => exact fun _ h => absurd h List.not_mem_nil
  | cons q batch ih =>
    intro id hnodup hp
    rw [List.map_cons, List.nodup_cons] at hnodup
    have hother : ∀ r ∈ batch, r.msg ≠ q.msg :=
      fun r hr heq => hnodup.1 (heq ▸ List.mem_map_of_mem hr)
    rcases List.mem_cons.mp hp with rfl | hp
    · -- none of the other rows is of this message
      have hm : (measurementRows (id + 1) batch).filter (fun row => row.msg = p.msg) = [] := by
        rw [List.filter_eq_nil_iff]
        intro row hrow heq
        obtain ⟨r, hr, hmsg⟩ := msg_of_mem_measurementRows hrow
        exact hother r hr (hmsg.trans (by simpa using heq))
      have hpr : (probeRows (id + 1) batch).filter (fun row => row.msg = p.msg) = [] := by
        rw [List.filter_eq_nil_iff]
        intro row hrow heq
        obtain ⟨r, hr, hmsg⟩ := msg_of_mem_probeRows hrow
        exact hother r hr (hmsg.trans (by simpa using heq))
      refine ⟨id, ?_, ?_⟩
      · simp [measurementRows, hm]
      · simp [probeRows, List.filter_append, hpr, List.filter_map, Function.comp_def]
    · have hne : q.msg ≠ p.msg := (hother p hp).symm
      obtain ⟨id', hm, hpr⟩ := @ih (id + 1) hnodup.2 hp
      refine ⟨id', ?_, ?_⟩
      · simpa [measurementRows, hne] using hm
      · simpa [probeRows, List.filter_append, List.filter_map, Function.comp_def, hne] using hpr

/-! ## Ledgers -/

/-- The message that an effect settles. -/
def Effect.settled : Effect M P → Option Msg
  | .committed _ => none
  | .ack msg => some msg
  | .nak msg => some msg

/-- The measurements that an effect commits. -/
def Effect.measurements : Effect M P → List (MeasurementRow M)
  | .committed tx => tx.measurements
  | .ack _ => []
  | .nak _ => []

theorem settled_nakAll (batch : List (Pending M P)) :
    (nakAll batch).filterMap Effect.settled = batch.map Pending.msg := by
  simp [nakAll, List.filterMap_map, Function.comp_def, Effect.settled]

theorem settled_ackAll (batch : List (Pending M P)) :
    (ackAll batch).filterMap Effect.settled = batch.map Pending.msg := by
  simp [ackAll, List.filterMap_map, Function.comp_def, Effect.settled]

theorem measurements_nakAll (batch : List (Pending M P)) :
    (nakAll batch).flatMap Effect.measurements = [] := by
  simp [nakAll, Effect.measurements]

theorem measurements_ackAll (batch : List (Pending M P)) :
    (ackAll batch).flatMap Effect.measurements = [] := by
  simp [ackAll, Effect.measurements]

/-- An acknowledgement comes after a commit of the message. -/
def AckedAfter (flushed : List (Pending M P)) (before : List (Effect M P)) (e : Effect M P) :
    Prop :=
  ∀ msg, e = .ack msg →
    ∃ p ∈ flushed, p.msg = msg ∧ ∃ tx, .committed tx ∈ before ∧ tx.Stores p

theorem AckedAfter.imp {flushed flushed' : List (Pending M P)} {before before' : List (Effect M P)}
    {e : Effect M P} (h : AckedAfter flushed before e) (hflushed : ∀ p ∈ flushed, p ∈ flushed')
    (hbefore : ∀ e ∈ before, e ∈ before') : AckedAfter flushed' before' e := by
  intro msg he
  obtain ⟨p, hp, hmsg, tx, htx, hstores⟩ := h msg he
  exact ⟨p, hflushed p hp, hmsg, tx, hbefore _ htx, hstores⟩

/-- What has been flushed, and what has been done with it. -/
structure Ledger (flushed : List (Pending M P)) (log : List (Effect M P)) (nextID : Nat) :
    Prop where
  settled : log.filterMap Effect.settled = flushed.map Pending.msg
  acked : Justified (AckedAfter flushed) log
  stored : ∀ tx, .committed tx ∈ log → ∀ msg ∈ tx.msgs, .ack msg ∈ log
  ids : ((log.flatMap Effect.measurements).map MeasurementRow.id).Nodup
  bound : ∀ row ∈ log.flatMap Effect.measurements, row.id < nextID

theorem ledger_nil : Ledger ([] : List (Pending M P)) [] 0 where
  settled := rfl
  acked := justified_nil
  stored := fun _ h => absurd h List.not_mem_nil
  ids := List.nodup_nil
  bound := fun _ h => absurd h List.not_mem_nil

variable {flushed batch : List (Pending M P)} {log effects : List (Effect M P)}
  {nextID nextID' : Nat}

theorem Ledger.acked_append (h : Ledger flushed log nextID)
    (hnew : Justified (AckedAfter (flushed ++ batch)) effects) :
    Justified (AckedAfter (flushed ++ batch)) (log ++ effects) := by
  have hold : Justified (AckedAfter (flushed ++ batch)) log :=
    h.acked.imp fun before e he =>
      he.imp (fun p hp => List.mem_append_left _ hp) (fun _ hmem => hmem)
  refine hold.append hnew fun before e he => ?_
  exact he.imp (fun _ hp => hp) (fun _ hmem => List.mem_append_right _ hmem)

theorem Ledger.naked (h : Ledger flushed log nextID) (hnext : nextID ≤ nextID') :
    Ledger (flushed ++ batch) (log ++ nakAll batch) nextID' where
  settled := by rw [List.filterMap_append, h.settled, settled_nakAll, List.map_append]
  acked := by
    refine h.acked_append (justified_of_forall fun e he before msg heq => ?_)
    obtain ⟨p, -, rfl⟩ := List.mem_map.mp he
    cases heq
  stored := by
    intro tx htx msg hmsg
    rcases List.mem_append.mp htx with htx | htx
    · exact List.mem_append_left _ (h.stored tx htx msg hmsg)
    · obtain ⟨p, -, heq⟩ := List.mem_map.mp htx
      cases heq
  ids := by
    rw [List.flatMap_append, measurements_nakAll, List.append_nil]
    exact h.ids
  bound := by
    rw [List.flatMap_append, measurements_nakAll, List.append_nil]
    exact fun row hrow => Nat.lt_of_lt_of_le (h.bound row hrow) hnext

theorem mem_range'_of_mem_measurementRows {row : MeasurementRow M}
    (h : row ∈ measurementRows nextID batch) :
    nextID ≤ row.id ∧ row.id < nextID + batch.length := by
  have hmem : row.id ∈ (measurementRows nextID batch).map MeasurementRow.id :=
    List.mem_map_of_mem h
  rw [ids_measurementRows, List.mem_range'_1] at hmem
  exact hmem

theorem Ledger.committed (h : Ledger flushed log nextID) (hnodup : (batch.map Pending.msg).Nodup)
    (hnext : nextID + batch.length ≤ nextID') :
    Ledger (flushed ++ batch)
      (log ++ .committed
          { measurements := measurementRows nextID batch, probes := probeRows nextID batch } ::
        ackAll batch) nextID' where
  settled := by
    rw [List.filterMap_append, h.settled, List.filterMap_cons_none rfl, settled_ackAll,
      List.map_append]
  acked := by
    refine h.acked_append (justified_cons (fun msg heq => by cases heq) ?_)
    intro e he before msg heq
    obtain ⟨p, hp, rfl⟩ := List.mem_map.mp he
    cases heq
    exact ⟨p, List.mem_append_right _ hp, rfl, _, List.mem_cons_self, stores_rows hnodup hp⟩
  stored := by
    have hack : ∀ p ∈ batch, ∀ msg, p.msg = msg → Effect.ack msg ∈ ackAll batch := by
      rintro p hp msg rfl
      exact List.mem_map_of_mem (f := fun p : Pending M P => Effect.ack p.msg) hp
    intro tx htx msg hmsg
    rcases List.mem_append.mp htx with htx | htx
    · exact List.mem_append_left _ (h.stored tx htx msg hmsg)
    · refine List.mem_append_right _ (List.mem_cons_of_mem _ ?_)
      rcases List.mem_cons.mp htx with heq | htx
      · obtain rfl := Effect.committed.inj heq
        rcases List.mem_append.mp hmsg with hmsg | hmsg
        · obtain ⟨row, hrow, rfl⟩ := List.mem_map.mp hmsg
          obtain ⟨p, hp, heq⟩ := msg_of_mem_measurementRows hrow
          exact hack p hp _ heq
        · obtain ⟨row, hrow, rfl⟩ := List.mem_map.mp hmsg
          obtain ⟨p, hp, heq⟩ := msg_of_mem_probeRows hrow
          exact hack p hp _ heq
      · obtain ⟨p, -, heq⟩ := List.mem_map.mp htx
        cases heq
  ids := by
    rw [List.flatMap_append, List.flatMap_cons, measurements_ackAll, List.append_nil,
      List.map_append]
    refine List.nodup_append.mpr ⟨h.ids, ?_, ?_⟩
    · rw [Effect.measurements, ids_measurementRows]
      exact List.nodup_range'
    · -- the ids of this batch are new
      rintro a ha b hb rfl
      obtain ⟨row, hrow, rfl⟩ := List.mem_map.mp ha
      obtain ⟨row', hrow', heq⟩ := List.mem_map.mp hb
      have hlt := h.bound row hrow
      have hge := (mem_range'_of_mem_measurementRows hrow').1
      omega
  bound := by
    rw [List.flatMap_append, List.flatMap_cons, measurements_ackAll, List.append_nil]
    intro row hrow
    rcases List.mem_append.mp hrow with hrow | hrow
    · have hlt := h.bound row hrow
      omega
    · have hlt := (mem_range'_of_mem_measurementRows hrow).2
      omega

theorem Ledger.flush (h : Ledger flushed log nextID) (hf : Flushed nextID batch effects)
    (hnodup : (batch.map Pending.msg).Nodup) (hnext : nextID + batch.length ≤ nextID') :
    Ledger (flushed ++ batch) (log ++ effects) nextID' := by
  cases hf with
  | naked => exact h.naked (by omega)
  | acked => exact h.committed hnodup hnext

theorem Ledger.wait (h : Ledger flushed log nextID) (hnext : nextID ≤ nextID') :
    Ledger flushed (log ++ []) nextID' := by
  rw [List.append_nil]
  exact { h with bound := fun row hrow => Nat.lt_of_lt_of_le (h.bound row hrow) hnext }

/-! ## Whole runs -/

/-- The message that comes with an event. -/
def Event.arrived : Event M P → List (Pending M P)
  | .pending p => [p]
  | .tick => []
  | .done => []

/-- All that an iteration does: what it has is kept, or flushed. -/
inductive Flusher.Next (flushSize firstID : Nat) (s : Flusher M P) (arrived : List (Pending M P)) :
    Flusher M P × List (Effect M P) → Prop
  | kept {stopped : Bool} (hlen : (s.batch ++ arrived).length < flushSize) :
      Next flushSize firstID s arrived ({ batch := s.batch ++ arrived, stopped }, [])
  | flushed {effects : List (Effect M P)} (hf : Flushed firstID (s.batch ++ arrived) effects) :
      Next flushSize firstID s arrived ({ s with batch := [] }, effects)

theorem Flusher.iterate_next {flushSize : Nat} {s : Flusher M P} {e : Event M P} (faults : Faults)
    (firstID : Nat) (hlen : s.batch.length < flushSize)
    (hopen : s.stopped = true → e.arrived = []) :
    s.Next flushSize firstID e.arrived (s.iterate flushSize faults firstID e) := by
  have hsame : ∀ stopped, s.Next flushSize firstID [] ({ batch := s.batch, stopped }, []) := by
    intro stopped
    have hkept := @Flusher.Next.kept M P flushSize firstID s [] stopped (by simpa using hlen)
    rwa [List.append_nil] at hkept
  unfold Flusher.iterate
  split
  · next hstopped =>
    rw [hopen hstopped]
    exact hsame s.stopped
  · cases e with
    | done => exact hsame true
    | pending p =>
      simp only
      split
      · exact .flushed (flush_flushed faults firstID _)
      · next hlt => exact .kept (Nat.lt_of_not_le hlt)
    | tick =>
      have hf := flush_flushed faults firstID s.batch
      exact .flushed (by rwa [Event.arrived, List.append_nil])

/-- A flusher, with what it has been handed and what it has done. -/
structure Recorded (M P : Type) where
  flusher : Flusher M P := {}
  handed : List (Pending M P) := []
  nextID : Nat := 0
  log : List (Effect M P) := []

/-- What happens to a flusher, and what fails in the flush that comes of it. -/
inductive Move (M P : Type) where
  /-- A message is handed to it. -/
  | pending (report : Nat) (measurement : M) (probes : List P) (faults : Faults)
  | tick (faults : Faults)
  | done

section

variable (runFlusher : Faults → Nat → Flusher M P → Event M P → Flusher M P × List (Effect M P))

/-- An iteration is recorded. The database has ids enough for a flush of the batch. -/
def Recorded.record (s : Recorded M P) (faults : Faults) (e : Event M P) : Recorded M P :=
  match runFlusher faults s.nextID s.flusher e with
  | (flusher, effects) =>
    { flusher
      handed := s.handed ++ e.arrived
      nextID := s.nextID + (s.flusher.batch ++ e.arrived).length
      log := s.log ++ effects }

def Recorded.step (s : Recorded M P) : Move M P → Recorded M P
  | .pending report measurement probes faults =>
    if s.flusher.stopped then s
    else
      s.record runFlusher faults
        (.pending { msg := { delivery := s.handed.length, report }, measurement, probes })
  | .tick faults => s.record runFlusher faults .tick
  | .done => s.record runFlusher {} .done

end

/-- Every message that was handed over has been flushed, or is in the batch. -/
structure Recorded.Balanced (flushSize : Nat) (s : Recorded M P) : Prop where
  ledger : ∃ flushed, s.handed = flushed ++ s.flusher.batch ∧ Ledger flushed s.log s.nextID
  numbered : ∀ p ∈ s.handed, p.msg.delivery < s.handed.length
  distinct : (s.handed.map Pending.msg).Nodup
  batch : s.flusher.batch.length < flushSize

theorem Recorded.balanced_init {flushSize : Nat} (h : 0 < flushSize) :
    ({} : Recorded M P).Balanced flushSize where
  ledger := ⟨[], rfl, ledger_nil⟩
  numbered := fun _ hp => absurd hp List.not_mem_nil
  distinct := List.nodup_nil
  batch := h

theorem Recorded.Balanced.record {flushSize : Nat} {s : Recorded M P} (h : s.Balanced flushSize)
    (faults : Faults) {e : Event M P} (hopen : s.flusher.stopped = true → e.arrived = [])
    (hnew : ∀ p ∈ e.arrived, e.arrived = [p] ∧ p.msg.delivery = s.handed.length) :
    (s.record (Flusher.iterate flushSize) faults e).Balanced flushSize := by
  have hnumbered : ∀ p ∈ s.handed ++ e.arrived,
      p.msg.delivery < (s.handed ++ e.arrived).length := by
    intro p hp
    rcases List.mem_append.mp hp with hp | hp
    · have hlt := h.numbered p hp
      rw [List.length_append]
      omega
    · obtain ⟨heq, hdelivery⟩ := hnew p hp
      rw [heq, List.length_append, List.length_singleton]
      omega
  have hdistinct : ((s.handed ++ e.arrived).map Pending.msg).Nodup := by
    rw [List.map_append]
    refine List.nodup_append.mpr ⟨h.distinct, ?_, ?_⟩
    · cases harr : e.arrived with
      | nil => exact List.nodup_nil
      | cons p l =>
        rw [← harr, (hnew p (harr ▸ List.mem_cons_self)).1]
        exact List.nodup_singleton _
    · -- a new message has a new number
      rintro a ha b hb rfl
      obtain ⟨p, hp, rfl⟩ := List.mem_map.mp ha
      obtain ⟨q, hq, heq⟩ := List.mem_map.mp hb
      have hlt := h.numbered p hp
      rw [← heq, (hnew q hq).2] at hlt
      omega
  obtain ⟨flushed, hhanded, hledger⟩ := h.ledger
  have hsplit : s.handed ++ e.arrived = flushed ++ (s.flusher.batch ++ e.arrived) := by
    rw [hhanded, List.append_assoc]
  have hpos : 0 < flushSize := Nat.lt_of_le_of_lt (Nat.zero_le _) h.batch
  have hn := s.flusher.iterate_next faults s.nextID h.batch hopen
  unfold Recorded.record
  generalize s.flusher.iterate flushSize faults s.nextID e = next at hn ⊢
  cases hn with
  | kept hlen =>
    exact ⟨⟨flushed, hsplit, hledger.wait (Nat.le_add_right _ _)⟩, hnumbered, hdistinct, hlen⟩
  | flushed hf =>
    refine ⟨⟨s.handed ++ e.arrived, (List.append_nil _).symm, ?_⟩, hnumbered, hdistinct, hpos⟩
    have hnodup := hdistinct
    rw [hsplit, List.map_append] at hnodup
    rw [hsplit]
    exact hledger.flush hf (List.nodup_append.mp hnodup).2.1 (Nat.le_refl _)

theorem Recorded.Balanced.step {flushSize : Nat} {s : Recorded M P} (h : s.Balanced flushSize)
    (m : Move M P) : (s.step (Flusher.iterate flushSize) m).Balanced flushSize := by
  cases m with
  | pending report measurement probes faults =>
    unfold Recorded.step
    simp only
    split
    · exact h
    · next hopen =>
      refine h.record faults (fun hstopped => absurd hstopped hopen) ?_
      intro p hp
      obtain rfl := List.mem_singleton.mp hp
      exact ⟨rfl, rfl⟩
  | tick faults =>
    refine h.record faults (e := .tick) (fun _ => rfl) ?_
    exact fun p hp => absurd hp List.not_mem_nil
  | done =>
    refine h.record {} (e := .done) (fun _ => rfl) ?_
    exact fun p hp => absurd hp List.not_mem_nil

/-- What is done with the messages agrees with what is stored. -/
structure Recorded.Accounted (flushSize : Nat) (s : Recorded M P) : Prop where
  /-- The messages are different ones. -/
  distinct : (s.handed.map Pending.msg).Nodup
  /-- A message is acknowledged or rejected, once. -/
  once : (s.log.filterMap Effect.settled).Nodup
  /-- It is acknowledged after it has been stored. -/
  acked : ∀ before msg after, s.log = before ++ .ack msg :: after →
    ∃ p ∈ s.handed, p.msg = msg ∧ ∃ tx, .committed tx ∈ before ∧ tx.Stores p
  /-- It is rejected only if nothing of it is stored. -/
  naked : ∀ msg, .nak msg ∈ s.log → ∀ tx, .committed tx ∈ s.log → msg ∉ tx.msgs
  /-- The id of a measurement is that of no other. -/
  ids : ((s.log.flatMap Effect.measurements).map MeasurementRow.id).Nodup
  batch : s.flusher.batch.length < flushSize

theorem Recorded.Balanced.accounted {flushSize : Nat} {s : Recorded M P}
    (h : s.Balanced flushSize) : s.Accounted flushSize := by
  obtain ⟨flushed, hhanded, hledger⟩ := h.ledger
  have honce : (s.log.filterMap Effect.settled).Nodup := by
    have hdistinct := h.distinct
    rw [hhanded, List.map_append] at hdistinct
    rw [hledger.settled]
    exact (List.nodup_append.mp hdistinct).1
  refine
    { distinct := h.distinct
      once := honce
      acked := ?_
      naked := ?_
      ids := hledger.ids
      batch := h.batch }
  · intro before msg after heq
    obtain ⟨p, hp, hstored⟩ := hledger.acked before _ after heq msg rfl
    exact ⟨p, hhanded ▸ List.mem_append_left _ hp, hstored⟩
  · intro msg hnak tx htx hmsg
    have hack := hledger.stored tx htx msg hmsg
    cases eq_of_nodup_filterMap honce hnak hack rfl rfl

/-- **Over every run of the flushers of the two processors, with any faults, what they do with their
messages agrees with what they have stored.** -/
theorem flushers_accounted (moves : List (Move M P)) :
    Throughout (Recorded.step StampProcessor.runFlusher)
        (Recorded.Accounted StampProcessor.flushSize) {} moves ∧
      Throughout (Recorded.step PingProcessor.runFlusher)
        (Recorded.Accounted PingProcessor.flushSize) {} moves := by
  have hall : ∀ flushSize, 0 < flushSize →
      Throughout (Recorded.step (Flusher.iterate flushSize)) (Recorded.Accounted flushSize)
        ({} : Recorded M P) moves := by
    intro flushSize hpos
    have hbalanced : Throughout (Recorded.step (Flusher.iterate flushSize))
        (Recorded.Balanced flushSize) ({} : Recorded M P) moves :=
      throughout_always (fun s m h => h.step m) (Recorded.balanced_init hpos)
    exact hbalanced.imp fun s h => h.accounted
  exact ⟨hall StampProcessor.flushSize (by decide), hall PingProcessor.flushSize (by decide)⟩

-- One message of a batch that cannot be stored has the others rejected with it.
example :
    (run (Recorded.step StampProcessor.runFlusher) ({} : Recorded String Nat)
        [.pending 7 "a" [] {}, .pending 8 "b" [1, 2] {},
          .tick { insertProbes := fun i => i == 1 }]).log =
      [.nak { delivery := 0, report := 7 }, .nak { delivery := 1, report := 8 }] := by
  decide +kernel

end Cepheus.Processor
