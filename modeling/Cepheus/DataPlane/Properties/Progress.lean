import Cepheus.DataPlane.Properties.Announced
import Cepheus.Processor.Properties.Progress

/-!
# Reports get through

If the ids of the configurations are what `uuid.Parse` accepts, no report of an agent makes a
processor panic. And whatever has happened, from every state that the data plane can get to, a
report that the consumer of the processor delivers and that the processor can decode is in the table
after some moves of that processor in which nothing fails. Nothing that went wrong before keeps it
from being stored, except for the end of the consumer: the one that is created then does not deliver
what is in the stream.
-/

namespace Cepheus.DataPlane.System

open Infra Common Agent Processor TraceProcessor

variable {D A U : Type} [DecidableEq A] {p : Plant D A U} {s : System D A U}

/-! ## Panics -/

theorem Sound.identified (h : s.Sound p)
    (hids : ∀ d, ∀ id ∈ (s.agents d).configurations, (p.parseUUID id).isSome) {stream : Stream}
    (hstream : stream ≠ .measurements) {i : Nat} {text : List Char}
    (htext : s.text stream i = some text) (payload : ReportPayload)
    (hpayload : (Json.parse text).bind ReportPayload.unmarshal = some payload) :
    (p.parseUUID payload.agentConfigId).isSome := by
  obtain ⟨d, r, id, now, json, hmeasured, -, rfl⟩ := h.payload hstream htext hpayload
  exact hids d id hmeasured.configured

/-! ## Processors that are left alone -/

/-- A processor stores nothing in the streams of the reports. -/
theorem streams_store_events {t : System D A U} {stream : Stream} {messages : List Message}
    (hstream : stream ≠ .measurements) (h : ∀ m ∈ messages, s.Announces p m) :
    (t.store messages).streams stream = t.streams stream := by
  have hnone : messages.filter stream.takes = [] := by
    refine List.filter_eq_nil_iff.2 fun m hm htakes => hstream ?_
    exact Stream.eq_of_takes htakes (Stream.root_of_takes (h m hm).takes)
  rw [streams_store, hnone, List.append_nil]

variable [DecidableEq D]

theorem Sound.streams_stamp (h : s.Sound p) (m : Consumer.Move) :
    (s.step p (.stamp m)).streams .probeStamp = s.streams .probeStamp := by
  refine streams_store_events (p := p) (s := s) (by decide) fun e he => ?_
  obtain ⟨report, measurement, probes, hb⟩ := Consumer.built_of_mem_step h.stamp m e he
  exact .stamp hb

theorem Sound.streams_ping (h : s.Sound p) (m : Consumer.Move) :
    (s.step p (.ping m)).streams .probePing = s.streams .probePing := by
  refine streams_store_events (p := p) (s := s) (by decide) fun e he => ?_
  obtain ⟨report, measurement, probes, hb⟩ := Consumer.built_of_mem_step h.ping m e he
  exact .ping hb

/-- The processors are in a state that they can go on from. -/
structure Ready (s : System D A U) : Prop where
  stamp : s.stamp.Ready StampProcessor.kept StampProcessor.flushSize
  ping : s.ping.Ready PingProcessor.kept PingProcessor.flushSize

theorem ready_run (p : Plant D A U) (moves : List (Move D)) :
    (run (step p) (start p) moves).Ready := by
  have hstep : ∀ (s : System D A U) m, s.Ready → (s.step p m).Ready := by
    intro s m h
    cases m with
    | stamp m => exact ⟨h.stamp.next m, h.ping⟩
    | ping m => exact ⟨h.stamp, h.ping.next m⟩
    | agent d m => exact ⟨h.stamp, h.ping⟩
    | trace m => exact ⟨h.stamp, h.ping⟩
    | expire =>
      simp only [step]
      split <;> exact ⟨h.stamp, h.ping⟩
  exact run_always hstep ⟨Consumer.ready_start (by decide), Consumer.ready_start (by decide)⟩

omit [DecidableEq A] [DecidableEq D] in
/-- What comes of the reports depends on their stream only. -/
theorem decoded_congr {β : Type} {s' : System D A U} {stream : Stream}
    (h : s'.streams stream = s.streams stream) (decode : List Char → β) (rejected : β) :
    s'.decoded stream decode rejected = s.decoded stream decode rejected := by
  funext i
  simp only [decoded, text, h]

/-- The STAMP processor alone. -/
theorem stamp_run (h : s.Sound p) (moves : List Consumer.Move) :
    (run (step p) s (moves.map .stamp)).stamp =
      run (Consumer.next StampProcessor.kept StampProcessor.flushSize (s.streams .probeStamp).length
        (s.decoded .probeStamp (StampProcessor.decode p.zone p.parseFloat p.parseUUID) .rejected))
        s.stamp moves := by
  refine run_part (f := System.stamp) (G := fun _ => True)
    (I := fun t => t.Sound p ∧ t.streams .probeStamp = s.streams .probeStamp)
    (fun t m ht _ => ⟨?_, ht.1.step _, (ht.1.streams_stamp m).trans ht.2⟩) ⟨h, rfl⟩
    fun _ _ => trivial
  rw [← ht.2, ← decoded_congr ht.2]
  rfl

/-- The ping processor alone. -/
theorem ping_run (h : s.Sound p) (moves : List Consumer.Move) :
    (run (step p) s (moves.map .ping)).ping =
      run (Consumer.next PingProcessor.kept PingProcessor.flushSize (s.streams .probePing).length
        (s.decoded .probePing (PingProcessor.decode p.zone p.parseFloat p.parseUUID) .rejected))
        s.ping moves := by
  refine run_part (f := System.ping) (G := fun _ => True)
    (I := fun t => t.Sound p ∧ t.streams .probePing = s.streams .probePing)
    (fun t m ht _ => ⟨?_, ht.1.step _, (ht.1.streams_ping m).trans ht.2⟩) ⟨h, rfl⟩
    fun _ _ => trivial
  rw [← ht.2, ← decoded_congr ht.2]
  rfl

theorem run_later {i : Nat} {text : List Char} (h : s.Sound p) {stream : Stream}
    (htext : s.text stream i = some text) (more : List (Move D)) :
    (run (step p) s more).Sound p ∧ (run (step p) s more).text stream i = some text := by
  have hstep : ∀ (s : System D A U) m, s.Sound p ∧ s.text stream i = some text →
      (s.step p m).Sound p ∧ (s.step p m).text stream i = some text :=
    fun s m h => ⟨h.1.step m, text_grown (streams_step p s m stream) h.2⟩
  exact run_always hstep ⟨h, htext⟩

omit [DecidableEq A] [DecidableEq D] in
theorem decoded_of_text {β : Type} {stream : Stream} {i : Nat} {text : List Char}
    (htext : s.text stream i = some text) (decode : List Char → β) (rejected : β) :
    s.decoded stream decode rejected i = decode text := by
  simp [decoded, htext]

/-! ## Results -/

/-- **Reports get through.** If the ids of the configurations are accepted, then after every run
each report in the stream of a processor with a flusher is one that it rejects, or it is decoded;
and if the consumer of the processor delivers it, its row is in the table after some moves of the
processor in which nothing fails, whatever went wrong before. None makes the processor panic. -/
theorem reports_get_through (p : Plant D A U) (moves : List (Move D))
    (hstart : ∀ d, (p.parseUUID (p.configuration d)).isSome)
    (hids : ∀ d id, .agent d (.configure id) ∈ moves ∨ .agent d (.restart id) ∈ moves →
      (p.parseUUID id).isSome) :
    let s := run (step p) (start p) moves
    (∀ i text, s.text .probeStamp i = some text →
      StampProcessor.decode p.zone p.parseFloat p.parseUUID text = .rejected ∨
      ∃ m probes event,
        StampProcessor.decode p.zone p.parseFloat p.parseUUID text = .built m probes event ∧
        (s.stamp.subscription.Delivers (s.streams .probeStamp).length i →
          ∃ row ∈ (run (step p) s ((s.stamp.finishing i).map .stamp)).stamp.ingest.intake.rows,
            row.msg.report = i ∧ row.measurement = StampProcessor.kept m)) ∧
    ∀ i text, s.text .probePing i = some text →
      PingProcessor.decode p.zone p.parseFloat p.parseUUID text = .rejected ∨
      ∃ m probes event,
        PingProcessor.decode p.zone p.parseFloat p.parseUUID text = .built m probes event ∧
        (s.ping.subscription.Delivers (s.streams .probePing).length i →
          ∃ row ∈ (run (step p) s ((s.ping.finishing i).map .ping)).ping.ingest.intake.rows,
            row.msg.report = i ∧ row.measurement = PingProcessor.kept m) := by
  intro s
  have h : s.Sound p := sound_run moves
  have hready : s.Ready := ready_run p moves
  have hconfigured := identified_of_moves hstart hids
  refine ⟨fun i text htext => ?_, fun i text htext => ?_⟩
  · cases hdecode : StampProcessor.decode p.zone p.parseFloat p.parseUUID text with
    | rejected => exact .inl rfl
    | panics =>
      exact absurd hdecode
        (StampProcessor.decode_ne_panics (h.identified hconfigured (by decide) htext))
    | built m probes event =>
      refine .inr ⟨m, probes, event, rfl, fun hdelivers => ?_⟩
      obtain ⟨hsound, htext'⟩ := run_later h htext ((s.stamp.finishing i).map .stamp)
      refine hsound.stamp.exists_row (fun _ _ _ hb => hb.measurement_eq htext' hdecode) ?_
      rw [stamp_run h]
      exact Consumer.stored_of_finishing (by decide) hready.stamp hdelivers
        ((decoded_of_text htext _ _).trans hdecode)
  · cases hdecode : PingProcessor.decode p.zone p.parseFloat p.parseUUID text with
    | rejected => exact .inl rfl
    | panics =>
      exact absurd hdecode
        (PingProcessor.decode_ne_panics (h.identified hconfigured (by decide) htext))
    | built m probes event =>
      refine .inr ⟨m, probes, event, rfl, fun hdelivers => ?_⟩
      obtain ⟨hsound, htext'⟩ := run_later h htext ((s.ping.finishing i).map .ping)
      refine hsound.ping.exists_row (fun _ _ _ hb => hb.measurement_eq htext' hdecode) ?_
      rw [ping_run h]
      exact Consumer.stored_of_finishing (by decide) hready.ping hdelivers
        ((decoded_of_text htext _ _).trans hdecode)

/-! ## A ping after a crash -/

/-- The processor dies when it has announced the measurement, and the answer got lost. -/
def crashedPingMoves : List (Move Unit) :=
  onePingMoves.take 4 ++ [.ping (.deliver 0), .ping .take, .ping (.attempt .lost), .ping .crash]

/-- If the consumer of the processor was deleted before, the report is not delivered any more. -/
example : ¬ (run (step onePlant) (start onePlant)
    (crashedPingMoves ++ [.ping .lapse, .ping .crash])).ping.subscription.Delivers 1 0 := by
  decide +kernel

theorem crashedPing_gets_through :
    let s := run (step onePlant) (start onePlant) crashedPingMoves
    s.ping.ingest.intake.rows = [] ∧ ∃ text, s.text .probePing 0 = some text ∧
      (PingProcessor.decode onePlant.zone onePlant.parseFloat onePlant.parseUUID text = .rejected ∨
      ∃ m probes event,
        PingProcessor.decode onePlant.zone onePlant.parseFloat onePlant.parseUUID text =
          .built m probes event ∧
        ∃ row ∈ (run (step onePlant) s
          ((s.ping.finishing 0).map .ping)).ping.ingest.intake.rows,
          row.msg.report = 0 ∧ row.measurement = PingProcessor.kept m) := by
  have hrows : (run (step onePlant) (start onePlant)
      crashedPingMoves).ping.ingest.intake.rows = [] := by
    decide +kernel
  have htext : ((run (step onePlant) (start onePlant)
      crashedPingMoves).text .probePing 0).isSome := by
    decide +kernel
  have hdelivers : (run (step onePlant) (start onePlant)
      crashedPingMoves).ping.subscription.Delivers
        ((run (step onePlant) (start onePlant) crashedPingMoves).streams .probePing).length 0 := by
    decide +kernel
  obtain ⟨text, htext⟩ := Option.isSome_iff_exists.1 htext
  have hthrough := (reports_get_through onePlant crashedPingMoves (fun _ => rfl)
    fun _ _ _ => rfl).2 0 text htext
  refine ⟨hrows, text, htext, hthrough.imp_right ?_⟩
  rintro ⟨m, probes, event, hdecode, hstored⟩
  exact ⟨m, probes, event, hdecode, hstored hdelivers⟩

end Cepheus.DataPlane.System
