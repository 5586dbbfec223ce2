import Cepheus.Processor.Properties.Sources
import Cepheus.TraceProcessor.Consumer
import Cepheus.TraceProcessor.Properties.Transaction

/-!
# Traces that are stored

As in the other processors, a row is of a report and its event is published before it is stored. A
report is acknowledged when its rows are stored, or when it is skipped.
-/

namespace Cepheus.TraceProcessor

open Infra Common Processor

section

variable {A U : Type} [DecidableEq A] {netip : Netip A} {parseUUID : String → Option U}
  {outside : Outside} {rt : Runtime} {asDetails : Table A AsDetails} {report : Report}

/-! ## One report -/

variable (parseUUID report) in
/-- What a measurement has from its report. -/
structure MeasurementParams.Of (m : MeasurementParams A U) : Prop where
  serialID : m.serialID = report.serialId
  agentConfigID : parseUUID report.agentConfigId = some m.agentConfigID
  timestamp : m.timestamp = report.timestamp
  method : m.method = report.method
  raw : m.raw = report.raw

theorem measurement_of_prepare {prepared : Prepared A U}
    (h : prepare netip parseUUID outside rt asDetails report = .ok prepared) :
    prepared.measurement.Of parseUUID report := by
  simp only [prepare, bind_eq_ok_iff, orError_eq_ok_iff, query_eq_ok_iff, pure, Except.pure,
    Except.ok.injEq] at h
  obtain ⟨trace, -, src, -, dst, -, -, -, id, hid, -, -, -, -, -, -, -, -, -, -, rfl⟩ := h
  exact { serialID := rfl, agentConfigID := hid, timestamp := rfl, method := rfl, raw := rfl }

theorem rows_of_committed {prepared : Prepared A U} {rows : TraceRows A U}
    (hprepare : prepare netip parseUUID outside rt asDetails report = .ok prepared)
    (h : (processNormalTrace netip parseUUID outside rt asDetails report).committed = some rows) :
    rows = prepared.rows netip := by
  simp only [processNormalTrace, hprepare] at h
  split at h
  · cases h
  · split at h
    · cases h
    · next hfinish =>
      obtain ⟨-, rfl⟩ := finish_eq_ok_iff.1 hfinish
      split at h
      · exact (Option.some.inj h).symm
      · cases h
      · exact (Option.some.inj h).symm

variable (netip parseUUID outside rt asDetails report) in
/-- What is published and what is committed is of the trace that has been prepared, and nothing is
committed that has not been published. -/
structure Processed.Proper (p : Processed A U) : Prop where
  published : ∀ e ∈ p.published, ∃ prepared,
    prepare netip parseUUID outside rt asDetails report = .ok prepared ∧
    e = prepared.measurement.event netip
  committed : ∀ rows, p.committed = some rows → ∃ prepared,
    prepare netip parseUUID outside rt asDetails report = .ok prepared ∧
    rows = prepared.rows netip ∧ prepared.measurement.event netip ∈ p.published
  success : p.error = none → p.committed.isSome

theorem processNormalTrace_proper :
    (processNormalTrace netip parseUUID outside rt asDetails report).Proper netip parseUUID outside
      rt asDetails report := by
  cases hprepare : prepare netip parseUUID outside rt asDetails report with
  | error e =>
    unfold processNormalTrace
    rw [hprepare]
    exact
      { published := fun e he => by cases he
        committed := fun rows hrows => by cases hrows
        success := fun herror => by cases herror }
  | ok prepared =>
    have hfollows := processNormalTrace_follows hprepare
    refine
      { published := fun e he => ⟨prepared, hprepare, ?_⟩
        committed := fun rows hrows => ⟨prepared, hprepare, ?_, ?_⟩
        success := fun herror => by rw [hfollows.committed herror]; rfl }
    · rw [hfollows.published] at he
      exact List.eq_of_mem_replicate he
    · exact rows_of_committed hprepare hrows
    · have hanswered : (attempts outside.replies).2 = true := by
        by_contra hno
        rw [hfollows.unanswered (Bool.not_eq_true _ ▸ hno)] at hrows
        cases hrows
      rw [hfollows.published, List.mem_replicate]
      exact ⟨Nat.pos_iff_ne_zero.1 (attempts_pos _ hanswered), rfl⟩

omit [DecidableEq A] in
/-- The rows of a trace are stored before its report is acknowledged. -/
theorem Processed.holds_settle {R : Nat → TraceRows A U → Prop} {skips : Nat → Prop}
    {kept : TraceRows A U → TraceRows A U} {s : Intake (TraceRows A U)} (h : s.Holds kept R skips)
    (fate : Fate) {p : Processed A U} {id : Nat} {msg : Msg}
    (hrows : ∀ rows, p.committed = some rows → R msg.report rows)
    (hsuccess : p.error = none → p.committed.isSome) :
    (s.settle kept fate (p.effects id msg)).Holds kept R skips := by
  cases hcommitted : p.committed with
  | none =>
    have herror : ¬ p.error = none := fun herror => by
      rw [hcommitted] at hsuccess
      cases hsuccess herror
    have heffects : p.effects id msg = [.nak msg] := by
      simp [Processed.effects, hcommitted, herror]
    rw [heffects]
    refine h.settle fate ?_ ?_
    · exact fun row hrow => absurd hrow (by simp [Effect.measurements])
    · exact fun k m hm => absurd (List.mem_of_mem_take hm) (by simp)
  | some rows =>
    have heffects : p.effects id msg =
        [.committed { measurements := [{ id, msg, measurement := rows }] },
          if p.error = none then .ack msg else .nak msg] := by
      simp [Processed.effects, hcommitted]
    rw [heffects]
    refine h.settle fate ?_ ?_
    · intro row hrow
      have hrow : row = { id, msg, measurement := rows } := by
        split at hrow <;> simpa [Effect.measurements] using hrow
      rw [hrow]
      exact hrows rows hcommitted
    · intro k m hm
      cases k with
      | zero => cases hm
      | succ k =>
        have hmsg : m = msg := by
          split at hm <;> simpa using List.mem_of_mem_take hm
        exact .inl ⟨{ id, msg, measurement := rows }, by simp [Effect.measurements], by rw [hmsg]⟩

/-- An event whose time cannot be written is not published. -/
theorem published_writing {writes : Bool}
    (h : (processNormalTrace netip parseUUID (outside.writing writes) rt asDetails
      report).published ≠ []) : writes = true := by
  cases writes with
  | true => rfl
  | false =>
    refine absurd ?_ h
    cases hprepare : prepare netip parseUUID (outside.writing false) rt asDetails report with
    | error e =>
      unfold processNormalTrace
      rw [hprepare]
    | ok prepared => exact (processNormalTrace_follows hprepare).published

end

theorem TraceEvent.message_isSome (zone : Time → Rfc3339.Zone) {e : TraceEvent}
    (h : (Rfc3339.format (zone e.timestamp) e.timestamp).isSome) : (e.message zone).isSome := by
  obtain ⟨text, htext⟩ := Option.isSome_iff_exists.1 h
  simp [TraceEvent.message, Event.marshal, TraceEvent.event, Json.ofTime, htext, RawMessage.marshal]

theorem decode_eq_trace {parseFloat : Json.Number → Option ℚ} {text : List Char} {report : Report}
    (h : decode parseFloat text = .trace report) :
    ∃ payload data, (Json.parse text).bind ReportPayload.unmarshal = some payload ∧
      payload.payload.probeType = .trace ∧
      payload.payload.data.unmarshal.bind TraceData.unmarshal = some data ∧
      report =
        { serialId := payload.serialID
          agentConfigId := payload.agentConfigId
          timestamp := payload.payload.timestamp
          type := data.type
          method := data.method
          raw := data.data
          data := ((ofUtf8 data.data).bind Json.parse).bind (unmarshalTrace parseFloat) } := by
  unfold decode at h
  split at h
  · cases h
  · next payload hpayload =>
    split at h
    · cases h
    · next htype =>
      split at h
      · cases h
      · next data hdata =>
        split at h
        · cases h
        · split at h
          · cases h
            exact ⟨payload, data, hpayload, of_not_not htype, hdata, rfl⟩
          · split at h <;> cases h

/-! ## Runs -/

section

variable {A U : Type} [DecidableEq A] (netip : Netip A) (parseUUID : String → Option U)
  (parseFloat : Json.Number → Option ℚ) (zone : Time → Rfc3339.Zone)
  (texts : Nat → Option (List Char))

/-- A report and the trace in it, as it was prepared once, with its event. -/
def Traced (report : Nat) (prepared : Prepared A U) (event : Message) : Prop :=
  ∃ text data outside rt asDetails, texts report = some text ∧
    decode parseFloat text = .trace data ∧
    prepare netip parseUUID outside rt asDetails data = .ok prepared ∧
    (prepared.measurement.event netip).message zone = some event

/-- A report that is acknowledged unread. -/
def Skipped (report : Nat) : Prop :=
  ∃ text, texts report = some text ∧ decode parseFloat text = .skipped

/-- What is stored is of a report, and its event is published. -/
def Tracer.Sound (jsonb : List UInt8 → List UInt8) (known : Message → Prop) (s : Tracer A U) :
    Prop :=
  s.intake.Holds (TraceRows.kept netip jsonb)
    (fun report rows => ∃ prepared event,
      Traced netip parseUUID parseFloat zone texts report prepared event ∧
      rows = prepared.rows netip ∧ known event)
    (Skipped parseFloat texts)

end

namespace Tracer

variable {A U : Type} [DecidableEq A] {netip : Netip A} {parseUUID : String → Option U}
  {parseFloat : Json.Number → Option ℚ} {zone : Time → Rfc3339.Zone}
  {jsonb : List UInt8 → List UInt8} {texts : Nat → Option (List Char)} {known : Message → Prop}
  {s : Tracer A U}

theorem sound_start :
    (start : Tracer A U).Sound netip parseUUID parseFloat zone texts jsonb known :=
  Intake.holds_init

theorem Sound.imp {texts' : Nat → Option (List Char)} {known' : Message → Prop}
    (h : s.Sound netip parseUUID parseFloat zone texts jsonb known)
    (htexts : ∀ report text, texts report = some text → texts' report = some text)
    (hknown : ∀ m, known m → known' m) :
    s.Sound netip parseUUID parseFloat zone texts' jsonb known' := by
  refine Intake.Holds.imp h ?_ ?_
  · rintro report rows ⟨prepared, event, ⟨text, data, outside, rt, asDetails, htext, h⟩, hrows, hs⟩
    exact ⟨prepared, event, ⟨text, data, outside, rt, asDetails, htexts _ _ htext, h⟩, hrows,
      hknown _ hs⟩
  · rintro report ⟨text, htext, h⟩
    exact ⟨text, htexts _ _ htext, h⟩

/-! What comes of the reports is what comes of their texts. -/

variable {stored : Nat} {decoded : Nat → Decoded}
  (hdecoded : ∀ report, decoded report ≠ .rejected →
    ∃ text, texts report = some text ∧ decode parseFloat text = decoded report)

include hdecoded

/-- A message that a step stores is the event of a report. -/
theorem traced_of_mem_step (move : Move) :
    ∀ m ∈ (s.step netip jsonb parseUUID zone stored decoded move).2, ∃ report prepared,
      Traced netip parseUUID parseFloat zone texts report (prepared : Prepared A U) m := by
  intro m hm
  cases move with
  | crash | lapse => cases hm
  | deliver report =>
    simp only [step] at hm
    split at hm <;> cases hm
  | take outside rt fate =>
    simp only [step] at hm
    split at hm
    · cases hm
    · next msg fetched hfetched =>
      cases hdata : decoded msg.report with
      | rejected => rw [hdata] at hm; cases hm
      | skipped => rw [hdata] at hm; cases hm
      | trace data =>
        obtain ⟨text, htext, hdecode⟩ := hdecoded msg.report (by simp [hdata])
        rw [hdata] at hm hdecode
        obtain ⟨e, he, hmessage⟩ := List.mem_filterMap.1 hm
        obtain ⟨prepared, hprepare, rfl⟩ := processNormalTrace_proper.published e he
        exact ⟨msg.report, prepared, text, data, _, rt, _, htext, hdecode, hprepare, hmessage⟩

theorem Sound.handle (h : s.Sound netip parseUUID parseFloat zone texts jsonb known) (msg : Msg)
    (fetched : List Msg) (fate : Fate) (outside : Outside) (rt : Runtime)
    (hmessages : ∀ m ∈
      (s.handle netip jsonb parseUUID zone stored msg fetched fate outside rt
        (decoded msg.report)).2, known m) :
    (s.handle netip jsonb parseUUID zone stored msg fetched fate outside rt
      (decoded msg.report)).1.Sound netip parseUUID parseFloat zone texts jsonb known := by
  cases hdata : decoded msg.report with
  | rejected =>
    refine (Intake.Holds.fetched h fetched).settle fate ?_ ?_
    · exact fun row hrow => absurd hrow (by simp [Effect.measurements])
    · exact fun k msg hmsg => absurd (List.mem_of_mem_take hmsg) (by simp)
  | skipped =>
    obtain ⟨text, htext, hdecode⟩ := hdecoded msg.report (by simp [hdata])
    refine (Intake.Holds.fetched h fetched).settle fate ?_ ?_
    · exact fun row hrow => absurd hrow (by simp [Effect.measurements])
    · intro k acked hacked
      obtain rfl := Effect.ack.inj (List.mem_singleton.1 (List.mem_of_mem_take hacked))
      exact .inr ⟨text, htext, hdecode.trans hdata⟩
  | trace data =>
    obtain ⟨text, htext, hdecode⟩ := hdecoded msg.report (by simp [hdata])
    rw [hdata] at hmessages hdecode
    refine Processed.holds_settle (Intake.Holds.fetched h fetched) fate ?_
      processNormalTrace_proper.success
    intro rows hrows
    obtain ⟨prepared, hprepare, rfl, hpublished⟩ := processNormalTrace_proper.committed rows hrows
    have hwrites := published_writing (List.ne_nil_of_mem hpublished)
    have htime := (measurement_of_prepare hprepare).timestamp
    obtain ⟨m, hm⟩ := Option.isSome_iff_exists.1
      (TraceEvent.message_isSome zone (e := prepared.measurement.event netip)
        (by rw [MeasurementParams.event, htime]; exact hwrites))
    exact ⟨prepared, m, ⟨text, data, _, rt, _, htext, hdecode, hprepare, hm⟩, rfl,
      hmessages m (List.mem_filterMap.2 ⟨_, hpublished, hm⟩)⟩

theorem Sound.step (h : s.Sound netip parseUUID parseFloat zone texts jsonb known) (move : Move)
    (hmessages : ∀ m ∈ (s.step netip jsonb parseUUID zone stored decoded move).2, known m) :
    (s.step netip jsonb parseUUID zone stored decoded move).1.Sound netip parseUUID parseFloat zone
      texts jsonb known := by
  cases move with
  | crash => exact Intake.Holds.fetched h []
  | lapse => exact h
  | deliver report =>
    simp only [Tracer.step]
    split
    · exact Intake.Holds.deliver h report
    · exact h
  | take outside rt fate =>
    simp only [Tracer.step] at hmessages ⊢
    split
    · exact h
    · next msg fetched hfetched =>
      simp only [hfetched] at hmessages
      exact h.handle hdecoded msg fetched fate outside rt hmessages

end Tracer

end Cepheus.TraceProcessor
