import Cepheus.Agent.Properties.Reports
import Cepheus.DataPlane.System
import Cepheus.TraceProcessor.Properties.Sources

/-!
# What is in the streams

Along every run, whatever the interleaving: the reports in the streams of the probes are of results
that one of the agents has measured, the rows in the tables are of such reports, and the events in
the stream of the measurements are those of the rows. Nothing is stored before its event is.
-/

namespace Cepheus.DataPlane

open Infra Common Agent Processor TraceProcessor

/-! ## Subjects -/

theorem Stream.eq_of_root {a b : Stream} : a.root.toList <+: b.root.toList → a = b := by
  cases a <;> cases b <;> decide

theorem Stream.root_of_takes {a : Stream} {m : Message} (h : a.takes m = true) :
    a.root.toList <+: m.subject.toList := by
  simp only [takes, Bool.and_eq_true, List.isPrefixOf_iff_prefix] at h
  exact h.1

/-- A message whose subject begins as those of a stream is in no other stream. -/
theorem Stream.eq_of_takes {a b : Stream} {m : Message} (h : a.takes m = true)
    (hm : b.root.toList <+: m.subject.toList) : a = b := by
  rcases List.prefix_or_prefix_of_prefix (root_of_takes h) hm with h | h
  · exact eq_of_root h
  · exact (eq_of_root h).symm

theorem Stream.takes_root {a : Stream} {m : Message} {rest : String}
    (hm : m.subject = a.root ++ rest) (hrest : rest ≠ "") : a.takes m = true := by
  simp [takes, hm, hrest]

/-- A message without a subject is in no stream. -/
theorem Stream.subject_of_takes {a : Stream} {m : Message} (h : a.takes m = true) :
    m.subject ≠ "" := by
  intro hm
  have hnil : a.root.toList.isPrefixOf [] = false := by cases a <;> decide
  unfold takes at h
  rw [hm, String.toList_empty, hnil] at h
  exact absurd h (by simp)

/-- The stream for a type of results. -/
def Stream.ofType : Argus.ProbeType → Option Stream
  | .stamp => some probeStamp
  | .ping => some probePing
  | .trace => some probeTrace
  | .other _ => none

/-- A report is in the stream of its type. -/
theorem Stream.ofType_of_takes {stream : Stream} {serialID : String} {type : Argus.ProbeType}
    {text : List Char} (h : stream.takes { subject := reportSubject serialID type, text } = true) :
    ofType type = some stream := by
  have hroot : ∀ b : Stream, reportSubject serialID type = b.root ++ serialID → b = stream := by
    intro b hb
    refine (eq_of_takes h ?_).symm
    rw [hb, String.toList_append]
    exact List.prefix_append _ _
  cases type with
  | stamp => exact congrArg some (hroot probeStamp rfl)
  | ping => exact congrArg some (hroot probePing rfl)
  | trace => exact congrArg some (hroot probeTrace rfl)
  | other text => exact absurd rfl (subject_of_takes h)

/-! ## Events -/

/-- The subject of an event. There is more behind the root, also for an agent without a serial. -/
theorem Stream.takes_event {m : Message} (kind serialID : String) (hkind : kind ≠ "")
    (hm : m.subject = "cepheus.measurement." ++ kind ++ serialID) :
    measurements.takes m = true := by
  rw [String.append_assoc] at hm
  exact takes_root hm (by simp [hkind])

section

variable {A U : Type} {zone : Time → Rfc3339.Zone} {parseFloat : Json.Number → Option ℚ}
  {parseUUID : String → Option U}

theorem subject_of_eventMessage {e : Common.Event} {subject : String} {m : Message}
    (h : eventMessage zone e subject = some m) : m.subject = subject := by
  obtain ⟨json, -, rfl⟩ := Option.map_eq_some_iff.1 h
  rfl

theorem takes_stamp {text : List Char}
    {measurement : StampProcessor.InsertStampMeasurementParams U}
    {probes : List StampProcessor.InsertStampProbesParams} {m : Message}
    (h : StampProcessor.decode zone parseFloat parseUUID text = .built measurement probes m) :
    Stream.measurements.takes m = true := by
  obtain ⟨payload, data, metrics, -, -, -, -, hm⟩ := StampProcessor.decode_eq_built h
  exact Stream.takes_event "stamp." payload.serialID (by decide) (subject_of_eventMessage hm)

theorem takes_ping {text : List Char}
    {measurement : PingProcessor.InsertPingMeasurementParams U}
    {probes : List PingProcessor.InsertPingProbesParams} {m : Message}
    (h : PingProcessor.decode zone parseFloat parseUUID text = .built measurement probes m) :
    Stream.measurements.takes m = true := by
  obtain ⟨payload, data, metrics, -, -, -, -, hm⟩ := PingProcessor.decode_eq_built h
  exact Stream.takes_event "ping." payload.serialID (by decide) (subject_of_eventMessage hm)

theorem takes_trace {e : TraceEvent} {m : Message} (h : e.message zone = some m) :
    Stream.measurements.takes m = true := by
  obtain ⟨json, -, rfl⟩ := Option.map_eq_some_iff.1 h
  exact Stream.takes_event "trace." e.serialID (by decide) rfl

end

/-! ## Streams only grow -/

namespace System

variable {D A U : Type} {p : Plant D A U} {s s' : System D A U} {messages : List Message}

/-- Nothing is forgotten. -/
structure Earlier (s s' : System D A U) : Prop where
  agents : ∀ d, (s.agents d).Earlier (s'.agents d)
  streams : ∀ stream, s.streams stream <+: s'.streams stream

/-- Messages stay where they are. -/
theorem text_grown {stream : Stream} (h : s.streams stream <+: s'.streams stream) {i : Nat}
    {text : List Char} (htext : s.text stream i = some text) : s'.text stream i = some text := by
  obtain ⟨m, hm, rfl⟩ := Option.map_eq_some_iff.1 htext
  obtain ⟨rest, hrest⟩ := h
  rw [System.text, ← hrest, List.getElem?_append_left (List.getElem?_eq_some_iff.1 hm).1, hm]
  rfl

theorem streams_step [DecidableEq D] [DecidableEq A] (p : Plant D A U) (s : System D A U)
    (m : Move D) (stream : Stream) : s.streams stream <+: (s.step p m).streams stream := by
  cases m with
  | agent _ _ | stamp _ | ping _ | trace _ => exact List.prefix_append _ _
  | expire =>
    simp only [step]
    split <;> exact List.prefix_rfl

/-- What comes of a message comes of its text. -/
theorem exists_text_of_decoded {β : Type} {stream : Stream} {decode : List Char → β}
    {rejected : β} {i : Nat} (h : s.decoded stream decode rejected i ≠ rejected) :
    ∃ text, s.text stream i = some text ∧ decode text = s.decoded stream decode rejected i := by
  unfold decoded at h ⊢
  cases htext : s.text stream i with
  | none => rw [htext] at h; exact absurd rfl h
  | some text => exact ⟨text, rfl, rfl⟩

theorem Earlier.text (h : s.Earlier s') (stream : Stream) (i : Nat) (text : List Char)
    (htext : s.text stream i = some text) : s'.text stream i = some text :=
  text_grown (h.streams stream) htext

theorem Earlier.mem (h : s.Earlier s') {stream : Stream} {m : Message}
    (hm : m ∈ s.streams stream) : m ∈ s'.streams stream := (h.streams stream).subset hm

theorem streams_store (s : System D A U) (messages : List Message) (stream : Stream) :
    (s.store messages).streams stream = s.streams stream ++ messages.filter stream.takes := rfl

theorem earlier_store {t : System D A U} (hstreams : t.streams = s.streams)
    (hagents : ∀ d, (s.agents d).Earlier (t.agents d)) (messages : List Message) :
    s.Earlier (t.store messages) where
  agents := hagents
  streams := fun stream => by
    rw [streams_store, hstreams]
    exact List.prefix_append _ _

/-- An event that is published gets into its stream. -/
theorem mem_store {t : System D A U} {m : Message} (hm : m ∈ messages)
    (htakes : Stream.measurements.takes m = true) :
    m ∈ (t.store messages).streams .measurements :=
  List.mem_append_right _ (List.mem_filter.2 ⟨hm, htakes⟩)

variable (p s) in
/-- The report of a result of one of the agents. -/
def Reported (m : Message) : Prop :=
  ∃ d, (s.agents d).Reported (p.agentZone d) (p.serial d) m

theorem Reported.later (hearlier : s.Earlier s') {m : Message} (h : s.Reported p m) :
    s'.Reported p m := by
  obtain ⟨d, h⟩ := h
  exact ⟨d, h.later (hearlier.agents d)⟩

theorem Reported.ne_measurements {m : Message} {stream : Stream} (h : s.Reported p m)
    (htakes : stream.takes m = true) : stream ≠ .measurements := by
  obtain ⟨d, r, -, id, -, now, json, -, rfl⟩ := h
  have htype := Stream.ofType_of_takes htakes
  rintro rfl
  cases hr : r.probeType <;> rw [hr] at htype <;> cases htype

end System

/-! ## The invariant -/

/-- What is built for the text of a report. -/
def Builds {M P : Type} (texts : Nat → Option (List Char)) (decode : List Char → Decoded M P)
    (report : Nat) (measurement : M) (probes : List P) (event : Message) : Prop :=
  (texts report).map decode = some (.built measurement probes event)

theorem builds_of_decoded {D A U M P : Type} {s : System D A U} {stream : Stream}
    {decode : List Char → Decoded M P} {report : Nat} {measurement : M} {probes : List P}
    {event : Message}
    (h : s.decoded stream decode .rejected report = .built measurement probes event) :
    Builds (s.text stream) decode report measurement probes event := by
  obtain ⟨text, htext, hdecode⟩ := System.exists_text_of_decoded (h.trans_ne (by simp))
  rw [Builds, htext, Option.map_some, hdecode, h]

theorem Builds.measurement_eq {M P : Type} {texts : Nat → Option (List Char)}
    {decode : List Char → Decoded M P} {report : Nat} {measurement m : M} {probes probes' : List P}
    {event event' : Message} (h : Builds texts decode report measurement probes event)
    {text : List Char} (htext : texts report = some text)
    (hdecode : decode text = .built m probes' event') : measurement = m := by
  rw [Builds, htext, Option.map_some, hdecode] at h
  exact (Decoded.built.inj (Option.some.inj h)).1.symm

theorem Builds.imp {M P : Type} {texts texts' : Nat → Option (List Char)}
    {decode : List Char → Decoded M P} {report : Nat} {measurement : M} {probes : List P}
    {event : Message} (h : Builds texts decode report measurement probes event)
    (htexts : ∀ report text, texts report = some text → texts' report = some text) :
    Builds texts' decode report measurement probes event := by
  obtain ⟨text, htext, h⟩ := Option.map_eq_some_iff.1 h
  exact Option.map_eq_some_iff.2 ⟨text, htexts _ _ htext, h⟩

namespace System

variable {D A U : Type} [DecidableEq A] (p : Plant D A U) (s : System D A U)

/-- What the STAMP processor makes of a report. -/
def BuildsStamp : Nat → StampProcessor.InsertStampMeasurementParams U →
    List StampProcessor.InsertStampProbesParams → Message → Prop :=
  Builds (s.text .probeStamp) (StampProcessor.decode p.zone p.parseFloat p.parseUUID)

/-- What the ping processor makes of a report. -/
def BuildsPing : Nat → PingProcessor.InsertPingMeasurementParams U →
    List PingProcessor.InsertPingProbesParams → Message → Prop :=
  Builds (s.text .probePing) (PingProcessor.decode p.zone p.parseFloat p.parseUUID)

/-- What the trace processor makes of a report. -/
def BuildsTrace : Nat → Prepared A U → Message → Prop :=
  Traced p.netip p.parseUUID p.parseFloat p.zone (s.text .probeTrace)

/-- The event of a measurement. -/
inductive Announces (m : Message) : Prop
  | stamp {report : Nat} {measurement : StampProcessor.InsertStampMeasurementParams U}
      {probes : List StampProcessor.InsertStampProbesParams}
      (h : s.BuildsStamp p report measurement probes m)
  | ping {report : Nat} {measurement : PingProcessor.InsertPingMeasurementParams U}
      {probes : List PingProcessor.InsertPingProbesParams}
      (h : s.BuildsPing p report measurement probes m)
  | trace {report : Nat} {prepared : Prepared A U} (h : s.BuildsTrace p report prepared m)

/-- What is in the streams. -/
structure Filed : Prop where
  taken : ∀ stream, ∀ m ∈ s.streams stream, stream.takes m = true
  reports : ∀ stream ≠ .measurements, ∀ m ∈ s.streams stream, s.Reported p m
  events : ∀ m ∈ s.streams .measurements, s.Announces p m

/-- What is in the hands of the agents and the processors, in the streams and in the tables. -/
structure Sound : Prop where
  agents : ∀ d, (s.agents d).Sound (p.agentZone d) (p.serial d)
  filed : s.Filed p
  stamp : s.stamp.Sound StampProcessor.kept StampProcessor.flushSize (s.BuildsStamp p)
    (· ∈ s.streams .measurements)
  ping : s.ping.Sound PingProcessor.kept PingProcessor.flushSize (s.BuildsPing p)
    (· ∈ s.streams .measurements)
  trace : s.trace.Sound p.netip p.parseUUID p.parseFloat p.zone (s.text .probeTrace)
    p.jsonb (· ∈ s.streams .measurements)

variable {p s} {s' : System D A U} {messages : List Message}

theorem sound_start : (start p).Sound p where
  agents := fun d => Reporter.sound_start (p.configuration d)
  filed :=
    { taken := fun _ _ h => by cases h
      reports := fun _ _ _ h => by cases h
      events := fun _ h => by cases h }
  stamp := Consumer.sound_start (by decide)
  ping := Consumer.sound_start (by decide)
  trace := Tracer.sound_start

theorem Announces.later (hearlier : s.Earlier s') {m : Message} (h : s.Announces p m) :
    s'.Announces p m := by
  cases h with
  | stamp h => exact .stamp (h.imp (hearlier.text .probeStamp))
  | ping h => exact .ping (h.imp (hearlier.text .probePing))
  | trace h =>
    obtain ⟨text, data, outside, rt, asDetails, htext, h⟩ := h
    exact .trace ⟨text, data, outside, rt, asDetails, hearlier.text _ _ _ htext, h⟩

theorem Announces.takes {m : Message} (h : s.Announces p m) :
    Stream.measurements.takes m = true := by
  cases h with
  | stamp h =>
    obtain ⟨text, -, h⟩ := Option.map_eq_some_iff.1 h
    exact takes_stamp h
  | ping h =>
    obtain ⟨text, -, h⟩ := Option.map_eq_some_iff.1 h
    exact takes_ping h
  | trace h =>
    obtain ⟨text, data, outside, rt, asDetails, -, -, -, h⟩ := h
    exact takes_trace h

/-! ## Steps -/

/-- What is stored at the end of a step. -/
theorem Filed.store (h : s.Filed p) (hearlier : s.Earlier s')
    (hstreams : ∀ stream, s'.streams stream = s.streams stream ++ messages.filter stream.takes)
    (hmessages : ∀ m ∈ messages, s'.Reported p m ∨ s'.Announces p m) : s'.Filed p := by
  have hmem : ∀ {stream m}, m ∈ s'.streams stream →
      m ∈ s.streams stream ∨ m ∈ messages ∧ stream.takes m = true := by
    intro stream m hm
    rw [hstreams, List.mem_append, List.mem_filter] at hm
    exact hm
  constructor
  · intro stream m hm
    rcases hmem hm with hold | ⟨-, htakes⟩
    · exact h.taken stream m hold
    · exact htakes
  · intro stream hstream m hm
    rcases hmem hm with hold | ⟨hnew, htakes⟩
    · exact (h.reports stream hstream m hold).later hearlier
    · rcases hmessages m hnew with hm | hm
      · exact hm
      · exact absurd (Stream.eq_of_takes htakes (Stream.root_of_takes hm.takes)) hstream
  · intro m hm
    rcases hmem hm with hold | ⟨hnew, htakes⟩
    · exact (h.events m hold).later hearlier
    · rcases hmessages m hnew with hm | hm
      · exact absurd rfl (hm.ne_measurements htakes)
      · exact hm

theorem Sound.stamp_later (h : s.Sound p) (he : s.Earlier s') :
    s.stamp.Sound StampProcessor.kept StampProcessor.flushSize (s'.BuildsStamp p)
      (· ∈ s'.streams .measurements) :=
  h.stamp.imp (fun _ _ _ _ hb => hb.imp (he.text .probeStamp)) fun _ => he.mem

theorem Sound.ping_later (h : s.Sound p) (he : s.Earlier s') :
    s.ping.Sound PingProcessor.kept PingProcessor.flushSize (s'.BuildsPing p)
      (· ∈ s'.streams .measurements) :=
  h.ping.imp (fun _ _ _ _ hb => hb.imp (he.text .probePing)) fun _ => he.mem

theorem Sound.trace_later (h : s.Sound p) (he : s.Earlier s') :
    s.trace.Sound p.netip p.parseUUID p.parseFloat p.zone (s'.text .probeTrace)
      p.jsonb (· ∈ s'.streams .measurements) :=
  h.trace.imp (he.text .probeTrace) fun _ => he.mem

theorem Sound.agent [DecidableEq D] (h : s.Sound p) (d : D) {agent : Reporter}
    (hn : (s.agents d).Next (p.agentZone d) (p.serial d) p.streamSize agent messages) :
    ({ s with agents := Function.update s.agents d agent }.store messages).Sound p := by
  have he : s.Earlier ({ s with agents := Function.update s.agents d agent }.store messages) := by
    refine earlier_store (s := s) (t := { s with agents := Function.update s.agents d agent }) rfl
      (fun d' => ?_) messages
    change (s.agents d').Earlier (Function.update s.agents d agent d')
    by_cases hd : d' = d
    · subst hd
      rw [Function.update_self]
      exact hn.earlier
    · rw [Function.update_of_ne hd]
      exact ⟨fun _ h => h, fun _ h => h⟩
  obtain ⟨hagent, hmessages⟩ := (h.agents d).next hn
  refine
    { agents := fun d' => ?_
      filed := h.filed.store he (streams_store _ _) fun m hm => .inl ⟨d, ?_⟩
      stamp := h.stamp_later he
      ping := h.ping_later he
      trace := h.trace_later he }
  · change (Function.update s.agents d agent d').Sound (p.agentZone d') (p.serial d')
    by_cases hd : d' = d
    · subst hd
      rw [Function.update_self]
      exact hagent
    · rw [Function.update_of_ne hd]
      exact h.agents d'
  · change (Function.update s.agents d agent d).Reported (p.agentZone d) (p.serial d) m
    rw [Function.update_self]
    exact hmessages m hm

/-- A processor stores events, and no agent is changed. -/
theorem Sound.processor (h : s.Sound p) {t : System D A U} (hagents : t.agents = s.agents)
    (hstreams : t.streams = s.streams) (hmessages : ∀ m ∈ messages, s.Announces p m)
    (hnext : s.Earlier (t.store messages) →
      (∀ m ∈ messages, m ∈ (t.store messages).streams .measurements) →
      t.stamp.Sound StampProcessor.kept StampProcessor.flushSize ((t.store messages).BuildsStamp p)
        (· ∈ (t.store messages).streams .measurements) ∧
      t.ping.Sound PingProcessor.kept PingProcessor.flushSize ((t.store messages).BuildsPing p)
        (· ∈ (t.store messages).streams .measurements) ∧
      t.trace.Sound p.netip p.parseUUID p.parseFloat p.zone ((t.store messages).text .probeTrace)
        p.jsonb (· ∈ (t.store messages).streams .measurements)) :
    (t.store messages).Sound p := by
  have he : s.Earlier (t.store messages) :=
    earlier_store hstreams (by rw [hagents]; exact fun _ => ⟨fun _ h => h, fun _ h => h⟩) messages
  obtain ⟨hstamp, hping, htrace⟩ :=
    hnext he fun m hm => mem_store hm (hmessages m hm).takes
  exact
    { agents := fun d => by
        change (t.agents d).Sound (p.agentZone d) (p.serial d)
        rw [hagents]
        exact h.agents d
      filed := h.filed.store he (by rw [← hstreams]; exact streams_store _ _)
        fun m hm => .inr ((hmessages m hm).later he)
      stamp := hstamp
      ping := hping
      trace := htrace }

theorem Sound.step [DecidableEq D] (h : s.Sound p) (m : Move D) : (s.step p m).Sound p := by
  have hdecoded : ∀ report,
      s.decoded .probeTrace (TraceProcessor.decode p.parseFloat) .rejected report ≠ .rejected →
      ∃ text, s.text .probeTrace report = some text ∧ TraceProcessor.decode p.parseFloat text =
        s.decoded .probeTrace (TraceProcessor.decode p.parseFloat) .rejected report :=
    fun _ => exists_text_of_decoded
  cases m with
  | agent d m => exact h.agent d (Reporter.step_next _ _)
  | stamp m =>
    refine h.processor rfl rfl (fun e he => ?_) fun he hmessages => ⟨?_, h.ping_later he,
      h.trace_later he⟩
    · obtain ⟨report, measurement, probes, hb⟩ := Consumer.built_of_mem_step h.stamp m e he
      exact .stamp hb
    · exact (h.stamp_later he).step
        (fun _ _ _ _ hb => (builds_of_decoded hb).imp (he.text .probeStamp)) m hmessages
  | ping m =>
    refine h.processor rfl rfl (fun e he => ?_) fun he hmessages => ⟨h.stamp_later he, ?_,
      h.trace_later he⟩
    · obtain ⟨report, measurement, probes, hb⟩ := Consumer.built_of_mem_step h.ping m e he
      exact .ping hb
    · exact (h.ping_later he).step
        (fun _ _ _ _ hb => (builds_of_decoded hb).imp (he.text .probePing)) m hmessages
  | trace m =>
    refine h.processor rfl rfl (fun e he => ?_) fun he hmessages => ⟨h.stamp_later he,
      h.ping_later he, ?_⟩
    · obtain ⟨report, prepared, ht⟩ := Tracer.traced_of_mem_step hdecoded m e he
      exact .trace ht
    · have hknown := h.trace.imp (fun _ _ htext => htext) fun _ => he.mem
      exact (hknown.step hdecoded m hmessages).imp (he.text .probeTrace) fun _ hm => hm
  | expire =>
    simp only [System.step]
    split
    · have he : s.Earlier { s with expired := s.expired + 1 } :=
        ⟨fun _ => ⟨fun _ h => h, fun _ h => h⟩, fun _ => List.prefix_rfl⟩
      exact
        { agents := h.agents
          filed := ⟨h.filed.taken, h.filed.reports, fun m hm => (h.filed.events m hm).later he⟩
          stamp := h.stamp_later he
          ping := h.ping_later he
          trace := h.trace_later he }
    · exact h

/-- **What is in the streams and in the tables, after every run.** -/
theorem sound_run [DecidableEq D] (moves : List (Move D)) :
    (run (step p) (start p) moves).Sound p := by
  have hstep : ∀ (s : System D A U) m, s.Sound p → (s.step p m).Sound p := fun _ m h => h.step m
  exact run_always hstep sound_start

end System

end Cepheus.DataPlane
