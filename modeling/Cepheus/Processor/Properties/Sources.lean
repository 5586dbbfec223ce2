import Cepheus.Processor.Consumer
import Cepheus.Processor.Properties.Duplicates
import Cepheus.Processor.Properties.Returns

/-!
# What is stored was decoded, and what is acknowledged is stored

What a property of the reports is to a processor: if all that is handed to the flusher has it, then
so does all that is stored. And a report is acknowledged only when there is a row of it.
-/

namespace Cepheus.Processor

open Infra Common TraceProcessor

variable {M P : Type}

/-! ## Effects -/

section

variable {kept : M → M}

theorem acked_performAll {lost : Nat → Bool} {report : Nat} : ∀ (effects : List (Effect M P))
    {i : Nat} {s : Intake M}, report ∈ (s.performAll kept lost i effects).acked →
      report ∈ s.acked ∨ ∃ msg, Effect.ack msg ∈ effects ∧ msg.report = report
  | [], _, _, h => .inl h
  | e :: effects, i, s, h => by
    rcases acked_performAll effects h with h | ⟨msg, hmsg, heq⟩
    · cases e with
      | committed tx => exact .inl h
      | nak msg => exact .inl h
      | ack msg =>
        simp only [Intake.perform] at h
        split at h
        · exact .inl h
        · rcases Finset.mem_insert.1 h with h | h
          · exact .inr ⟨msg, List.mem_cons_self, h.symm⟩
          · exact .inl h
    · exact .inr ⟨msg, List.mem_cons_of_mem _ hmsg, heq⟩

/-- Some of the effects have happened, from the first one on. -/
theorem settle_spec (kept : M → M) (s : Intake M) (fate : Fate) (effects : List (Effect M P)) :
    ∃ k, (s.settle kept fate effects).rows =
        s.rows ++ ((effects.take k).flatMap Effect.measurements).map (MeasurementRow.map kept) ∧
      ∀ report ∈ (s.settle kept fate effects).acked,
        report ∈ s.acked ∨ ∃ msg, Effect.ack msg ∈ effects.take k ∧ msg.report = report := by
  unfold Intake.settle
  cases fate.dies with
  | none =>
    refine ⟨effects.length, ?_, ?_⟩
    · rw [List.take_length]
      exact rows_performAll kept
    · rw [List.take_length]
      exact fun report h => acked_performAll _ h
  | some k => exact ⟨k, rows_performAll kept, fun report h => acked_performAll _ h⟩

/-! ## Tables -/

/-- Every row is kept of something with a property, and every report that is acknowledged has a row,
or may be skipped. -/
structure Intake.Holds (kept : M → M) (R : Nat → M → Prop) (skips : Nat → Prop) (s : Intake M) :
    Prop where
  rows : ∀ row ∈ s.rows, ∃ m, R row.msg.report m ∧ row.measurement = kept m
  acked : ∀ report ∈ s.acked, (∃ row ∈ s.rows, row.msg.report = report) ∨ skips report

variable {R : Nat → M → Prop} {skips : Nat → Prop}

theorem Intake.holds_init : ({} : Intake M).Holds kept R skips where
  rows := fun _ h => absurd h List.not_mem_nil
  acked := fun _ h => absurd h (Finset.notMem_empty _)

theorem Intake.Holds.imp {s : Intake M} {R' : Nat → M → Prop} {skips' : Nat → Prop}
    (h : s.Holds kept R skips) (himp : ∀ report m, R report m → R' report m)
    (hskips : ∀ report, skips report → skips' report) : s.Holds kept R' skips' where
  rows := fun row hrow => (h.rows row hrow).imp fun _ hm => hm.imp_left (himp _ _)
  acked := fun report hreport => (h.acked report hreport).imp_right (hskips report)

/-- Effects that store what has the property, and that acknowledge what they have stored. -/
theorem Intake.Holds.settle {s : Intake M} (h : s.Holds kept R skips) (fate : Fate)
    {effects : List (Effect M P)}
    (hrows : ∀ row ∈ effects.flatMap Effect.measurements, R row.msg.report row.measurement)
    (hacks : ∀ k msg, Effect.ack msg ∈ effects.take k →
      (∃ row ∈ (effects.take k).flatMap Effect.measurements, row.msg.report = msg.report) ∨
        skips msg.report) :
    (s.settle kept fate effects).Holds kept R skips := by
  obtain ⟨k, heq, hacked⟩ := settle_spec kept s fate effects
  constructor
  · intro row hrow
    rw [heq] at hrow
    rcases List.mem_append.1 hrow with hrow | hrow
    · exact h.rows row hrow
    · obtain ⟨inserted, hinserted, rfl⟩ := List.mem_map.1 hrow
      obtain ⟨e, he, hmem⟩ := List.mem_flatMap.1 hinserted
      exact ⟨inserted.measurement,
        hrows inserted (List.mem_flatMap.2 ⟨e, List.mem_of_mem_take he, hmem⟩), rfl⟩
  · intro report hreport
    rw [heq]
    rcases hacked report hreport with hold | ⟨msg, hmsg, rfl⟩
    · exact (h.acked report hold).imp_left fun ⟨row, hrow, hreport⟩ =>
        ⟨row, List.mem_append_left _ hrow, hreport⟩
    · exact (hacks k msg hmsg).imp_left fun ⟨row, hrow, hreport⟩ =>
        ⟨row.map kept, List.mem_append_right _ (List.mem_map_of_mem hrow), hreport⟩

theorem Intake.Holds.fetched {s : Intake M} (h : s.Holds kept R skips) (fetched : List Msg) :
    { s with fetched }.Holds kept R skips :=
  ⟨h.rows, h.acked⟩

theorem Intake.Holds.deliver {s : Intake M} (h : s.Holds kept R skips) (report : Nat) :
    (s.deliver report).Holds kept R skips := by
  unfold Intake.deliver
  split
  · exact ⟨h.rows, h.acked⟩
  · exact h

/-! ## Flushes -/

theorem mem_measurementRows {row : MeasurementRow M} : ∀ {batch : List (Pending M P)} {id : Nat},
    row ∈ measurementRows id batch →
      ∃ p ∈ batch, row.msg = p.msg ∧ row.measurement = p.measurement
  | p :: batch, id, h => by
    rcases List.mem_cons.1 h with rfl | h
    · exact ⟨p, List.mem_cons_self, rfl, rfl⟩
    · obtain ⟨q, hq, heq⟩ := mem_measurementRows h
      exact ⟨q, List.mem_cons_of_mem _ hq, heq⟩

theorem exists_mem_measurementRows {p : Pending M P} : ∀ {batch : List (Pending M P)} (id : Nat),
    p ∈ batch → ∃ row ∈ measurementRows id batch, row.msg = p.msg
  | q :: batch, id, h => by
    rcases List.mem_cons.1 h with rfl | h
    · exact ⟨_, List.mem_cons_self, rfl⟩
    · obtain ⟨row, hrow, heq⟩ := exists_mem_measurementRows (id + 1) h
      exact ⟨row, List.mem_cons_of_mem _ hrow, heq⟩

theorem Flushed.holds {firstID : Nat} {batch : List (Pending M P)} {effects : List (Effect M P)}
    (hf : Flushed firstID batch effects) {s : Intake M} (h : s.Holds kept R skips)
    (hbatch : ∀ p ∈ batch, R p.msg.report p.measurement) (fate : Fate) :
    (s.settle kept fate effects).Holds kept R skips := by
  cases hf with
  | naked =>
    refine h.settle fate ?_ ?_
    · rw [measurements_nakAll]
      exact fun row hrow => absurd hrow List.not_mem_nil
    · intro k msg hmsg
      obtain ⟨p, -, hp⟩ := List.mem_map.1 (List.mem_of_mem_take hmsg)
      cases hp
  | acked =>
    refine h.settle fate ?_ ?_
    · intro row hrow
      rw [List.flatMap_cons, measurements_ackAll, List.append_nil] at hrow
      obtain ⟨p, hp, hmsg, hmeasurement⟩ := mem_measurementRows hrow
      rw [hmsg, hmeasurement]
      exact hbatch p hp
    · intro k msg hmsg
      cases k with
      | zero => cases hmsg
      | succ k =>
        rw [List.take_succ_cons] at hmsg ⊢
        rcases List.mem_cons.1 hmsg with hmsg | hmsg
        · cases hmsg
        · obtain ⟨p, hp, heq⟩ := List.mem_map.1 (List.mem_of_mem_take hmsg)
          obtain rfl := Effect.ack.inj heq
          obtain ⟨row, hrow, hrowmsg⟩ := exists_mem_measurementRows firstID hp
          exact .inl ⟨row, List.mem_flatMap.2 ⟨_, List.mem_cons_self, hrow⟩, by rw [hrowmsg]⟩

/-! ## Processors with a flusher -/

/-- What is waiting and what is stored has a property. -/
structure Ingest.Holds (kept : M → M) (flushSize : Nat) (R : Nat → M → Prop) (s : Ingest M P) :
    Prop where
  waiting : ∀ p ∈ s.flusher.batch ++ s.pending, R p.msg.report p.measurement
  intake : s.intake.Holds kept R fun _ => False
  length : s.flusher.batch.length < flushSize
  running : s.flusher.stopped = false

theorem Ingest.holds_init {flushSize : Nat} (h : 0 < flushSize) :
    ({} : Ingest M P).Holds kept flushSize R where
  waiting := fun _ hp => absurd hp List.not_mem_nil
  intake := Intake.holds_init
  length := h
  running := rfl

theorem Ingest.Holds.imp {flushSize : Nat} {s : Ingest M P} {R' : Nat → M → Prop}
    (h : s.Holds kept flushSize R) (himp : ∀ report m, R report m → R' report m) :
    s.Holds kept flushSize R' :=
  { h with
    waiting := fun p hp => himp _ _ (h.waiting p hp)
    intake := h.intake.imp himp fun _ h => h }

theorem Flusher.Next.holds {flushSize firstID : Nat} {flusher : Flusher M P}
    {arrived : List (Pending M P)} {next : Flusher M P × List (Effect M P)}
    (hn : flusher.Next flushSize firstID arrived next) {s : Intake M} (h : s.Holds kept R skips)
    (hbatch : ∀ p ∈ flusher.batch ++ arrived, R p.msg.report p.measurement) (fate : Fate) :
    (s.settle kept fate next.2).Holds kept R skips ∧
      ∀ p ∈ next.1.batch, R p.msg.report p.measurement := by
  cases hn with
  | kept hlen =>
    refine ⟨h.settle fate (fun row hrow => absurd hrow List.not_mem_nil) ?_, hbatch⟩
    exact fun k msg hmsg => absurd (List.mem_of_mem_take hmsg) List.not_mem_nil
  | flushed hf => exact ⟨hf.holds h hbatch fate, fun p hp => absurd hp List.not_mem_nil⟩

theorem Ingest.holds_settle {flushSize firstID : Nat} {flusher : Flusher M P}
    {arrived pending : List (Pending M P)} {next : Flusher M P × List (Effect M P)}
    {intake : Intake M} (fate : Fate) (hn : flusher.Next flushSize firstID arrived next)
    (hpos : 0 < flushSize) (hrunning : next.1.stopped = false)
    (hintake : intake.Holds kept R fun _ => False)
    (hwaiting : ∀ p ∈ flusher.batch ++ arrived ++ pending, R p.msg.report p.measurement) :
    (Ingest.settle kept intake pending fate next).Holds kept flushSize R := by
  obtain ⟨hsettled, hbatch⟩ :=
    hn.holds hintake (fun p hp => hwaiting p (List.mem_append_left _ hp)) fate
  unfold Ingest.settle
  split
  · refine ⟨fun p hp => ?_, hsettled, hn.length_batch hpos, hrunning⟩
    rcases List.mem_append.1 hp with hp | hp
    · exact hbatch p hp
    · exact hwaiting p (List.mem_append_right _ hp)
  · exact ⟨fun _ hp => absurd hp List.not_mem_nil, hsettled, hpos, rfl⟩

/-- What is put into the channel. -/
def Delivery.Brings (R : Nat → M → Prop) (s : Ingest M P) : Delivery M P → Prop
  | .hand measurement _ => ∀ msg ∈ s.intake.fetched.head?, R msg.report measurement
  | _ => True

theorem Ingest.Holds.step {flushSize : Nat} {s : Ingest M P} (h : s.Holds kept flushSize R)
    {d : Delivery M P} (hd : d.Brings R s) :
    (s.step kept (Flusher.iterate flushSize) d).Holds kept flushSize R := by
  have hpos : 0 < flushSize := Nat.lt_of_le_of_lt (Nat.zero_le _) h.length
  have hopen : ∀ e : Event M P, s.flusher.stopped = true → e.arrived = [] :=
    fun e hstopped => absurd (hstopped.symm.trans h.running) (by decide)
  unfold Ingest.step
  cases d with
  | deliver report => exact { h with intake := h.intake.deliver report }
  | hand measurement probes =>
    simp only
    split
    · exact h
    · next msg fetched hfetched =>
      split
      · refine ⟨fun p hp => ?_, h.intake.fetched fetched, h.length, h.running⟩
        rw [← List.append_assoc] at hp
        rcases List.mem_append.1 hp with hp | hp
        · exact h.waiting p hp
        · obtain rfl := List.mem_singleton.1 hp
          exact hd msg (by simp [hfetched])
      · exact h
  | reject =>
    simp only
    split
    · exact h
    · exact { h with intake := h.intake.fetched _ }
  | receive faults fate =>
    simp only
    split
    · exact h
    · next p pending hpending =>
      have hn := s.flusher.iterate_next faults s.intake.nextID h.length (hopen (.pending p))
      refine Ingest.holds_settle fate hn hpos (Flusher.stopped_iterate h.running (by simp))
        h.intake fun q hq => h.waiting q ?_
      simpa [Event.arrived, hpending] using hq
  | tick faults fate =>
    have hn := s.flusher.iterate_next faults s.intake.nextID h.length (hopen .tick)
    refine Ingest.holds_settle fate hn hpos (Flusher.stopped_iterate h.running (by simp))
      h.intake fun q hq => h.waiting q ?_
    simpa [Event.arrived] using hq
  | crash =>
    exact
      { waiting := fun _ hp => absurd hp List.not_mem_nil
        intake := h.intake.fetched []
        length := hpos
        running := rfl }

/-! The flusher leaves what has been fetched, as long as the process is alive. -/

theorem Ingest.fetched_tick (kept : M → M)
    (runFlusher : Faults → Nat → Flusher M P → Event M P → Flusher M P × List (Effect M P))
    (s : Ingest M P) (faults : Faults) {fate : Fate} (h : fate.dies = none) :
    (s.step kept runFlusher (.tick faults fate)).intake.fetched = s.intake.fetched := by
  simp [Ingest.step, Ingest.settle, fetched_settle, h]

theorem Ingest.fetched_receive (kept : M → M)
    (runFlusher : Faults → Nat → Flusher M P → Event M P → Flusher M P × List (Effect M P))
    (s : Ingest M P) (faults : Faults) {fate : Fate} (h : fate.dies = none) :
    (s.step kept runFlusher (.receive faults fate)).intake.fetched = s.intake.fetched := by
  unfold Ingest.step
  simp only
  split
  · rfl
  · simp [Ingest.settle, fetched_settle, h]

/-- What has been fetched stays first. -/
theorem Intake.head_deliver {s : Intake M} {msg : Msg} (h : msg ∈ s.fetched.head?) (report : Nat) :
    msg ∈ (s.deliver report).fetched.head? := by
  unfold Intake.deliver
  split
  · exact List.mem_head?_append_of_mem_head? h
  · exact h

end

namespace Consumer

variable {kept : M → M} {flushSize stored : Nat} {built : Nat → M → List P → Message → Prop}
  {known : Message → Prop} {decoded : Nat → Decoded M P} {s : Consumer M P}

/-- What a processor has in its hands comes from the report that it is at, and its event is
published before it is stored. -/
structure Sound (kept : M → M) (flushSize : Nat) (built : Nat → M → List P → Message → Prop)
    (known : Message → Prop) (s : Consumer M P) : Prop where
  publishing : ∀ p, s.stage = .publishing p → ∃ msg ∈ s.ingest.intake.fetched.head?,
    built msg.report p.measurement p.probes p.event.message
  handing : ∀ p, s.stage = .handing p → known p.event.message ∧
    ∃ msg ∈ s.ingest.intake.fetched.head?,
      built msg.report p.measurement p.probes p.event.message
  ingest : s.ingest.Holds kept flushSize fun report m =>
    ∃ probes event, built report m probes event ∧ known event

theorem sound_start (h : 0 < flushSize) :
    (start : Consumer M P).Sound kept flushSize built known where
  publishing := fun _ hp => by cases hp
  handing := fun _ hp => by cases hp
  ingest := Ingest.holds_init h

theorem Sound.imp {built' : Nat → M → List P → Message → Prop} {known' : Message → Prop}
    (h : s.Sound kept flushSize built known)
    (hbuilt : ∀ report m probes event, built report m probes event → built' report m probes event)
    (hknown : ∀ m, known m → known' m) : s.Sound kept flushSize built' known' where
  publishing := fun p hp =>
    (h.publishing p hp).imp fun _ hmsg => hmsg.imp_right (hbuilt _ _ _ _)
  handing := fun p hp => (h.handing p hp).imp (hknown _) fun hmsg =>
    hmsg.imp fun _ hmsg => hmsg.imp_right (hbuilt _ _ _ _)
  ingest := h.ingest.imp fun _ _ ⟨probes, event, hb, hs⟩ =>
    ⟨probes, event, hbuilt _ _ _ _ hb, hknown _ hs⟩

/-- The loop over the reports is at no report. -/
theorem Sound.fetching {t : Consumer M P} (hstage : t.stage = .fetching)
    (hingest : t.ingest.Holds kept flushSize fun report m =>
      ∃ probes event, built report m probes event ∧ known event) :
    t.Sound kept flushSize built known where
  publishing := fun _ hp => by cases hstage.symm.trans hp
  handing := fun _ hp => by cases hstage.symm.trans hp
  ingest := hingest

theorem Sound.publish (h : s.Sound kept flushSize built known) {p : Publishing M P} {msg : Msg}
    (hmsg : msg ∈ s.ingest.intake.fetched.head?)
    (hbuilt : built msg.report p.measurement p.probes p.event.message) :
    { s with stage := .publishing p }.Sound kept flushSize built known where
  publishing := fun q hq => by
    obtain rfl := Stage.publishing.inj hq
    exact ⟨msg, hmsg, hbuilt⟩
  handing := fun _ hq => by cases hq
  ingest := h.ingest

/-- The event of the report has been published. -/
theorem Sound.answered (h : s.Sound kept flushSize built known) {p : Publishing M P} {msg : Msg}
    (hmsg : msg ∈ s.ingest.intake.fetched.head?)
    (hbuilt : built msg.report p.measurement p.probes p.event.message)
    (hknown : known p.event.message) :
    { s with stage := .handing p }.Sound kept flushSize built known where
  publishing := fun _ hq => by cases hq
  handing := fun q hq => by
    obtain rfl := Stage.handing.inj hq
    exact ⟨hknown, msg, hmsg, hbuilt⟩
  ingest := h.ingest

/-- The loop over the reports stays where it is. -/
theorem Sound.staying (h : s.Sound kept flushSize built known) {ingest : Ingest M P}
    (hhead : ∀ msg ∈ s.ingest.intake.fetched.head?, msg ∈ ingest.intake.fetched.head?)
    (hingest : ingest.Holds kept flushSize fun report m =>
      ∃ probes event, built report m probes event ∧ known event) :
    { s with ingest }.Sound kept flushSize built known where
  publishing := fun p hp =>
    (h.publishing p hp).imp fun msg hmsg => hmsg.imp_left (hhead msg)
  handing := fun p hp => (h.handing p hp).imp_right fun hmsg =>
    hmsg.imp fun msg hmsg => hmsg.imp_left (hhead msg)
  ingest := hingest

/-- A step of the flusher. -/
theorem Sound.survive (h : s.Sound kept flushSize built known) {fate : Fate} {ingest : Ingest M P}
    (hfetched : fate.dies = none → ingest.intake.fetched = s.ingest.intake.fetched)
    (hingest : ingest.Holds kept flushSize fun report m =>
      ∃ probes event, built report m probes event ∧ known event) :
    (s.survive stored fate ingest).Sound kept flushSize built known := by
  unfold Consumer.survive
  split
  · next hdies => exact h.staying (fun msg hmsg => hfetched hdies ▸ hmsg) hingest
  · exact .fetching rfl hingest

/-- A message that a step stores is the event of a report. -/
theorem built_of_mem_step (h : s.Sound kept flushSize built known) (move : Move) :
    ∀ m ∈ (s.step kept (Flusher.iterate flushSize) stored decoded move).2,
      ∃ report measurement probes, built report measurement probes m := by
  intro m hm
  cases move with
  | attempt reply =>
    simp only [step] at hm
    split at hm
    · next p hstage =>
      obtain ⟨msg, -, hbuilt⟩ := h.publishing p hstage
      have hmem : m ∈ p.event.stored reply := by
        split at hm <;> exact hm
      exact ⟨_, _, _, Outgoing.eq_of_mem_stored hmem ▸ hbuilt⟩
    · cases hm
  | deliver _ | take | hand | receive _ _ =>
    simp only [step] at hm
    repeat' split at hm
    all_goals cases hm
  | tick _ _ | crash | lapse => cases hm

/-- The next report is decoded. -/
theorem Sound.take (h : s.Sound kept flushSize built known)
    (hdecoded : ∀ report m probes event,
      decoded report = .built m probes event → built report m probes event) :
    (s.step kept (Flusher.iterate flushSize) stored decoded .take).1.Sound kept flushSize built
      known := by
  simp only [Consumer.step]
  split
  · next msg rest hstage hfetched =>
    split
    · exact .fetching hstage (h.ingest.step (d := .reject) trivial)
    · exact .fetching rfl (h.ingest.step (d := .crash) trivial)
    · next hdec =>
      have hmsg : msg ∈ s.ingest.intake.fetched.head? := by simp [hfetched]
      exact h.publish hmsg (hdecoded _ _ _ _ hdec)
  · exact h

/-- The event of the report is sent. -/
theorem Sound.attempt (h : s.Sound kept flushSize built known) (reply : Reply)
    (hmessages : ∀ m ∈ (s.step kept (Flusher.iterate flushSize) stored decoded
      (.attempt reply)).2, known m) :
    (s.step kept (Flusher.iterate flushSize) stored decoded (.attempt reply)).1.Sound kept
      flushSize built known := by
  simp only [Consumer.step] at hmessages ⊢
  split
  · next p hstage =>
    obtain ⟨msg, hmsg, hbuilt⟩ := h.publishing p hstage
    rw [hstage] at hmessages
    cases hattempt : p.event.attempt reply with
    | answered =>
      have hreply : reply = .done := Outgoing.reply_of_answered hattempt
      subst hreply
      simp only [hattempt] at hmessages
      exact h.answered hmsg hbuilt (hmessages _ (List.mem_singleton.2 rfl))
    | again event =>
      exact h.publish hmsg ((Outgoing.message_again hattempt).symm ▸ hbuilt)
    | failed => exact .fetching rfl (h.ingest.step (d := .reject) trivial)
  · exact h

/-- The report is put into the channel. -/
theorem Sound.hand (h : s.Sound kept flushSize built known) :
    (s.step kept (Flusher.iterate flushSize) stored decoded .hand).1.Sound kept flushSize built
      known := by
  simp only [Consumer.step]
  split
  · next p hstage =>
    split
    · obtain ⟨hknown, msg, hmsg, hbuilt⟩ := h.handing p hstage
      refine .fetching rfl (h.ingest.step (d := .hand p.measurement p.probes) ?_)
      intro msg' hmsg'
      obtain rfl := Option.mem_unique hmsg hmsg'
      exact ⟨_, _, hbuilt, hknown⟩
    · exact h
  · exact h

theorem Sound.step (h : s.Sound kept flushSize built known)
    (hdecoded : ∀ report m probes event,
      decoded report = .built m probes event → built report m probes event)
    (move : Move)
    (hmessages : ∀ m ∈ (s.step kept (Flusher.iterate flushSize) stored decoded move).2, known m) :
    (s.step kept (Flusher.iterate flushSize) stored decoded move).1.Sound kept flushSize built
      known := by
  cases move with
  | deliver report =>
    simp only [Consumer.step]
    split
    · exact h.staying (fun msg hmsg => Intake.head_deliver hmsg report)
        (h.ingest.step (d := .deliver report) trivial)
    · exact h
  | take => exact h.take hdecoded
  | attempt reply => exact h.attempt reply hmessages
  | hand => exact h.hand
  | receive faults fate =>
    simp only [Consumer.step]
    split
    · exact h
    · exact h.survive (Ingest.fetched_receive _ _ _ _)
        (h.ingest.step (d := .receive faults fate) trivial)
  | tick faults fate =>
    exact h.survive (Ingest.fetched_tick _ _ _ _) (h.ingest.step (d := .tick faults fate) trivial)
  | crash => exact .fetching rfl (h.ingest.step (d := .crash) trivial)
  | lapse => exact ⟨h.publishing, h.handing, h.ingest⟩

/-- If only one measurement can be built of a report, the row of the report has it. -/
theorem Sound.exists_row (h : s.Sound kept flushSize built known) {report : Nat} {m : M}
    (hbuilt : ∀ m' probes event, built report m' probes event → m' = m)
    (hstored : ∃ row ∈ s.ingest.intake.rows, row.msg.report = report) :
    ∃ row ∈ s.ingest.intake.rows, row.msg.report = report ∧ row.measurement = kept m := by
  obtain ⟨row, hrow, rfl⟩ := hstored
  obtain ⟨m', ⟨_, _, hb, -⟩, hkept⟩ := h.ingest.intake.rows row hrow
  exact ⟨row, hrow, rfl, hbuilt _ _ _ hb ▸ hkept⟩

end Consumer

end Cepheus.Processor

/-! ## Decoded reports -/

namespace Cepheus.StampProcessor

open Infra Common Processor

variable {U : Type} {zone : Time → Rfc3339.Zone} {parseFloat : Json.Number → Option ℚ}
  {parseUUID : String → Option U}

theorem decode_eq_built {text : List Char} {measurement : InsertStampMeasurementParams U}
    {probes : List InsertStampProbesParams} {message : Message}
    (h : decode zone parseFloat parseUUID text = .built measurement probes message) :
    ∃ payload data metrics, (Json.parse text).bind ReportPayload.unmarshal = some payload ∧
      payload.payload.probeType = .stamp ∧
      payload.payload.data.marshal.bind (unmarshalStampData parseFloat) = some data ∧
      buildStamp parseUUID payload.serialID (some payload.agentConfigId) data =
        some (measurement, probes, metrics) ∧
      eventMessage zone (event payload.serialID data metrics)
        ("cepheus.measurement.stamp." ++ payload.serialID) = some message := by
  unfold decode at h
  split at h
  · cases h
  · next payload hpayload =>
    split at h
    · cases h
    · next htype =>
      split at h
      · cases h
      · next data hdata =>
        split at h
        · cases h
        · next measurement' probes' metrics hbuild =>
          split at h
          · cases h
          · next message' hmessage =>
            cases h
            exact ⟨payload, data, metrics, hpayload, of_not_not htype, hdata, hbuild, hmessage⟩

/-- A report makes the processor panic only by the id of its configuration. -/
theorem decode_ne_panics {text : List Char}
    (h : ∀ payload, (Json.parse text).bind ReportPayload.unmarshal = some payload →
      (parseUUID payload.agentConfigId).isSome) :
    decode zone parseFloat parseUUID text ≠ .panics := by
  intro hdecode
  unfold decode at hdecode
  split at hdecode
  · cases hdecode
  · next payload hpayload =>
    split at hdecode
    · cases hdecode
    · split at hdecode
      · cases hdecode
      · next data hdata =>
        have hid : Identified parseUUID (some payload.agentConfigId) := by
          rintro id ⟨⟩
          exact h payload hpayload
        have hsome := (isSome_buildStamp_iff payload.serialID (some payload.agentConfigId)
          data).2 hid
        split at hdecode
        · next hnone => simp [hnone] at hsome
        · split at hdecode <;> cases hdecode

end Cepheus.StampProcessor

namespace Cepheus.PingProcessor

open Infra Common Processor

variable {U : Type} {zone : Time → Rfc3339.Zone} {parseFloat : Json.Number → Option ℚ}
  {parseUUID : String → Option U}

theorem decode_eq_built {text : List Char} {measurement : InsertPingMeasurementParams U}
    {probes : List InsertPingProbesParams} {message : Message}
    (h : decode zone parseFloat parseUUID text = .built measurement probes message) :
    ∃ payload data metrics, (Json.parse text).bind ReportPayload.unmarshal = some payload ∧
      payload.payload.probeType = .ping ∧
      payload.payload.data.unmarshal.bind (unmarshalPingData parseFloat) = some data ∧
      buildPing parseUUID payload.serialID (some payload.agentConfigId) payload.payload.timestamp
        data = some (measurement, probes, metrics) ∧
      eventMessage zone (event payload.serialID payload.payload.timestamp data metrics)
        ("cepheus.measurement.ping." ++ payload.serialID) = some message := by
  unfold decode at h
  split at h
  · cases h
  · next payload hpayload =>
    split at h
    · cases h
    · next htype =>
      split at h
      · cases h
      · next data hdata =>
        split at h
        · cases h
        · next measurement' probes' metrics hbuild =>
          split at h
          · cases h
          · next message' hmessage =>
            cases h
            exact ⟨payload, data, metrics, hpayload, of_not_not htype, hdata, hbuild, hmessage⟩

/-- A report makes the processor panic only by the id of its configuration. -/
theorem decode_ne_panics {text : List Char}
    (h : ∀ payload, (Json.parse text).bind ReportPayload.unmarshal = some payload →
      (parseUUID payload.agentConfigId).isSome) :
    decode zone parseFloat parseUUID text ≠ .panics := by
  intro hdecode
  unfold decode at hdecode
  split at hdecode
  · cases hdecode
  · next payload hpayload =>
    split at hdecode
    · cases hdecode
    · split at hdecode
      · cases hdecode
      · next data hdata =>
        have hid : Identified parseUUID (some payload.agentConfigId) := by
          rintro id ⟨⟩
          exact h payload hpayload
        have hsome := (isSome_buildPing_iff payload.serialID (some payload.agentConfigId)
          payload.payload.timestamp data).2 hid
        split at hdecode
        · next hnone => simp [hnone] at hsome
        · split at hdecode <;> cases hdecode

end Cepheus.PingProcessor
