import Cepheus.Agent.DataStream

/-!
# The probe data stream is a bounded queue

What `Insert` accepts reaches the dispatcher, once and in the order of acceptance, and there are
never more results waiting than the stream was made for: this is `Channel.Conveys`, and holds
whatever the loops of the tasks and the dispatcher do.

What `Insert` makes of a stream that is full is another matter. The drop is to be logged, and the
stream has no logger: `NewProbeDataStream` does not set one. So the overload that the branch is
there for ends the agent.
-/

namespace Cepheus.Agent

open Infra

variable {R : Type}

/-- What `Insert` returns, if it does. -/
def Inserted.answer : Inserted R → Option Bool
  | .buffered _ | .handed => some true
  | .refused => some false
  | .panics => none

/-- All that a call of `Insert` can come to. -/
inductive ProbeDataStream.Inserts (p : ProbeDataStream R) (waiting done : Bool) (data : R) :
    Inserted R → Prop
  | buffered {stream : Channel R} (hsend : p.stream.send data = some stream) :
      Inserts p waiting done data (.buffered { p with stream })
  | handed (hsend : p.stream.send data = none) (hwaiting : waiting = true) :
      Inserts p waiting done data .handed
  | left (hdone : done = true) : Inserts p waiting done data .refused
  | dropped (hsend : p.stream.send data = none) (hwaiting : waiting = false)
      (hdone : done = false) :
      Inserts p waiting done data (if p.logger then .refused else .panics)

theorem ProbeDataStream.insert_inserts (p : ProbeDataStream R) (waiting done leaves : Bool)
    (data : R) : p.Inserts waiting done data (p.insert waiting done leaves data) := by
  unfold ProbeDataStream.insert
  split
  · next hleaves => exact .left (by simp_all)
  · cases hsend : p.stream.send data with
    | some stream => exact .buffered hsend
    | none =>
      cases waiting with
      | true => exact .handed hsend rfl
      | false =>
        cases done with
        | true => exact .left rfl
        | false => exact .dropped hsend rfl rfl

namespace Reporting

variable {s s' : Reporting R} {m : Move R}

/-! ## What a step does -/

/-- All that a step can do. -/
inductive Next (s : Reporting R) : Move R → Reporting R → Prop
  | same (m : Move R) : Next s m s
  | buffered {done leaves : Bool} {data : R} {stream : Channel R}
      (hsend : s.probes.stream.send data = some stream) :
      Next s (.insert done leaves data)
        { s with probes := { s.probes with stream }, accepted := s.accepted ++ [data] }
  | handed {done leaves : Bool} {data : R} (hwaiting : s.waiting = true) :
      Next s (.insert done leaves data)
        { s with
          dispatcher := .publishing
          accepted := s.accepted ++ [data]
          received := s.received ++ [data] }
  | panicked {done leaves : Bool} {data : R} :
      Next s (.insert done leaves data) { s with crashed := true }
  | received {data : R} {stream : Channel R}
      (hreceive : s.probes.stream.receive = some (data, stream)) :
      Next s .receive
        { s with
          probes := { s.probes with stream }
          dispatcher := .publishing
          received := s.received ++ [data] }
  | turned {m : Move R} {pc : DispatcherPc} : Next s m { s with dispatcher := pc }

theorem insert_next (s : Reporting R) (done leaves : Bool) (data : R) :
    s.Next (.insert done leaves data) (s.insert done leaves data) := by
  have hinserts := s.probes.insert_inserts s.waiting done leaves data
  unfold insert
  generalize s.probes.insert s.waiting done leaves data = result at hinserts
  cases hinserts with
  | buffered hsend => exact .buffered hsend
  | handed hsend hwaiting => exact .handed hwaiting
  | left hdone => exact .same _
  | dropped hsend hwaiting hdone =>
    cases s.probes.logger with
    | true => exact .same _
    | false => exact .panicked

theorem receive_next (s : Reporting R) : s.Next .receive s.receive := by
  unfold receive
  split
  · next hreceive => exact .received hreceive
  · exact .same _

theorem step_next (s : Reporting R) (m : Move R) : s.Next m (s.step m) := by
  unfold step
  split
  · exact .same _
  · cases m with
    | insert done leaves data => exact s.insert_next done leaves data
    | receive => exact s.receive_next
    | published =>
      simp only
      split
      · exact .turned
      · exact .same _
    | stop =>
      simp only
      split
      · exact .turned
      · exact .same _

/-! ## The queue -/

/-- The stream holds what was accepted and not yet received, and no more than it was made for. -/
structure Fifo (streamSize : UInt32) (s : Reporting R) : Prop where
  conveys : s.probes.stream.Conveys s.accepted s.received
  bounded : s.probes.stream.buffer.length ≤ streamSize.toNat

/-- The stream is one that `NewProbeDataStream` has made. -/
structure Made (streamSize : UInt32) (s : Reporting R) : Prop where
  conveys : s.probes.stream.Conveys s.accepted s.received
  capacity : s.probes.stream.capacity = streamSize.toNat
  logger : s.probes.logger = false

theorem made_new (streamSize : UInt32) : Made streamSize (new streamSize : Reporting R) where
  conveys := Channel.conveys_make _
  capacity := rfl
  logger := rfl

theorem Made.fifo {streamSize : UInt32} (h : s.Made streamSize) : s.Fifo streamSize where
  conveys := h.conveys
  bounded := h.capacity ▸ s.probes.stream.bounded

theorem buffer_of_waiting (h : s.waiting = true) : s.probes.stream.buffer = [] := by
  simp only [waiting, decide_eq_true_eq] at h
  exact List.length_eq_zero_iff.mp h.2

theorem Made.next {streamSize : UInt32} (h : s.Made streamSize) (hn : s.Next m s') :
    s'.Made streamSize := by
  cases hn with
  | same m => exact h
  | buffered hsend =>
    exact
      { conveys := h.conveys.send hsend
        capacity := (Channel.buffer_send hsend).2.trans h.capacity
        logger := h.logger }
  | handed hwaiting =>
    exact { h with conveys := h.conveys.handOver (buffer_of_waiting hwaiting) _ }
  | panicked => exact { h with }
  | received hreceive =>
    exact
      { conveys := h.conveys.receive hreceive
        capacity := (Channel.buffer_receive hreceive).2.trans h.capacity
        logger := h.logger }
  | turned => exact { h with }

/-! ## The dispatcher goes on -/

/-- The dispatcher deals with some results. -/
def drain : Nat → List (Move R)
  | 0 => []
  | n + 1 => .receive :: .published :: drain n

/-- A dispatcher that goes on gets all that is in the buffer. -/
theorem received_drain : ∀ (n : Nat) {s : Reporting R}, s.probes.stream.buffer.length = n →
    s.crashed = false → s.dispatcher = .receiving →
      (run step s (drain n)).received = s.received ++ s.probes.stream.buffer
  | 0, s, hn, _, _ => by
    rw [List.length_eq_zero_iff.mp hn, List.append_nil]
    rfl
  | n + 1, s, hn, hcrashed, hdispatcher => by
    obtain ⟨⟨data, stream⟩, hreceive⟩ : ∃ x, s.probes.stream.receive = some x := by
      apply Option.ne_none_iff_exists'.mp
      rw [Ne, Channel.receive_eq_none_iff]
      intro hnil
      rw [hnil] at hn
      cases hn
    obtain ⟨hbuffer, -⟩ := Channel.buffer_receive hreceive
    -- the state after one result has been dealt with
    have hstep : step (step s .receive) .published =
        { s with probes := { s.probes with stream }, received := s.received ++ [data] } := by
      simp [step, receive, hcrashed, hdispatcher, hreceive]
    have hlength : stream.buffer.length = n := by
      rw [hbuffer, List.length_cons] at hn
      exact Nat.succ.inj hn
    have hrest := received_drain n (s := { s with
      probes := { s.probes with stream }, received := s.received ++ [data] })
      hlength hcrashed hdispatcher
    rw [drain, run_cons, run_cons, hstep, hrest, hbuffer, List.append_assoc,
      List.singleton_append]

/-- Unless it stops, the dispatcher can get everything that was accepted. -/
def Delivers (s : Reporting R) : Prop :=
  s.crashed = false → s.dispatcher ≠ .stopped →
    ∃ moves : List (Move R), (∀ m ∈ moves, m = .receive ∨ m = .published) ∧
      (run step s moves).received = s.accepted

theorem mem_drain : ∀ (n : Nat) {m : Move R}, m ∈ drain n → m = .receive ∨ m = .published
  | n + 1, m, h => by
    rcases List.mem_cons.mp h with rfl | h
    · exact .inl rfl
    · rcases List.mem_cons.mp h with rfl | h
      · exact .inr rfl
      · exact mem_drain n h

theorem delivers_of_conveys (h : s.probes.stream.Conveys s.accepted s.received) : s.Delivers := by
  intro hcrashed hstopped
  cases hdispatcher : s.dispatcher with
  | receiving =>
    exact ⟨drain _, fun m hm => mem_drain _ hm,
      (received_drain _ rfl hcrashed hdispatcher).trans h.symm⟩
  | publishing =>
    have hstep : step s .published = { s with dispatcher := .receiving } := by
      simp [step, hcrashed, hdispatcher]
    refine ⟨.published :: drain s.probes.stream.buffer.length, ?_, ?_⟩
    · intro m hm
      rcases List.mem_cons.mp hm with rfl | hm
      · exact .inr rfl
      · exact mem_drain _ hm
    · have hrest := received_drain _ (s := { s with dispatcher := .receiving }) rfl hcrashed rfl
      rw [run_cons, hstep]
      exact hrest.trans h.symm
  | stopped => exact absurd hdispatcher hstopped

/-! ## A full stream -/

/-- There is neither room in the buffer nor a dispatcher that waits. -/
def Full (s : Reporting R) : Prop :=
  s.probes.stream.capacity ≤ s.probes.stream.buffer.length ∧ s.waiting = false

instance (s : Reporting R) : Decidable s.Full := inferInstanceAs (Decidable (_ ∧ _))

/-- `Insert` accepts a result if it can and its context is live, and otherwise refuses it and
changes nothing. -/
def Answers (s : Reporting R) : Move R → Prop
  | .insert done leaves data => s.crashed = false →
    (¬ s.Full → done = false →
      (s.probes.insert s.waiting done leaves data).answer = some true) ∧
    (s.Full → (s.probes.insert s.waiting done leaves data).answer = some false ∧
      s.step (.insert done leaves data) = s)
  | _ => True

/-- No `Insert` with a live context finds the stream full. -/
def Spared (s : Reporting R) : Move R → Prop
  | .insert done _ _ => s.crashed = false → s.Full → done = true
  | _ => True

theorem full_iff (data : R) :
    s.Full ↔ s.probes.stream.send data = none ∧ s.waiting = false := by
  rw [Full, Channel.send_eq_none_iff]

theorem answers_iff (hlogger : s.probes.logger = false) (m : Move R) :
    s.Answers m ↔ s.Spared m := by
  cases m with
  | receive | published | stop => exact Iff.rfl
  | insert done leaves data =>
    have hstep : s.crashed = false →
        s.step (.insert done leaves data) = s.insert done leaves data := by
      intro hcrashed
      rw [step, if_neg (by simp [hcrashed])]
    have hinserts := s.probes.insert_inserts s.waiting done leaves data
    have hfull := full_iff (s := s) data
    unfold insert at hstep
    simp only [Answers, Spared]
    generalize s.probes.insert s.waiting done leaves data = result at hinserts hstep ⊢
    cases hinserts with
    | @buffered stream hsend =>
      have hroom : ¬ s.Full := fun h => by simp [hsend] at hfull; exact hfull h
      exact ⟨fun _ _ h => absurd h hroom, fun _ _ => ⟨fun _ _ => rfl, fun h => absurd h hroom⟩⟩
    | handed hsend hwaiting =>
      have hroom : ¬ s.Full := fun h => by simp [hwaiting] at hfull; exact hfull h
      exact ⟨fun _ _ h => absurd h hroom, fun _ _ => ⟨fun _ _ => rfl, fun h => absurd h hroom⟩⟩
    | left hdone =>
      refine ⟨fun _ _ _ => hdone, fun _ hcrashed => ⟨?_, fun _ => ⟨rfl, hstep hcrashed⟩⟩⟩
      intro _ hlive
      rw [hdone] at hlive
      cases hlive
    | dropped hsend hwaiting hdone =>
      rw [hlogger]
      have hisFull : s.Full := hfull.mpr ⟨hsend, hwaiting⟩
      constructor
      · intro h hcrashed _
        have hanswer := ((h hcrashed).2 hisFull).1
        cases hanswer
      · intro h hcrashed
        have hdone' := h hcrashed hisFull
        rw [hdone] at hdone'
        cases hdone'

end Reporting

/-- **The stream is a bounded queue, and `Insert` accepts or refuses as it should, if and only if no
`Insert` with a live context finds the stream full.** -/
theorem probe_data_stream_iff (streamSize : UInt32) (moves : List (Reporting.Move R)) :
    (Throughout Reporting.step (fun s => s.Fifo streamSize ∧ s.Delivers)
        (Reporting.new streamSize) moves ∧
      Along Reporting.step Reporting.Answers (Reporting.new streamSize) moves) ↔
    Along Reporting.step Reporting.Spared (Reporting.new streamSize) moves := by
  have hmade : ∀ (s : Reporting R) m, s.Made streamSize → (s.step m).Made streamSize :=
    fun s m h => h.next (s.step_next m)
  have hthroughout : Throughout Reporting.step (fun s => s.Fifo streamSize ∧ s.Delivers)
      (Reporting.new streamSize) moves :=
    (throughout_always hmade (Reporting.made_new streamSize)).imp
      fun s h => ⟨h.fifo, Reporting.delivers_of_conveys h.conveys⟩
  constructor
  · rintro ⟨-, halong⟩
    exact along_of_invariant (fun s m h _ => hmade s m h)
      (fun s m h => (Reporting.answers_iff h.logger m).mp) (Reporting.made_new streamSize) halong
  · intro halong
    exact ⟨hthroughout, along_of_invariant (fun s m h _ => hmade s m h)
      (fun s m h => (Reporting.answers_iff h.logger m).mpr) (Reporting.made_new streamSize) halong⟩

/-- A stream for one result, with a result that the dispatcher has not taken yet. -/
def oneResult : Reporting Nat := run Reporting.step (Reporting.new 1) [.insert false false 0]

/-- The next result ends the agent. -/
theorem full_stream_panics :
    oneResult.Full ∧ (oneResult.probes.insert oneResult.waiting false false 1).answer = none ∧
      (oneResult.step (.insert false false 1)).crashed = true := by
  decide

end Cepheus.Agent
