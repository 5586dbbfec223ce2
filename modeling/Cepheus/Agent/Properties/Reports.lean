import Cepheus.Agent.Dispatcher
import Cepheus.Agent.Properties.DataStream

/-!
# Reports are of results

Every message that an agent stores is the report of a result that one of its tasks has produced,
with the serial of the agent and an id that its configuration has had.
-/

namespace Cepheus.Agent

open Infra Common TraceProcessor

namespace Reporting

variable {R : Type} {s s' : Reporting R} {m : Move R}

/-- What is waiting or has been received has a property. -/
structure Holds (Q : R → Prop) (s : Reporting R) : Prop where
  buffered : ∀ r ∈ s.probes.stream.buffer, Q r
  received : ∀ r ∈ s.received, Q r

variable {Q : R → Prop}

theorem holds_new (streamSize : UInt32) : (new streamSize : Reporting R).Holds Q where
  buffered := fun _ h => absurd h List.not_mem_nil
  received := fun _ h => absurd h List.not_mem_nil

theorem Holds.imp {Q' : R → Prop} (h : s.Holds Q) (himp : ∀ r, Q r → Q' r) : s.Holds Q' where
  buffered := fun r hr => himp r (h.buffered r hr)
  received := fun r hr => himp r (h.received r hr)

/-- What a call of `Insert` brings. -/
def Move.Brings (Q : R → Prop) : Move R → Prop
  | .insert _ _ data => Q data
  | _ => True

theorem Holds.next (h : s.Holds Q) (hn : s.Next m s') (hm : m.Brings Q) : s'.Holds Q := by
  have happend : ∀ {l : List R} {x : R}, (∀ r ∈ l, Q r) → Q x → ∀ r ∈ l ++ [x], Q r := by
    intro l x hl hx r hr
    rcases List.mem_append.1 hr with hr | hr
    · exact hl r hr
    · exact List.mem_singleton.1 hr ▸ hx
  cases hn with
  | same m => exact h
  | buffered hsend =>
    refine { h with buffered := ?_ }
    rw [show (_ : Channel R).buffer = _ from (Channel.buffer_send hsend).1]
    exact happend h.buffered hm
  | handed hwaiting => exact { h with received := happend h.received hm }
  | panicked => exact { h with }
  | received hreceive =>
    have hbuffer := (Channel.buffer_receive hreceive).1
    have hall := h.buffered
    rw [hbuffer] at hall
    exact
      { buffered := fun r hr => hall r (List.mem_cons_of_mem _ hr)
        received := happend h.received (hall _ List.mem_cons_self) }
  | turned => exact { h with }

end Reporting

namespace Reporter

variable {zone : Time → Rfc3339.Zone} {serialID : String} {streamSize : UInt32} {s s' : Reporter}
  {messages : List Message}

/-! ## What a step does -/

/-- All that a step can do, with the messages that it stores. -/
inductive Next (zone : Time → Rfc3339.Zone) (serialID : String) (streamSize : UInt32)
    (s : Reporter) : Reporter → List Message → Prop
  | same : Next zone serialID streamSize s s []
  | inserted {done leaves : Bool} {result : ProbeResult} :
      Next zone serialID streamSize s
        { s with
          reporting := s.reporting.step (.insert done leaves result)
          measured := s.measured ++ [result] } []
  | configured (id : String) :
      Next zone serialID streamSize s
        { s with agentConfigID := id, configurations := s.configurations ++ [id] } []
  | turned {m : Reporting.Move ProbeResult} (hm : ∀ Q, m.Brings Q) :
      Next zone serialID streamSize s { s with reporting := s.reporting.step m } []
  | prepared {now : Time} {data : ProbeResult} {json : Json} (hdata : data ∈ s.reporting.received)
      (hjson : (s.report serialID now data).marshal zone = some json) :
      Next zone serialID streamSize s
        { s with
          outgoing := some
            (Message.mk (reportSubject serialID data.probeType) json.print).outgoing } []
  | again {o o' : Outgoing} {messages : List Message} (ho : s.outgoing = some o)
      (hmessage : o'.message = o.message) (hstored : ∀ m ∈ messages, m = o.message) :
      Next zone serialID streamSize s { s with outgoing := some o' } messages
  | finished {messages : List Message}
      (hstored : ∀ m ∈ messages, ∃ o ∈ s.outgoing, m = o.message) :
      Next zone serialID streamSize s s.finish messages
  | restarted (id : String) :
      Next zone serialID streamSize s
        { start streamSize id with
          measured := s.measured
          configurations := s.configurations ++ [id] } []

theorem prepare_next (now : Time) {data : ProbeResult} (hdata : data ∈ s.reporting.received) :
    Next zone serialID streamSize s (s.prepare zone serialID now data) [] := by
  have hfinish : Next zone serialID streamSize s s.finish [] :=
    .finished fun m hm => absurd hm List.not_mem_nil
  unfold prepare
  split
  · exact hfinish
  · split
    · exact hfinish
    · next hjson => exact .prepared hdata hjson

theorem attempt_next {o : Outgoing} (ho : s.outgoing = some o) (reply : Reply) :
    Next zone serialID streamSize s (s.attempt o reply) (o.stored reply) := by
  unfold attempt
  split
  · next hagain =>
    exact .again ho (Outgoing.message_again hagain) fun m hm => Outgoing.eq_of_mem_stored hm
  · exact .finished fun m hm => ⟨o, ho, Outgoing.eq_of_mem_stored hm⟩

theorem act_next (s : Reporter) (m : Move) :
    Next zone serialID streamSize s (s.act zone serialID streamSize m).1
      (s.act zone serialID streamSize m).2 := by
  cases m with
  | insert done leaves result => exact .inserted
  | configure id => exact .configured id
  | receive => exact .turned fun _ => trivial
  | prepare now =>
    simp only [act]
    split
    · next hlast => exact prepare_next now (List.mem_of_getLast? hlast)
    · exact .same
  | attempt reply =>
    simp only [act]
    split
    · exact .same
    · next ho => exact attempt_next ho reply
  | abandon =>
    simp only [act]
    split
    · exact .same
    · exact .finished fun m hm => absurd hm List.not_mem_nil
  | stop => exact .turned fun _ => trivial
  | restart id => exact .restarted id

theorem step_next (s : Reporter) (m : Move) :
    Next zone serialID streamSize s (s.step zone serialID streamSize m).1
      (s.step zone serialID streamSize m).2 := by
  unfold step
  split
  · exact act_next s _
  · exact .same
  · exact act_next s _

/-- The result that a loop inserts. -/
def Move.inserted : Move → List ProbeResult
  | .insert _ _ result => [result]
  | _ => []

/-- The id of a configuration that the agent gets. -/
def Move.configured : Move → List String
  | .configure id | .restart id => [id]
  | _ => []

theorem act_records (s : Reporter) (m : Move) :
    (s.act zone serialID streamSize m).1.measured = s.measured ++ m.inserted ∧
      (s.act zone serialID streamSize m).1.configurations = s.configurations ++ m.configured := by
  have hprepare : ∀ now data, (s.prepare zone serialID now data).measured = s.measured ∧
      (s.prepare zone serialID now data).configurations = s.configurations := by
    intro now data
    unfold prepare
    split
    · exact ⟨rfl, rfl⟩
    · split <;> exact ⟨rfl, rfl⟩
  have hattempt : ∀ o reply, (s.attempt o reply).measured = s.measured ∧
      (s.attempt o reply).configurations = s.configurations := by
    intro o reply
    unfold attempt
    split <;> exact ⟨rfl, rfl⟩
  cases m with
  | prepare now =>
    simp only [act, Move.inserted, Move.configured, List.append_nil]
    split
    · exact hprepare now _
    · exact ⟨rfl, rfl⟩
  | attempt reply =>
    simp only [act, Move.inserted, Move.configured, List.append_nil]
    split
    · exact ⟨rfl, rfl⟩
    · exact hattempt _ reply
  | abandon =>
    simp only [act, Move.inserted, Move.configured, List.append_nil]
    split <;> exact ⟨rfl, rfl⟩
  | _ => simp [act, Move.inserted, Move.configured, start]

/-- A panic ends the agent until it is started again. -/
theorem step_records (s : Reporter) (m : Move) :
    (∀ r ∈ (s.step zone serialID streamSize m).1.measured, r ∈ s.measured ∨ r ∈ m.inserted) ∧
      ∀ id ∈ (s.step zone serialID streamSize m).1.configurations,
        id ∈ s.configurations ∨ id ∈ m.configured := by
  have hact : ∀ m : Move,
      (∀ r ∈ (s.act zone serialID streamSize m).1.measured, r ∈ s.measured ∨ r ∈ m.inserted) ∧
        ∀ id ∈ (s.act zone serialID streamSize m).1.configurations,
          id ∈ s.configurations ∨ id ∈ m.configured := by
    intro m
    rw [(act_records s m).1, (act_records s m).2]
    exact ⟨fun r hr => List.mem_append.1 hr, fun id hid => List.mem_append.1 hid⟩
  unfold step
  split
  · exact hact _
  · exact ⟨fun r hr => .inl hr, fun id hid => .inl hid⟩
  · exact hact _

/-- A result is measured when a loop inserts it. -/
theorem measured_step {r : ProbeResult} {m : Move}
    (h : r ∈ (s.step zone serialID streamSize m).1.measured) :
    r ∈ s.measured ∨ ∃ done leaves, m = .insert done leaves r := by
  refine ((step_records s m).1 r h).imp_right fun hr => ?_
  cases m with
  | insert done leaves result =>
    obtain rfl := List.mem_singleton.1 hr
    exact ⟨done, leaves, rfl⟩
  | _ => cases hr

/-- A configuration is one that the agent has pulled. -/
theorem configurations_step {id : String} {m : Move}
    (h : id ∈ (s.step zone serialID streamSize m).1.configurations) :
    id ∈ s.configurations ∨ m = .configure id ∨ m = .restart id := by
  refine ((step_records s m).2 id h).imp_right fun hid => ?_
  cases m with
  | configure id' => exact .inl (by rw [List.mem_singleton.1 hid])
  | restart id' => exact .inr (by rw [List.mem_singleton.1 hid])
  | _ => cases hid

/-! ## Reports -/

/-- The message is the report of a result of this agent. -/
def Reported (zone : Time → Rfc3339.Zone) (serialID : String) (s : Reporter) (m : Message) : Prop :=
  ∃ r ∈ s.measured, ∃ id ∈ s.configurations, ∃ now json,
    ReportPayload.marshal zone
      { payload := r, serialID, sentTimestamp := now, agentConfigId := id } = some json ∧
    m = { subject := reportSubject serialID r.probeType, text := json.print }

/-- Nothing is forgotten. -/
structure Earlier (s s' : Reporter) : Prop where
  measured : ∀ r ∈ s.measured, r ∈ s'.measured
  configurations : ∀ id ∈ s.configurations, id ∈ s'.configurations

theorem Next.earlier (hn : Next zone serialID streamSize s s' messages) : s.Earlier s' := by
  have hsame : s.Earlier s := ⟨fun _ h => h, fun _ h => h⟩
  cases hn with
  | same => exact hsame
  | inserted => exact { hsame with measured := fun r hr => List.mem_append_left _ hr }
  | configured id => exact { hsame with configurations := fun r hr => List.mem_append_left _ hr }
  | turned hm => exact { hsame with }
  | prepared hdata hjson => exact { hsame with }
  | again ho hmessage hstored => exact { hsame with }
  | finished hstored => exact { hsame with }
  | restarted id => exact ⟨fun _ h => h, fun r hr => List.mem_append_left _ hr⟩

theorem Reported.later {m : Message} (h : s.Reported zone serialID m) (he : s.Earlier s') :
    s'.Reported zone serialID m := by
  obtain ⟨r, hr, id, hid, now, json, hjson, rfl⟩ := h
  exact ⟨r, he.measured r hr, id, he.configurations id hid, now, json, hjson, rfl⟩

/-- What an agent has in its hands are results of its tasks. -/
structure Sound (zone : Time → Rfc3339.Zone) (serialID : String) (s : Reporter) : Prop where
  results : s.reporting.Holds (· ∈ s.measured)
  configured : s.agentConfigID ∈ s.configurations
  outgoing : ∀ o ∈ s.outgoing, s.Reported zone serialID o.message

theorem sound_start (id : String) : (start streamSize id).Sound zone serialID where
  results := Reporting.holds_new streamSize
  configured := List.mem_singleton.2 rfl
  outgoing := fun _ h => by cases h

theorem Sound.next (h : s.Sound zone serialID) (hn : Next zone serialID streamSize s s' messages) :
    s'.Sound zone serialID ∧ ∀ m ∈ messages, s'.Reported zone serialID m := by
  have hnone : ∀ m ∈ ([] : List Message), s'.Reported zone serialID m :=
    fun m hm => absurd hm List.not_mem_nil
  have hlater : ∀ o ∈ s.outgoing, s'.Reported zone serialID o.message :=
    fun o ho => (h.outgoing o ho).later hn.earlier
  have hresults : ∀ m : Reporting.Move ProbeResult, m.Brings (· ∈ s'.measured) →
      (s.reporting.step m).Holds (· ∈ s'.measured) := fun m hm =>
    (h.results.imp hn.earlier.measured).next (Reporting.step_next _ _) hm
  cases hn with
  | same => exact ⟨h, hnone⟩
  | @inserted done leaves result =>
    have hnew : result ∈ s.measured ++ [result] :=
      List.mem_append_right _ (List.mem_singleton.2 rfl)
    exact ⟨{ results := hresults (.insert done leaves result) hnew
             configured := h.configured
             outgoing := hlater }, hnone⟩
  | configured id =>
    exact ⟨{ results := h.results
             configured := List.mem_append_right _ (List.mem_singleton.2 rfl)
             outgoing := hlater }, hnone⟩
  | @turned m hm =>
    exact ⟨{ results := hresults m (hm _), configured := h.configured, outgoing := hlater }, hnone⟩
  | @prepared now data json hdata hjson =>
    refine ⟨{ results := h.results, configured := h.configured, outgoing := ?_ }, hnone⟩
    intro o ho
    obtain rfl := Option.some.inj ho
    exact ⟨data, h.results.received data hdata, s.agentConfigID, h.configured, now, json, hjson,
      rfl⟩
  | again ho hmessage hstored =>
    have hreported := hlater _ ho
    refine ⟨{ results := h.results, configured := h.configured, outgoing := ?_ }, ?_⟩
    · intro o' ho'
      obtain rfl := Option.some.inj ho'
      exact hmessage ▸ hreported
    · intro m hm
      exact hstored m hm ▸ hreported
  | finished hstored =>
    refine ⟨{ results := hresults .published trivial
              configured := h.configured
              outgoing := fun _ ho => by cases ho }, ?_⟩
    intro m hm
    obtain ⟨o, ho, rfl⟩ := hstored m hm
    exact hlater o ho
  | restarted id =>
    exact ⟨{ results := Reporting.holds_new streamSize
             configured := List.mem_append_right _ (List.mem_singleton.2 rfl)
             outgoing := fun _ ho => by cases ho }, hnone⟩

end Reporter

end Cepheus.Agent
