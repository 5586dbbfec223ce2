import Cepheus.Argus.Messages
import Cepheus.Argus.Properties.Provenance

/-!
# Streams that grow

Nothing but the messages that have been fetched matters to what the service does next, so it does
not matter to it whether more messages follow.
-/

namespace Cepheus.Argus

open Infra

variable {V S : Type} {p p' : Pipeline V S} {q : Pipeline V S} {s : System V S}
  {messages messages' : List Common.Message}

/-- A message is read alike when more messages follow. -/
theorem Pipeline.decode_reading_grown (hgrown : messages <+: messages') {id : MsgId}
    (hid : id < messages.length) :
    (q.reading messages).decode id = (q.reading messages').decode id := by
  have hget : messages[id]? = messages'[id]? := by
    obtain ⟨rest, rfl⟩ := hgrown
    exact (List.getElem?_append_left hid).symm
  simp only [Pipeline.decode, Pipeline.reading, hget]

/-- A worker does not look at the stream. -/
theorem Goroutine.step_congr (hconfig : p.config = p'.config) (series : DiscoveredSeries)
    (g : Goroutine V S) (db : Stores S) (tick : Tick) :
    g.step p series db tick = g.step p' series db tick := by
  cases tick with
  | apply env => simp only [step, hconfig]
  | _ => rfl

/-- Nothing but the messages that have been fetched matters to a step. -/
theorem System.step_congr (hworker : p.worker = p'.worker) (hconfig : p.config = p'.config)
    (hdecode : ∀ id ∈ s.fetched, p.decode id = p'.decode id) (move : Move) :
    s.step p move = s.step p' move := by
  cases move with
  | dispatch =>
    simp only [step]
    cases hsending : s.sending with
    | some x => rfl
    | none =>
      cases hfetched : s.fetched with
      | nil => rfl
      | cons id rest =>
        have hid := hdecode id (by simp [hfetched])
        simp only [dispatch, hid, Pipeline.start, hworker]
  | work series tick => simp only [step, Goroutine.step_congr hconfig]
  | sweep env => simp only [step, hconfig]
  | _ => rfl

theorem System.Next.delivered_cases {s' : System V S} {move : Move} {ev : Option (Event V S)}
    (hnext : s.Next p move ev s') {id : MsgId} (hid : id ∈ s'.db.delivered) :
    id ∈ s.db.delivered ∨ move = .fetch id := by
  cases hnext with
  | fetched _ =>
    rcases Finset.mem_insert.mp hid with rfl | hid
    · exact .inr rfl
    · exact .inl hid
  | worked _ hstep _ => exact .inl (hstep.delivered ▸ hid)
  | _ => exact .inl hid

/-- The stream hands out what is fetched. -/
theorem System.delivered_step (move : Move) {id : MsgId}
    (hid : id ∈ (s.step p move).db.delivered) : id ∈ s.db.delivered ∨ move = .fetch id := by
  by_cases hd : s.Dies p move
  · rw [(s.step_death p move hd).eq] at hid
    exact .inl hid
  · exact (s.step_next p move hd).delivered_cases hid

end Cepheus.Argus
