import Cepheus.Infra.Lag
import Cepheus.Infra.Stations
import Cepheus.Scamper.Client

/-!
# Matching replies to commands

The queue and the table of the client are a copy of the daemon's that lags behind (`Synced`): a
message finds them just as the daemon's were when the daemon sent it. So the channel that the reader
picks is that of the command which the daemon had in mind. A command is in the queue, in the table,
or has its value (`Orderly`), so no channel is picked twice and its buffer always has room.
-/

namespace Cepheus.Scamper

open Infra

/-! ## What a message does -/

/-- All that `View.next` can do. -/
inductive View.Takes (v : View) : Reply → View → Prop
  | ok {ch : Chan} {queue : List Chan} (hq : v.queue = ch :: queue) :
      Takes v (.ok ch none) { v with queue }
  | named {ch : Chan} {queue : List Chan} {id : Token} (hq : v.queue = ch :: queue)
      (hid : v.named.lookup id.octets = none) :
      Takes v (.ok ch (some id)) { queue, named := v.named.insert id.octets ch }
  | err {ch : Chan} {queue : List Chan} {text : Text} (hq : v.queue = ch :: queue) :
      Takes v (.err ch text) { v with queue }
  | more {text : Text} : Takes v (.more text) v
  | unknown {f : Frame} {id : Token} {hf : f.id = some id} (hid : v.named.lookup id.octets = none) :
      Takes v (.data f id hf none) v
  | data {f : Frame} {id : Token} {hf : f.id = some id} {ch : Chan}
      (hid : v.named.lookup id.octets = some ch) :
      Takes v (.data f id hf (some ch)) { v with named := v.named.erase id.octets }

theorem View.eq_cons_of_head? {v : View} {ch : Chan} (h : v.queue.head? = some ch) :
    v.queue = ch :: v.queue.tail := by
  cases hq : v.queue with
  | nil =>
    rw [hq] at h
    cases h
  | cons c queue =>
    rw [hq] at h
    obtain rfl : c = ch := Option.some.inj h
    rfl

theorem View.takes {v w : View} {r : Reply} (h : v.next r = some w) : v.Takes r w := by
  cases r with
  | ok ch id =>
    cases id with
    | none =>
      simp only [View.next, Option.ite_none_right_eq_some, Option.some.injEq] at h
      obtain ⟨hq, rfl⟩ := h
      exact .ok (View.eq_cons_of_head? hq)
    | some id =>
      simp only [View.next, Option.ite_none_right_eq_some, Option.some.injEq] at h
      obtain ⟨⟨hq, hid⟩, rfl⟩ := h
      exact .named (View.eq_cons_of_head? hq) hid
  | err ch text =>
    simp only [View.next, Option.ite_none_right_eq_some, Option.some.injEq] at h
    obtain ⟨hq, rfl⟩ := h
    exact .err (View.eq_cons_of_head? hq)
  | more text =>
    obtain rfl : v = w := Option.some.inj h
    exact .more
  | data f id hf ch =>
    simp only [View.next, Option.ite_none_right_eq_some] at h
    obtain ⟨hid, h⟩ := h
    cases ch with
    | none =>
      obtain rfl : v = w := Option.some.inj h
      exact .unknown hid
    | some ch =>
      obtain rfl := Option.some.inj h
      exact .data hid

/-- A new command behind the others makes no difference to a message. -/
theorem View.next_enqueue {ch : Chan} (v : View) (r : Reply) (w : View) (h : v.next r = some w) :
    View.next { v with queue := v.queue ++ [ch] } r = some { w with queue := w.queue ++ [ch] } := by
  cases View.takes h with
  | ok hq => simp [View.next, hq]
  | named hq hid => simp [View.next, hq, hid]
  | err hq => simp [View.next, hq]
  | more => rfl
  | unknown hid => simp [View.next, hid]
  | data hid => simp [View.next, hid]

/-- What the reader reads a message as. -/
def Reply.message : Reply → Message
  | ok _ none => .ok []
  | ok _ (some id) => .ok id.octets
  | err _ _ => .err
  | more _ => .more
  | data f id _ _ => .data id.octets f.payload

theorem iterate_reply (r : Reply) (rest : Octets) :
    ∃ line, iterate (r.item.encode ++ rest) = some { line, message := r.message, rest } := by
  cases r with
  | ok ch id =>
    refine ⟨wordOK ++ idField id, (iterate_control _ rest).trans ?_⟩
    cases id with
    | none => rfl
    | some id =>
      have hid : scanOK (wordOK ++ 0x20 :: id.octets) = id.octets := scanOK_token id
      simp only [Control.message, Control.line, Word.octets, okText, idField, Reply.message, hid]
  | err ch text => exact ⟨_, iterate_control _ rest⟩
  | more text => exact ⟨_, iterate_control _ rest⟩
  | data f id hf ch =>
    refine ⟨f.header, (iterate_frame f rest).trans ?_⟩
    rw [Frame.iteration, hf]
    rfl

/-- Where the reader is after a message. -/
def Reply.after (r : Reply) (reader : Reader) : Reader :=
  match r with
  | ok ch none => .sending ch ⟨none⟩ true
  | data f _ _ (some ch) => .sending ch ⟨some f.payload⟩ false
  | _ => reader

/-- The commands as the client knows them. -/
def System.view (s : System) : View := { queue := s.pendingQ, named := s.waiters }

/-- The reader does with a message that it expects what the daemon has done with it. -/
theorem System.handle_next {s : System} {r : Reply} {v : View} (h : s.view.next r = some v) :
    s.handle r.message =
      { s with pendingQ := v.queue, waiters := v.named, reader := r.after s.reader } := by
  cases View.takes h with
  | ok hq =>
    have hq : s.pendingQ = _ := hq
    simp only [System.handle, Reply.message, hq]
    rfl
  | @named ch queue id hq hid =>
    have hq : s.pendingQ = _ := hq
    simp only [System.handle, Reply.message, hq, ne_eq, id.ne_nil, not_false_eq_true, if_true]
    rfl
  | err hq =>
    have hq : s.pendingQ = _ := hq
    simp only [System.handle, Reply.message, hq]
    rfl
  | more => rfl
  | @unknown f id hf hid =>
    have hid : s.waiters.lookup id.octets = none := hid
    simp only [System.handle, Reply.message, id.ne_nil, if_false, hid]
    rfl
  | @data f id hf ch hid =>
    have hid : s.waiters.lookup id.octets = some ch := hid
    simp only [System.handle, Reply.message, id.ne_nil, if_false, hid]
    rfl

/-! ## What a step does -/

/-- The octets of the messages in flight. -/
def encodeAll (flight : List Reply) : Octets := flight.flatMap fun r => r.item.encode

theorem iterate_nil : iterate [] = none := rfl

/-- The client is a copy of the daemon that lags behind by what is on the wire. -/
structure System.Synced (s : System) : Prop where
  wire : s.wire = encodeAll s.flight
  lags : Lags View.next s.view s.flight s.daemon

/-- All that a step can do to a system that is in step with the daemon. -/
inductive System.Next (s : System) : Move → System → Prop
  | unsent {written : Bool} (hw : written = false ∨ s.reader.locks = true) :
      Next s (.send written) s
  | sent (hfree : s.reader.locks = false) : Next s (.send true) s.send
  | unanswered (act : Act) : Next s (.daemon act) s
  | replied {act : Act} {r : Reply} {v : View} (hv : s.daemon.next r = some v) :
      Next s (.daemon act)
        { s with
          daemon := v
          wire := s.wire ++ r.item.encode
          flight := s.flight ++ [r]
          answers := s.answers ++ r.result.toList }
  | unread (hr : s.reader ≠ .reading ∨ s.flight = []) : Next s .read s
  | read {r : Reply} {flight : List Reply} {v : View} (hreader : s.reader = .reading)
      (hflight : s.flight = r :: flight) (hv : s.view.next r = some v)
      (hlags : Lags View.next v flight s.daemon) :
      Next s .read
        { s with
          pendingQ := v.queue
          waiters := v.named
          reader := r.after .reading
          wire := encodeAll flight
          flight
          processed := s.processed ++ r.completes.toList }
  | unpushed : Next s .push s
  | pushed {ch : Chan} {result : ReaderResult} {locked : Bool}
      (hreader : s.reader = .sending ch result locked) (hroom : s.buffer.lookup ch = none) :
      Next s .push
        { s with
          reader := .reading
          buffer := s.buffer.insert ch result
          delivered := s.delivered ++ [(ch, result)] }
  | received (ch : Chan) : Next s (.receive ch) { s with buffer := s.buffer.erase ch }
  | unstopped (hr : s.reader ≠ .reading) : Next s .stop s
  | stopped (hreader : s.reader = .reading) : Next s .stop { s with reader := .returned }

theorem System.Synced.wire_cons {s : System} (h : s.Synced) {r : Reply} {flight : List Reply}
    (hflight : s.flight = r :: flight) : s.wire = r.item.encode ++ encodeAll flight := by
  rw [h.wire, hflight, encodeAll, List.flatMap_cons, encodeAll]

theorem System.Synced.wire_nil {s : System} (h : s.Synced) (hflight : s.flight = []) :
    s.wire = [] := by
  rw [h.wire, hflight, encodeAll, List.flatMap_nil]

theorem System.Synced.step_read {s : System} (h : s.Synced) : s.Next .read (s.step .read) := by
  simp only [System.step]
  by_cases hreader : s.reader = .reading
  · have hlags := h.lags
    cases hflight : s.flight with
    | nil =>
      rw [h.wire_nil hflight]
      simp only [hreader, iterate_nil]
      exact .unread (.inr hflight)
    | cons r flight =>
      rw [hflight] at hlags
      obtain ⟨v, hv, hlags⟩ := hlags
      obtain ⟨line, hit⟩ := iterate_reply r (encodeAll flight)
      have hnext := System.Next.read hreader hflight hv hlags
      rw [h.wire_cons hflight, hit]
      simp only [System.handle_next hv, hreader, List.head?_cons, Option.bind_some, List.tail_cons]
      exact hnext
  · have hstep : s.Next .read s := .unread (.inl hreader)
    cases hr : s.reader with
    | reading => exact absurd hr hreader
    | sending ch result locked => exact hstep
    | returned => exact hstep
    | crashed => exact hstep

theorem System.step_push (s : System) : s.Next .push (s.step .push) := by
  simp only [System.step]
  cases hreader : s.reader with
  | sending ch result locked =>
    simp only
    cases hroom : s.buffer.lookup ch with
    | some _ => exact .unpushed
    | none => exact .pushed hreader hroom
  | reading => exact .unpushed
  | returned => exact .unpushed
  | crashed => exact .unpushed

theorem System.step_stop (s : System) : s.Next .stop (s.step .stop) := by
  simp only [System.step]
  cases hreader : s.reader with
  | reading => exact .stopped hreader
  | sending ch result locked => exact .unstopped (by simp [hreader])
  | returned => exact .unstopped (by simp [hreader])
  | crashed => exact .unstopped (by simp [hreader])

theorem System.Synced.step_next {s : System} (h : s.Synced) (m : Move) : s.Next m (s.step m) := by
  cases m with
  | send written =>
    simp only [System.step]
    cases written with
    | false => exact .unsent (.inl rfl)
    | true =>
      cases hlocks : s.reader.locks with
      | false => exact .sent hlocks
      | true => exact .unsent (.inr hlocks)
  | daemon act =>
    simp only [System.step]
    cases s.daemon.reply act with
    | none => exact .unanswered act
    | some r =>
      simp only
      cases hv : s.daemon.next r with
      | none => exact .unanswered act
      | some v => exact .replied hv
  | read => exact h.step_read
  | push => exact s.step_push
  | receive ch => exact .received ch
  | stop => exact s.step_stop

theorem System.Synced.next {s s' : System} {m : Move} (h : s.Synced) (hn : s.Next m s') :
    s'.Synced := by
  cases hn with
  | unsent _ | unanswered _ | unread _ | unpushed | unstopped _ => exact h
  | sent hfree =>
    exact
      { wire := h.wire
        lags := h.lags.both (f := fun v => { v with queue := v.queue ++ [s.made] })
          fun v r w => View.next_enqueue v r w }
  | replied hv =>
    exact
      { wire := by
          show s.wire ++ _ = _
          rw [h.wire, encodeAll, encodeAll, List.flatMap_append, List.flatMap_singleton]
        lags := h.lags.send hv }
  | read hreader hflight hv hlags => exact { wire := rfl, lags := hlags }
  | pushed hreader hroom => exact { wire := h.wire, lags := h.lags }
  | received ch => exact { wire := h.wire, lags := h.lags }
  | stopped hreader => exact { wire := h.wire, lags := h.lags }

/-! ## One value for every channel -/

/-- The value that the reader is sending. -/
def Reader.value : Reader → Option (Chan × ReaderResult)
  | sending ch result _ => some (ch, result)
  | _ => none

/-- The values that have been sent or are being sent. -/
def System.handed (s : System) : List (Chan × ReaderResult) := s.delivered ++ s.reader.value.toList

/-- Every command is in the queue, in the table, or has its value; and the value is the one that the
daemon has meant for it. -/
structure System.Orderly (s : System) : Prop where
  stations : Stations (· < s.made) s.pendingQ s.waiters (s.handed.map Prod.fst)
  buffered : ∀ ch result, s.buffer.lookup ch = some result → ch ∈ s.delivered.map Prod.fst
  meant : ∀ x ∈ s.handed, x ∈ s.answers
  coming : ∀ r ∈ s.flight, ∀ x ∈ r.result, x ∈ s.answers

theorem Reply.value_after (r : Reply) : (r.after .reading).value = r.result := by
  cases r with
  | ok ch id => cases id <;> rfl
  | err ch text => rfl
  | more text => rfl
  | data f id hf ch => cases ch <;> rfl

/-- What becomes of the stations when the reader reads a message. -/
theorem stations_read {Kept : Chan → Prop} {v w : View} {done : List Chan} {r : Reply}
    (h : Stations Kept v.queue v.named done) (hr : v.next r = some w) :
    Stations Kept w.queue w.named (done ++ r.result.toList.map Prod.fst) := by
  cases View.takes hr with
  | ok hq =>
    rw [hq] at h
    obtain ⟨h, hfree, hkept⟩ := h.pop
    exact h.finish hfree hkept
  | named hq hid =>
    rw [hq] at h
    obtain ⟨h, hfree, hkept⟩ := h.pop
    simp only [Reply.result, Option.toList_none, List.map_nil, List.append_nil]
    exact h.insert hfree hkept _
  | err hq =>
    rw [hq] at h
    simp only [Reply.result, Option.toList_none, List.map_nil, List.append_nil]
    exact h.pop.1
  | more => simpa only [Reply.result, Option.toList_none, List.map_nil, List.append_nil] using h
  | unknown hid =>
    simpa only [Reply.result, Option.toList_none, List.map_nil, List.append_nil] using h
  | data hid =>
    obtain ⟨h, hfree, hkept⟩ := h.remove hid
    exact h.finish hfree hkept

theorem System.handed_reading {s : System} (h : s.reader = .reading) : s.handed = s.delivered := by
  rw [System.handed, h]
  exact List.append_nil _

theorem System.Orderly.next {s s' : System} {m : Move} (h : s.Orderly) (hn : s.Next m s') :
    s'.Orderly := by
  cases hn with
  | unsent _ | unanswered _ | unread _ | unpushed | unstopped _ => exact h
  | sent hfree =>
    have hmono := h.stations.imp fun ch (hch : ch < s.made) => Nat.lt_succ_of_lt hch
    exact
      { stations := hmono.push (h.stations.free (Nat.lt_irrefl _)) (Nat.lt_succ_self _)
        buffered := h.buffered
        meant := h.meant
        coming := h.coming }
  | @replied act r v hv =>
    refine
      { stations := h.stations
        buffered := h.buffered
        meant := fun x hx => List.mem_append_left _ (h.meant x hx)
        coming := ?_ }
    intro r' hr' x hx
    rcases List.mem_append.mp hr' with hr' | hr'
    · exact List.mem_append_left _ (h.coming r' hr' x hx)
    · obtain rfl := List.mem_singleton.mp hr'
      exact List.mem_append_right _ (Option.mem_toList.mpr hx)
  | @read r flight v hreader hflight hv hlags =>
    have hdone := h.stations
    rw [System.handed_reading hreader] at hdone
    refine
      { stations := ?_
        buffered := h.buffered
        meant := ?_
        coming := fun r' hr' => h.coming r' (hflight ▸ List.mem_cons_of_mem _ hr') }
    · have hread := stations_read (v := s.view) hdone hv
      simp only [System.handed, Reply.value_after, List.map_append]
      exact hread
    · intro x hx
      simp only [System.handed, Reply.value_after, List.mem_append, Option.mem_toList] at hx
      rcases hx with hx | hx
      · exact h.meant x (List.mem_append_left _ hx)
      · exact h.coming r (hflight ▸ List.mem_cons_self) x hx
  | @pushed ch result locked hreader hroom =>
    -- the value is where it was, in `delivered` now
    have hhanded : s.handed = s.delivered ++ [(ch, result)] := by
      rw [System.handed, hreader]
      rfl
    refine { stations := ?_, buffered := ?_, meant := ?_, coming := h.coming }
    · have hst := h.stations
      rw [hhanded] at hst
      rw [System.handed_reading rfl]
      exact hst
    · intro ch' result' hb
      rw [Table.lookup_insert_if] at hb
      rw [List.map_append, List.mem_append]
      split at hb
      · next heq => exact .inr (List.mem_singleton.mpr heq)
      · exact .inl (h.buffered ch' result' hb)
    · have hmeant := h.meant
      rw [hhanded] at hmeant
      rw [System.handed_reading rfl]
      exact hmeant
  | received ch =>
    refine { stations := h.stations, buffered := ?_, meant := h.meant, coming := h.coming }
    intro ch' result hb
    exact h.buffered ch' result (Stations.lookup_erase hb).2
  | stopped hreader =>
    have hhanded : System.handed { s with reader := .returned } = s.handed := by
      rw [System.handed_reading hreader]
      exact List.append_nil _
    exact
      { stations := hhanded ▸ h.stations
        buffered := h.buffered
        meant := hhanded ▸ h.meant
        coming := h.coming }

/-! ## Whole runs -/

theorem System.synced_init : System.init.Synced := ⟨rfl, rfl⟩

theorem System.orderly_init : System.init.Orderly where
  stations := Stations.start _
  buffered := fun ch result h => by simp [System.init] at h
  meant := fun x hx => absurd hx List.not_mem_nil
  coming := fun r hr => absurd hr List.not_mem_nil

theorem System.step_invariant (s : System) (m : Move) (h : s.Synced ∧ s.Orderly) :
    (s.step m).Synced ∧ (s.step m).Orderly :=
  have hn := h.1.step_next m
  ⟨h.1.next hn, h.2.next hn⟩

/-- Every value on a channel is the daemon's answer to the command, no channel gets a second one,
and the reader does not have to wait to send it. -/
structure System.Matched (s : System) : Prop where
  meant : ∀ x ∈ s.delivered, x ∈ s.answers
  once : (s.delivered.map Prod.fst).Nodup
  room : ∀ ch result locked, s.reader = .sending ch result locked → s.buffer.lookup ch = none

theorem System.Orderly.matched {s : System} (h : s.Orderly) : s.Matched := by
  have hnodup : ((s.delivered.map Prod.fst) ++ s.reader.value.toList.map Prod.fst).Nodup := by
    rw [← List.map_append]
    exact h.stations.done_nodup
  refine ⟨fun x hx => h.meant x (List.mem_append_left _ hx), (List.nodup_append.mp hnodup).1, ?_⟩
  intro ch result locked hreader
  cases hb : s.buffer.lookup ch with
  | none => rfl
  | some result' =>
    rw [hreader] at hnodup
    have hch : ch ∈ s.delivered.map Prod.fst := h.buffered ch result' hb
    exact absurd rfl ((List.nodup_append.mp hnodup).2.2 ch hch ch List.mem_cons_self)

/-- **Replies are matched to commands.** -/
theorem replies_match_commands (moves : List Move) :
    Throughout System.step System.Matched System.init moves := by
  have hinv : Throughout System.step (fun s => s.Synced ∧ s.Orderly) System.init moves :=
    throughout_always System.step_invariant ⟨System.synced_init, System.orderly_init⟩
  exact hinv.imp fun s h => h.2.matched

/-- A frame of one octet with an id of one octet. -/
def octetFrame (id octet : UInt8) (h : 0x21 ≤ id ∧ id ≤ 0x7E) : Frame where
  id := some ⟨[id], List.cons_ne_nil _ _, by simpa using h⟩
  digits := [0x31]
  payload := [octet]
  ne_nil := by decide
  isNumber := fun o ho => by
    rw [List.mem_singleton.mp ho]
    rfl
  length_eq := rfl
  fits := Nat.one_lt_two_pow (by decide)

-- two commands, and the data of the second one comes first
example :
    (run System.step System.init
      [.send true, .send true, .daemon (.ok (octetFrame 0x61 1 (by decide)).id), .read,
        .daemon (.ok (octetFrame 0x62 2 (by decide)).id),
        .daemon (.data (octetFrame 0x62 2 (by decide))), .read, .read, .push,
        .daemon (.data (octetFrame 0x61 1 (by decide))), .read, .push]).delivered =
      [(1, ⟨some [2]⟩), (0, ⟨some [1]⟩)] := by
  decide +kernel

end Cepheus.Scamper
