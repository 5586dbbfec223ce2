import Cepheus.Scamper.Properties.Replies

/-!
# Every command completes

A command completes when a value is sent on its channel. Two paths of the reader leave a command
behind: an `ERR` line takes its channel out of the queue and sends nothing, and a return of
`StartRead` leaves all channels that are still in the queue or in the table as they are. A `Send`
after the return waits in the same way. Every other step keeps all commands on their way.
-/

namespace Cepheus.Scamper

open Infra

/-- A value has been sent on the channel. No channel is ever closed. -/
def System.Completed (s : System) (ch : Chan) : Prop := ch ∈ s.delivered.map Prod.fst

/-- The reader is not in the middle of an iteration. -/
def Reader.between : Reader → Bool
  | reading | returned => true
  | sending _ _ _ | crashed => false

/-- Every command whose whole answer has been read is complete, and after the return of `StartRead`
every command is. -/
structure System.AllCompleted (s : System) : Prop where
  processed : s.reader.between = true → ∀ ch ∈ s.processed, s.Completed ch
  returned : s.reader = .returned → ∀ ch < s.made, s.Completed ch

instance (s : System) (ch : Chan) : Decidable (s.Completed ch) :=
  inferInstanceAs (Decidable (ch ∈ s.delivered.map Prod.fst))

instance (s : System) : Decidable s.AllCompleted :=
  decidable_of_iff
    ((s.reader.between = true → ∀ ch ∈ s.processed, s.Completed ch) ∧
      (s.reader = .returned → ∀ ch < s.made, s.Completed ch))
    ⟨fun h => ⟨h.1, h.2⟩, fun h => ⟨h.processed, h.returned⟩⟩

/-- A move that leaves no command behind: the reader does not get an `ERR` line, it does not return
while a command waits, and nothing is sent after it has returned. -/
def Move.Completing (s : System) : Move → Prop
  | .send written => s.reader = .returned → written = false
  | .read => s.reader = .reading → ∀ it, iterate s.wire = some it → it.message ≠ .err
  | .stop => s.reader = .reading → s.pendingQ = [] ∧ s.waiters = ∅
  | .daemon _ | .push | .receive _ => True

/-! ## Commands on their way -/

/-- Every command is in the queue, in the table, or has its value. -/
structure System.NoneLost (s : System) : Prop where
  onTheWay : ∀ ch < s.made, ch ∈ s.pendingQ ∨ (∃ id, s.waiters.lookup id = some ch) ∨
    ch ∈ s.handed.map Prod.fst
  processed : ∀ ch ∈ s.processed, ch ∈ s.handed.map Prod.fst

/-- The message on which an iteration acts. -/
theorem System.Synced.completing_read {s : System} (h : s.Synced) {r : Reply} {flight : List Reply}
    (hreader : s.reader = .reading) (hflight : s.flight = r :: flight) :
    Move.Completing s .read ↔ r.message ≠ .err := by
  obtain ⟨line, hit⟩ := iterate_reply r (encodeAll flight)
  rw [← h.wire_cons hflight] at hit
  constructor
  · intro hc
    exact hc hreader _ hit
  · intro hne _ it hit'
    rw [hit] at hit'
    obtain rfl := Option.some.inj hit'
    exact hne

theorem Reply.completes_eq {r : Reply} {ch : Chan} (h : r.completes = some ch)
    (herr : r.message ≠ .err) : ch ∈ r.result.toList.map Prod.fst := by
  cases r with
  | ok c id =>
    cases id with
    | none =>
      obtain rfl := Option.some.inj h
      exact List.mem_singleton.mpr rfl
    | some id => cases h
  | err c text => exact absurd rfl herr
  | more text => cases h
  | data f id hf c =>
    obtain rfl : c = some ch := h
    exact List.mem_singleton.mpr rfl

/-- No message but an `ERR` line takes a command off its way. -/
theorem View.Takes.onTheWay {v w : View} {r : Reply} (h : v.Takes r w) (herr : r.message ≠ .err)
    {done : List Chan} {ch : Chan}
    (hch : ch ∈ v.queue ∨ (∃ id, v.named.lookup id = some ch) ∨ ch ∈ done) :
    ch ∈ w.queue ∨ (∃ id, w.named.lookup id = some ch) ∨
      ch ∈ done ++ r.result.toList.map Prod.fst := by
  cases h with
  | ok hq =>
    rw [hq] at hch
    rcases hch with hch | hch | hch
    · rcases List.mem_cons.mp hch with rfl | hch
      · exact .inr (.inr (List.mem_append_right _ List.mem_cons_self))
      · exact .inl hch
    · exact .inr (.inl hch)
    · exact .inr (.inr (List.mem_append_left _ hch))
  | @named c queue id hq hid =>
    rw [hq] at hch
    rcases hch with hch | ⟨id', hid'⟩ | hch
    · rcases List.mem_cons.mp hch with rfl | hch
      · exact .inr (.inl ⟨id.octets, Finmap.lookup_insert _⟩)
      · exact .inl hch
    · -- the id was free, so the new entry hides nothing
      have hne : id' ≠ id.octets := by
        rintro rfl
        rw [hid] at hid'
        cases hid'
      exact .inr (.inl ⟨id', (Finmap.lookup_insert_of_ne _ hne).trans hid'⟩)
    · exact .inr (.inr (List.mem_append_left _ hch))
  | err hq => exact absurd rfl herr
  | more =>
    rcases hch with hch | hch | hch
    · exact .inl hch
    · exact .inr (.inl hch)
    · exact .inr (.inr (List.mem_append_left _ hch))
  | unknown hid =>
    rcases hch with hch | hch | hch
    · exact .inl hch
    · exact .inr (.inl hch)
    · exact .inr (.inr (List.mem_append_left _ hch))
  | @data f id hf c hid =>
    rcases hch with hch | ⟨id', hid'⟩ | hch
    · exact .inl hch
    · by_cases heq : id' = id.octets
      · subst heq
        obtain rfl : c = ch := Option.some.inj (hid.symm.trans hid')
        exact .inr (.inr (List.mem_append_right _ List.mem_cons_self))
      · exact .inr (.inl ⟨id', (Finmap.lookup_erase_ne heq).trans hid'⟩)
    · exact .inr (.inr (List.mem_append_left _ hch))

theorem System.NoneLost.next {s s' : System} {m : Move} (h : s.NoneLost) (hs : s.Synced)
    (hn : s.Next m s') (hm : m.Completing s) : s'.NoneLost := by
  cases hn with
  | unsent _ | unanswered _ | unread _ | unpushed | unstopped _ => exact h
  | sent hfree =>
    refine ⟨?_, h.processed⟩
    intro ch hch
    rcases Nat.lt_succ_iff_lt_or_eq.mp hch with hch | rfl
    · rcases h.onTheWay ch hch with hq | hrest
      · exact .inl (List.mem_append_left _ hq)
      · exact .inr hrest
    · exact .inl (List.mem_append_right _ List.mem_cons_self)
  | replied hv => exact ⟨h.onTheWay, h.processed⟩
  | @read r flight v hreader hflight hv hlags =>
    have herr := (hs.completing_read hreader hflight).mp hm
    have hhanded : System.handed
        { s with
          pendingQ := v.queue, waiters := v.named, reader := r.after .reading
          wire := encodeAll flight, flight, processed := s.processed ++ r.completes.toList } =
        s.delivered ++ r.result.toList := by
      rw [System.handed, Reply.value_after]
    have hdone := System.handed_reading hreader
    refine ⟨?_, ?_⟩
    · intro ch hch
      have hway := h.onTheWay ch hch
      rw [hdone] at hway
      rw [hhanded, List.map_append]
      exact (View.takes hv).onTheWay herr hway
    · intro ch hch
      rw [hhanded, List.map_append, List.mem_append]
      rcases List.mem_append.mp hch with hch | hch
      · exact .inl (hdone ▸ h.processed ch hch)
      · exact .inr (Reply.completes_eq (Option.mem_toList.mp hch) herr)
  | @pushed ch result locked hreader hroom =>
    have hhanded : s.handed = s.delivered ++ [(ch, result)] := by
      rw [System.handed, hreader]
      rfl
    refine ⟨fun c hc => ?_, fun c hc => ?_⟩
    · have hway := h.onTheWay c hc
      rw [hhanded] at hway
      rwa [System.handed_reading rfl]
    · have hdone := h.processed c hc
      rw [hhanded] at hdone
      rwa [System.handed_reading rfl]
  | received ch => exact ⟨h.onTheWay, h.processed⟩
  | stopped hreader =>
    have hhanded : System.handed { s with reader := .returned } = s.handed := by
      rw [System.handed_reading hreader]
      exact List.append_nil _
    exact ⟨hhanded ▸ h.onTheWay, hhanded ▸ h.processed⟩

/-! ## Exactly the moves that leave a command behind -/

/-- What a run keeps as long as its moves complete. -/
structure System.Kept (s : System) : Prop where
  synced : s.Synced
  orderly : s.Orderly
  noneLost : s.NoneLost

theorem Reply.between_after {r : Reply} (h : (r.after .reading).between = true) :
    r.after .reading = .reading ∧ (r.completes = none ∨ r.message = .err) := by
  cases r with
  | ok ch id =>
    cases id with
    | none => cases h
    | some id => exact ⟨rfl, .inl rfl⟩
  | err ch text => exact ⟨rfl, .inr rfl⟩
  | more text => exact ⟨rfl, .inl rfl⟩
  | data f id hf ch =>
    cases ch with
    | none => exact ⟨rfl, .inl rfl⟩
    | some ch => cases h

theorem Reply.after_ne_returned (r : Reply) : r.after .reading ≠ .returned := by
  cases r with
  | ok ch id => cases id <;> exact fun h => nomatch h
  | err ch text => exact fun h => nomatch h
  | more text => exact fun h => nomatch h
  | data f id hf ch => cases ch <;> exact fun h => nomatch h

/-- Nothing waits just if every command has its value. -/
theorem System.Kept.idle_iff {s : System} (h : s.Kept) (hreader : s.reader = .reading) :
    (s.pendingQ = [] ∧ s.waiters = ∅) ↔ ∀ ch < s.made, s.Completed ch := by
  have hst := h.orderly.stations
  have hway := h.noneLost.onTheWay
  rw [System.handed_reading hreader] at hst hway
  constructor
  · rintro ⟨hq, hw⟩ ch hch
    rcases hway ch hch with hway | ⟨id, hid⟩ | hway
    · rw [hq] at hway
      cases hway
    · rw [hw, Finmap.lookup_empty] at hid
      cases hid
    · exact hway
  · intro hall
    constructor
    · refine List.eq_nil_iff_forall_not_mem.mpr fun ch hch => ?_
      exact hst.queue_done ch hch (hall ch (hst.kept_queue ch hch))
    · refine Finmap.ext_lookup fun id => ?_
      rw [Finmap.lookup_empty]
      cases hid : s.waiters.lookup id with
      | none => rfl
      | some ch => exact absurd (hall ch (hst.kept_table id ch hid)) (hst.table_done id ch hid)

theorem System.Kept.read_iff {s : System} (h : s.Kept) (hc : s.AllCompleted) {r : Reply}
    {flight : List Reply} {v : View} (hreader : s.reader = .reading)
    (hflight : s.flight = r :: flight) (hv : s.view.next r = some v) :
    System.AllCompleted
        { s with
          pendingQ := v.queue, waiters := v.named, reader := r.after .reading
          wire := encodeAll flight, flight, processed := s.processed ++ r.completes.toList } ↔
      Move.Completing s .read := by
  rw [h.synced.completing_read hreader hflight]
  constructor
  · intro hc' herr
    -- the command of an `ERR` line was in the queue, so it has no value
    obtain ⟨ch, text, rfl⟩ : ∃ ch text, r = .err ch text := by
      cases r with
      | err ch text => exact ⟨ch, text, rfl⟩
      | ok ch id => cases id <;> cases herr
      | more text => cases herr
      | data f id hf ch => cases herr
    obtain ⟨queue, hq⟩ : ∃ queue, s.pendingQ = ch :: queue := by
      cases View.takes hv with
      | err hq => exact ⟨_, hq⟩
    have hdone := hc'.processed rfl ch (List.mem_append_right _ List.mem_cons_self)
    have hst := h.orderly.stations
    rw [System.handed_reading hreader] at hst
    exact hst.queue_done ch (hq ▸ List.mem_cons_self) hdone
  · intro herr
    refine ⟨fun hb ch hch => ?_, fun hr => absurd hr r.after_ne_returned⟩
    obtain ⟨-, hnone | hmsg⟩ := Reply.between_after hb
    · rw [hnone, Option.toList_none, List.append_nil] at hch
      exact hc.processed (by rw [hreader]; rfl) ch hch
    · exact absurd hmsg herr

theorem System.Kept.allCompleted_iff {s s' : System} {m : Move} (h : s.Kept) (hc : s.AllCompleted)
    (hn : s.Next m s') : s'.AllCompleted ↔ m.Completing s := by
  cases hn with
  | unsent hw =>
    refine iff_of_true hc fun hr => ?_
    rcases hw with hw | hw
    · exact hw
    · rw [hr] at hw
      cases hw
  | sent hfree =>
    constructor
    · intro hc' hr
      have hdone := hc'.returned hr s.made (Nat.lt_succ_self _)
      have hkept := h.orderly.stations.kept_done s.made
        (by rw [System.handed, List.map_append]; exact List.mem_append_left _ hdone)
      exact absurd hkept (Nat.lt_irrefl _)
    · intro hm
      exact ⟨hc.processed, fun hr => absurd (hm hr) Bool.true_eq_false.mp⟩
  | unanswered act => exact iff_of_true hc trivial
  | replied hv => exact iff_of_true ⟨hc.processed, hc.returned⟩ trivial
  | unread hr =>
    refine iff_of_true hc fun hreader it hit => ?_
    rcases hr with hr | hr
    · exact absurd hreader hr
    · rw [h.synced.wire_nil hr, iterate_nil] at hit
      cases hit
  | read hreader hflight hv hlags => exact h.read_iff hc hreader hflight hv
  | unpushed => exact iff_of_true hc trivial
  | @pushed ch result locked hreader hroom =>
    refine iff_of_true ⟨fun _ c hc' => ?_, fun hr => by cases hr⟩ trivial
    have hdone := h.noneLost.processed c hc'
    rw [System.handed, hreader] at hdone
    exact hdone
  | received ch => exact iff_of_true ⟨hc.processed, hc.returned⟩ trivial
  | unstopped hr => exact iff_of_true hc fun hreader => absurd hreader hr
  | stopped hreader =>
    have hidle := h.idle_iff hreader
    constructor
    · intro hc' _
      exact hidle.mpr (hc'.returned rfl)
    · intro hm
      have hall := hidle.mp (hm hreader)
      exact ⟨fun _ ch hch => hc.processed (by rw [hreader]; rfl) ch hch, fun _ => hall⟩

/-- **Every command completes just as long as no move leaves one behind.** -/
theorem commands_complete_iff (moves : List Move) :
    Throughout System.step System.AllCompleted System.init moves ↔
      Along System.step (fun s m => m.Completing s) System.init moves := by
  have hkept : System.init.Kept :=
    { synced := System.synced_init
      orderly := System.orderly_init
      noneLost :=
        { onTheWay := fun ch hch => absurd hch (Nat.not_lt_zero ch)
          processed := fun ch hch => absurd hch List.not_mem_nil } }
  have hc : System.init.AllCompleted :=
    { processed := fun _ ch hch => absurd hch List.not_mem_nil
      returned := fun h => nomatch h }
  refine throughout_iff_along (H := fun _ _ => True) (fun s m h hc _ => ?_)
    (fun s m h hc _ hm => ?_) hkept hc (along_of_forall fun _ _ => trivial)
  · exact h.allCompleted_iff hc (h.synced.step_next m)
  · have hn := h.synced.step_next m
    exact
      { synced := h.synced.next hn
        orderly := h.orderly.next hn
        noneLost := h.noneLost.next h.synced hn hm }

/-- Nothing is sent on the channel of a command that is answered by an `ERR` line, nor on that of a
command that waits when `StartRead` returns. -/
theorem commands_left_behind :
    ¬ Throughout System.step System.AllCompleted System.init
        [.send true, .daemon (.err ⟨[], by decide⟩), .read] ∧
      ¬ Throughout System.step System.AllCompleted System.init [.send true, .stop] := by
  decide +kernel

end Cepheus.Scamper
