import Cepheus.Scamper.Wire

/-!
# Framing

The stream of the daemon is cut into parts: control lines, headers and payloads. The reader cuts it
in the same way just as long as no frame without an id has a payload. The payload of such a frame is
left in the stream, and its lines are read as if the daemon had written them.
-/

namespace Cepheus.Scamper

open Infra

/-- A part of the stream, and what it is taken for. -/
inductive Part where
  /-- A control line, which answers a command. -/
  | answer (line : Octets)
  /-- The first line of a `DATA` frame. -/
  | header (line : Octets)
  | payload (octets : Octets)
  | ignored (line : Octets)
deriving DecidableEq, Repr

/-- An empty payload is no part of the stream. -/
def payloadPart : Octets → List Part
  | [] => []
  | o :: payload => [.payload (o :: payload)]

/-- What an iteration of the reader takes the octets for that it takes off the stream. -/
def Iteration.parts (it : Iteration) : List Part :=
  match it.message with
  | .err | .more | .ok _ => [.answer it.line]
  | .data _ payload => .header it.line :: payloadPart payload
  | .malformed | .panics => [.header it.line]
  | .ignored => [.ignored it.line]

/-- What the daemon has written. -/
def Item.parts : Item → List Part
  | control c => [.answer c.line]
  | frame f => .header f.header :: payloadPart f.payload

/-- What the reader takes a stream for. -/
def partsRead (stream : Octets) : List Part := (startRead stream).flatMap Iteration.parts

/-- The reader takes the octets for what the daemon has written. -/
def ReadAsWritten (items : List Item) : Prop :=
  partsRead (items.flatMap Item.encode) = items.flatMap Item.parts

instance (items : List Item) : Decidable (ReadAsWritten items) :=
  inferInstanceAs (Decidable (_ = _))

/-! ## The parts of an iteration -/

theorem partsRead_some {stream : Octets} {it : Iteration} (h : iterate stream = some it)
    (hpanics : it.message ≠ .panics) : partsRead stream = it.parts ++ partsRead it.rest := by
  rw [partsRead, startRead_some h, if_neg hpanics, List.flatMap_cons, partsRead]

/-- An iteration starts with a line. -/
theorem Iteration.parts_eq_cons (it : Iteration) :
    ∃ part tail, it.parts = part :: tail ∧ ∀ octets, part ≠ .payload octets := by
  unfold Iteration.parts
  cases it.message <;> exact ⟨_, _, rfl, fun _ h => nomatch h⟩

/-- Nothing is read as a payload without a header before it. -/
theorem partsRead_ne_payload (stream octets : Octets) (tail : List Part) :
    partsRead stream ≠ .payload octets :: tail := by
  intro h
  cases hit : iterate stream with
  | none =>
    rw [partsRead, startRead_none hit] at h
    cases h
  | some it =>
    obtain ⟨part, parts, heq, hne⟩ := it.parts_eq_cons
    rw [partsRead, startRead_some hit, List.flatMap_cons, heq, List.cons_append] at h
    exact hne octets (List.cons.inj h).1

theorem partsRead_control (c : Control) (rest : Octets) :
    partsRead ((Item.control c).encode ++ rest) = (Item.control c).parts ++ partsRead rest := by
  have hpanics : c.message ≠ .panics := by
    unfold Control.message
    cases c.word <;> exact fun h => nomatch h
  have hparts :
      Iteration.parts { line := c.line, message := c.message, rest } = [.answer c.line] := by
    unfold Iteration.parts Control.message
    cases c.word <;> rfl
  rw [partsRead_some (iterate_control c rest) hpanics, hparts]
  rfl

theorem partsRead_frame (f : Frame) (rest : Octets) :
    partsRead ((Item.frame f).encode ++ rest) =
      (f.iteration rest).parts ++ partsRead (f.iteration rest).rest := by
  have hpanics : (f.iteration rest).message ≠ .panics := by
    unfold Frame.iteration
    cases f.id <;> exact fun h => nomatch h
  rw [partsRead_some (iterate_frame f rest) hpanics]

/-! ## Whole streams -/

/-- An item that the reader takes for what it is: a control line, or a frame with an id or without a
payload. -/
def Item.Readable : Item → Prop
  | control _ => True
  | frame f => f.id = none → f.payload = []

instance : DecidablePred Item.Readable
  | .control _ => inferInstanceAs (Decidable True)
  | .frame f => inferInstanceAs (Decidable (f.id = none → f.payload = []))

theorem partsRead_of_readable {item : Item} (h : item.Readable) (rest : Octets) :
    partsRead (item.encode ++ rest) = item.parts ++ partsRead rest := by
  cases item with
  | control c => exact partsRead_control c rest
  | frame f =>
    rw [partsRead_frame, Frame.iteration]
    cases hid : f.id with
    | none =>
      have hpayload : f.payload = [] := h hid
      simp only [Item.parts, Iteration.parts, hpayload, payloadPart, List.nil_append]
    | some id => rfl

/-- The first line of an unreadable frame is all that the reader takes for what it is. -/
theorem partsRead_of_not_readable {item : Item} (h : ¬ item.Readable) (rest : Octets)
    (parts : List Part) : partsRead (item.encode ++ rest) ≠ item.parts ++ parts := by
  cases item with
  | control c => exact absurd trivial h
  | frame f =>
    have hid : f.id = none := Classical.byContradiction fun hid => h fun hn => absurd hn hid
    have hpayload : f.payload ≠ [] := fun hp => h fun _ => hp
    obtain ⟨o, payload, heq⟩ := List.exists_cons_of_ne_nil hpayload
    rw [partsRead_frame, Frame.iteration, hid]
    simp only [Item.parts, Iteration.parts, heq, payloadPart]
    intro hparts
    exact partsRead_ne_payload _ _ _ (List.cons.inj hparts).2

/-- **The reader keeps to the frames of the daemon just as long as no frame without an id has a
payload.** -/
theorem read_as_written_iff (items : List Item) :
    ReadAsWritten items ↔ ∀ f, .frame f ∈ items → f.id = none → f.payload = [] := by
  -- the same over all items, by induction on the stream
  have hiff : ReadAsWritten items ↔ ∀ item ∈ items, item.Readable := by
    unfold ReadAsWritten
    induction items with
    | nil => exact ⟨fun _ _ h => absurd h List.not_mem_nil, fun _ => rfl⟩
    | cons item items ih =>
      rw [List.flatMap_cons, List.flatMap_cons, List.forall_mem_cons]
      by_cases hr : item.Readable
      · rw [partsRead_of_readable hr, List.append_cancel_left_eq, ih, and_iff_right hr]
      · exact ⟨fun h => absurd h (partsRead_of_not_readable hr _ _), fun h => absurd h.1 hr⟩
  rw [hiff]
  constructor
  · intro h f hf
    exact h (.frame f) hf
  · intro h item hitem
    cases item with
    | control c => trivial
    | frame f => exact h f hitem

/-- A frame without an id whose payload is the line `OK`. -/
def namelessOK : Frame where
  id := none
  digits := [0x33]
  payload := [0x4F, 0x4B, newline]
  ne_nil := by decide
  isNumber := fun o ho => by
    rw [List.mem_singleton.mp ho]
    rfl
  length_eq := by decide
  fits := by decide

/-- Its payload is read as the answer to a command. -/
theorem nameless_payload_answers :
    ¬ ReadAsWritten [.frame namelessOK] ∧
      partsRead (Item.frame namelessOK).encode = [.header namelessOK.header, .answer wordOK] := by
  decide +kernel

end Cepheus.Scamper
