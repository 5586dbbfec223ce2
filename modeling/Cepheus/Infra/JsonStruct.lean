import Cepheus.Infra.JsonFields
import Cepheus.Infra.Rfc3339

/-!
# Fields of other types

Structs, arrays, raw messages and times as fields of a struct. What Go does with a field whose name
occurs several times depends on its type: a struct is filled again and again, an array is replaced,
and `null` empties an array and leaves a struct as it is.
-/

namespace Cepheus.Infra.Json

/-- The members that fit a field, one after the other. -/
def collect {α : Type} (put : α → Json → Option α) (start : α) (name : String)
    (members : List (String × Json)) : Option α :=
  (members.filter fun m => foldName m.1 = foldName name).foldlM (fun value m => put value m.2) start

/-- A field of a struct type: everything that is read into it. -/
def nested : String → List (String × Json) → Option (List (String × Json)) :=
  collect (fun read json => json.members.map (read ++ ·)) []

/-- A field of a slice type. -/
def arrayField {α : Type} (decode : Json → Option α) :
    String → List (String × Json) → Option (List α) :=
  collect
    (fun _ json =>
      match json with
      | null => some []
      | array elements => elements.mapM decode
      | _ => none)
    []

/-- A field of type `int32`. -/
def int32Field : String → List (String × Json) → Option Int :=
  field
    (fun
      | number n =>
        if n.scale = 0 ∧ -2 ^ 31 ≤ n.mantissa ∧ n.mantissa < 2 ^ 31 then some n.mantissa else none
      | _ => none)
    0

/-- A field of type `time.Time`. -/
def timeField : String → List (String × Json) → Option Time :=
  field (fun | string s => Rfc3339.parse s.toList | _ => none) 0

/-- The fields have the type `string` or are not there. -/
def stringFields (names : List String) (members : List (String × Json)) : Option Unit :=
  names.forM fun name => (stringField name members).map fun _ => ()

/-- The fields have the type `int` or are not there. -/
def intFields (names : List String) (members : List (String × Json)) : Option Unit :=
  names.forM fun name => (intField name members).map fun _ => ()

/-- A whole number. -/
def ofInt (n : Int) : Json := number { mantissa := n, scale := 0 }

/-- `MarshalJSON` of a time in a zone. -/
def ofTime (zone : Rfc3339.Zone) (t : Time) : Option Json :=
  (Rfc3339.format zone t).map fun s => string (String.ofList s)

section

variable {α : Type} (put : α → Json → Option α) (start : α) (name : String)

@[simp] theorem collect_nil : collect put start name [] = some start := rfl

theorem collect_cons (key : String) (json : Json) (members : List (String × Json)) :
    collect put start name ((key, json) :: members) =
      if foldName key = foldName name then
        (put start json).bind fun value => collect put value name members
      else collect put start name members := by
  unfold collect
  by_cases h : foldName key = foldName name
  · simp only [List.filter_cons, h, decide_true, if_true, List.foldlM_cons]
    rfl
  · simp only [List.filter_cons, h, decide_false, if_false, Bool.false_eq_true]

/-- What holds of the start and of all that is put into it holds of the field. -/
theorem collect_holds {Q : α → Prop} (hput : ∀ value json value', put value json = some value' →
      Q value') : ∀ (members : List (String × Json)) {start value : α}, Q start →
    collect put start name members = some value → Q value
  | [], start, value, hstart, h => by
    obtain rfl := Option.some.inj h
    exact hstart
  | (key, json) :: members, start, value, hstart, h => by
    rw [collect_cons] at h
    split at h
    · obtain ⟨value', hvalue', h⟩ := Option.bind_eq_some_iff.1 h
      exact collect_holds hput members (hput _ _ _ hvalue') h
    · exact collect_holds hput members hstart h

end

section

variable {α : Type} {decode : Json → Option α} {Q : α → Prop}

theorem forall_mem_of_mapM (hdecode : ∀ json a, decode json = some a → Q a) :
    ∀ {elements : List Json} {l : List α}, elements.mapM decode = some l → ∀ a ∈ l, Q a
  | [], l, h, a, ha => by
    obtain rfl : [] = l := by simpa using h
    cases ha
  | json :: elements, l, h, a, ha => by
    simp only [List.mapM_cons, Option.bind_eq_bind, Option.bind_eq_some_iff, Option.pure_def,
      Option.some.injEq] at h
    obtain ⟨b, hb, rest, hrest, rfl⟩ := h
    rcases List.mem_cons.1 ha with rfl | ha
    · exact hdecode json a hb
    · exact forall_mem_of_mapM hdecode hrest a ha

theorem forall_mem_arrayField (hdecode : ∀ json a, decode json = some a → Q a) {name : String}
    {members : List (String × Json)} {l : List α} (h : arrayField decode name members = some l) :
    ∀ a ∈ l, Q a := by
  refine collect_holds _ name (Q := fun l => ∀ a ∈ l, Q a) (fun value json value' hput => ?_)
    members (fun a ha => absurd ha List.not_mem_nil) h
  cases json with
  | null =>
    obtain rfl := Option.some.inj hput
    exact fun a ha => absurd ha List.not_mem_nil
  | array elements => exact forall_mem_of_mapM hdecode hput
  | _ => cases hput

end

/-- A time that was written is read back. -/
theorem ofTime_eq_some {zone : Rfc3339.Zone} {t : Time} {json : Json}
    (h : ofTime zone t = some json) : ∃ s, json = string s ∧ Rfc3339.parse s.toList = some t := by
  obtain ⟨s, hs, rfl⟩ := Option.map_eq_some_iff.1 h
  exact ⟨_, rfl, by rw [String.toList_ofList]; exact Rfc3339.parse_format hs⟩

end Cepheus.Infra.Json
