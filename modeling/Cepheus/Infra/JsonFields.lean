import Cepheus.Infra.Json

/-!
# Reading the fields of a struct, one member after the other

The fold over the members that fit a field (`Json.field`), as a recursion over all members. With
this the fields of an object whose names are known are found by evaluation, whatever its values are.
-/

namespace Cepheus.Infra.Json

variable {α : Type} (decode : Json → Option α) (zero : α) (name : String)

/-- What a member makes of a field. -/
def absorb : Json → Option α
  | null => some zero
  | json => decode json

@[simp] theorem absorb_null : absorb decode zero null = some zero := rfl

@[simp] theorem absorb_bool (b : Bool) : absorb decode zero (bool b) = decode (bool b) := rfl

@[simp] theorem absorb_number (n : Number) :
    absorb decode zero (number n) = decode (number n) := rfl

@[simp] theorem absorb_string (s : String) :
    absorb decode zero (string s) = decode (string s) := rfl

@[simp] theorem absorb_array (elements : List Json) :
    absorb decode zero (array elements) = decode (array elements) := rfl

@[simp] theorem absorb_object (members : List (String × Json)) :
    absorb decode zero (object members) = decode (object members) := rfl

@[simp] theorem field_nil : field decode zero name [] = some zero := rfl

theorem field_cons (key : String) (json : Json) (members : List (String × Json)) :
    field decode zero name ((key, json) :: members) =
      if foldName key = foldName name then
        (absorb decode zero json).bind fun value => field decode value name members
      else field decode zero name members := by
  unfold field
  by_cases h : foldName key = foldName name
  · simp only [List.filter_cons, h, decide_true, if_true, List.foldlM_cons]
    cases json <;> rfl
  · simp only [List.filter_cons, h, decide_false, if_false, Bool.false_eq_true]

end Cepheus.Infra.Json
