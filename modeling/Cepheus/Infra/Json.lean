import Mathlib.Algebra.Order.Ring.Int

/-!
# JSON

JSON values as a `jsonb` column holds them, and how Go's `encoding/json` reads the fields of a
struct out of an object: the names are compared without regard to case, `null` leaves a field as it
is, keys of no field are skipped, and a value of the wrong type is an error.
-/

namespace Cepheus.Infra

/-- A number `mantissa / 10 ^ scale`. A `jsonb` number is written with `scale` digits after the
point, and without a point if there are none. -/
structure Json.Number where
  mantissa : Int
  scale : Nat
deriving DecidableEq, Repr

inductive Json where
  | null
  | bool (b : Bool)
  | number (n : Json.Number)
  | string (s : String)
  | array (elements : List Json)
  | object (members : List (String × Json))
deriving Repr

namespace Json

/-- `foldRune`, for names of ASCII letters: the only other characters that fold to one of them are
the long s and the Kelvin sign. -/
def foldRune (c : Char) : Char :=
  if c = '\u017f' then 'S' else if c = '\u212a' then 'K' else c.toUpper

/-- `foldName`. -/
def foldName (name : String) : List Char := name.toList.map foldRune

/-- The members that are read into a struct. -/
def members : Json → Option (List (String × Json))
  | null => some []
  | object members => some members
  | _ => none

/-- A field of a struct, that has its zero value to begin with. -/
def field {α : Type} (decode : Json → Option α) (zero : α) (name : String)
    (members : List (String × Json)) : Option α :=
  (members.filter fun m => foldName m.1 = foldName name).foldlM
    (fun value m =>
      match m.2 with
      | null => some value
      | json => decode json)
    zero

/-- A field of type `string`. -/
def stringField : String → List (String × Json) → Option String :=
  field (fun | string s => some s | _ => none) ""

/-- A field of type `bool`. -/
def boolField : String → List (String × Json) → Option Bool :=
  field (fun | bool b => some b | _ => none) false

/-- A field of type `int`, or of type `time.Duration`: `strconv.ParseInt` takes no point and nothing
that does not fit into 64 bits. -/
def intField : String → List (String × Json) → Option Int64 :=
  field
    (fun
      | number n =>
        if n.scale = 0 ∧ -2 ^ 63 ≤ n.mantissa ∧ n.mantissa < 2 ^ 63 then
          some (Int64.ofInt n.mantissa)
        else none
      | _ => none)
    0

/-- A field of type `float64`, given as bits by `strconv.ParseFloat`. -/
def floatField (parseFloat : Number → Option UInt64) :
    String → List (String × Json) → Option UInt64 :=
  field (fun | number n => parseFloat n | _ => none) 0

end Json

end Cepheus.Infra
