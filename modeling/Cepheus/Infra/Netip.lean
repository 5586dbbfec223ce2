import Mathlib.Data.Nat.Digits.Defs

/-!
# IP addresses

`net/netip` as far as addresses are read, printed and stored. Which texts are addresses is left
open: what is proved for every `Netip` holds for IPv4 and IPv6 alike. An `inet` column keeps no
zone, and `pgx` drops it without a word.

`Netip.v4` is the part for IPv4, which can be evaluated.
-/

namespace Cepheus.Infra

/-- `netip.Addr`, but for its zero value. -/
structure Netip (A : Type) where
  parseAddr : String → Option A
  string : A → String
  /-- The address as a column keeps it. -/
  withoutZone : A → A
  parseAddr_string : ∀ a, parseAddr (string a) = some a
  withoutZone_withoutZone : ∀ a, withoutZone (withoutZone a) = withoutZone a
  parseAddr_empty : parseAddr "" = none
  /-- The zero value is printed as `invalid IP`. -/
  parseAddr_invalid : parseAddr "invalid IP" = none

namespace Netip

variable {A : Type} (netip : Netip A)

/-- `String`, with `none` for the zero value. -/
def print : Option A → String
  | none => "invalid IP"
  | some a => netip.string a

theorem parseAddr_print : ∀ ip, netip.parseAddr (netip.print ip) = ip
  | none => netip.parseAddr_invalid
  | some a => netip.parseAddr_string a

/-! ## IPv4 -/

structure V4 where
  a : Fin 256
  b : Fin 256
  c : Fin 256
  d : Fin 256
deriving DecidableEq, Repr

/-- There are octets, so that numerals denote them. -/
instance : NeZero 256 := ⟨by decide⟩

/-- A number up to 255, without leading zeros. -/
def readOctet (digits : List Char) : Option (Fin 256) :=
  let n := digits.foldl (fun n c => n * 10 + (c.toNat - 48)) 0
  if h : n < 256 then if Nat.toDigits 10 n = digits then some ⟨n, h⟩ else none else none

def V4.parse (s : String) : Option V4 :=
  match (s.toList.splitOn '.').map readOctet with
  | [some a, some b, some c, some d] => some ⟨a, b, c, d⟩
  | _ => none

/-- The digits of the four numbers. -/
def V4.digits (x : V4) : List (List Char) :=
  [x.a, x.b, x.c, x.d].map fun n : Fin 256 => Nat.toDigits 10 n

def V4.string (x : V4) : String := String.ofList (['.'].intercalate x.digits)

theorem readOctet_toDigits (n : Fin 256) :
    readOctet (Nat.toDigits 10 n) = some n ∧ '.' ∉ Nat.toDigits 10 n.val := by
  revert n
  decide +kernel

theorem V4.parse_string (x : V4) : V4.parse x.string = some x := by
  have hsplit : x.string.toList.splitOn '.' = x.digits := by
    rw [V4.string, String.toList_ofList]
    refine List.splitOn_intercalate '.' ?_ (by simp [V4.digits])
    intro l hl
    obtain ⟨n, -, rfl⟩ := List.mem_map.mp hl
    exact (readOctet_toDigits n).2
  rw [V4.parse, hsplit]
  simp [V4.digits, readOctet_toDigits]

def v4 : Netip V4 where
  parseAddr := V4.parse
  string := V4.string
  withoutZone := id
  parseAddr_string := V4.parse_string
  withoutZone_withoutZone := fun _ => rfl
  parseAddr_empty := by decide +kernel
  parseAddr_invalid := by decide +kernel

example :
    v4.parseAddr "10.0.0.1" = some ⟨10, 0, 0, 1⟩ ∧ v4.parseAddr "10.0.0.01" = none ∧
      v4.parseAddr "10.0.0.256" = none := by
  decide +kernel

end Netip

end Cepheus.Infra
