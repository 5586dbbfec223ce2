import Cepheus.Infra.Sha256

/-!
# UUIDs

`uuid.Parse` of `github.com/google/uuid`, which accepts four spellings: the usual one with dashes,
the same one as a URN or between braces, and the plain digits. The braces themselves are not looked
at.
-/

namespace Cepheus.Infra.Uuid

/-- The value of a hexadecimal digit. -/
def digit (o : UInt8) : Option UInt8 :=
  if 48 ≤ o ∧ o ≤ 57 then some (o - 48)
  else if 97 ≤ o ∧ o ≤ 102 then some (o - 87)
  else if 65 ≤ o ∧ o ≤ 70 then some (o - 55)
  else none

def xtob (x1 x2 : UInt8) : Option UInt8 := do
  let b1 ← digit x1
  let b2 ← digit x2
  some (b1 <<< 4 ||| b2)

/-- The octet whose two digits are at the given place. -/
def octetAt (b : Octets) (i : Nat) : Option UInt8 := xtob (b.getD i 0) (b.getD (i + 1) 0)

/-- The spelling with dashes. What comes after its 36 octets is ignored. -/
def dashed (b : Octets) : Option Octets :=
  if b.getD 8 0 = 45 ∧ b.getD 13 0 = 45 ∧ b.getD 18 0 = 45 ∧ b.getD 23 0 = 45 then
    [0, 2, 4, 6, 9, 11, 14, 16, 19, 21, 24, 26, 28, 30, 32, 34].mapM (octetAt b)
  else none

/-- A capital letter as a small one. -/
def lower (o : UInt8) : UInt8 := if 65 ≤ o ∧ o ≤ 90 then o + 32 else o

def parse (s : String) : Option Octets :=
  let b := octets s
  if b.length = 36 then dashed b
  else if b.length = 36 + 9 then
    if (b.take 9).map lower = octets "urn:uuid:" then dashed (b.drop 9) else none
  else if b.length = 36 + 2 then dashed (b.drop 1)
  else if b.length = 32 then ((List.range 16).map (2 * ·)).mapM (octetAt b)
  else none

example :
    parse "urn:UUID:00112233-4455-6677-8899-aabbCCDDeeff" =
        parse "00112233445566778899aabbccddeeff" ∧
      parse "00112233-4455-6677-8899-aabbccddeefg" = none := by
  decide +kernel

end Cepheus.Infra.Uuid
