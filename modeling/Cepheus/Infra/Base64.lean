import Mathlib.Algebra.Order.Ring.Nat

/-!
# Base64

`base64.StdEncoding`, as `encoding/json` writes and reads a `[]byte`. Line breaks are skipped, and
the bits that the padding leaves over are not looked at.
-/

namespace Cepheus.Infra.Base64

/-- The letter for six bits. -/
def letter (n : Nat) : Char :=
  if n < 26 then Char.ofNat (65 + n)
  else if n < 52 then Char.ofNat (71 + n)
  else if n < 62 then Char.ofNat (n - 4)
  else if n = 62 then '+'
  else '/'

/-- The six bits of a letter. -/
def bits (c : Char) : Option Nat :=
  if 65 ≤ c.toNat ∧ c.toNat < 91 then some (c.toNat - 65)
  else if 97 ≤ c.toNat ∧ c.toNat < 123 then some (c.toNat - 71)
  else if 48 ≤ c.toNat ∧ c.toNat < 58 then some (c.toNat + 4)
  else if c.toNat = 43 then some 62
  else if c.toNat = 47 then some 63
  else none

def encode : List UInt8 → List Char
  | [] => []
  | [x] => [letter (x.toNat / 4), letter (x.toNat % 4 * 16), '=', '=']
  | [x, y] =>
    [letter (x.toNat / 4), letter (x.toNat % 4 * 16 + y.toNat / 16), letter (y.toNat % 16 * 4), '=']
  | x :: y :: z :: rest =>
    letter (x.toNat / 4) :: letter (x.toNat % 4 * 16 + y.toNat / 16) ::
      letter (y.toNat % 16 * 4 + z.toNat / 64) :: letter (z.toNat % 64) :: encode rest

/-- The letters in groups of four. -/
def groups : List Char → Option (List UInt8)
  | [] => some []
  | a :: b :: c :: d :: rest =>
    if d = '=' then
      if rest ≠ [] then none
      else if c = '=' then do
        let a ← bits a
        let b ← bits b
        return [UInt8.ofNat (a * 4 + b / 16)]
      else do
        let a ← bits a
        let b ← bits b
        let c ← bits c
        return [UInt8.ofNat (a * 4 + b / 16), UInt8.ofNat (b % 16 * 16 + c / 4)]
    else do
      let a ← bits a
      let b ← bits b
      let c ← bits c
      let d ← bits d
      let rest ← groups rest
      return UInt8.ofNat (a * 4 + b / 16) :: UInt8.ofNat (b % 16 * 16 + c / 4) ::
        UInt8.ofNat (c % 4 * 64 + d) :: rest
  | _ => none

def decode (s : List Char) : Option (List UInt8) :=
  groups (s.filter fun c => c ≠ '\n' ∧ c ≠ '\r')

theorem toNat_ofNat {n : Nat} (h : n < 128) : (Char.ofNat n).toNat = n := by
  have hvalid : n.isValidChar := Or.inl (by omega)
  rw [Char.ofNat, dif_pos hvalid]
  rfl

theorem toNat_letter (n : Nat) :
    (letter n).toNat =
      if n < 26 then 65 + n
      else if n < 52 then 71 + n
      else if n < 62 then n - 4
      else if n = 62 then 43
      else 47 := by
  unfold letter
  repeat' split
  · exact toNat_ofNat (by omega)
  · exact toNat_ofNat (by omega)
  · exact toNat_ofNat (by omega)
  · rfl
  · rfl

theorem letter_ne {c : Char} (h : c.toNat = 61 ∨ c.toNat < 43) (n : Nat) : letter n ≠ c := by
  rintro rfl
  rw [toNat_letter] at h
  repeat' split at h
  all_goals omega

@[simp] theorem letter_ne_pad (n : Nat) : letter n ≠ '=' := letter_ne (.inl rfl) n

theorem bits_letter {n : Nat} (h : n < 64) : bits (letter n) = some n := by
  have hcode := toNat_letter n
  unfold bits
  generalize (letter n).toNat = code at hcode
  -- the five ranges of letters
  repeat' split at hcode
  · rw [if_pos (by omega)]
    exact congrArg some (by omega)
  · rw [if_neg (by omega), if_pos (by omega)]
    exact congrArg some (by omega)
  · rw [if_neg (by omega), if_neg (by omega), if_pos (by omega)]
    exact congrArg some (by omega)
  · rw [if_neg (by omega), if_neg (by omega), if_neg (by omega), if_pos hcode]
    exact congrArg some (by omega)
  · rw [if_neg (by omega), if_neg (by omega), if_neg (by omega), if_neg (by omega), if_pos hcode]
    exact congrArg some (by omega)

theorem ofNat_toNat {n : Nat} {x : UInt8} (h : n = x.toNat) : UInt8.ofNat n = x := by
  rw [h, UInt8.ofNat_toNat]

theorem groups_encode : ∀ bytes : List UInt8, groups (encode bytes) = some bytes
  | [] => rfl
  | [x] => by
    have hx := x.toNat_lt
    have ha := bits_letter (show x.toNat / 4 < 64 by omega)
    have hb := bits_letter (show x.toNat % 4 * 16 < 64 by omega)
    have h1 := ofNat_toNat (x := x) (show x.toNat / 4 * 4 + x.toNat % 4 * 16 / 16 = _ by omega)
    simp only [encode, groups, ne_eq, not_true_eq_false, if_true, if_false, Option.bind_eq_bind,
      Option.bind_some, Option.pure_def, ha, hb, h1]
  | [x, y] => by
    have hx := x.toNat_lt
    have hy := y.toNat_lt
    have ha := bits_letter (show x.toNat / 4 < 64 by omega)
    have hb := bits_letter (show x.toNat % 4 * 16 + y.toNat / 16 < 64 by omega)
    have hc := bits_letter (show y.toNat % 16 * 4 < 64 by omega)
    have h1 := ofNat_toNat (x := x)
      (show x.toNat / 4 * 4 + (x.toNat % 4 * 16 + y.toNat / 16) / 16 = _ by omega)
    have h2 := ofNat_toNat (x := y)
      (show (x.toNat % 4 * 16 + y.toNat / 16) % 16 * 16 + y.toNat % 16 * 4 / 4 = _ by omega)
    simp only [encode, groups, letter_ne_pad, ne_eq, not_true_eq_false, if_true, if_false,
      Option.bind_eq_bind, Option.bind_some, Option.pure_def, ha, hb, hc, h1,
      h2]
  | x :: y :: z :: rest => by
    have hx := x.toNat_lt
    have hy := y.toNat_lt
    have hz := z.toNat_lt
    have ha := bits_letter (show x.toNat / 4 < 64 by omega)
    have hb := bits_letter (show x.toNat % 4 * 16 + y.toNat / 16 < 64 by omega)
    have hc := bits_letter (show y.toNat % 16 * 4 + z.toNat / 64 < 64 by omega)
    have hd := bits_letter (show z.toNat % 64 < 64 by omega)
    have h1 := ofNat_toNat (x := x)
      (show x.toNat / 4 * 4 + (x.toNat % 4 * 16 + y.toNat / 16) / 16 = _ by omega)
    have h2 := ofNat_toNat (x := y)
      (show (x.toNat % 4 * 16 + y.toNat / 16) % 16 * 16 +
        (y.toNat % 16 * 4 + z.toNat / 64) / 4 = _ by omega)
    have h3 := ofNat_toNat (x := z)
      (show (y.toNat % 16 * 4 + z.toNat / 64) % 4 * 64 + z.toNat % 64 = _ by omega)
    simp only [encode, groups, letter_ne_pad, if_false, Option.bind_eq_bind, Option.bind_some,
      Option.pure_def, ha, hb, hc, hd, h1, h2, h3, groups_encode rest]

theorem mem_encode {c : Char} : ∀ {bytes : List UInt8}, c ∈ encode bytes →
    c = '=' ∨ ∃ n, c = letter n
  | [], h => by cases h
  | [x], h => by
    simp only [encode, List.mem_cons, List.not_mem_nil, or_false] at h
    rcases h with h | h | h | h
    · exact .inr ⟨_, h⟩
    · exact .inr ⟨_, h⟩
    · exact .inl h
    · exact .inl h
  | [x, y], h => by
    simp only [encode, List.mem_cons, List.not_mem_nil, or_false] at h
    rcases h with h | h | h | h
    · exact .inr ⟨_, h⟩
    · exact .inr ⟨_, h⟩
    · exact .inr ⟨_, h⟩
    · exact .inl h
  | x :: y :: z :: rest, h => by
    simp only [encode, List.mem_cons] at h
    rcases h with h | h | h | h | h
    · exact .inr ⟨_, h⟩
    · exact .inr ⟨_, h⟩
    · exact .inr ⟨_, h⟩
    · exact .inr ⟨_, h⟩
    · exact mem_encode h

/-- What is written is read back. -/
theorem decode_encode (bytes : List UInt8) : decode (encode bytes) = some bytes := by
  have hfilter : (encode bytes).filter (fun c => c ≠ '\n' ∧ c ≠ '\r') = encode bytes := by
    rw [List.filter_eq_self]
    intro c hc
    rcases mem_encode hc with rfl | ⟨n, rfl⟩
    · decide
    · exact decide_eq_true ⟨letter_ne (.inr (by decide)) n, letter_ne (.inr (by decide)) n⟩
  rw [decode, hfilter, groups_encode]

end Cepheus.Infra.Base64
