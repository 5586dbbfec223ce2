import Mathlib.Data.List.TakeWhile
import Cepheus.Infra.Calendar
import Cepheus.Infra.JsonRoundtrip
import Cepheus.Infra.Time

/-!
# Times in messages

How `time.Time` writes itself into a JSON document and reads itself back: RFC 3339, with as many
digits behind the second as there are. A time is written in its own zone, here an argument; it is
read as an instant.
-/

namespace Cepheus.Infra.Rfc3339

open Calendar

/-- The offset of a zone, less than a day. -/
structure Zone where
  minutes : Int
  bounded : -1440 < minutes ∧ minutes < 1440

/-- `UTC`. -/
def utc : Zone := ⟨0, by decide⟩

/-! ## Writing -/

/-- The last digits of a number, exactly so many. -/
def fixed : Nat → Nat → List Char
  | 0, _ => []
  | width + 1, n => fixed width (n / 10) ++ [Nat.digitChar (n % 10)]

/-- The digits behind the second, without zeros at their end. -/
def trimmed (nanos : Nat) : List Char := ((fixed 9 nanos).reverse.dropWhile (· = '0')).reverse

def writeFraction (nanos : Nat) : List Char :=
  match trimmed nanos with
  | [] => []
  | ds => '.' :: ds

def writeZone (zone : Zone) : List Char :=
  if zone.minutes = 0 then ['Z']
  else
    (if zone.minutes < 0 then '-' else '+') ::
      (fixed 2 (zone.minutes.natAbs / 60) ++ ':' :: fixed 2 (zone.minutes.natAbs % 60))

/-- `appendStrictRFC3339`. A year of more than four digits, or before year 0, is an error. -/
def format (zone : Zone) (t : Time) : Option (List Char) :=
  let seconds := t / second + 60 * zone.minutes
  let date := ofDays (seconds / 86400 + 306)
  let clock := (seconds % 86400).toNat
  if 0 ≤ date.year ∧ date.year < 10000 then
    some (fixed 4 date.year.toNat ++ '-' :: (fixed 2 date.month.toNat ++ '-' ::
      (fixed 2 date.day.toNat ++ 'T' :: (fixed 2 (clock / 3600) ++ ':' ::
        (fixed 2 (clock / 60 % 60) ++ ':' :: (fixed 2 (clock % 60) ++
          (writeFraction (t % second).toNat ++ writeZone zone)))))))
  else none

/-! ## Reading -/

/-- A number of exactly so many digits. -/
def number (width : Nat) (s : List Char) : Option (Nat × List Char) :=
  if (s.take width).length = width ∧ (s.take width).all Char.isDigit then
    some (Nat.ofDigitChars 10 (s.take width) 0, s.drop width)
  else none

def expect (c : Char) : List Char → Option (List Char)
  | [] => none
  | d :: s => if d = c then some s else none

/-- More than nine digits are cut off. -/
def readFraction : List Char → Option (Nat × List Char)
  | '.' :: s =>
    (Json.digits s).map fun (ds, s) =>
      (Nat.ofDigitChars 10 ((ds ++ List.replicate 9 '0').take 9) 0, s)
  | s => some (0, s)

/-- The hours and minutes of a zone, at the end of the text. -/
def readOffset (s : List Char) : Option Int := do
  let (hours, s) ← number 2 s
  let s ← expect ':' s
  let (minutes, s) ← number 2 s
  if s = [] ∧ hours ≤ 23 ∧ minutes ≤ 59 then some (60 * hours + minutes) else none

def readZone : List Char → Option Int
  | [] => none
  | c :: s =>
    if c = 'Z' then if s = [] then some 0 else none
    else if c = '+' then readOffset s
    else if c = '-' then (readOffset s).map (- ·)
    else none

/-- The instant of a date and a time of day in a zone. -/
def instant (date : Date) (hour minute sec nanos offset : Int) : Time :=
  ((date.toDays - 306) * 86400 + hour * 3600 + minute * 60 + sec - 60 * offset) * second + nanos

/-- `parseStrictRFC3339`. -/
def parse (s : List Char) : Option Time := do
  let (year, s) ← number 4 s
  let s ← expect '-' s
  let (month, s) ← number 2 s
  let s ← expect '-' s
  let (day, s) ← number 2 s
  let s ← expect 'T' s
  let (hour, s) ← number 2 s
  let s ← expect ':' s
  let (minute, s) ← number 2 s
  let s ← expect ':' s
  let (sec, s) ← number 2 s
  let (nanos, s) ← readFraction s
  let offset ← readZone s
  let date : Date := { year, month, day }
  if date.Valid ∧ hour ≤ 23 ∧ minute ≤ 59 ∧ sec ≤ 59 then
    some (instant date hour minute sec nanos offset)
  else none

/-! ## Reading what was written -/

@[simp] theorem length_fixed (width n : Nat) : (fixed width n).length = width := by
  induction width generalizing n with
  | zero => rfl
  | succ width ih => simp [fixed, ih]

theorem isDigit_fixed {width n : Nat} {c : Char} (h : c ∈ fixed width n) : c.isDigit = true := by
  induction width generalizing n with
  | zero => cases h
  | succ width ih =>
    rcases List.mem_append.1 h with h | h
    · exact ih h
    · obtain rfl := List.mem_singleton.1 h
      rw [Nat.isDigit_digitChar]
      exact decide_eq_true (Nat.mod_lt n (by decide))

theorem toNat_digitChar : ∀ d < 10, (Nat.digitChar d).toNat - '0'.toNat = d := by decide

theorem ofDigitChars_fixed (width n : Nat) :
    Nat.ofDigitChars 10 (fixed width n) 0 = n % 10 ^ width := by
  induction width generalizing n with
  | zero => simp [fixed, Nat.mod_one]
  | succ width ih =>
    rw [fixed, Nat.ofDigitChars_append, ih, Nat.ofDigitChars_cons, Nat.ofDigitChars_nil,
      toNat_digitChar _ (Nat.mod_lt n (by decide)), Nat.pow_succ, Nat.mul_comm (10 ^ width),
      Nat.mod_mul, Nat.add_comm]

theorem number_fixed {width n : Nat} (h : n < 10 ^ width) (rest : List Char) :
    number width (fixed width n ++ rest) = some (n, rest) := by
  have htake : (fixed width n ++ rest).take width = fixed width n :=
    List.take_left' (length_fixed width n)
  have hdrop : (fixed width n ++ rest).drop width = rest := List.drop_left' (length_fixed width n)
  have hdigits : (fixed width n).all Char.isDigit = true :=
    List.all_eq_true.2 fun c => isDigit_fixed
  rw [number, htake, hdrop, if_pos ⟨length_fixed width n, hdigits⟩, ofDigitChars_fixed,
    Nat.mod_eq_of_lt h]

theorem expect_cons (c : Char) (s : List Char) : expect c (c :: s) = some s := by
  simp [expect]

/-- Only zeros are left out at the end. -/
theorem fixed_eq_trimmed (nanos : Nat) :
    ∃ k, fixed 9 nanos = trimmed nanos ++ List.replicate k '0' := by
  have hsplit := List.takeWhile_append_dropWhile (p := (· = '0')) (l := (fixed 9 nanos).reverse)
  have hzeros : ∀ c ∈ (fixed 9 nanos).reverse.takeWhile (· = '0'), c = '0' := by
    intro c hc
    have hzero := List.mem_takeWhile_imp hc
    exact of_decide_eq_true hzero
  refine ⟨((fixed 9 nanos).reverse.takeWhile (· = '0')).length, ?_⟩
  rw [trimmed, ← List.reverse_replicate, ← List.eq_replicate_of_mem hzeros,
    ← List.reverse_append, hsplit, List.reverse_reverse]

theorem readFraction_write {nanos : Nat} (h : nanos < 10 ^ 9) {rest : List Char}
    (hrest : ∀ c ∈ rest.head?, c.isDigit = false ∧ c ≠ '.') :
    readFraction (writeFraction nanos ++ rest) = some (nanos, rest) := by
  obtain ⟨k, hk⟩ := fixed_eq_trimmed nanos
  have hvalue := ofDigitChars_fixed 9 nanos
  have hlen := length_fixed 9 nanos
  have hdigits : ∀ c ∈ trimmed nanos, c.isDigit = true := fun c hc =>
    isDigit_fixed (n := nanos) (by rw [hk]; exact List.mem_append_left _ hc)
  rw [Nat.mod_eq_of_lt h, hk] at hvalue
  rw [hk, List.length_append, List.length_replicate] at hlen
  unfold writeFraction
  generalize trimmed nanos = ds at hvalue hlen hdigits
  cases ds with
  | nil =>
    have hzero : nanos = 0 := by
      have hzeros := Json.ofDigitChars_replicate_zero k []
      rw [List.append_nil] at hzeros
      rw [← hvalue, List.nil_append, hzeros]
      rfl
    subst hzero
    cases rest with
    | nil => rfl
    | cons c rest =>
      have hpoint := (hrest c rfl).2
      simp only [List.nil_append]
      unfold readFraction
      split
      · next heq => exact absurd (List.cons.inj heq).1 hpoint
      · rfl
  | cons d ds =>
    have hread := Json.digits_append (List.cons_ne_nil d ds) hdigits (fun c hc => (hrest c hc).1)
    have hpad : ((d :: ds) ++ List.replicate 9 '0').take 9 = (d :: ds) ++ List.replicate k '0' := by
      rw [List.take_append, List.take_of_length_le (by omega), List.take_replicate]
      congr 2
      omega
    simp only [List.cons_append] at hread ⊢
    simp only [readFraction, hread, Option.map_some]
    rw [hpad, hvalue]

theorem readOffset_fixed {n : Nat} (h : n < 1440) :
    readOffset (fixed 2 (n / 60) ++ ':' :: fixed 2 (n % 60)) = some (n : Int) := by
  have hhours := number_fixed (show n / 60 < 10 ^ 2 by omega)
  have hminutes := number_fixed (show n % 60 < 10 ^ 2 by omega) []
  rw [List.append_nil] at hminutes
  have hbounds : n / 60 ≤ 23 ∧ n % 60 ≤ 59 := by omega
  simp only [readOffset, hhours, expect_cons, hminutes, Option.bind_eq_bind, Option.bind_some,
    hbounds, and_self, if_true]
  congr 1
  omega

theorem readZone_write (zone : Zone) : readZone (writeZone zone) = some zone.minutes := by
  obtain ⟨minutes, hlow, hhigh⟩ := zone
  have hoffset := readOffset_fixed (n := minutes.natAbs) (by omega)
  unfold writeZone
  simp only
  split
  · next h => simp [readZone, h]
  · split
    · next hneg => simp [readZone, hoffset, abs_of_neg hneg]
    · next hneg => simp [readZone, hoffset, abs_of_nonneg (not_lt.1 hneg)]

/-- What follows the seconds: no digit. -/
theorem head_writeZone (zone : Zone) :
    ∀ c ∈ (writeZone zone).head?, c.isDigit = false ∧ c ≠ '.' := by
  intro c hc
  unfold writeZone at hc
  split at hc
  · obtain rfl := Option.some.inj hc
    decide
  · split at hc
    all_goals
      obtain rfl := Option.some.inj hc
      decide

theorem daysIn_le (month year : Int) : daysIn month year ≤ 31 := by
  unfold daysIn
  repeat' split
  all_goals omega

/-- The date and the time of day of an instant say which instant it is. -/
theorem instant_ofDays (t offset : Int) :
    instant (ofDays ((t / second + 60 * offset) / 86400 + 306))
      (((t / second + 60 * offset) % 86400).toNat / 3600 : Nat)
      (((t / second + 60 * offset) % 86400).toNat / 60 % 60 : Nat)
      (((t / second + 60 * offset) % 86400).toNat % 60 : Nat)
      ((t % second).toNat : Nat) offset = t := by
  unfold instant
  rw [toDays_ofDays]
  have hclock := Int.emod_nonneg (t / 1000000000 + 60 * offset) (by decide : (86400 : Int) ≠ 0)
  have hsplit := Int.mul_ediv_add_emod t 1000000000
  unfold second
  change (_ : Int) = _
  omega

theorem toNat_nanosecond_lt (t : Int) : (t % second).toNat < 10 ^ 9 := by
  show (t % 1000000000).toNat < 1000000000
  omega

theorem parse_format {zone : Zone} {t : Time} {s : List Char} (h : format zone t = some s) :
    parse s = some t := by
  unfold format at h
  simp only at h
  split at h
  · next hyear =>
    obtain rfl := Option.some.inj h
    have hvalid := valid_ofDays ((t / second + 60 * zone.minutes) / 86400 + 306)
    have hinstant := instant_ofDays t zone.minutes
    have hclock := Int.emod_nonneg (t / second + 60 * zone.minutes) (by decide : (86400 : Int) ≠ 0)
    have hclock' := Int.emod_lt_of_pos (t / second + 60 * zone.minutes)
      (by decide : (0 : Int) < 86400)
    generalize ofDays ((t / second + 60 * zone.minutes) / 86400 + 306) = date at *
    generalize (t / second + 60 * zone.minutes) % 86400 = clock at *
    obtain ⟨year, month, day⟩ := date
    obtain ⟨hmonth, hmonth', hday, hday'⟩ := id hvalid
    simp only at hyear hmonth hmonth' hday hday'
    have hday'' := daysIn_le month year
    have h1 := number_fixed (show year.toNat < 10 ^ 4 by omega)
    have h2 := number_fixed (show month.toNat < 10 ^ 2 by omega)
    have h3 := number_fixed (show day.toNat < 10 ^ 2 by omega)
    have h4 := number_fixed (show clock.toNat / 3600 < 10 ^ 2 by omega)
    have h5 := number_fixed (show clock.toNat / 60 % 60 < 10 ^ 2 by omega)
    have h6 := number_fixed (show clock.toNat % 60 < 10 ^ 2 by omega)
    simp only [parse, h1, h2, h3, h4, h5, h6, expect_cons,
      readFraction_write (toNat_nanosecond_lt t) (head_writeZone zone), readZone_write,
      Option.bind_eq_bind,
      Option.bind_some]
    simp only [Int.toNat_of_nonneg hyear.1, Int.toNat_of_nonneg (by omega : 0 ≤ month),
      Int.toNat_of_nonneg (by omega : 0 ≤ day)]
    rw [if_pos ⟨hvalid, by omega, by omega, by omega⟩, hinstant]
  · cases h

end Cepheus.Infra.Rfc3339
