import Mathlib.Algebra.Order.Ring.Int

/-!
# The calendar

Days and dates of the Gregorian calendar, also before it was introduced. Days are counted from
March 1 of year 0, so that a leap day is the last one of its year, and years begin in March.
-/

namespace Cepheus.Infra.Calendar

structure Date where
  year : Int
  month : Int
  day : Int
deriving DecidableEq, Repr

def isLeap (year : Int) : Bool := year % 4 = 0 && (year % 100 ≠ 0 || year % 400 = 0)

/-- `daysIn`. -/
def daysIn (month year : Int) : Int :=
  if month = 2 then if isLeap year then 29 else 28
  else if month = 4 ∨ month = 6 ∨ month = 9 ∨ month = 11 then 30
  else 31

/-- There is such a day. -/
def Date.Valid (d : Date) : Prop :=
  1 ≤ d.month ∧ d.month ≤ 12 ∧ 1 ≤ d.day ∧ d.day ≤ daysIn d.month d.year

instance (d : Date) : Decidable d.Valid := inferInstanceAs (Decidable (_ ∧ _))

/-- The days in front of a year. -/
def yearStart (y : Int) : Int := 365 * y + y / 4 - y / 100 + y / 400

/-- The days in front of a month, from March on. -/
def monthStart (m : Int) : Int := (153 * m + 2) / 5

def Date.toDays (d : Date) : Int :=
  if d.month ≤ 2 then yearStart (d.year - 1) + monthStart (d.month + 9) + (d.day - 1)
  else yearStart d.year + monthStart (d.month - 3) + (d.day - 1)

/-- The year of a day among the 400 years of a cycle: its century, the four years of it, and which
of them. The last century and the last of four years may be one day longer than the others. -/
def yearOfCycle (n : Int) : Int :=
  let century := min (n / 36524) 3
  let n := n - 36524 * century
  let fourth := n / 1461
  let n := n - 1461 * fourth
  100 * century + 4 * fourth + min (n / 365) 3

/-- The date for a year, from March on, and a day in it. -/
def ofYearDay (y n : Int) : Date :=
  let m := (5 * n + 2) / 153
  let day := n - monthStart m + 1
  if m < 10 then { year := y, month := m + 3, day } else { year := y + 1, month := m - 9, day }

def ofDays (n : Int) : Date :=
  let k := n % 146097
  let y := yearOfCycle k
  ofYearDay (400 * (n / 146097) + y) (k - yearStart y)

theorem yearStart_add (q y : Int) : yearStart (400 * q + y) = 146097 * q + yearStart y := by
  unfold yearStart
  omega

/-- The days in front of a year of a cycle. -/
theorem yearStart_parts {c q r : Int} (hc : 0 ≤ c ∧ c ≤ 3) (hq : 0 ≤ q ∧ q ≤ 24)
    (hr : 0 ≤ r ∧ r ≤ 3) : yearStart (100 * c + 4 * q + r) = 36524 * c + 1461 * q + 365 * r := by
  have h4 : (100 * c + 4 * q + r) / 4 = 25 * c + q := by omega
  have h100 : (100 * c + 4 * q + r) / 100 = c := by omega
  have h400 : (100 * c + 4 * q + r) / 400 = 0 := by omega
  rw [yearStart, h4, h100, h400]
  omega

/-- The next year may be one of the same four years, or begin the next four, the next century or the
next cycle. -/
theorem yearStart_next {c q r : Int} (hc : 0 ≤ c ∧ c ≤ 3) (hq : 0 ≤ q ∧ q ≤ 24)
    (hr : 0 ≤ r ∧ r ≤ 3) :
    yearStart (100 * c + 4 * q + r + 1) =
      if r < 3 then 36524 * c + 1461 * q + 365 * (r + 1)
      else if q < 24 then 36524 * c + 1461 * (q + 1)
      else if c < 3 then 36524 * (c + 1)
      else 146097 := by
  split
  · rw [show 100 * c + 4 * q + r + 1 = 100 * c + 4 * q + (r + 1) by omega,
      yearStart_parts hc hq ⟨by omega, by omega⟩]
  · split
    · rw [show 100 * c + 4 * q + r + 1 = 100 * c + 4 * (q + 1) + 0 by omega,
        yearStart_parts hc ⟨by omega, by omega⟩ ⟨by omega, by omega⟩]
      omega
    · split
      · rw [show 100 * c + 4 * q + r + 1 = 100 * (c + 1) + 4 * 0 + 0 by omega,
          yearStart_parts ⟨by omega, by omega⟩ ⟨by omega, by omega⟩ ⟨by omega, by omega⟩]
        omega
      · rw [show 100 * c + 4 * q + r + 1 = 400 by omega]
        rfl

/-- The year that is found has begun, and is not over. -/
theorem yearOfCycle_bounds {n : Int} (h0 : 0 ≤ n) (h1 : n < 146097) :
    0 ≤ yearOfCycle n ∧ yearOfCycle n < 400 ∧ yearStart (yearOfCycle n) ≤ n ∧
      n < yearStart (yearOfCycle n + 1) := by
  unfold yearOfCycle
  simp only
  generalize hc : min (n / 36524) 3 = c
  generalize hm : n - 36524 * c = m
  generalize hq : m / 1461 = q
  generalize hk : m - 1461 * q = k
  generalize hr : min (k / 365) 3 = r
  have hcentury : (0 ≤ c ∧ c ≤ 3) ∧ 0 ≤ m ∧ (c = 3 ∧ m ≤ 36524 ∨ m < 36524) := by omega
  have hfourth : (0 ≤ q ∧ q ≤ 24) ∧ 0 ≤ k ∧ k < 1461 ∧ (c = 3 ∨ q < 24 ∨ k < 1460) := by omega
  have hyear : (0 ≤ r ∧ r ≤ 3) ∧ 365 * r ≤ k ∧ (k < 365 * (r + 1) ∨ r = 3) := by omega
  rw [yearStart_parts hcentury.1 hfourth.1 hyear.1, yearStart_next hcentury.1 hfourth.1 hyear.1]
  refine ⟨by omega, by omega, by omega, ?_⟩
  repeat' split
  all_goals omega

/-- A year has 365 days, or 366 if there is a February 29 at its end. -/
theorem yearStart_succ (y : Int) :
    yearStart (y + 1) = yearStart y + if isLeap (y + 1) then 366 else 365 := by
  unfold yearStart isLeap
  by_cases h4 : (y + 1) % 4 = 0
  · by_cases h100 : (y + 1) % 100 = 0
    · by_cases h400 : (y + 1) % 400 = 0
      · simp [h4, h100, h400]
        omega
      · simp [h4, h100, h400]
        omega
    · simp [h4, h100]
      omega
  · simp [h4]
    omega

theorem toDays_ofYearDay {y n : Int} (h0 : 0 ≤ n) (h1 : n ≤ 365) :
    (ofYearDay y n).toDays = yearStart y + n := by
  unfold ofYearDay Date.toDays
  simp only
  split
  · rw [if_neg (by dsimp only; omega)]
    simp only [add_sub_cancel_right]
    omega
  · rw [if_pos (by dsimp only; omega)]
    simp only [add_sub_cancel_right, sub_add_cancel]
    omega

theorem valid_ofYearDay {y n : Int} (h0 : 0 ≤ n)
    (h1 : n < if isLeap (y + 1) then 366 else 365) : (ofYearDay y n).Valid := by
  have h365 : n ≤ 365 := by
    split at h1 <;> omega
  unfold ofYearDay Date.Valid monthStart daysIn
  simp only
  split
  · refine ⟨by dsimp only; omega, by dsimp only; omega, by dsimp only; omega, ?_⟩
    dsimp only
    repeat' split
    all_goals omega
  · refine ⟨by dsimp only; omega, by dsimp only; omega, by dsimp only; omega, ?_⟩
    dsimp only
    split
    · split
      · omega
      · next h => rw [if_neg h] at h1; omega
    · split <;> omega

theorem toDays_ofDays (n : Int) : (ofDays n).toDays = n := by
  obtain ⟨hy0, hy1, hstart, hend⟩ :=
    yearOfCycle_bounds (n := n % 146097) (by omega) (by omega)
  have hsucc := yearStart_succ (yearOfCycle (n % 146097))
  unfold ofDays
  simp only
  rw [toDays_ofYearDay (by omega) (by split at hsucc <;> omega), yearStart_add]
  omega

theorem valid_ofDays (n : Int) : (ofDays n).Valid := by
  obtain ⟨hy0, hy1, hstart, hend⟩ :=
    yearOfCycle_bounds (n := n % 146097) (by omega) (by omega)
  have hsucc := yearStart_succ (yearOfCycle (n % 146097))
  have hsucc' := yearStart_succ (400 * (n / 146097) + yearOfCycle (n % 146097))
  rw [add_assoc, yearStart_add, yearStart_add] at hsucc'
  unfold ofDays
  refine valid_ofYearDay (by omega) ?_
  rw [add_assoc]
  omega

end Cepheus.Infra.Calendar
