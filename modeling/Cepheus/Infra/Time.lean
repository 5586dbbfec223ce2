import Mathlib.Algebra.Order.Field.Rat
import Mathlib.Tactic.Linarith
import Mathlib.Tactic.Positivity

/-!
# Instants and durations

Go's `time.Time` and `time.Duration`, and the precision a `timestamptz` column keeps.

An instant is a number of nanoseconds since January 1, year 1 UTC, so that the zero value of
`time.Time` is `0`. A duration is an `int64` of nanoseconds: `Sub` saturates instead of
overflowing, which happens as soon as one of the two instants is the zero value.
-/

namespace Cepheus.Infra

/-- An instant (`time.Time`), in nanoseconds since Go's zero instant. -/
abbrev Time := Int

/-- A span of time (`time.Duration`), in nanoseconds. -/
abbrev Duration := Int

/-- `time.Second`. -/
def second : Duration := 1000000000

/-- `math.MaxInt64` nanoseconds, about 292 years. -/
def maxDuration : Duration := 2 ^ 63 - 1

/-- `math.MinInt64` nanoseconds. -/
def minDuration : Duration := -2 ^ 63

namespace Time

/-- `t.Sub(u)`, saturating at the least and greatest durations. -/
def sub (t u : Time) : Duration := max minDuration (min maxDuration (t - u))

theorem sub_nonneg {t u : Int} (h : u ≤ t) : 0 ≤ sub t u := by
  show (0 : Int) ≤ max minDuration (min maxDuration (t - u))
  unfold maxDuration minDuration
  omega

/-- The duration nearest to a number of nanoseconds. -/
def clamp (n : Int) : Int := max (-2 ^ 63) (min (2 ^ 63 - 1) n)

theorem sub_of_le {t u : Int} (h : u ≤ t) (hd : t - u ≤ maxDuration) : sub t u = t - u := by
  have hd : t - u ≤ 2 ^ 63 - 1 := hd
  show clamp (t - u) = t - u
  unfold clamp
  omega

/-- A difference that is in range is not changed. -/
theorem sub_of_bounds {t u : Int} (hlow : -2 ^ 63 ≤ t - u) (hhigh : t - u < 2 ^ 63) :
    sub t u = t - u := by
  show clamp (t - u) = t - u
  unfold clamp
  omega

theorem sub_mono {t u v : Int} (h : u ≤ v) : sub u t ≤ sub v t := by
  show clamp (u - t) ≤ clamp (v - t)
  unfold clamp
  omega

/-- A difference that saturates is less than its parts. -/
theorem sub_le_sub_sub {t u v : Int} (htu : t ≤ u) (huv : u ≤ v) :
    sub v t ≤ sub u t - sub u v := by
  show clamp (v - t) ≤ clamp (u - t) - clamp (u - v)
  unfold clamp
  omega

/-- It is their sum exactly if it does not saturate, or one of them is zero. -/
theorem sub_eq_sub_sub_iff {t u v : Int} (htu : t ≤ u) (huv : u ≤ v) :
    sub v t = sub u t - sub u v ↔ u = v ∨ v - t ≤ maxDuration := by
  show clamp (v - t) = clamp (u - t) - clamp (u - v) ↔ u = v ∨ v - t ≤ 2 ^ 63 - 1
  unfold clamp
  omega

theorem sub_eq_zero {t u : Int} : sub t u = 0 ↔ t = u := by
  show clamp (t - u) = 0 ↔ t = u
  unfold clamp
  omega

/-- The instant a `timestamptz` column stores for `t`: whole microseconds, rounded down. -/
def micros (t : Time) : Time := t - t % 1000

theorem micros_le (t : Int) : micros t ≤ t := by
  show t - t % 1000 ≤ t
  omega

theorem micros_micros (t : Int) : micros (micros t) = micros t := by
  show t - t % 1000 - (t - t % 1000) % 1000 = t - t % 1000
  omega

theorem micros_mono {t u : Int} (h : t ≤ u) : micros t ≤ micros u := by
  show t - t % 1000 ≤ u - u % 1000
  omega

/-- An instant that is rounded down to less than a whole microsecond is before it. -/
theorem le_of_micros_lt {t u : Int} (h : micros t < u) (hu : micros u = u) : t ≤ u := by
  have h : t - t % 1000 < u := h
  have hu : u - u % 1000 = u := hu
  omega

/-- `t.Unix()`: whole seconds since January 1, 1970 UTC, rounded down. -/
def unix (t : Time) : Int := t / second - 62135596800

/-- `time.Unix(sec, nsec)`. -/
def ofUnix (sec nsec : Int) : Time := (sec + 62135596800) * second + nsec

/-- `t.Nanosecond()`: the offset within the second. -/
def nanosecond (t : Time) : Int := t % second

theorem nanosecond_nonneg (t : Time) : 0 ≤ nanosecond t :=
  Int.emod_nonneg t (by decide : (1000000000 : Int) ≠ 0)

theorem nanosecond_lt (t : Time) : nanosecond t < 1000000000 :=
  Int.emod_lt_of_pos t (by decide : (0 : Int) < 1000000000)

theorem ofUnix_unix (t : Int) : ofUnix (unix t) (nanosecond t) = t := by
  show (t / 1000000000 - 62135596800 + 62135596800) * 1000000000 + t % 1000000000 = t
  omega

end Time

/-- `d.Seconds()`, read as an exact rational. -/
def Duration.seconds (d : Duration) : ℚ := (d : ℚ) / 1000000000

theorem Duration.seconds_nonneg {d : Duration} (h : 0 ≤ d) : 0 ≤ Duration.seconds d := by
  unfold Duration.seconds
  positivity

end Cepheus.Infra
