import Cepheus.Infra.Rescale
import Cepheus.Infra.Words
import Cepheus.Stamp.Timestamp

/-!
# An instant through an NTP timestamp

`generateNtpTimestamp` counts the nanoseconds of an instant in parts of `2 ^ 32` and
`wireNTPTimestampToTime` counts them back, and both truncate. From 1900 until the seconds no longer
fit into 32 bits, in 2036, what comes back is the instant or the nanosecond before it
(`roundTrip_eq`).
-/

namespace Cepheus.Stamp

open Infra

/-! ## The era -/

/-- The instants whose seconds fit into a timestamp. -/
def InEra (t : Time) : Prop :=
  0 ≤ Time.unix t + ntpUnixOffset ∧ Time.unix t + ntpUnixOffset < 2 ^ 32

instance (t : Time) : Decidable (InEra t) := inferInstanceAs (Decidable (_ ∧ _))

/-- Two instants of the era are less than `2 ^ 32` seconds apart. -/
theorem InEra.sub_lt {t u : Int} (ht : InEra t) (hu : InEra u) :
    t - u < 4294967296000000000 := by
  have ht : t / 1000000000 - 62135596800 + 2208988800 < 2 ^ 32 := ht.2
  have hu : 0 ≤ u / 1000000000 - 62135596800 + 2208988800 := hu.1
  omega

/-! ## The fraction -/

/-- The nanoseconds as `generateNtpTimestamp` has them. -/
def nanos (t : Time) : UInt64 := UInt64.ofInt (Time.nanosecond t)

theorem toNat_nanos (t : Time) : (nanos t).toNat = (Time.nanosecond t).toNat := by
  have hlow := Time.nanosecond_nonneg t
  have hhigh := Time.nanosecond_lt t
  exact toNat_uint64_ofInt hlow (by omega)

theorem toNat_nanos_lt (t : Time) : (nanos t).toNat < 1000000000 := by
  have hhigh := Time.nanosecond_lt t
  rw [toNat_nanos]
  omega

/-- No bit is shifted out. -/
theorem toNat_nanos_shiftLeft (t : Time) :
    (nanos t <<< 32).toNat = (nanos t).toNat * 2 ^ 32 := by
  have hlt := toNat_nanos_lt t
  rw [UInt64.toNat_shiftLeft, show (32 : UInt64).toNat % 64 = 32 from rfl, Nat.shiftLeft_eq,
    Nat.mod_eq_of_lt (by omega)]

/-- The quotient fits into 32 bits. -/
theorem toNat_quotient (t : Time) :
    ((nanos t <<< 32) / 1000000000).toNat = rescale (2 ^ 32) 1000000000 (nanos t).toNat := by
  rw [UInt64.toNat_div, toNat_nanos_shiftLeft]
  rfl

theorem toNat_fraction (t : Time) :
    (generateNtpTimestamp t).fraction.toNat = rescale (2 ^ 32) 1000000000 (nanos t).toNat := by
  show ((nanos t <<< 32) / 1000000000).toUInt32.toNat = _
  rw [UInt64.toNat_toUInt32, toNat_quotient]
  exact Nat.mod_eq_of_lt (rescale_lt (toNat_nanos_lt t) (by decide))

/-- Nothing overflows on the way to the fraction, neither 64 bits nor 32. -/
structure FractionExact (t : Time) : Prop where
  nanos : ((nanos t).toNat : Int) = Time.nanosecond t
  shifted : (Stamp.nanos t <<< 32).toNat = (Stamp.nanos t).toNat * 2 ^ 32
  quotient : ((Stamp.nanos t <<< 32) / 1000000000).toNat < 2 ^ 32
  fraction : (generateNtpTimestamp t).fraction.toNat =
    (Stamp.nanos t).toNat * 2 ^ 32 / 1000000000

theorem cast_nanos (t : Time) : ((nanos t).toNat : Int) = Time.nanosecond t := by
  rw [toNat_nanos, Int.toNat_of_nonneg (Time.nanosecond_nonneg t)]

theorem fractionExact (t : Time) : FractionExact t where
  nanos := cast_nanos t
  shifted := toNat_nanos_shiftLeft t
  quotient := by
    rw [toNat_quotient]
    exact rescale_lt (toNat_nanos_lt t) (by decide)
  fraction := toNat_fraction t

theorem toNat_seconds {t : Time} (h : InEra t) :
    ((generateNtpTimestamp t).seconds.toNat : Int) = Time.unix t + ntpUnixOffset := by
  show ((UInt32.ofInt (Time.unix t + ntpUnixOffset)).toNat : Int) = _
  rw [toNat_uint32_ofInt h.1 h.2]
  exact Int.toNat_of_nonneg h.1

/-! ## Back again -/

/-- What `wireNTPTimestampToTime` adds to the seconds. -/
theorem wireNTPTimestampToTime_eq (sec frac : UInt32) :
    wireNTPTimestampToTime sec frac =
      Time.ofUnix (sec.toNat - ntpUnixOffset) (rescale 1000000000 (2 ^ 32) frac.toNat) := by
  have hfrac : frac.toNat < 2 ^ 32 := frac.toNat_lt
  have hshift : ((frac.toUInt64 * 1000000000) >>> 32).toNat =
      rescale 1000000000 (2 ^ 32) frac.toNat := by
    rw [UInt64.toNat_shiftRight, show (32 : UInt64).toNat % 64 = 32 from rfl,
      UInt64.toNat_mul, UInt32.toNat_toUInt64, Nat.shiftRight_eq_div_pow,
      show (1000000000 : UInt64).toNat = 1000000000 from rfl, Nat.mod_eq_of_lt (by omega)]
    rfl
  have hlt := rescale_lt hfrac (by decide : 0 < 1000000000)
  show Time.ofUnix _ ((frac.toUInt64 * 1000000000) >>> 32).toInt64.toInt = _
  rw [toInt_toInt64_of_lt (by rw [hshift]; omega), hshift]

/-- An instant that goes through a timestamp. -/
def roundTrip (t : Time) : Time :=
  wireNTPTimestampToTime (generateNtpTimestamp t).seconds (generateNtpTimestamp t).fraction

/-- `10 ^ 9` is `5 ^ 9` times a power of two. -/
theorem dvd_mul_pow_iff (n : ℕ) : 1000000000 ∣ n * 2 ^ 32 ↔ 1953125 ∣ n := by
  have hcoprime : Nat.Coprime 1953125 (2 ^ 23) := by decide
  rw [show 1000000000 = 1953125 * 2 ^ 9 from rfl, show n * 2 ^ 32 = n * 2 ^ 23 * 2 ^ 9 by ring,
    Nat.mul_dvd_mul_iff_right (by decide)]
  exact ⟨Nat.Coprime.dvd_of_dvd_mul_right hcoprime, fun h => h.mul_right _⟩

/-- **What comes back.** -/
theorem roundTrip_eq {t : Int} (h : InEra t) :
    roundTrip t = if 1953125 ∣ Time.nanosecond t then t else t - 1 := by
  have hnanos := cast_nanos t
  have hdvd : 1953125 ∣ (nanos t).toNat ↔ (1953125 : Int) ∣ Time.nanosecond t := by
    rw [← hnanos]
    omega
  have hof : ∀ n : Int, Time.ofUnix (Time.unix t) n = t - Time.nanosecond t + n := by
    intro n
    have ht := Time.ofUnix_unix t
    unfold Time.ofUnix at ht ⊢
    linarith
  rw [roundTrip, wireNTPTimestampToTime_eq, toNat_seconds h, toNat_fraction,
    rescale_rescale (by decide) (by decide), Int.add_sub_cancel, hof]
  simp only [dvd_mul_pow_iff, hdvd]
  split
  case isTrue => rw [hnanos, Int.sub_add_cancel]
  case isFalse hndvd =>
    have hpos : (nanos t).toNat ≠ 0 := fun h0 => hndvd (hdvd.mp (h0 ▸ dvd_zero _))
    have hback : t - Time.nanosecond t + (((nanos t).toNat - 1 : ℕ) : Int) = t - 1 := by omega
    exact hback

/-- A nanosecond at most, and never forward. -/
theorem roundTrip_bounds {t : Int} (h : InEra t) : t - 1 ≤ roundTrip t ∧ roundTrip t ≤ t := by
  rw [roundTrip_eq h]
  split
  · exact ⟨Int.sub_le_self t (by decide), le_rfl⟩
  · exact ⟨le_rfl, Int.sub_le_self t (by decide)⟩

theorem roundTrip_mono {t u : Int} (ht : InEra t) (hu : InEra u) (h : t ≤ u) :
    roundTrip t ≤ roundTrip u := by
  rcases eq_or_lt_of_le h with rfl | hlt
  · exact le_rfl
  · calc roundTrip t
        ≤ t := (roundTrip_bounds ht).2
      _ ≤ u - 1 := Int.le_sub_one_of_lt hlt
      _ ≤ roundTrip u := (roundTrip_bounds hu).1

end Cepheus.Stamp
