import Cepheus.Infra.Time

/-!
# Protocol buffers

The well-known types `Duration` and `Timestamp` as Go has them, and what happens to a Go `int` in an
`int32` field.
-/

namespace Cepheus.Infra

/-- The integers that an `int32` field can hold. -/
def FitsInt32 (x : Int64) : Prop := -2 ^ 31 ≤ x.toInt ∧ x.toInt < 2 ^ 31

instance (x : Int64) : Decidable (FitsInt32 x) :=
  inferInstanceAs (Decidable (_ ∧ _))

/-- The conversion `int32(x)` wraps around: just the integers that fit come back from it. -/
theorem toInt64_toInt32_eq_iff (x : Int64) : x.toInt32.toInt64 = x ↔ FitsInt32 x := by
  rw [← Int64.toInt_inj, Int32.toInt_toInt64, Int64.toInt_toInt32]
  unfold FitsInt32
  constructor
  · intro h
    rw [Int.bmod_def] at h
    omega
  · rintro ⟨hle, hlt⟩
    exact Int.bmod_eq_of_le (by omega) (by omega)

namespace Protobuf

/-- `google.protobuf.Duration`. -/
structure Duration where
  seconds : Int64
  nanos : Int32
deriving DecidableEq, Repr

/-- `durationpb.New`, of a number of nanoseconds. -/
def Duration.new (d : Int64) : Duration :=
  let secs := d / 1000000000
  { seconds := secs, nanos := (d - secs * 1000000000).toInt32 }

/-- `AsDuration`, which saturates. -/
def Duration.asDuration (x : Duration) : Int64 :=
  let d := x.seconds * 1000000000
  let sum := d + x.nanos.toInt64
  let overflow := d / 1000000000 ≠ x.seconds ∨ (x.seconds < 0 ∧ x.nanos < 0 ∧ 0 < sum) ∨
    (0 < x.seconds ∧ 0 < x.nanos ∧ sum < 0)
  if overflow ∧ x.seconds < 0 then Int64.minValue
  else if overflow ∧ 0 < x.seconds then Int64.maxValue
  else sum

/-- `google.protobuf.Timestamp`. -/
structure Timestamp where
  seconds : Int64
  nanos : Int32
deriving DecidableEq, Repr

/-- `AsTime`. -/
def Timestamp.asTime (x : Timestamp) : Time :=
  (x.seconds.toInt + 62135596800) * second + x.nanos.toInt

/-- The quotient and the remainder of the division that truncates, with the sign of the dividend. -/
theorem tdiv_tmod_bounds {n : Int} (hn : 0 < n) (d : Int) :
    n * d.tdiv n + d.tmod n = d ∧ (0 ≤ d → 0 ≤ d.tmod n ∧ d.tmod n < n) ∧
      (d ≤ 0 → -n < d.tmod n ∧ d.tmod n ≤ 0) := by
  refine ⟨Int.mul_tdiv_add_tmod d n, fun hd => ?_, fun hd => ?_⟩
  · exact ⟨Int.tmod_nonneg n hd, Int.tmod_lt_of_pos d hn⟩
  · have hneg := Int.tmod_nonneg n (Int.neg_nonneg_of_nonpos hd)
    have hlt := Int.tmod_lt_of_pos (-d) hn
    rw [Int.neg_tmod] at hneg hlt
    omega

/-- The parts of a duration do not overflow when they are put together again. -/
theorem Duration.asDuration_new (d : Int64) : (Duration.new d).asDuration = d := by
  have hlo := d.le_toInt
  have hhi := d.toInt_lt
  obtain ⟨hsum, hpos, hneg⟩ := tdiv_tmod_bounds (n := 1000000000) (by decide) d.toInt
  generalize hq : d.toInt.tdiv 1000000000 = q, d.toInt.tmod 1000000000 = r at hsum hpos hneg
  have hsecond : (1000000000 : Int64).toInt = 1000000000 := by decide
  have hsecs : (d / 1000000000).toInt = q := by
    rw [Int64.toInt_div, hsecond, hq]
    exact Int.bmod_eq_of_le (by omega) (by omega)
  have hmul : (d / 1000000000 * 1000000000).toInt = 1000000000 * q := by
    rw [Int64.toInt_mul, hsecs, hsecond]
    rw [Int.bmod_eq_of_le (by omega) (by omega)]
    omega
  have hrest : (d - d / 1000000000 * 1000000000).toInt = r := by
    rw [Int64.toInt_sub, hmul, Int.bmod_eq_of_le (by omega) (by omega)]
    omega
  have hnanos : (d - d / 1000000000 * 1000000000).toInt32.toInt64 =
      d - d / 1000000000 * 1000000000 := by
    rw [toInt64_toInt32_eq_iff, FitsInt32, hrest]
    omega
  have hback : d / 1000000000 * 1000000000 / 1000000000 = d / 1000000000 := by
    rw [← Int64.toInt_inj, Int64.toInt_div, hmul, hsecond, hsecs,
      Int.mul_tdiv_cancel_left _ (by decide)]
    exact Int.bmod_eq_of_le (by omega) (by omega)
  have hadd : d / 1000000000 * 1000000000 + (d - d / 1000000000 * 1000000000) = d := by
    rw [Int64.add_comm, Int64.sub_add_cancel]
  -- the quotient and the sum have one sign
  have hdown : ¬ (d / 1000000000 < 0 ∧ 0 < d) := by
    rw [Int64.lt_iff_toInt_lt, Int64.lt_iff_toInt_lt, hsecs, Int64.toInt_zero]
    omega
  have hup : ¬ (0 < d / 1000000000 ∧ d < 0) := by
    rw [Int64.lt_iff_toInt_lt, Int64.lt_iff_toInt_lt, hsecs, Int64.toInt_zero]
    omega
  simp only [Duration.new, Duration.asDuration, hback, hnanos, hadd]
  rw [if_neg, if_neg]
  all_goals
    rintro ⟨(h | h | h), -⟩
    · exact h rfl
    · exact hdown ⟨h.1, h.2.2⟩
    · exact hup ⟨h.1, h.2.2⟩

end Protobuf

end Cepheus.Infra
