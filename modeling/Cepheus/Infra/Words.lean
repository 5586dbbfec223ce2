import Mathlib.Algebra.Order.Field.Rat
import Mathlib.Data.Rat.Floor

/-!
# Machine integers

The conversions of Go between integers of different widths, and from floats, which are read as
exact rationals. Where a float is out of the range of the integer the language leaves the result
open; `truncate` gives the exact number there too.
-/

namespace Cepheus.Infra

/-- `int32(x)`. -/
def int32 (x : Int) : Int := Int.bmod x (2 ^ 32)

/-- `int64(x)`, which is `int(x)` too. -/
def int64 (x : Int) : Int := Int.bmod x (2 ^ 64)

/-- `int(x)` and `time.Duration(x)` of a float: the fraction is discarded. -/
def truncate (x : ℚ) : Int := x.num.tdiv x.den

/-- What is not out of range stays as it is. -/
theorem int64_eq_self {x : Int} (hlow : -2 ^ 63 ≤ x) (hhigh : x < 2 ^ 63) : int64 x = x := by
  unfold int64
  rw [Int.bmod_eq_of_le] <;> omega

/-! ## Sixty-four bits -/

/-- A product is exact if and only if it is in range. -/
theorem toInt_mul_eq_iff (a b : Int64) :
    (a * b).toInt = a.toInt * b.toInt ↔
      -2 ^ 63 ≤ a.toInt * b.toInt ∧ a.toInt * b.toInt < 2 ^ 63 := by
  constructor
  · intro h
    rw [← h]
    exact ⟨Int64.le_toInt _, Int64.toInt_lt _⟩
  · rintro ⟨hlow, hhigh⟩
    rw [Int64.toInt_mul, Int.bmod_eq_of_le] <;> omega

theorem toInt_add_of_le {a b : Int64} (hlow : -2 ^ 63 ≤ a.toInt + b.toInt)
    (hhigh : a.toInt + b.toInt < 2 ^ 63) : (a + b).toInt = a.toInt + b.toInt := by
  rw [Int64.toInt_add, Int.bmod_eq_of_le] <;> omega

theorem toInt_sub_of_le {a b : Int64} (hlow : -2 ^ 63 ≤ a.toInt - b.toInt)
    (hhigh : a.toInt - b.toInt < 2 ^ 63) : (a - b).toInt = a.toInt - b.toInt := by
  rw [Int64.toInt_sub, Int.bmod_eq_of_le] <;> omega

/-! ## Unsigned words -/

theorem toNat_uint32_ofInt {x : Int} (hlow : 0 ≤ x) (hhigh : x < 2 ^ 32) :
    (UInt32.ofInt x).toNat = x.toNat := by
  show (UInt32.ofNat (x % 2 ^ 32).toNat).toNat = x.toNat
  rw [Int.emod_eq_of_lt hlow hhigh, UInt32.toNat_ofNat_of_lt']
  show x.toNat < 2 ^ 32
  omega

theorem toNat_uint64_ofInt {x : Int} (hlow : 0 ≤ x) (hhigh : x < 2 ^ 64) :
    (UInt64.ofInt x).toNat = x.toNat := by
  show (UInt64.ofNat (x % 2 ^ 64).toNat).toNat = x.toNat
  rw [Int.emod_eq_of_lt hlow hhigh, UInt64.toNat_ofNat_of_lt']
  show x.toNat < 2 ^ 64
  omega

/-- `int64(x)` of an unsigned word whose first bit is not set. -/
theorem toInt_toInt64_of_lt {x : UInt64} (h : x.toNat < 2 ^ 63) : x.toInt64.toInt = x.toNat := by
  show x.toBitVec.toInt = x.toBitVec.toNat
  have h : x.toBitVec.toNat < 2 ^ 63 := h
  rw [BitVec.toInt_eq_toNat_of_lt]
  omega

/-! ## Counting up -/

theorem le_maxValue (i : Int64) : i ≤ Int64.maxValue := by
  rw [Int64.le_iff_toInt_le, Int64.toInt_maxValue]
  have := i.toInt_lt
  omega

/-- Below the greatest integer a counter that has not passed its bound does not wrap around. -/
theorem toInt_succ {i n : Int64} (hn : n ≠ Int64.maxValue) (h : i ≤ n) :
    (i + 1).toInt = i.toInt + 1 := by
  have hne : n.toInt ≠ Int64.maxValue.toInt := fun heq => hn (Int64.toInt_inj.mp heq)
  have hle := Int64.le_iff_toInt_le.mp (le_maxValue n)
  rw [Int64.toInt_maxValue] at hne hle
  have hi := Int64.le_iff_toInt_le.mp h
  have hlow := i.le_toInt
  have hone : (1 : Int64).toInt = 1 := by decide
  rw [toInt_add_of_le] <;> rw [hone] <;> omega

/-- The induction over the rounds of `for i := k; i <= n; i++`. -/
theorem counter_induction {n : Int64} (hn : n ≠ Int64.maxValue) {P : Int64 → Prop}
    (past : ∀ i, ¬ i ≤ n → P i) (next : ∀ i, i ≤ n → P (i + 1) → P i) (i : Int64) : P i := by
  induction hr : (n.toInt + 1 - i.toInt).toNat generalizing i with
  | zero =>
    refine past i fun hle => ?_
    have := Int64.le_iff_toInt_le.mp hle
    omega
  | succ rounds ih =>
    have hle : i ≤ n := by
      rw [Int64.le_iff_toInt_le]
      omega
    exact next i hle (ih (i + 1) (by rw [toInt_succ hn hle]; omega))

/-! ## Truncation -/

theorem truncate_of_nonneg {x : ℚ} (h : 0 ≤ x) : truncate x = ⌊x⌋ := by
  rw [truncate, Rat.floor_def', Int.tdiv_eq_ediv_of_nonneg (Rat.num_nonneg.mpr h)]

theorem truncate_neg (x : ℚ) : truncate (-x) = -truncate x := by
  rw [truncate, truncate, Rat.neg_num, Rat.neg_den, Int.neg_tdiv]

theorem truncate_of_nonpos {x : ℚ} (h : x ≤ 0) : truncate x = ⌈x⌉ := by
  have hneg := truncate_of_nonneg (neg_nonneg.mpr h)
  rw [truncate_neg, Int.floor_neg] at hneg
  exact neg_injective hneg

@[simp] theorem truncate_intCast (n : Int) : truncate n = n := by
  simp [truncate]

/-- Truncation rounds down above zero and up below it. -/
theorem truncate_mono {x y : ℚ} (h : x ≤ y) : truncate x ≤ truncate y := by
  rcases le_total 0 x with hx | hx
  · rw [truncate_of_nonneg hx, truncate_of_nonneg (hx.trans h)]
    exact Int.floor_mono h
  · rcases le_total 0 y with hy | hy
    · calc truncate x
          ≤ 0 := by rw [truncate_of_nonpos hx]; exact Int.ceil_le.mpr (by exact_mod_cast hx)
        _ ≤ truncate y := by rw [truncate_of_nonneg hy]; exact Int.floor_nonneg.mpr hy
    · rw [truncate_of_nonpos hx, truncate_of_nonpos hy]
      exact Int.ceil_mono h

end Cepheus.Infra
