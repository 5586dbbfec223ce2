import Cepheus.Argus.Properties.Lgamma
import Cepheus.Argus.UpperTail

/-!
# Whether the tail is ever returned

The loop `for i := k; i <= n; i++` is left when `i` has passed `n`. The greatest `int64` is never
passed: the counter wraps around to the least one. So a batch that says to have sent as many
probes as an `int64` can count, some of them lost, holds the detector for ever
(`tail_returned_iff`).

In every other case the loop computes what the detector's model does, which counts without a
bound (`tail_returns`).
-/

namespace Cepheus.Argus.Machine

open Infra

/-! ## The loop -/

section

variable {F : Type} [One F] [Add F] [Sub F] {m : Math F} {n : Int64} {a bb : F}

theorem tailLoop_next {i : Int64} (h : i ≤ n) (tail : F) :
    (tailLoop m n a bb).round (i, tail) = .inl (i + 1, tail + m.exp (logPmf m n a bb i)) :=
  if_pos h

theorem tailLoop_exit {i : Int64} (h : ¬ i ≤ n) (tail : F) :
    (tailLoop m n a bb).round (i, tail) = .inr tail :=
  if_neg h

/-- No counter passes the greatest integer. -/
theorem not_halts_tailLoop_maxValue (s : Int64 × F) :
    ¬ (tailLoop m Int64.maxValue a bb).Halts s :=
  Loop.not_halts_of_forever (I := fun _ => True)
    (fun s _ => ⟨_, tailLoop_next (le_maxValue s.1) s.2, trivial⟩) trivial

/-- Every other bound is passed. -/
theorem halts_tailLoop (hn : n ≠ Int64.maxValue) (i : Int64) :
    ∀ tail : F, (tailLoop m n a bb).Halts (i, tail) := by
  induction i using counter_induction hn with
  | past i hgt =>
    intro tail
    exact ⟨tail, (Loop.returns_iff_of_exit (tailLoop_exit hgt tail)).mpr rfl⟩
  | next i hle ih =>
    intro tail
    obtain ⟨r, hr⟩ := ih (tail + m.exp (logPmf m n a bb i))
    exact ⟨r, (Loop.returns_iff_of_next (tailLoop_next hle tail)).mpr hr⟩

variable [Zero F] [LT F] [DecidableLT F]

/-- The function returns unless the loop is reached with the greatest integer for its bound. -/
theorem betaBinomialUpperTail_returned_iff (k : Int64) :
    (∃ rounds tail, betaBinomialUpperTail m rounds k n a bb = some tail) ↔
      k ≤ 0 ∨ n ≠ Int64.maxValue := by
  unfold betaBinomialUpperTail
  by_cases hk : k ≤ 0
  · simp [hk]
  by_cases hkn : n < k
  · have hne : n ≠ Int64.maxValue := by
      rintro rfl
      exact Int64.not_lt.mpr (le_maxValue k) hkn
    simp [hk, hkn, hne]
  simp only [hk, hkn, if_false, Option.map_eq_some_iff, false_or]
  constructor
  · rintro ⟨rounds, -, tail, hrun, -⟩ rfl
    exact not_halts_tailLoop_maxValue _ ⟨tail, rounds, hrun⟩
  · intro hn
    have hhalts : (tailLoop m n a bb).Halts (k, 0) := halts_tailLoop hn k 0
    obtain ⟨tail, rounds, hrun⟩ := hhalts
    exact ⟨rounds, _, tail, hrun, rfl⟩

end

/-! ## The batches -/

/-- As many probes sent as an `int64` can count, and some of them not received. -/
def LossSample.Endless (s : LossSample) : Prop :=
  s.sent = Int64.maxValue ∧ 0 ≤ s.received ∧ s.received < Int64.maxValue

instance (s : LossSample) : Decidable s.Endless :=
  inferInstanceAs (Decidable (_ ∧ _))

/-- The batch as the detector's model has it. -/
def LossSample.exact (s : LossSample) : Argus.LossSample :=
  { sent := s.sent.toInt, received := s.received.toInt }

theorem LossSample.toInt_lost (s : LossSample) : s.lost.toInt = s.exact.lost := by
  have hsub : (s.sent - s.received).toInt = int64 (s.sent.toInt - s.received.toInt) :=
    Int64.toInt_sub ..
  show (if s.sent - s.received < 0 then 0 else s.sent - s.received).toInt =
    max 0 (int64 (s.sent.toInt - s.received.toInt))
  rw [← hsub]
  split
  case isTrue hneg =>
    have hneg := Int64.lt_iff_toInt_lt.mp hneg
    simp only [Int64.toInt_zero] at hneg ⊢
    omega
  case isFalse hnn =>
    rw [Int64.lt_iff_toInt_lt, Int64.toInt_zero] at hnn
    omega

/-- The subtraction wraps around below zero if it exceeds the greatest integer, and then nothing
counts as lost. -/
theorem LossSample.endless_iff (s : LossSample) :
    s.Endless ↔ s.sent = Int64.maxValue ∧ ¬ s.lost ≤ 0 := by
  refine and_congr_right fun hsent => ?_
  have hlow := s.received.le_toInt
  have hhigh := s.received.toInt_lt
  rw [Int64.le_iff_toInt_le, Int64.le_iff_toInt_le, Int64.lt_iff_toInt_lt, s.toInt_lost]
  simp only [Argus.LossSample.lost, LossSample.exact, hsent, Int64.toInt_maxValue,
    Int64.toInt_zero]
  by_cases hneg : 0 ≤ s.received.toInt
  · rw [int64_eq_self (by omega) (by omega)]
    omega
  · have hwrap : int64 (2 ^ 63 - 1 - s.received.toInt) =
        2 ^ 63 - 1 - s.received.toInt - 2 ^ 64 := by
      unfold int64
      rw [← Int.sub_bmod_right, Int.bmod_eq_of_le] <;> omega
    rw [hwrap]
    omega

/-- The functions of package `math` over the reals. -/
noncomputable def real : Math ℝ where
  float64 x := x.toInt
  lgamma := Lgamma.lgamma
  exp := Real.exp

section

variable {F : Type} [Zero F] [One F] [Add F] [Sub F] [LT F] [DecidableLT F]

/-- The tail that `step` asks for of a batch, if it asks for one, is returned. -/
def TailReturned (m : Math F) (a bb : F) (s : LossSample) : Prop :=
  0 < s.sent → ∃ rounds tail, betaBinomialUpperTail m rounds s.lost s.sent a bb = some tail

/--
**When the detector goes on.**

The loop of `betaBinomialUpperTail` is left for every batch but those that say to have sent
`math.MaxInt64` probes and to have received fewer, but not a negative number.
-/
theorem tail_returned_iff (m : Math F) (a bb : F) (s : LossSample) :
    TailReturned m a bb s ↔ ¬ s.Endless := by
  rw [TailReturned, betaBinomialUpperTail_returned_iff, s.endless_iff]
  constructor
  · rintro h ⟨hsent, hlost⟩
    rcases h (by rw [hsent]; decide) with hle | hne
    · exact hlost hle
    · exact hne hsent
  · intro h _
    by_cases hsent : s.sent = Int64.maxValue
    · exact Or.inl (not_not.mp fun hlost => h ⟨hsent, hlost⟩)
    · exact Or.inr hsent

end

/-- The greatest number of probes and no answer, in the first batch of a series: no number of
rounds is enough. -/
theorem tail_not_returned :
    ¬ TailReturned real (1 / 2) (1 / 2) { sent := 9223372036854775807, received := 0 } := by
  intro h
  rcases (betaBinomialUpperTail_returned_iff _).mp (h (by decide)) with hle | hne
  · exact absurd hle (by decide)
  · exact hne rfl

/-! ## What is returned -/

/-- Below the greatest integer none of the sums and differences of a term wraps around. -/
theorem logPmf_real {n i : Int64} (hn : n ≠ Int64.maxValue) (hpos : 0 < i.toInt) (hle : i ≤ n)
    (a b : ℝ) : logPmf real n a b i = Lgamma.logPmf n.toInt a b i.toInt := by
  have hi := Int64.le_iff_toInt_le.mp hle
  have hhigh := n.toInt_lt
  have hn1 : (n + 1).toInt = n.toInt + 1 := toInt_succ hn (Int64.le_refl n)
  have hi1 : (i + 1).toInt = i.toInt + 1 := toInt_succ hn hle
  have hsub : (n - i).toInt = n.toInt - i.toInt := toInt_sub_of_le (by omega) (by omega)
  simp only [logPmf, logChoose, logBeta, real, hn1, hi1, hsub, Lgamma.logPmf, Lgamma.logChoose,
    Lgamma.logBeta]

theorem returns_tailLoop_real {n : Int64} (hn : n ≠ Int64.maxValue) (a b : ℝ) (i : Int64) :
    0 < i.toInt → ∀ tail, (tailLoop real n a b).Returns (i, tail)
      (Lgamma.tailLoop n.toInt a b (n.toInt + 1 - i.toInt).toNat i.toInt tail) := by
  induction i using counter_induction hn with
  | past i hgt =>
    intro _ tail
    have hrounds : (n.toInt + 1 - i.toInt).toNat = 0 := by
      rw [Int64.le_iff_toInt_le] at hgt
      omega
    rw [Loop.returns_iff_of_exit (tailLoop_exit hgt tail), hrounds, Lgamma.tailLoop]
  | next i hle ih =>
    intro hpos tail
    have hsucc := toInt_succ hn hle
    have hrounds : (n.toInt + 1 - i.toInt).toNat = (n.toInt + 1 - (i + 1).toInt).toNat + 1 := by
      have := Int64.le_iff_toInt_le.mp hle
      omega
    rw [Loop.returns_iff_of_next (tailLoop_next hle tail), hrounds, Lgamma.tailLoop, ← hsucc,
      ← logPmf_real hn hpos hle]
    exact ih (by omega) _

theorem betaBinomialUpperTail_real_returns {k n : Int64} (h : k ≤ 0 ∨ n ≠ Int64.maxValue)
    (a b : ℝ) : ∃ rounds, betaBinomialUpperTail real rounds k n a b =
      some (Lgamma.betaBinomialUpperTail k.toInt n.toInt a b) := by
  unfold betaBinomialUpperTail Lgamma.betaBinomialUpperTail
  simp only [Int64.le_iff_toInt_le, Int64.lt_iff_toInt_lt, Int64.toInt_zero] at h ⊢
  by_cases hk : k.toInt ≤ 0
  · simp [hk]
  by_cases hkn : n.toInt < k.toInt
  · simp [hk, hkn]
  obtain ⟨rounds, hrun⟩ :=
    returns_tailLoop_real (h.resolve_left hk) a b k (by omega) 0
  refine ⟨rounds, ?_⟩
  simp only [hk, hkn, if_false, hrun, Option.map_some]

/-- **The tail of every other batch is the one of the detector's model.** -/
theorem tail_returns {s : LossSample} (hs : ¬ s.Endless) {a b : ℝ} (ha : 0 < a) (hb : 0 < b) :
    ∃ rounds, betaBinomialUpperTail real rounds s.lost s.sent a b =
      some (Argus.betaBinomialUpperTail s.exact.lost s.exact.sent a b) := by
  have hbelow : s.lost ≤ 0 ∨ s.sent ≠ Int64.maxValue := by
    rw [s.endless_iff] at hs
    tauto
  rw [← Lgamma.betaBinomialUpperTail_eq_lgamma ha hb, ← s.toInt_lost]
  exact betaBinomialUpperTail_real_returns hbelow a b

end Cepheus.Argus.Machine
