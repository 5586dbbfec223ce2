import Cepheus.Infra.Quantile
import Cepheus.Infra.Slices
import Cepheus.Processor.Stats

/-!
# The percentiles of `computeStats`

`percentile` reads the order statistics of the delays at a rank, along the line between the two
neighbours of the rank, and rounds towards zero. `computeStats` sorts its argument in place, so the
order in which the delays come does not matter.
-/

namespace Cepheus.Processor

open Infra

/-! ## The index -/

theorem index_natCast (l : List Duration) (i : ℕ) : index l i = l[i]? := by
  simp [index]

/-- The rank is not negative, so its integer part is the floor. -/
theorem truncate_rank {r : ℚ} (h : 0 ≤ r) : truncate r = (⌊r⌋₊ : Int) := by
  rw [truncate_of_nonneg h, Int.natCast_floor_eq_floor h]

/-- The order statistics, as they enter the computation. -/
def statistics (sorted : List Duration) (i : ℕ) : ℚ := (orderStatistic sorted 0 i : Int)

theorem statistics_mono {sorted : List Duration} (h : sorted.Pairwise (· ≤ ·)) :
    Monotone (statistics sorted) := by
  intro i j hij
  exact Int.cast_le.mpr (orderStatistic_mono h 0 hij)

/-- The rank of a percentile. -/
def rank (n : ℕ) (p : ℚ) : ℚ := p * ((n : ℚ) - 1)

theorem rank_nonneg {n : ℕ} {p : ℚ} (hn : n ≠ 0) (hp : 0 ≤ p) : 0 ≤ rank n p := by
  have hn1 : (1 : ℚ) ≤ n := by exact_mod_cast Nat.one_le_iff_ne_zero.mpr hn
  exact mul_nonneg hp (by linarith)

theorem rank_le {n : ℕ} {p : ℚ} (hn : n ≠ 0) (hp : p ≤ 1) : rank n p ≤ (n - 1 : ℕ) := by
  have hn1 : 1 ≤ n := Nat.one_le_iff_ne_zero.mpr hn
  have hn' : (0 : ℚ) ≤ (n : ℚ) - 1 := by
    have : (1 : ℚ) ≤ n := by exact_mod_cast hn1
    linarith
  rw [Nat.cast_sub hn1, Nat.cast_one, rank]
  exact mul_le_of_le_one_left hn' hp

theorem getElem_statistics {sorted : List Duration} {i : ℕ} (h : i < sorted.length) :
    ∃ d, sorted[i]? = some d ∧ statistics sorted i = d :=
  ⟨_, orderStatistic_of_lt 0 h, rfl⟩

theorem percentile_of_two_le (p : ℚ) : ∀ {sorted : List Duration}, 2 ≤ sorted.length →
    percentile sorted p =
      (let r := rank sorted.length p
      if (sorted.length : Int) ≤ truncate r + 1 then index sorted (sorted.length - 1)
      else do
        let low ← index sorted (truncate r)
        let high ← index sorted (truncate r + 1)
        some (truncate (low * (1 - (r - truncate r)) + high * (r - truncate r))))
  | _ :: _ :: _, _ => rfl

/-- The boundary case is that of the last element; elsewhere both neighbours of the rank are
elements. -/
theorem percentile_long {sorted : List Duration} (h : 2 ≤ sorted.length) {p : ℚ} (h0 : 0 ≤ p)
    (h1 : p ≤ 1) :
    percentile sorted p =
      some (truncate (interpolate (statistics sorted) (rank sorted.length p))) := by
  have hr0 := rank_nonneg (show sorted.length ≠ 0 by omega) h0
  have hr1 := rank_le (show sorted.length ≠ 0 by omega) h1
  rw [percentile_of_two_le p h]
  generalize rank sorted.length p = r at hr0 hr1
  simp only [truncate_rank hr0, Int.cast_natCast]
  split
  · next hhi =>
    have hfloor : sorted.length - 1 ≤ ⌊r⌋₊ := by omega
    have hcast : ((sorted.length - 1 : ℕ) : ℚ) ≤ r :=
      (Nat.cast_le.mpr hfloor).trans (Nat.floor_le hr0)
    obtain ⟨d, hd, hstat⟩ := getElem_statistics (show sorted.length - 1 < sorted.length by omega)
    have hindex : ((sorted.length : Int) - 1) = ((sorted.length - 1 : ℕ) : Int) := by omega
    rw [le_antisymm hr1 hcast, interpolate_natCast, hstat, truncate_intCast, hindex,
      index_natCast, hd]
  · next hhi =>
    obtain ⟨low, hlow, hslow⟩ := getElem_statistics (show ⌊r⌋₊ < sorted.length by omega)
    obtain ⟨high, hhigh, hshigh⟩ := getElem_statistics (show ⌊r⌋₊ + 1 < sorted.length by omega)
    have hsucc : (⌊r⌋₊ : Int) + 1 = ((⌊r⌋₊ + 1 : ℕ) : Int) := by push_cast; rfl
    rw [hsucc, index_natCast, index_natCast, hlow, hhigh, interpolate, hslow, hshigh]
    rfl

/-- `percentile` does not leave the list, and gives the value at the rank, rounded towards zero. -/
theorem percentile_eq {p : ℚ} (h0 : 0 ≤ p) (h1 : p ≤ 1) : ∀ {sorted : List Duration},
    sorted ≠ [] → percentile sorted p =
      some (truncate (interpolate (statistics sorted) (rank sorted.length p)))
  | [], hne => absurd rfl hne
  | [d], _ => by
    have hrank : rank [d].length p = (0 : ℕ) := by simp [rank]
    have hstat : statistics [d] 0 = d := rfl
    rw [hrank, interpolate_natCast, hstat, truncate_intCast, percentile]
  | _ :: _ :: _, _ => percentile_long (by simp) h0 h1

/-! ## The statistics -/

/-- The value at the rank of `p`, rounded towards zero. -/
def quantile (sorted : List Duration) (p : ℚ) : Duration :=
  truncate (interpolate (statistics sorted) (rank sorted.length p))

theorem computeStats_eq {values : List Duration} (hne : values ≠ []) :
    let sorted := values.insertionSort (· ≤ ·)
    computeStats values = some
      { mean := (sorted.foldl (fun sum v => int64 (sum + v)) 0).tdiv sorted.length
        p50 := quantile sorted (50 / 100)
        p95 := quantile sorted (95 / 100)
        stdDev := 0 } := by
  intro sorted
  have hsorted : sorted ≠ [] := by
    intro hnil
    have hperm : sorted.Perm values := List.perm_insertionSort (· ≤ ·) values
    rw [hnil] at hperm
    exact hne (List.nil_perm.mp hperm)
  rw [computeStats, if_neg hne]
  show ((percentile sorted (50 / 100)).bind fun p50 =>
    (percentile sorted (95 / 100)).bind fun p95 => some _) = _
  rw [percentile_eq (by norm_num) (by norm_num) hsorted,
    percentile_eq (by norm_num) (by norm_num) hsorted]
  rfl

theorem computeStats_perm {values others : List Duration} (h : others.Perm values) :
    computeStats others = computeStats values := by
  by_cases hne : values = []
  · subst hne
    rw [List.perm_nil.mp h]
  · have hne' : others ≠ [] := fun hnil => hne (List.perm_nil.mp (hnil ▸ h).symm)
    rw [computeStats_eq hne, computeStats_eq hne', insertionSort_eq_of_perm h]

/-- The value of a percentile: between the two neighbours of its rank among the order statistics,
and on the line between them but for the rounding. The last order statistic is its own successor. -/
def IsQuantile (values : List Duration) (p : ℚ) (d : Duration) : Prop :=
  let sorted := values.insertionSort (· ≤ ·)
  let r := rank values.length p
  let frac := r - ⌊r⌋₊
  ∃ low high : Duration, sorted[⌊r⌋₊]? = some low ∧
    sorted[min (⌊r⌋₊ + 1) (values.length - 1)]? = some high ∧
    d = truncate (low * (1 - frac) + high * frac) ∧ low ≤ d ∧ d ≤ high

theorem isQuantile_quantile {values : List Duration} (hne : values ≠ []) {p : ℚ} (h0 : 0 ≤ p)
    (h1 : p ≤ 1) :
    IsQuantile values p (quantile (values.insertionSort (· ≤ ·)) p) := by
  have hpos : values.length ≠ 0 := fun h => hne (List.length_eq_zero_iff.mp h)
  have hr0 := rank_nonneg hpos h0
  have hfloor : ⌊rank values.length p⌋₊ ≤ values.length - 1 := Nat.floor_le_of_le (rank_le hpos h1)
  have hlen : (values.insertionSort (· ≤ ·)).length = values.length := List.length_insertionSort ..
  have hmono := statistics_mono (List.pairwise_insertionSort (· ≤ ·) values)
  unfold IsQuantile quantile
  rw [hlen]
  generalize values.insertionSort (· ≤ ·) = sorted at hlen hmono
  generalize rank values.length p = r at hr0 hfloor
  refine ⟨orderStatistic sorted 0 ⌊r⌋₊, orderStatistic sorted 0 (⌊r⌋₊ + 1),
    orderStatistic_of_lt 0 (by omega), ?_, rfl, ?_, ?_⟩
  · have hmin := orderStatistic_of_lt 0
      (show min (⌊r⌋₊ + 1) (values.length - 1) < sorted.length by omega)
    rw [hmin, orderStatistic, orderStatistic, hlen, min_assoc, min_self]
  · calc orderStatistic sorted 0 ⌊r⌋₊
        = truncate (statistics sorted ⌊r⌋₊) := (truncate_intCast _).symm
      _ ≤ truncate (interpolate (statistics sorted) r) := truncate_mono (le_interpolate hmono hr0)
  · calc truncate (interpolate (statistics sorted) r)
        ≤ truncate (statistics sorted (⌊r⌋₊ + 1)) := truncate_mono (interpolate_le hmono r)
      _ = orderStatistic sorted 0 (⌊r⌋₊ + 1) := truncate_intCast _

/-- The neighbours of a rank are delays of the list. -/
theorem IsQuantile.exists_mem {values : List Duration} {p : ℚ} {d : Duration}
    (h : IsQuantile values p d) : (∃ low ∈ values, low ≤ d) ∧ ∃ high ∈ values, d ≤ high := by
  obtain ⟨low, high, hlow, hhigh, -, hle, hge⟩ := h
  have hperm := List.perm_insertionSort (· ≤ ·) values
  exact ⟨⟨low, hperm.mem_iff.mp (List.mem_of_getElem? hlow), hle⟩,
    ⟨high, hperm.mem_iff.mp (List.mem_of_getElem? hhigh), hge⟩⟩

theorem quantile_mono {values : List Duration} (hne : values ≠ []) {p q : ℚ} (h0 : 0 ≤ p)
    (hpq : p ≤ q) :
    quantile (values.insertionSort (· ≤ ·)) p ≤ quantile (values.insertionSort (· ≤ ·)) q := by
  have hmono := statistics_mono (List.pairwise_insertionSort (· ≤ ·) values)
  have hlen : (values.insertionSort (· ≤ ·)).length ≠ 0 := by
    rw [List.length_insertionSort]
    exact fun h => hne (List.length_eq_zero_iff.mp h)
  have hn : (0 : ℚ) ≤ ((values.insertionSort (· ≤ ·)).length : ℚ) - 1 := by
    have : (1 : ℚ) ≤ (values.insertionSort (· ≤ ·)).length := by
      exact_mod_cast Nat.one_le_iff_ne_zero.mpr hlen
    linarith
  exact truncate_mono (interpolate_mono hmono (rank_nonneg hlen h0)
    (mul_le_mul_of_nonneg_right hpq hn))

/-- The two percentiles of `computeStats` are interpolated quantiles of the delays, and do not
depend on their order. -/
theorem computeStats_quantiles (values : List Duration) (hne : values ≠ []) :
    ∃ stats, computeStats values = some stats ∧
      (∀ others : List Duration, others.Perm values → computeStats others = some stats) ∧
      IsQuantile values (50 / 100) stats.p50 ∧ IsQuantile values (95 / 100) stats.p95 ∧
      ∃ min max, values.min? = some min ∧ values.max? = some max ∧
        min ≤ stats.p50 ∧ stats.p50 ≤ stats.p95 ∧ stats.p95 ≤ max := by
  have h50 := isQuantile_quantile hne (p := 50 / 100) (by norm_num) (by norm_num)
  have h95 := isQuantile_quantile hne (p := 95 / 100) (by norm_num) (by norm_num)
  refine ⟨_, computeStats_eq hne, fun others hperm => ?_, h50, h95, ?_⟩
  · rw [computeStats_perm hperm, computeStats_eq hne]
  obtain ⟨min, hmin⟩ := Option.ne_none_iff_exists'.mp (fun h => hne (List.min?_eq_none_iff.mp h))
  obtain ⟨max, hmax⟩ := Option.ne_none_iff_exists'.mp (fun h => hne (List.max?_eq_none_iff.mp h))
  obtain ⟨low, hlow, hle⟩ := h50.exists_mem.1
  obtain ⟨high, hhigh, hge⟩ := h95.exists_mem.2
  exact ⟨min, max, hmin, hmax, ((List.min?_eq_some_iff.mp hmin).2 low hlow).trans hle,
    quantile_mono hne (by norm_num) (by norm_num),
    hge.trans ((List.max?_eq_some_iff.mp hmax).2 high hhigh)⟩

/-- Two delays of which one is negative: the median `-1.5` is rounded to `-1`. -/
theorem computeStats_quantiles_negative :
    ([2, -5] : List Duration) ≠ [] ∧ ∃ stats, computeStats [2, -5] = some stats ∧
      (∀ others : List Duration, others.Perm [2, -5] → computeStats others = some stats) ∧
      IsQuantile [2, -5] (50 / 100) stats.p50 ∧ IsQuantile [2, -5] (95 / 100) stats.p95 ∧
      ∃ min max, ([2, -5] : List Duration).min? = some min ∧
        ([2, -5] : List Duration).max? = some max ∧
        min ≤ stats.p50 ∧ stats.p50 ≤ stats.p95 ∧ stats.p95 ≤ max :=
  ⟨by decide, computeStats_quantiles [2, -5] (by decide)⟩

example : (computeStats [2, -5]).map LatencyStats.p50 = some (-1) := by decide +kernel

end Cepheus.Processor
