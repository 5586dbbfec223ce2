import Mathlib.Tactic.Ring
import Cepheus.Infra.Leak
import Cepheus.Argus.Run

/-!
# Sweeps and the score

What the `Decay` of a sweep does to a score that only `Add` is to change.

In order of time it does nothing: a score that has drained in several parts is the score that has
drained at once (`decayed_decayed`), so a series of `Add`s leaves the same scores and reports the
same openings with sweeps between them as without (`adds_filter`), and of the sweeps at most one
reports that the score has fallen below the closing threshold.

A finding is older than the sweep that comes before it as soon as it waits to be applied. `Add` then
gives back what has drained between the two, and that is more than what had been there if the
bucket has run empty in the meantime (`late_add_iff`).

A `time.Duration` holds 292 years. What drains in a longer time is what drains in 292 years.
-/

namespace Cepheus.Argus

open Infra

namespace LeakyBucket

variable (b : LeakyBucket)

/-- What drains from `t` to `u`; it is negative if `u` is before `t`. -/
def drained (t u : Time) : ℚ := b.decayPerSecond * Duration.seconds (Time.sub u t)

theorem decayed_eq_leak (s : BucketState) (ts : Time) :
    b.decayed s ts = leak s.score (b.drained s.scoreUpdatedAt ts) := rfl

variable {b} (hd : 0 ≤ b.decayPerSecond)

include hd

theorem drained_nonneg {t u : Time} (h : t ≤ u) : 0 ≤ b.drained t u :=
  mul_nonneg hd (Duration.seconds_nonneg (Time.sub_nonneg h))

omit hd in
theorem drained_add {t u v : Time} (htu : t ≤ u) (huv : u ≤ v) (hd : v - t ≤ maxDuration) :
    b.drained t u + b.drained u v = b.drained t v := by
  have htv : t ≤ v := le_trans htu huv
  have h₁ : u - t ≤ maxDuration := le_trans (sub_le_sub_right huv t) hd
  have h₂ : v - u ≤ maxDuration := le_trans (sub_le_sub_left htu v) hd
  unfold drained Duration.seconds
  rw [Time.sub_of_le htu h₁, Time.sub_of_le huv h₂, Time.sub_of_le htv hd]
  push_cast
  ring

/-- **To drain in two parts is to drain at once.** -/
theorem decayed_decayed {s : BucketState} {t u : Time} (ht : s.scoreUpdatedAt ≤ t) (hu : t ≤ u)
    (hlong : u - s.scoreUpdatedAt ≤ maxDuration) :
    b.decayed { score := b.decayed s t, scoreUpdatedAt := t } u = b.decayed s u := by
  simp only [decayed_eq_leak]
  rw [leak_leak _ _ (drained_nonneg hd hu), drained_add ht hu hlong]

end LeakyBucket

/-! ## Calls of the bucket -/

/-- A call of the bucket: `ApplyFinding` makes the one, `Sweep` the other. -/
inductive BucketCall
  | add (value : ℚ) (ts : Time)
  | decay (ts : Time)
deriving DecidableEq, Repr

namespace BucketCall

def ts : BucketCall → Time
  | .add _ ts => ts
  | .decay ts => ts

def isAdd : BucketCall → Bool
  | .add _ _ => true
  | .decay _ => false

/-- The timestamps do not decrease. -/
def InOrder (calls : List BucketCall) : Prop := calls.Pairwise fun c c' => c.ts ≤ c'.ts

instance (calls : List BucketCall) : Decidable (InOrder calls) :=
  inferInstanceAs (Decidable (calls.Pairwise _))

/-- The instant of the last `Add`, when the one before these calls was at `t`. -/
def lastAdd : Time → List BucketCall → Time
  | t, [] => t
  | _, .add _ ts :: rest => lastAdd ts rest
  | t, .decay _ :: rest => lastAdd t rest

/-- No `Add` comes more than the longest duration after the one before it, which was at `t`. -/
def Spaced : Time → List BucketCall → Prop
  | _, [] => True
  | t, .add _ ts :: rest => ts - t ≤ maxDuration ∧ Spaced ts rest
  | t, .decay _ :: rest => Spaced t rest

instance instDecidableSpaced : ∀ (t : Time) (calls : List BucketCall), Decidable (Spaced t calls)
  | _, [] => inferInstanceAs (Decidable True)
  | t, .add _ ts :: rest =>
    have := instDecidableSpaced ts rest
    inferInstanceAs (Decidable (ts - t ≤ maxDuration ∧ Spaced ts rest))
  | t, .decay _ :: rest => instDecidableSpaced t rest

end BucketCall

namespace LeakyBucket

open BucketCall

variable (b : LeakyBucket)

/-- The score after some calls. -/
def after (s : BucketState) : List BucketCall → BucketState
  | [] => s
  | .add v ts :: rest => after (b.add s v ts).newState rest
  | .decay ts :: rest => after (b.decay s ts).newState rest

/-- What the `Add`s among the calls return. -/
def adds (s : BucketState) : List BucketCall → List BucketUpdate
  | [] => []
  | .add v ts :: rest => b.add s v ts :: adds (b.add s v ts).newState rest
  | .decay ts :: rest => adds (b.decay s ts).newState rest

/-- What one `Decay` after the other returns. -/
def decays (s : BucketState) : List Time → List BucketUpdate
  | [] => []
  | ts :: rest => b.decay s ts :: decays (b.decay s ts).newState rest

/-- `s` is what `Decay`s have made of `s₀`: at any later instant the two have the same score, as
long as the time since `s₀` is a duration. -/
structure Drains (s₀ s : BucketState) : Prop where
  le : s₀.scoreUpdatedAt ≤ s.scoreUpdatedAt
  decayed : ∀ u, s.scoreUpdatedAt ≤ u → u - s₀.scoreUpdatedAt ≤ maxDuration →
    b.decayed s u = b.decayed s₀ u

variable {b} (hd : 0 ≤ b.decayPerSecond)

omit hd in
theorem Drains.refl (s : BucketState) : b.Drains s s := ⟨le_refl _, fun _ _ _ => rfl⟩

include hd

theorem Drains.decay {s₀ s : BucketState} (h : b.Drains s₀ s) {ts : Time}
    (ht : s.scoreUpdatedAt ≤ ts) : b.Drains s₀ (b.decay s ts).newState where
  le := h.le.trans ht
  decayed := by
    intro u hu hlong
    have hlong' : u - s.scoreUpdatedAt ≤ maxDuration := le_trans (sub_le_sub_left h.le u) hlong
    exact (decayed_decayed hd ht hu hlong').trans (h.decayed u (le_trans ht hu) hlong)

omit hd in
/-- An `Add` does not see the `Decay`s before it. -/
theorem Drains.add {s₀ s : BucketState} (h : b.Drains s₀ s) (v : ℚ) {ts : Time}
    (ht : s.scoreUpdatedAt ≤ ts) (hlong : ts - s₀.scoreUpdatedAt ≤ maxDuration) :
    b.add s v ts = b.add s₀ v ts := by
  unfold LeakyBucket.add
  rw [h.decayed ts ht hlong]

/-- **`Decay`s between the `Add`s change nothing that an `Add` returns, nor what is left at the
end.** -/
theorem adds_filter :
    ∀ {calls : List BucketCall} {s₀ s : BucketState}, b.Drains s₀ s → InOrder calls →
      (∀ c ∈ calls, s.scoreUpdatedAt ≤ c.ts) → Spaced s₀.scoreUpdatedAt calls →
      b.adds s calls = b.adds s₀ (calls.filter isAdd) ∧
        ∀ T, s.scoreUpdatedAt ≤ T → (∀ c ∈ calls, c.ts ≤ T) →
          T - lastAdd s₀.scoreUpdatedAt calls ≤ maxDuration →
          b.decayed (b.after s calls) T = b.decayed (b.after s₀ (calls.filter isAdd)) T := by
  intro calls
  induction calls with
  | nil =>
    intro s₀ s h _ _ _
    exact ⟨rfl, fun T hT _ hlong => h.decayed T hT hlong⟩
  | cons c rest ih =>
    intro s₀ s h hord hin hsp
    obtain ⟨hc, hrest⟩ := List.pairwise_cons.mp hord
    have hcs := hin c List.mem_cons_self
    cases c with
    | add v ts =>
      have heq : b.add s v ts = b.add s₀ v ts := h.add v hcs hsp.1
      obtain ⟨hadds, hend⟩ := ih (Drains.refl (b.add s₀ v ts).newState) hrest hc hsp.2
      rw [List.filter_cons_of_pos rfl]
      simp only [adds, after, heq, List.forall_mem_cons]
      exact ⟨congrArg _ hadds, fun T _ hT hlong => hend T hT.1 hT.2 hlong⟩
    | decay ts =>
      have hts : s.scoreUpdatedAt ≤ ts := hcs
      obtain ⟨hadds, hend⟩ := ih (h.decay hd hts) hrest hc hsp
      rw [List.filter_cons_of_neg (by simp [isAdd])]
      simp only [adds, after, List.forall_mem_cons]
      exact ⟨hadds, fun T _ hT hlong => hend T hT.1 hT.2 hlong⟩

/-! ### The closing edge -/

omit hd in
theorem after_append (s : BucketState) (calls calls' : List BucketCall) :
    b.after s (calls ++ calls') = b.after (b.after s calls) calls' := by
  induction calls generalizing s with
  | nil => rfl
  | cons c rest ih =>
    cases c with
    | add v ts => exact ih _
    | decay ts => exact ih _

/-- `Decay`s one after the other do not raise the score. -/
theorem after_decays_le :
    ∀ {ds : List Time} {s : BucketState}, 0 ≤ s.score → ds.Pairwise (· ≤ ·) →
      (∀ t ∈ ds, s.scoreUpdatedAt ≤ t) → (b.after s (ds.map .decay)).score ≤ s.score := by
  intro ds
  induction ds with
  | nil => exact fun _ _ _ => le_refl _
  | cons t rest ih =>
    intro s hs hord hin
    obtain ⟨ht, hrest⟩ := List.pairwise_cons.mp hord
    have hle : (b.decay s t).newState.score ≤ s.score :=
      b.decayed_le hd hs (hin t List.mem_cons_self)
    have hnn : 0 ≤ (b.decay s t).newState.score := b.decayed_nonneg s t
    calc (b.after s ((t :: rest).map .decay)).score
        = (b.after (b.decay s t).newState (rest.map .decay)).score := rfl
      _ ≤ (b.decay s t).newState.score := ih hnn hrest ht
      _ ≤ s.score := hle

/-- **Of `Decay`s one after the other, the one that takes the score below the closing threshold
reports it**, and no other does. -/
theorem countP_crossedClose :
    ∀ {ds : List Time} {s : BucketState}, 0 ≤ s.score → ds.Pairwise (· ≤ ·) →
      (∀ t ∈ ds, s.scoreUpdatedAt ≤ t) →
      (b.decays s ds).countP (·.crossedClose) =
        if b.closeThreshold ≤ s.score ∧ (b.after s (ds.map .decay)).score < b.closeThreshold
        then 1 else 0 := by
  intro ds
  induction ds with
  | nil =>
    intro s _ _ _
    rw [if_neg (fun h => absurd h.2 (not_lt.mpr h.1))]
    rfl
  | cons t rest ih =>
    intro s hs hord hin
    obtain ⟨ht, hrest⟩ := List.pairwise_cons.mp hord
    have hle : (b.decay s t).newState.score ≤ s.score :=
      b.decayed_le hd hs (hin t List.mem_cons_self)
    have hnn : 0 ≤ (b.decay s t).newState.score := b.decayed_nonneg s t
    have hlast := after_decays_le hd hnn hrest ht
    have hedge : (b.decay s t).crossedClose = true ↔
        b.closeThreshold ≤ s.score ∧ (b.decay s t).newState.score < b.closeThreshold :=
      b.decay_crossedClose
    show (b.decay s t :: b.decays (b.decay s t).newState rest).countP (·.crossedClose) =
      if b.closeThreshold ≤ s.score ∧
        (b.after (b.decay s t).newState (rest.map .decay)).score < b.closeThreshold then 1 else 0
    rw [List.countP_cons, ih hnn hrest ht]
    -- the edge is either behind this call or at it
    rcases le_or_gt b.closeThreshold (b.decay s t).newState.score with h | h
    · have hno : ¬ (b.decay s t).crossedClose = true :=
        fun hc => absurd (hedge.mp hc).2 (not_lt.mpr h)
      simp [h, h.trans hle, hno]
    · simp [hedge, h, not_le.mpr h, hlast.trans_lt h]

/--
**Sweeps are transparent.** A series of `Add`s that are less than 292 years apart returns the same
with `Decay`s between them as without, and leaves the same score at any later instant `T` that is
less than 292 years away. And however far apart the `Add`s are, between two of them one `Decay`
reports the closing edge if the score passes it there, and none otherwise.
-/
theorem sweeps_transparent (s : BucketState) (v : ℚ) (ts : Time) (calls : List BucketCall)
    (hord : InOrder (.add v ts :: calls)) :
    (Spaced ts calls →
      b.adds s (.add v ts :: calls) = b.adds s ((.add v ts :: calls).filter isAdd) ∧
        ∀ T, (∀ c ∈ .add v ts :: calls, c.ts ≤ T) → T - lastAdd ts calls ≤ maxDuration →
          (b.decay (b.after s (.add v ts :: calls)) T).newState.score =
            (b.decay (b.after s ((.add v ts :: calls).filter isAdd)) T).newState.score) ∧
      ∀ pre v₁ t₁ ds v₂ t₂ post,
        .add v ts :: calls = pre ++ .add v₁ t₁ :: (ds.map .decay ++ .add v₂ t₂ :: post) →
        (b.decays (b.after s (pre ++ [.add v₁ t₁])) ds).countP (·.crossedClose) =
          if b.closeThreshold ≤ (b.after s (pre ++ [.add v₁ t₁])).score ∧
            (b.after s (pre ++ .add v₁ t₁ :: ds.map .decay)).score < b.closeThreshold
          then 1 else 0 := by
  constructor
  · intro hsp
    obtain ⟨hfirst, hrest⟩ := List.pairwise_cons.mp hord
    obtain ⟨hadds, hend⟩ := adds_filter hd (Drains.refl (b.add s v ts).newState) hrest hfirst hsp
    rw [List.filter_cons_of_pos rfl]
    refine ⟨congrArg (List.cons (b.add s v ts)) hadds, fun T hT hlong => ?_⟩
    rw [List.forall_mem_cons] at hT
    exact hend T hT.1 hT.2 hlong
  · intro pre v₁ t₁ ds v₂ t₂ post heq
    rw [heq] at hord
    obtain ⟨-, hmid, -⟩ := List.pairwise_append.mp hord
    obtain ⟨hafter, hmid⟩ := List.pairwise_cons.mp hmid
    obtain ⟨hds, -, -⟩ := List.pairwise_append.mp hmid
    rw [List.pairwise_map] at hds
    have hstate : b.after s (pre ++ [.add v₁ t₁]) =
        (b.add (b.after s pre) v₁ t₁).newState := after_append _ _ _
    have hlast : b.after s (pre ++ .add v₁ t₁ :: ds.map .decay) =
        b.after (b.add (b.after s pre) v₁ t₁).newState (ds.map .decay) := after_append _ _ _
    rw [hstate, hlast]
    refine countP_crossedClose hd (b.add_score_nonneg _ _ _) hds ?_
    intro t ht
    exact hafter (.decay t) (List.mem_append_left _ (List.mem_map_of_mem ht))

end LeakyBucket

/-- 365 days. -/
def year : Duration := 365 * 86400 * second

/-- A bucket that loses one point in 30 years, and two findings that are 400 years apart. -/
def slowBucket : LeakyBucket :=
  { openThreshold := 5, closeThreshold := 3, decayPerSecond := 1 / 1000000000 }

/-- With a sweep half-way all of the 400 years drain, without it 292 of them. -/
theorem sweep_of_centuries :
    ¬ ∀ (b : LeakyBucket), 0 ≤ b.decayPerSecond → ∀ (s : BucketState) (calls : List BucketCall),
      BucketCall.InOrder calls →
        b.adds s calls = b.adds s (calls.filter BucketCall.isAdd) := by
  intro h
  have heq := h slowBucket (by decide +kernel) { score := 0, scoreUpdatedAt := 0 }
    [.add 100 0, .decay (200 * year), .add 1 (400 * year)] (by decide +kernel)
  revert heq
  decide +kernel

/-- Two findings of 40 s, with three sweeps between them. -/
def sweptFindings : List BucketCall :=
  [.decay (1010 * second), .decay (1030 * second), .decay (1040 * second),
   .add 4 (1040 * second)]

theorem sweptFindings_transparent :
    startConfig.bucket.adds { score := 0, scoreUpdatedAt := 0 }
        (.add 6 (1000 * second) :: sweptFindings) =
      startConfig.bucket.adds { score := 0, scoreUpdatedAt := 0 }
        [.add 6 (1000 * second), .add 4 (1040 * second)] :=
  ((LeakyBucket.sweeps_transparent (by decide +kernel) { score := 0, scoreUpdatedAt := 0 } 6
    (1000 * second) sweptFindings (by decide +kernel)).1 (by decide +kernel)).1

/-! ## Findings that are older than a sweep -/

namespace LeakyBucket

variable {b : LeakyBucket} (hd : 0 ≤ b.decayPerSecond) {s : BucketState} {ts now : Time}
  (hts : s.scoreUpdatedAt ≤ ts) (hnow : ts ≤ now)

include hd

theorem drained_mono {t u v : Time} (h : u ≤ v) : b.drained t u ≤ b.drained t v := by
  refine mul_le_mul_of_nonneg_left ?_ hd
  exact div_le_div_of_nonneg_right (Int.cast_le.mpr (Time.sub_mono h)) (by norm_num)

include hts hnow

/-- What drains until the sweep is at most what drains until the finding and from there on. -/
theorem drained_le_drained_sub :
    b.drained s.scoreUpdatedAt now ≤ b.drained s.scoreUpdatedAt ts + -b.drained now ts := by
  have hsub := Int.cast_le (R := ℚ).mpr (Time.sub_le_sub_sub hts hnow)
  push_cast at hsub
  unfold drained Duration.seconds
  rw [← mul_neg, ← mul_add]
  refine mul_le_mul_of_nonneg_left ?_ hd
  linarith

omit hd in
/-- It is the same exactly if nothing drains at all, or no time passes between the two, or the time
until the sweep is a duration. -/
theorem drained_eq_drained_sub_iff :
    b.drained s.scoreUpdatedAt now = b.drained s.scoreUpdatedAt ts + -b.drained now ts ↔
      b.decayPerSecond = 0 ∨ ts = now ∨ now - s.scoreUpdatedAt ≤ maxDuration := by
  rw [← Time.sub_eq_sub_sub_iff hts hnow]
  unfold drained Duration.seconds
  rw [← mul_neg, ← mul_add, mul_eq_mul_left_iff, or_comm]
  refine or_congr_right ?_
  rw [← Int.cast_inj (α := ℚ)]
  push_cast
  constructor <;> intro h <;> linarith

omit hd hts hnow in
/-- Nothing drains between two instants exactly if nothing ever does, or they are the same. -/
theorem drained_eq_zero_iff {t u : Time} : b.drained t u = 0 ↔ b.decayPerSecond = 0 ∨ u = t := by
  unfold drained Duration.seconds
  refine mul_eq_zero.trans (or_congr_right ?_)
  rw [div_eq_zero_iff, Int.cast_eq_zero, Time.sub_eq_zero]
  simp

omit hd hts hnow in
/--
A finding that is older than the sweep commutes with it: at `T` the score is the same as without the
sweep, and at its own instant the finding adds no more than its severity.
-/
structure LateCommutes (b : LeakyBucket) (s : BucketState) (v : ℚ) (ts now T : Time) : Prop where
  score : (b.decay (b.add (b.decay s now).newState v ts).newState T).newState.score =
    (b.decay (b.add s v ts).newState T).newState.score
  atMost : (b.add (b.decay s now).newState v ts).newState.score ≤
    (b.decay s ts).newState.score + |v|

/-- **A late finding commutes with a sweep** exactly if nothing drains between the two, or the
bucket has not run empty when it is swept. -/
theorem late_add_iff (v : ℚ) (T : Time) :
    b.LateCommutes s v ts now T ↔
      b.decayPerSecond = 0 ∨ ts = now ∨
        now - s.scoreUpdatedAt ≤ maxDuration ∧ b.drained s.scoreUpdatedAt now ≤ s.score := by
  have hmono := drained_mono (t := s.scoreUpdatedAt) hd hnow
  have hsum := drained_le_drained_sub hd hts hnow
  -- the score of the late finding, as a leak that is given back
  have hswept : (b.add (b.decay s now).newState v ts).newState.score =
      leak (leak s.score (b.drained s.scoreUpdatedAt now)) (- -b.drained now ts) + |v| := by
    rw [neg_neg]
    rfl
  have hplain : (b.add s v ts).newState.score =
      leak s.score (b.drained s.scoreUpdatedAt ts) + |v| := rfl
  have hiff : (b.add (b.decay s now).newState v ts).newState.score ≤
      (b.decay s ts).newState.score + |v| ↔
        b.decayPerSecond = 0 ∨ ts = now ∨
          now - s.scoreUpdatedAt ≤ maxDuration ∧ b.drained s.scoreUpdatedAt now ≤ s.score := by
    show _ ≤ (b.add s v ts).newState.score ↔ _
    rw [hswept, hplain, add_le_add_iff_right, leak_unleak_le_iff hmono hsum, neg_eq_zero,
      drained_eq_zero_iff, drained_eq_drained_sub_iff hts hnow]
    tauto
  refine ⟨fun h => hiff.mp h.atMost, fun h => ⟨?_, hiff.mpr h⟩⟩
  -- the late score is never less, so it is the same
  have hle : (b.add (b.decay s now).newState v ts).newState.score ≤
      (b.add s v ts).newState.score := hiff.mpr h
  have hge : (b.add s v ts).newState.score ≤
      (b.add (b.decay s now).newState v ts).newState.score := by
    rw [hswept, hplain]
    linarith [leak_le_unleak (x := s.score) hmono hsum]
  show b.decayed (b.add (b.decay s now).newState v ts).newState T =
    b.decayed (b.add s v ts).newState T
  unfold decayed
  rw [le_antisymm hle hge]
  rfl

end LeakyBucket

/-- A finding of 1000 s meets a bucket that has been empty for a minute when it is swept, and is
applied after that: it counts for 10 points at its instant instead of 4, and for 4 instead of none a
minute later. -/
theorem late_finding_counts_more :
    ¬ ∀ (b : LeakyBucket), 0 ≤ b.decayPerSecond → ∀ (s : BucketState), 0 ≤ s.score →
      ∀ (v : ℚ) (ts now T : Time), s.scoreUpdatedAt ≤ ts → ts ≤ now → now ≤ T →
        b.LateCommutes s v ts now T := by
  intro h
  have hlate := h startConfig.bucket (by decide +kernel)
    { score := 0, scoreUpdatedAt := 1000 * second } (by decide +kernel) 4 (1000 * second)
    (1060 * second) (1060 * second) (by decide +kernel) (by decide +kernel) (by decide +kernel)
  have hscore := hlate.score
  revert hscore
  decide +kernel

/-- A bucket that has not run empty gives back what it had. -/
theorem late_finding_of_full_bucket :
    startConfig.bucket.LateCommutes { score := 8, scoreUpdatedAt := 1000 * second } 4
      (1000 * second) (1060 * second) (1090 * second) :=
  (LeakyBucket.late_add_iff (by decide +kernel) (by decide +kernel) (by decide +kernel) 4
    (1090 * second)).mpr (.inr (.inr (by decide +kernel)))

end Cepheus.Argus
