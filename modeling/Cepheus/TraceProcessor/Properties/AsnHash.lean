import Mathlib.Data.List.Destutter
import Cepheus.TraceProcessor.Process
import Cepheus.TraceProcessor.Properties.LinkHash

/-!
# What the hash of the autonomous systems tells

The text that is hashed tells which numbers there are and in which order (`asnText_inj`), and the
numbers are the known ones of the hops, without repetitions of the one before (`uniqueASNs_eq`). But
they come in the order in which the report lists the hops, and not in the order of the TTLs, as the
links do. So the hash depends on the listing unless there is only one system
(`asn_path_told_iff`).
-/

namespace Cepheus.TraceProcessor

open Infra

/-! ## Texts -/

/-- The text of a number. -/
def asnLetters (asn : Int) : List Char := ':' :: 'A' :: 'S' :: (toString asn).toList

theorem toList_asnText (asns : List Int) : (asnText asns).toList = asns.flatMap asnLetters := by
  have hfold : ∀ (asns : List Int) (text : String),
      (asns.foldl (fun text asn => text ++ (":AS" ++ toString asn)) text).toList =
        text.toList ++ asns.flatMap asnLetters := by
    intro asns
    induction asns with
    | nil => simp
    | cons asn asns ih =>
      intro text
      have hletters : (":AS" ++ toString asn).toList = asnLetters asn := by
        rw [String.toList_append]
        rfl
      rw [List.foldl_cons, ih, String.toList_append, hletters, List.flatMap_cons,
        List.append_assoc]
  exact hfold asns ""

theorem head?_flatMap_asnLetters (asns : List Int) :
    ∀ x ∈ (asns.flatMap asnLetters).head?, x = ':' := by
  cases asns with
  | nil => simp
  | cons asn asns => simp [asnLetters]

/-- A number ends where the next colon is. -/
theorem flatMap_asnLetters_inj : ∀ {asns asns' : List Int},
    asns.flatMap asnLetters = asns'.flatMap asnLetters → asns = asns'
  | [], [], _ => rfl
  | [], _ :: _, h => by simp [asnLetters] at h
  | _ :: _, [], h => by simp [asnLetters] at h
  | asn :: asns, asn' :: asns', h => by
    simp only [List.flatMap_cons, asnLetters, List.cons_append, List.cons.injEq, true_and] at h
    obtain ⟨hasn, hrest⟩ := append_inj_of_head (colon_notMem_toString asn)
      (colon_notMem_toString asn') (head?_flatMap_asnLetters asns)
      (head?_flatMap_asnLetters asns') h
    have hnumber := String.toList_inj.mp hasn
    rw [Int.toString_eq_repr, Int.toString_eq_repr] at hnumber
    rw [Int.repr_injective hnumber, flatMap_asnLetters_inj hrest]

/-- **The text tells which numbers there are, and in which order.** -/
theorem asnText_inj {asns asns' : List Int} (h : asnText asns = asnText asns') : asns = asns' := by
  have hlist := congrArg String.toList h
  rw [toList_asnText, toList_asnText] at hlist
  exact flatMap_asnLetters_inj hlist

/-- But for a collision, texts have the same fingerprint only if they are the same. -/
theorem eq_or_collide {text text' : String} (h : fingerprint text = fingerprint text') :
    text = text' ∨ Collide text text' := by
  by_cases htext : text = text'
  · exact .inl htext
  · exact .inr ⟨htext, h⟩

/-- **What is hashed tells the path.** For the numbers in their order, and for the pairs of plain
addresses with their multiplicities: different ones have different texts, and so the same
fingerprint only by a collision. -/
theorem preimages_tell_paths :
    (∀ asns asns' : List Int, asnText asns = asnText asns' → asns = asns') ∧
      (∀ pairs pairs' : List (String × String), (∀ pair ∈ pairs, pair ∈ plainPairs) →
        (∀ pair ∈ pairs', pair ∈ plainPairs) → pairsText pairs = pairsText pairs' →
          (pairs : Multiset (String × String)) = pairs') ∧
      (∀ asns asns' : List Int, fingerprint (asnText asns) = fingerprint (asnText asns') →
        asns = asns' ∨ Collide (asnText asns) (asnText asns')) ∧
      ∀ pairs pairs' : List (String × String), (∀ pair ∈ pairs, pair ∈ plainPairs) →
        (∀ pair ∈ pairs', pair ∈ plainPairs) →
          fingerprint (pairsText pairs) = fingerprint (pairsText pairs') →
            (pairs : Multiset (String × String)) = pairs' ∨
              Collide (pairsText pairs) (pairsText pairs') := by
  refine ⟨fun _ _ => asnText_inj, fun _ _ h h' htext => ?_, fun _ _ hhash => ?_,
    fun _ _ h h' hhash => ?_⟩
  · exact Multiset.coe_eq_coe.mpr (perm_of_pairsText h h' htext)
  · exact (eq_or_collide hhash).imp_left asnText_inj
  · refine (eq_or_collide hhash).imp_left fun htext => ?_
    exact Multiset.coe_eq_coe.mpr (perm_of_pairsText h h' htext)

/-! ## The loop -/

/-- The number that the table has for an address, if it is known and not zero. -/
def knownASN (entry : Option (Option Int)) : Option Int :=
  (entry.join).filter fun asn => asn ≠ 0

theorem visitASN_of_unknown {entry : Option (Option Int)} (h : knownASN entry = none)
    (asns : List Int) : visitASN asns entry = asns := by
  match entry with
  | none => rfl
  | some none => simp [visitASN, keepASN]
  | some (some asn) =>
    have hzero : asn = 0 := by simpa [knownASN] using h
    simp [visitASN, keepASN, hzero]

theorem visitASN_of_known {entry : Option (Option Int)} {asn : Int} (h : knownASN entry = some asn)
    (asns : List Int) : visitASN asns entry = keepASN asns asn ∧ asn ≠ 0 := by
  match entry with
  | some (some asn') =>
    simp only [knownASN, Option.join_some, Option.filter_eq_some_iff, Option.some.injEq,
      decide_eq_true_eq] at h
    obtain ⟨rfl, hne⟩ := h
    exact ⟨rfl, hne⟩

/-- The loop keeps a number unless it has just kept it. -/
theorem foldl_visitASN (fetched : List (Option (Option Int))) (asns : List Int) (last : Int) :
    fetched.foldl visitASN (asns ++ [last]) =
      asns ++ (fetched.filterMap knownASN).destutter' (· ≠ ·) last := by
  induction fetched generalizing asns last with
  | nil => rfl
  | cons entry fetched ih =>
    rw [List.foldl_cons]
    cases hentry : knownASN entry with
    | none => rw [visitASN_of_unknown hentry, ih, List.filterMap_cons_none hentry]
    | some asn =>
      obtain ⟨hvisit, hne⟩ := visitASN_of_known hentry (asns ++ [last])
      rw [hvisit, List.filterMap_cons_some hentry]
      by_cases hlast : last = asn
      · have hkeep : keepASN (asns ++ [last]) asn = asns ++ [last] := by simp [keepASN, hlast]
        rw [hkeep, ih, List.destutter'_cons_neg _ (by simpa using hlast)]
      · have hkeep : keepASN (asns ++ [last]) asn = (asns ++ [last]) ++ [asn] := by
          simp [keepASN, hlast, hne]
        rw [hkeep, ih, List.destutter'_cons_pos _ (by simpa using hlast), List.append_assoc,
          List.singleton_append]

/-- **The numbers that are hashed** are the known ones in the order of the hops, without those that
repeat the one before. -/
theorem uniqueASNs_eq (fetched : List (Option (Option Int))) :
    uniqueASNs fetched = (fetched.filterMap knownASN).destutter (· ≠ ·) := by
  unfold uniqueASNs
  induction fetched with
  | nil => rfl
  | cons entry fetched ih =>
    rw [List.foldl_cons]
    cases hentry : knownASN entry with
    | none => rw [visitASN_of_unknown hentry, ih, List.filterMap_cons_none hentry]
    | some asn =>
      obtain ⟨hvisit, hne⟩ := visitASN_of_known hentry []
      have hkeep : keepASN [] asn = [] ++ [asn] := by simp [keepASN, hne]
      rw [hvisit, hkeep, foldl_visitASN, List.filterMap_cons_some hentry, List.nil_append,
        List.destutter_cons']

/-! ## The order of the hops -/

section

variable {A : Type} [DecidableEq A] (netip : Netip A) (asnMap : Table A (Option Int))

/-- The address of a hop, if it has one. -/
def Hop.address (hop : Hop) : Option A :=
  if hop.addr = "" then none else netip.parseAddr hop.addr

/-- The known number of a hop. -/
def Hop.asn (hop : Hop) : Option Int := knownASN (fetchASN asnMap (hop.address netip))

/-- The numbers that are hashed for some hops. -/
def asnSequence (hops : List Hop) : List Int :=
  uniqueASNs (hops.map fun hop => fetchASN asnMap (hop.address netip))

/-- The hash for some hops. -/
def hopsHash (hops : List Hop) : String := fingerprint (asnText (asnSequence netip asnMap hops))

theorem asnSequence_eq (hops : List Hop) :
    asnSequence netip asnMap hops =
      (hops.filterMap (Hop.asn netip asnMap)).destutter (· ≠ ·) := by
  rw [asnSequence, uniqueASNs_eq, List.filterMap_map]
  rfl

/-- The numbers in the order of the TTLs. Hops with the same TTL may come in any order. -/
def IsReference (hops : List Hop) (asns : List Int) : Prop :=
  ∃ sorted : List Hop, sorted.Perm hops ∧ sorted.Pairwise (fun a b => a.probeTTL ≤ b.probeTTL) ∧
    asns = (sorted.filterMap (Hop.asn netip asnMap)).destutter (· ≠ ·)

/-- The known numbers of the hops are all the same. -/
def OneSystem (hops : List Hop) : Prop :=
  ∀ asn ∈ hops.filterMap (Hop.asn netip asnMap), ∀ asn' ∈ hops.filterMap (Hop.asn netip asnMap),
    asn = asn'

variable {netip asnMap}

/-- Hops that are listed in the order of their TTLs give the numbers in that order. -/
theorem isReference_of_ascending {hops : List Hop}
    (h : hops.Pairwise fun a b => a.probeTTL ≤ b.probeTTL) :
    IsReference netip asnMap hops (asnSequence netip asnMap hops) :=
  ⟨hops, .refl _, h, asnSequence_eq netip asnMap hops⟩

theorem OneSystem.filterMap_eq {hops hops' : List Hop} (h : OneSystem netip asnMap hops)
    (hperm : hops'.Perm hops) :
    hops'.filterMap (Hop.asn netip asnMap) = hops.filterMap (Hop.asn netip asnMap) := by
  have hknown := hperm.filterMap (Hop.asn netip asnMap)
  cases hasns : hops.filterMap (Hop.asn netip asnMap) with
  | nil =>
    rw [hasns] at hknown
    exact hknown.eq_nil
  | cons asn asns =>
    have hall : hops.filterMap (Hop.asn netip asnMap) = List.replicate (asns.length + 1) asn := by
      refine List.eq_replicate_iff.mpr ⟨by rw [hasns, List.length_cons], fun b hb => ?_⟩
      exact h b hb asn (hasns ▸ List.mem_cons_self)
    rw [hall] at hknown
    rw [← hasns, hall]
    exact List.perm_replicate.mp hknown

/-- A hop with a known number that is listed first comes first in what is hashed. -/
theorem head?_asnSequence {hop : Hop} {hops : List Hop} {asn : Int}
    (h : hop.asn netip asnMap = some asn) :
    (asnSequence netip asnMap (hop :: hops)).head? = some asn := by
  have hhead : ∀ (asns : List Int) (first : Int),
      (asns.destutter' (· ≠ ·) first).head? = some first := by
    intro asns
    induction asns with
    | nil => exact fun _ => rfl
    | cons asn asns ih =>
      intro first
      rw [List.destutter'_cons]
      split
      · rfl
      · exact ih first
  rw [asnSequence_eq, List.filterMap_cons_some h, List.destutter_cons']
  exact hhead _ _

/-- **The hash tells the path whatever the order of the hops**, other than by a collision, if and
only if all the known numbers are the same. -/
theorem asn_path_told_iff (netip : Netip A) (asnMap : Table A (Option Int)) (hops : List Hop) :
    (IsReference netip asnMap hops (asnSequence netip asnMap hops) ∧
      ∀ hops' : List Hop, hops'.Perm hops →
        hopsHash netip asnMap hops' = hopsHash netip asnMap hops ∧
          ¬ Collide (asnText (asnSequence netip asnMap hops'))
            (asnText (asnSequence netip asnMap hops))) ↔
      OneSystem netip asnMap hops := by
  constructor
  · rintro ⟨-, hstable⟩
    have hsequence : ∀ hops' : List Hop, hops'.Perm hops →
        asnSequence netip asnMap hops' = asnSequence netip asnMap hops := by
      intro hops' hperm
      obtain ⟨hhash, hcollide⟩ := hstable hops' hperm
      exact asnText_inj ((eq_or_collide hhash).resolve_right hcollide)
    intro asn hasn asn' hasn'
    obtain ⟨hop, hmem, hknown⟩ := List.mem_filterMap.mp hasn
    obtain ⟨hop', hmem', hknown'⟩ := List.mem_filterMap.mp hasn'
    -- either of the two hops may be listed first
    have hfirst := hsequence _ (List.perm_cons_erase hmem).symm
    have hfirst' := hsequence _ (List.perm_cons_erase hmem').symm
    have heq := congrArg List.head? (hfirst.trans hfirst'.symm)
    rw [head?_asnSequence hknown, head?_asnSequence hknown'] at heq
    exact Option.some.inj heq
  · intro hone
    have hsequence : ∀ hops' : List Hop, hops'.Perm hops →
        asnSequence netip asnMap hops' = asnSequence netip asnMap hops := by
      intro hops' hperm
      rw [asnSequence_eq, asnSequence_eq, hone.filterMap_eq hperm]
    refine ⟨?_, fun hops' hperm => ?_⟩
    · have hsort := (Sorter.insertion Hop.probeTTL).perm hops
      refine ⟨_, hsort, (Sorter.insertion Hop.probeTTL).sorted hops, ?_⟩
      rw [asnSequence_eq, hone.filterMap_eq hsort]
    · rw [hopsHash, hopsHash, hsequence hops' hperm]
      exact ⟨rfl, fun hcollide => hcollide.1 rfl⟩

end

/-! Two routers of different systems. -/

def router (d : Fin 256) : Netip.V4 := ⟨10, 0, 0, d⟩

def twoSystems : Table Netip.V4 (Option Int) :=
  (Finmap.insert (router 1) (some 64500) ∅).insert (router 2) (some 64501)

/-- The farther one is listed first. -/
def fartherFirst : List Hop := [answer "10.0.0.2" 2 1, answer "10.0.0.1" 1 1]

/-- The order of the list is hashed, not the order of the TTLs. -/
theorem fartherFirst_other_hash :
    asnSequence .v4 twoSystems fartherFirst = [64501, 64500] ∧
      asnSequence .v4 twoSystems fartherFirst.reverse = [64500, 64501] ∧
      hopsHash .v4 twoSystems fartherFirst = "9d2e5e3d87a1d7c4" ∧
      hopsHash .v4 twoSystems fartherFirst.reverse = "1b61a52cdfcea737" ∧
      ¬ IsReference .v4 twoSystems fartherFirst (asnSequence .v4 twoSystems fartherFirst) := by
  have hsequence : asnSequence .v4 twoSystems fartherFirst = [64501, 64500] := by decide +kernel
  refine ⟨hsequence, by decide +kernel, by decide +kernel, by decide +kernel, ?_⟩
  rintro ⟨sorted, hperm, hascending, heq⟩
  have hall : ∀ sorted ∈ fartherFirst.permutations',
      sorted.Pairwise (fun a b => a.probeTTL ≤ b.probeTTL) →
        (sorted.filterMap (Hop.asn .v4 twoSystems)).destutter (· ≠ ·) = [64500, 64501] := by
    decide +kernel
  rw [hsequence, hall sorted (List.mem_permutations'.mpr hperm) hascending] at heq
  revert heq
  decide

end Cepheus.TraceProcessor
