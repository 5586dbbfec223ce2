import Cepheus.TraceProcessor.Fingerprint
import Cepheus.TraceProcessor.Properties.Links

/-!
# What the hash of the links tells

A link is extracted once for every probe that saw it, and the hash is computed from all of them. It
does not depend on any order, but on how many probes saw each link, which is not a property of the
path: how often scamper repeats a probe depends on the answers that it gets.

* `linkPathHash_of_card_eq` - links that were seen by as many probes give the same hash
* `linkPathHash_eq_iff` - and, but for a collision, no others do
-/

namespace Cepheus.TraceProcessor

open Infra

variable {rt rt' : Runtime} {payload payload' : TraceDataTracePayload}

/-- The probes that saw a link between the two addresses. -/
def seenBy (links : List TraceLink) (pair : String × String) : Finset Int :=
  ((links.filter fun link => link.ends = some pair).map TraceLink.probeID).toFinset

/-- The same links between addresses that answered. -/
def SameLinks (links links' : List TraceLink) : Prop :=
  ∀ pair, (∃ link ∈ links, link.ends = some pair) ↔ ∃ link ∈ links', link.ends = some pair

/-! ## Counting -/

theorem Step.addr_of_ends {step : Step} {pair : String × String}
    (h : step.link.ends = some pair) : (step.src.addr, step.dst.addr) = pair := by
  cases hs : step.src.isTimeout <;> cases hd : step.dst.isTimeout <;>
    simp [TraceLink.ends, Step.link, ParsedHop.ip, hs, hd] at h
  exact h

/-- A probe has at most one link between two addresses. -/
theorem extractLinks_pairwise (rt : Runtime) (payload : TraceDataTracePayload)
    (pair : String × String) :
    (extractLinks rt payload).Pairwise fun a b =>
      a.ends = some pair → b.ends = some pair → a.probeID ≠ b.probeID := by
  rw [extractLinks_eq, List.pairwise_flatMap]
  constructor
  · intro p _
    refine List.pairwise_map.mpr ((firsts_pairwise ∅ _).imp_of_mem ?_)
    intro a b ha hb hkey hea heb hid
    have haddr := (Step.addr_of_ends hea).trans (Step.addr_of_ends heb).symm
    obtain ⟨hsrc, hdst⟩ := Prod.mk.inj haddr
    refine hkey ?_
    rw [Step.key, Step.key, hsrc, hdst, show a.probeID = b.probeID from hid]
  · refine (rt.linkRange.nodup _).imp ?_
    intro p q hpq a ha b hb _ _ hid
    exact hpq (by rw [← probeID_of_mem_linksOf ha, ← probeID_of_mem_linksOf hb, hid])

/-- The pair is hashed once for every probe that saw it. -/
theorem count_ends (rt : Runtime) (payload : TraceDataTracePayload) (pair : String × String) :
    ((extractLinks rt payload).filterMap TraceLink.ends).count pair =
      (seenBy (extractLinks rt payload) pair).card := by
  have hnodup : (((extractLinks rt payload).filter fun link => link.ends = some pair).map
      TraceLink.probeID).Nodup := by
    refine List.pairwise_map.mpr (List.Pairwise.imp_of_mem ?_
      ((extractLinks_pairwise rt payload pair).filter _))
    intro a b ha hb hne
    exact hne (of_decide_eq_true (List.mem_filter.mp ha).2)
      (of_decide_eq_true (List.mem_filter.mp hb).2)
  rw [seenBy, List.toFinset_card_of_nodup hnodup, List.length_map, List.count_filterMap,
    List.countP_eq_length_filter]
  refine congrArg List.length (List.filter_congr fun link _ => ?_)
  simp [beq_eq_decide]

/-! ## Texts -/

theorem linkText_of_perm {links links' : List TraceLink}
    (h : (links.filterMap TraceLink.ends).Perm (links'.filterMap TraceLink.ends)) :
    linkText links = linkText links' := by
  have hpairs : (ipPairs links).Perm (ipPairs links') := h.map pairText
  rw [linkText, linkText, insertionSort_eq_of_perm hpairs]

/-- **Links that were seen by as many probes give the same hash**, in whatever order they are. -/
theorem linkPathHash_of_card_eq
    (h : ∀ pair, (seenBy (extractLinks rt payload) pair).card =
      (seenBy (extractLinks rt' payload') pair).card) :
    linkPathHash rt payload = linkPathHash rt' payload' := by
  have hperm : ((extractLinks rt payload).filterMap TraceLink.ends).Perm
      ((extractLinks rt' payload').filterMap TraceLink.ends) := by
    refine List.perm_iff_count.mpr fun pair => ?_
    rw [count_ends, count_ends, h]
  rw [linkPathHash, linkPathHash, linkText_of_perm hperm]

/-- An address without the letters that separate them. -/
structure PlainAddr (addr : String) : Prop where
  noComma : ',' ∉ addr.toList
  noArrow : ¬ ['-', '>'] <:+: addr.toList

/-- The addresses are plain. -/
def TraceDataTracePayload.Plain (payload : TraceDataTracePayload) : Prop :=
  ∀ hop ∈ payload.hops, PlainAddr hop.addr

theorem TraceDataTracePayload.Plain.parsed (h : payload.Plain) :
    ∀ hop ∈ payload.parsed, PlainAddr hop.addr := by
  refine forall_mem_parsed.mpr ⟨h, ?_⟩
  intro hop _
  exact ⟨by simp [NoHop.parsed], by simp [NoHop.parsed]⟩

/-- Two plain addresses. -/
def plainPairs : Set (String × String) := {pair | PlainAddr pair.1 ∧ PlainAddr pair.2}

theorem TraceDataTracePayload.Plain.ends (h : payload.Plain) {pair : String × String}
    (hmem : pair ∈ (extractLinks rt payload).filterMap TraceLink.ends) : pair ∈ plainPairs := by
  obtain ⟨link, hlink, hends⟩ := List.mem_filterMap.mp hmem
  rw [extractLinks_eq] at hlink
  obtain ⟨p, -, hlink⟩ := List.mem_flatMap.mp hlink
  obtain ⟨step, hstep, rfl⟩ := List.mem_map.mp hlink
  obtain ⟨hsrc, hdst⟩ := mem_parsed_of_mem_steps (mem_of_mem_firsts hstep)
  rw [← Step.addr_of_ends hends]
  exact ⟨h.parsed _ hsrc, h.parsed _ hdst⟩

theorem toList_pairText (pair : String × String) :
    (pairText pair).toList = pair.1.toList ++ '-' :: '>' :: pair.2.toList := by
  have harrow : "->".toList = ['-', '>'] := rfl
  simp [pairText, harrow]

theorem pairText_injOn : plainPairs.InjOn pairText := by
  intro a ha b hb heq
  have hlist := congrArg String.toList heq
  rw [toList_pairText, toList_pairText] at hlist
  obtain ⟨hsrc, hdst⟩ := append_pair_inj (by decide) ha.1.noArrow hb.1.noArrow hlist
  exact Prod.ext (String.toList_inj.mp hsrc) (String.toList_inj.mp hdst)

theorem pairText_plain {pair : String × String} (h : pair ∈ plainPairs) :
    pairText pair ≠ "" ∧ ',' ∉ (pairText pair).toList := by
  constructor
  · intro hempty
    have hlist := congrArg String.toList hempty
    simp [toList_pairText] at hlist
  · rw [toList_pairText]
    simp [h.1.noComma, h.2.noComma]

/-- The text of some pairs, which is what is hashed of the links between them. -/
def pairsText (pairs : List (String × String)) : String :=
  ",".intercalate ((pairs.map pairText).insertionSort (· ≤ ·))

theorem linkText_eq (links : List TraceLink) :
    linkText links = pairsText (links.filterMap TraceLink.ends) := rfl

/-- **The text tells which pairs there are, and how many.** -/
theorem perm_of_pairsText {pairs pairs' : List (String × String)}
    (h : ∀ pair ∈ pairs, pair ∈ plainPairs) (h' : ∀ pair ∈ pairs', pair ∈ plainPairs)
    (htext : pairsText pairs = pairsText pairs') : pairs.Perm pairs' := by
  have hsep : ∀ {pairs : List (String × String)}, (∀ pair ∈ pairs, pair ∈ plainPairs) →
      ∀ s ∈ (pairs.map pairText).insertionSort (· ≤ ·), s ≠ "" ∧ ',' ∉ s.toList := by
    intro pairs h s hs
    obtain ⟨pair, hpair, rfl⟩ := List.mem_map.mp ((List.perm_insertionSort _ _).mem_iff.mp hs)
    exact pairText_plain (h pair hpair)
  have hsorted : (pairs.map pairText).insertionSort (· ≤ ·) =
      (pairs'.map pairText).insertionSort (· ≤ ·) :=
    intercalate_inj (hsep h) (hsep h') htext
  have hpairs : (pairs.map pairText).Perm (pairs'.map pairText) := by
    refine (List.perm_insertionSort (· ≤ ·) (pairs.map pairText)).symm.trans ?_
    rw [hsorted]
    exact List.perm_insertionSort _ _
  exact perm_of_perm_map pairText_injOn h h' hpairs

/-- Different texts with the same fingerprint. -/
def Collide (text text' : String) : Prop := text ≠ text' ∧ fingerprint text = fingerprint text'

/--
**What the hash of the links tells.** For traces whose addresses are plain, in whatever order their
hops are: the hashes are the same if and only if every link was seen by as many probes of the one
trace as of the other, or two different texts collide.
-/
theorem linkPathHash_eq_iff (rt rt' : Runtime) {payload payload' : TraceDataTracePayload}
    (h : payload.Plain) (h' : payload'.Plain) :
    linkPathHash rt payload = linkPathHash rt' payload' ↔
      (∀ pair, (seenBy (extractLinks rt payload) pair).card =
        (seenBy (extractLinks rt' payload') pair).card) ∨
      Collide (linkText (extractLinks rt payload)) (linkText (extractLinks rt' payload')) := by
  constructor
  · intro hhash
    by_cases htext :
        linkText (extractLinks rt payload) = linkText (extractLinks rt' payload')
    · left
      intro pair
      rw [linkText_eq, linkText_eq] at htext
      have hperm := perm_of_pairsText (fun _ => h.ends) (fun _ => h'.ends) htext
      rw [← count_ends, ← count_ends, List.perm_iff_count.mp hperm]
    · exact .inr ⟨htext, hhash⟩
  · rintro (hcard | hcollide)
    · exact linkPathHash_of_card_eq hcard
    · exact hcollide.2

/-- A hop that answers to probe `probeID`. -/
def answer (addr : String) (probeTTL probeID : Int) : Hop where
  addr := addr
  probeTTL := probeTTL
  probeID := probeID
  rtt := probeTTL
  replyTTL := 64
  icmpType := 11
  icmpCode := 0

/-- Two routers, which answer to a single probe. -/
def seenOnce (probeID : Int) : TraceDataTracePayload where
  hops := [answer "10.0.0.1" 1 probeID, answer "10.0.0.2" 2 probeID]
  noHops := []

/-- The same two routers, which answer to two probes. -/
def seenTwice : TraceDataTracePayload where
  hops := (seenOnce 1).hops ++ (seenOnce 2).hops
  noHops := []

/-- The link that the probe sees. -/
def onlyLink (probeID : Int) : TraceLink where
  probeID := probeID
  srcIP := some "10.0.0.1"
  dstIP := some "10.0.0.2"
  ttlGap := 1
  isSrcRespond := true
  isDstRespond := true
  diffRTT := some 1

/-- **The hash changes although the path does not.** -/
theorem seenTwice_other_hash :
    SameLinks (extractLinks .ascending (seenOnce 1)) (extractLinks .ascending seenTwice) ∧
      linkPathHash .ascending (seenOnce 1) = "4e1c6713bb8084d2" ∧
      linkPathHash .ascending seenTwice = "3309d70432ea0bdc" := by
  have honce : extractLinks .ascending (seenOnce 1) = [onlyLink 1] := by decide +kernel
  have htwice : extractLinks .ascending seenTwice = [onlyLink 1, onlyLink 2] := by decide +kernel
  refine ⟨?_, by decide +kernel, by decide +kernel⟩
  intro pair
  rw [honce, htwice]
  simp [onlyLink, TraceLink.ends]

theorem seenOnce_plain (probeID : Int) : (seenOnce probeID).Plain := by
  have hsrc : PlainAddr "10.0.0.1" := ⟨by decide, by decide⟩
  have hdst : PlainAddr "10.0.0.2" := ⟨by decide, by decide⟩
  intro hop hmem
  rcases List.mem_pair.mp hmem with rfl | rfl
  · exact hsrc
  · exact hdst

/-- It does not matter which probe it is. -/
theorem seenOnce_same_hash :
    linkPathHash .ascending (seenOnce 1) = linkPathHash .ascending (seenOnce 7) := by
  have hone : extractLinks .ascending (seenOnce 1) = [onlyLink 1] := by decide +kernel
  have hseven : extractLinks .ascending (seenOnce 7) = [onlyLink 7] := by decide +kernel
  refine (linkPathHash_eq_iff .ascending .ascending (seenOnce_plain 1) (seenOnce_plain 7)).mpr
    (.inl fun pair => ?_)
  rw [hone, hseven]
  by_cases hpair : (onlyLink 1).ends = some pair
  · have hpair' : (onlyLink 7).ends = some pair := hpair
    simp [seenBy, hpair, hpair']
  · have hpair' : ¬ (onlyLink 7).ends = some pair := hpair
    simp [seenBy, hpair, hpair']

end Cepheus.TraceProcessor
