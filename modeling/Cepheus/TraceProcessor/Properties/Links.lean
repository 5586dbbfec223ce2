import Cepheus.Infra.Text
import Cepheus.TraceProcessor.ExtractLinks

/-!
# The links of every probe

`extractLinks` goes through the probes in some order, but the links of a probe are found from its
hops alone: the keys of two probes differ. They are the first of the steps with each key on the path
of the probe, which has one hop for each TTL.

* `extractLinks_eq` - the result, probe by probe
* `isPath_path` - what the path of a probe is
* `extractLinks_spec` - the links of a probe, by its path
* `extractLinks_perm` - the order of the report and of the loops does not matter, if a probe has no
  two hops with the same TTL
-/

namespace Cepheus.TraceProcessor

open Infra

variable {rt : Runtime} {payload : TraceDataTracePayload}

/-- The hops are those that answered and those that did not. -/
theorem forall_mem_parsed {P : ParsedHop → Prop} :
    (∀ hop ∈ payload.parsed, P hop) ↔
      (∀ hop ∈ payload.hops, P hop.parsed) ∧ ∀ hop ∈ payload.noHops, P hop.parsed := by
  rw [TraceDataTracePayload.parsed, List.forall_mem_append, List.forall_mem_map,
    List.forall_mem_map]

/-! ## The path of a probe -/

/-- The hops of a probe. -/
def TraceDataTracePayload.ofProbe (payload : TraceDataTracePayload) (p : Int) : List ParsedHop :=
  payload.parsed.filter fun h => h.probeID = p

/-- The hops of a probe after the loops that sort them and keep one for each TTL. -/
def path (rt : Runtime) (payload : TraceDataTracePayload) (p : Int) : List ParsedHop :=
  dedup (rt.sort.slice (payload.ofProbe p))

/-- The hops of the probe in ascending order of their TTL, with one entry for each. -/
structure IsPath (payload : TraceDataTracePayload) (p : Int) (hops : List ParsedHop) : Prop where
  ascending : hops.Pairwise fun a b => a.probeTTL < b.probeTTL
  ofProbe : ∀ h ∈ hops, h ∈ payload.ofProbe p
  everyTTL : ∀ h ∈ payload.ofProbe p, ∃ kept ∈ hops, kept.probeTTL = h.probeTTL

theorem mem_of_mem_dedupAfter {prev h : ParsedHop} {hops : List ParsedHop}
    (hmem : h ∈ dedupAfter prev hops) : h ∈ hops := by
  induction hops generalizing prev with
  | nil => exact hmem
  | cons x hops ih =>
    rw [dedupAfter] at hmem
    split at hmem
    · rcases List.mem_cons.mp hmem with rfl | hmem
      · exact List.mem_cons_self
      · exact List.mem_cons_of_mem _ (ih hmem)
    · exact List.mem_cons_of_mem _ (ih hmem)

/-- What is kept after a hop has a greater TTL, if the hops are sorted. -/
theorem dedupAfter_ascending {prev : ParsedHop} {hops : List ParsedHop}
    (hsorted : (prev :: hops).Pairwise fun a b => a.probeTTL ≤ b.probeTTL) :
    (prev :: dedupAfter prev hops).Pairwise fun a b => a.probeTTL < b.probeTTL := by
  induction hops generalizing prev with
  | nil => exact List.pairwise_singleton _ _
  | cons x hops ih =>
    obtain ⟨hprev, hx⟩ := List.pairwise_cons.mp hsorted
    have hle := hprev x List.mem_cons_self
    obtain ⟨hgt, htail⟩ := List.pairwise_cons.mp (ih hx)
    rw [dedupAfter]
    split
    · rename_i hne
      have hlt : prev.probeTTL < x.probeTTL := lt_of_le_of_ne hle (Ne.symm hne)
      refine .cons (fun h hmem => ?_) (ih hx)
      rcases List.mem_cons.mp hmem with rfl | hmem
      · exact hlt
      · exact hlt.trans (hgt h hmem)
    · exact .cons (fun h hmem => lt_of_le_of_lt hle (hgt h hmem)) htail

/-- No TTL is lost. -/
theorem exists_dedupAfter {prev h : ParsedHop} {hops : List ParsedHop} (hmem : h ∈ prev :: hops) :
    ∃ kept ∈ prev :: dedupAfter prev hops, kept.probeTTL = h.probeTTL := by
  induction hops generalizing prev with
  | nil => exact ⟨h, hmem, rfl⟩
  | cons x hops ih =>
    rcases List.mem_cons.mp hmem with rfl | hmem
    · exact ⟨h, List.mem_cons_self, rfl⟩
    · obtain ⟨kept, hkept, heq⟩ := ih hmem
      rw [dedupAfter]
      split
      · exact ⟨kept, List.mem_cons_of_mem _ hkept, heq⟩
      · rename_i hx
        rcases List.mem_cons.mp hkept with rfl | hkept
        · exact ⟨prev, List.mem_cons_self, by rw [← heq, not_not.mp hx]⟩
        · exact ⟨kept, List.mem_cons_of_mem _ hkept, heq⟩

theorem mem_of_mem_dedup {h : ParsedHop} {hops : List ParsedHop} (hmem : h ∈ dedup hops) :
    h ∈ hops := by
  cases hops with
  | nil => exact hmem
  | cons x hops =>
    rcases List.mem_cons.mp hmem with rfl | hmem
    · exact List.mem_cons_self
    · exact List.mem_cons_of_mem _ (mem_of_mem_dedupAfter hmem)

theorem isPath_path (rt : Runtime) (payload : TraceDataTracePayload) (p : Int) :
    IsPath payload p (path rt payload p) where
  ascending := by
    have hsorted := rt.sort.sorted (payload.ofProbe p)
    unfold path
    cases hs : rt.sort.slice (payload.ofProbe p) with
    | nil => exact .nil
    | cons x hops => exact dedupAfter_ascending (hs ▸ hsorted)
  ofProbe h hmem := (rt.sort.perm _).mem_iff.mp (mem_of_mem_dedup hmem)
  everyTTL h hmem := by
    have hslice := (rt.sort.perm _).mem_iff.mpr hmem
    unfold path
    cases hs : rt.sort.slice (payload.ofProbe p) with
    | nil => simp [hs] at hslice
    | cons x hops => exact exists_dedupAfter (hs ▸ hslice)

theorem getD_lookup_groups (rt : Runtime) (payload : TraceDataTracePayload) (p : Int) :
    (Finmap.lookup p (groups rt payload)).getD [] = path rt payload p := by
  have hgroup := Table.getD_lookup_group ParsedHop.probeID payload.parsed p
  have hnil : dedup (rt.sort.slice []) = [] := by
    rw [(rt.sort.perm []).eq_nil]
    rfl
  unfold groups path TraceDataTracePayload.ofProbe
  rw [Ranging.lookup_rewrite, Ranging.lookup_rewrite, ← hgroup]
  cases Finmap.lookup p (Table.group ParsedHop.probeID payload.parsed) with
  | none => exact hnil.symm
  | some hops => rfl

/-! ## The loop over the links -/

/-- The steps on a path. -/
def steps (p : Int) (hops : List ParsedHop) : List Step :=
  (neighbours hops).map fun pair => ⟨p, pair.1, pair.2⟩

theorem mem_steps {p : Int} {hops : List ParsedHop} {step : Step} :
    step ∈ steps p hops ↔ step.probeID = p ∧ [step.src, step.dst] <:+: hops := by
  rw [← mem_neighbours, steps, List.mem_map]
  constructor
  · rintro ⟨pair, hpair, rfl⟩
    exact ⟨rfl, hpair⟩
  · rintro ⟨rfl, hpair⟩
    exact ⟨_, hpair, rfl⟩

theorem mem_parsed_of_mem_steps {p : Int} {step : Step} (h : step ∈ steps p (path rt payload p)) :
    step.src ∈ payload.parsed ∧ step.dst ∈ payload.parsed := by
  have hin := (mem_steps.mp h).2
  have hmem : ∀ x ∈ path rt payload p, x ∈ payload.parsed := fun x hx =>
    List.mem_of_mem_filter ((isPath_path rt payload p).ofProbe x hx)
  exact ⟨hmem _ (hin.subset (by simp)), hmem _ (hin.subset (by simp))⟩

theorem Scan.probe_eq (p : Int) : ∀ (s : Scan) (hops : List ParsedHop),
    s.probe p hops = (steps p hops).foldl Scan.visit s
  | _, [] => rfl
  | _, [_] => rfl
  | s, src :: dst :: hops => Scan.probe_eq p (s.visit ⟨p, src, dst⟩) (dst :: hops)

/-- A link is added for the first step with each key. -/
theorem Scan.links_foldl_visit (l : List Step) (s : Scan) :
    (l.foldl Scan.visit s).links = s.links ++ (firsts Step.key s.seen l).map Step.link := by
  induction l generalizing s with
  | nil => simp [firsts]
  | cons step l ih =>
    rw [List.foldl_cons, ih, Scan.visit, firsts]
    split
    · rfl
    · simp

/-! ## Keys -/

theorem Step.toList_key (step : Step) :
    step.key.toList = (toString step.probeID).toList ++
      ':' :: (step.src.addr.toList ++ '-' :: '>' :: step.dst.addr.toList) := by
  have hcolon : ":".toList = [':'] := rfl
  have harrow : "->".toList = ['-', '>'] := rfl
  simp [Step.key, hcolon, harrow]

theorem colon_notMem_toString (n : Int) : ':' ∉ (toString n).toList := by
  intro h
  rcases mem_toString_int h with h | h
  · exact absurd h (by decide)
  · exact absurd h (by decide)

/-- The number of the probe is the text up to the first colon. -/
theorem Step.key_split {a b : Step} (h : a.key = b.key) :
    a.probeID = b.probeID ∧
      a.src.addr.toList ++ '-' :: '>' :: a.dst.addr.toList =
        b.src.addr.toList ++ '-' :: '>' :: b.dst.addr.toList := by
  have hlist := congrArg String.toList h
  rw [a.toList_key, b.toList_key] at hlist
  obtain ⟨hid, hrest⟩ :=
    append_cons_inj (colon_notMem_toString _) (colon_notMem_toString _) hlist
  have hid := String.toList_inj.mp hid
  rw [Int.toString_eq_repr, Int.toString_eq_repr] at hid
  exact ⟨Int.repr_injective hid, hrest⟩

/-! ## Probe by probe -/

/-- The links of a probe. -/
def linksOf (rt : Runtime) (payload : TraceDataTracePayload) (p : Int) : List TraceLink :=
  (firsts Step.key ∅ (steps p (path rt payload p))).map Step.link

/-- The probes in the order of the loop over the links. -/
def probes (rt : Runtime) (payload : TraceDataTracePayload) : List Int :=
  rt.linkRange.order (groups rt payload)

theorem mem_probes {p : Int} : p ∈ probes rt payload ↔ ∃ h ∈ payload.parsed, h.probeID = p := by
  rw [probes, Ranging.mem_order, groups, Ranging.mem_keys_rewrite, Ranging.mem_keys_rewrite,
    Table.mem_keys_group]

/-- **The links of a trace are those of its probes.** -/
theorem extractLinks_eq (rt : Runtime) (payload : TraceDataTracePayload) :
    extractLinks rt payload = (probes rt payload).flatMap (linksOf rt payload) := by
  have hkeys : ∀ p q, p ≠ q → ∀ a ∈ steps p (path rt payload p), ∀ b ∈ steps q (path rt payload q),
      a.key ≠ b.key := by
    intro p q hpq a ha b hb hkey
    rw [mem_steps] at ha hb
    exact hpq (by rw [← ha.1, ← hb.1, (Step.key_split hkey).1])
  have hnodup : (probes rt payload).Nodup := rt.linkRange.nodup _
  calc extractLinks rt payload
      = (((probes rt payload).flatMap fun p => steps p (path rt payload p)).foldl Scan.visit
          { seen := ∅, links := [] }).links := by
        rw [List.foldl_flatMap]
        simp only [extractLinks, Scan.probe_eq, getD_lookup_groups, probes]
    _ = (firsts Step.key ∅
          ((probes rt payload).flatMap fun p => steps p (path rt payload p))).map Step.link := by
        rw [Scan.links_foldl_visit, List.nil_append]
    _ = (probes rt payload).flatMap (linksOf rt payload) := by
        rw [firsts_flatMap hnodup _ hkeys, List.map_flatMap]
        rfl

theorem probeID_of_mem_linksOf {p : Int} {link : TraceLink} (h : link ∈ linksOf rt payload p) :
    link.probeID = p := by
  obtain ⟨step, hstep, rfl⟩ := List.mem_map.mp h
  exact (mem_steps.mp (mem_of_mem_firsts hstep)).1

theorem linksOf_of_notMem {p : Int} (h : p ∉ probes rt payload) : linksOf rt payload p = [] := by
  have hnone : payload.ofProbe p = [] := by
    rw [TraceDataTracePayload.ofProbe, List.filter_eq_nil_iff]
    intro x hx hp
    exact h (mem_probes.mpr ⟨x, hx, of_decide_eq_true hp⟩)
  have hpath : path rt payload p = [] := by
    rw [path, hnone, (rt.sort.perm []).eq_nil]
    rfl
  rw [linksOf, hpath]
  rfl

theorem filter_flatMap_linksOf {ps : List Int} (hnodup : ps.Nodup) (p : Int) :
    (ps.flatMap (linksOf rt payload)).filter (fun link => link.probeID = p) =
      if p ∈ ps then linksOf rt payload p else [] := by
  induction ps with
  | nil => rfl
  | cons q ps ih =>
    obtain ⟨hq, hps⟩ := List.nodup_cons.mp hnodup
    rw [List.flatMap_cons, List.filter_append, ih hps]
    by_cases hpq : p = q
    · subst hpq
      have hall : (linksOf rt payload p).filter (fun link => link.probeID = p) =
          linksOf rt payload p := by
        rw [List.filter_eq_self]
        exact fun link hlink => decide_eq_true (probeID_of_mem_linksOf hlink)
      simp [hall, hq]
    · have hnone : (linksOf rt payload q).filter (fun link => link.probeID = p) = [] := by
        rw [List.filter_eq_nil_iff]
        intro link hlink hp
        exact hpq ((of_decide_eq_true hp).symm.trans (probeID_of_mem_linksOf hlink))
      simp [hnone, hpq]

/-- The links with the number of a probe are the ones that were found for it. -/
theorem filter_extractLinks (rt : Runtime) (payload : TraceDataTracePayload) (p : Int) :
    (extractLinks rt payload).filter (fun link => link.probeID = p) = linksOf rt payload p := by
  have hnodup : (probes rt payload).Nodup := rt.linkRange.nodup _
  rw [extractLinks_eq, filter_flatMap_linksOf hnodup]
  split
  · rfl
  · rename_i h
    exact (linksOf_of_notMem h).symm

/-! ## Addresses -/

/-- Every hop that answered has an address, and none with an arrow in it. -/
def TraceDataTracePayload.Addressed (payload : TraceDataTracePayload) : Prop :=
  ∀ hop ∈ payload.hops, hop.addr ≠ "" ∧ ¬ ['-', '>'] <:+: hop.addr.toList

/-- The hops without an address are those that did not answer. -/
structure ParsedHop.Named (hop : ParsedHop) : Prop where
  isTimeout : hop.isTimeout = true ↔ hop.addr = ""
  noArrow : ¬ ['-', '>'] <:+: hop.addr.toList

theorem TraceDataTracePayload.Addressed.named (h : payload.Addressed) :
    ∀ hop ∈ payload.parsed, hop.Named := by
  refine forall_mem_parsed.mpr ⟨?_, ?_⟩
  · intro hop hmem
    obtain ⟨hne, harrow⟩ := h hop hmem
    exact ⟨by simp [Hop.parsed, hne], harrow⟩
  · intro hop _
    exact ⟨by simp [NoHop.parsed], by simp [NoHop.parsed]⟩

theorem ParsedHop.Named.addr_eq_iff {a b : ParsedHop} (ha : a.Named) (hb : b.Named) :
    a.addr = b.addr ↔ a.ip = b.ip := by
  unfold ParsedHop.ip
  by_cases hta : a.isTimeout <;> by_cases htb : b.isTimeout
  · simp [hta, htb, ha.isTimeout.mp hta, hb.isTimeout.mp htb]
  · have hne : b.addr ≠ "" := fun h => htb (hb.isTimeout.mpr h)
    simp [hta, htb, ha.isTimeout.mp hta, hne.symm]
  · have hne : a.addr ≠ "" := fun h => hta (ha.isTimeout.mpr h)
    simp [hta, htb, hb.isTimeout.mp htb, hne]
  · simp [hta, htb]

theorem ParsedHop.isTimeout_of_ip_eq {a b : ParsedHop} (h : a.ip = b.ip) :
    a.isTimeout = b.isTimeout := by
  unfold ParsedHop.ip at h
  cases hta : a.isTimeout <;> cases htb : b.isTimeout <;> simp [hta, htb] at h ⊢

/-- **The key is the source and the destination.** -/
theorem Step.key_eq_iff {a b : Step} (hid : a.probeID = b.probeID) (has : a.src.Named)
    (had : a.dst.Named) (hbs : b.src.Named) (hbd : b.dst.Named) :
    a.key = b.key ↔ a.src.ip = b.src.ip ∧ a.dst.ip = b.dst.ip := by
  rw [← has.addr_eq_iff hbs, ← had.addr_eq_iff hbd]
  constructor
  · intro h
    obtain ⟨hsrc, hdst⟩ :=
      append_pair_inj (by decide) has.noArrow hbs.noArrow (Step.key_split h).2
    exact ⟨String.toList_inj.mp hsrc, String.toList_inj.mp hdst⟩
  · rintro ⟨hsrc, hdst⟩
    rw [Step.key, Step.key, hid, hsrc, hdst]

/-! ## What is extracted -/

/-- The link joins the two hops. -/
structure TraceLink.Joins (link : TraceLink) (src dst : ParsedHop) : Prop where
  srcIP : link.srcIP = if src.isTimeout then none else some src.addr
  dstIP : link.dstIP = if dst.isTimeout then none else some dst.addr
  isSrcRespond : link.isSrcRespond = !src.isTimeout
  isDstRespond : link.isDstRespond = !dst.isTimeout
  diffRTT : link.diffRTT =
    if src.isTimeout ∨ dst.isTimeout then none else some (dst.rtt - src.rtt)
  /-- The difference of the TTLs, unless it is out of the range of an `int`. -/
  ttlGap : dst.probeTTL - src.probeTTL < 2 ^ 63 →
    0 < link.ttlGap ∧ link.ttlGap = dst.probeTTL - src.probeTTL

/-- The links along a path. -/
structure LinksAlong (hops : List ParsedHop) (links : List TraceLink) : Prop where
  /-- A link joins two hops that follow each other, the first pair with their addresses. -/
  sound : ∀ link ∈ links, ∃ src dst, [src, dst] <:+: hops ∧ link.Joins src dst ∧
    ∀ src' dst', [src', dst'] <:+: hops → src'.ip = src.ip → dst'.ip = dst.ip →
      src.probeTTL ≤ src'.probeTTL
  complete : ∀ src dst, [src, dst] <:+: hops → ∃ link ∈ links,
    link.srcIP = src.ip ∧ link.dstIP = dst.ip ∧
      link.isSrcRespond = !src.isTimeout ∧ link.isDstRespond = !dst.isTimeout
  distinct : links.Pairwise fun a b => ¬ (a.srcIP = b.srcIP ∧ a.dstIP = b.dstIP)

theorem Step.joins_link {step : Step} (h : step.src.probeTTL < step.dst.probeTTL) :
    step.link.Joins step.src step.dst where
  srcIP := rfl
  dstIP := rfl
  isSrcRespond := rfl
  isDstRespond := rfl
  diffRTT := by
    cases hs : step.src.isTimeout <;> cases hd : step.dst.isTimeout <;> simp [Step.link, hs, hd]
  ttlGap hlt := by
    have hgap : step.link.ttlGap = step.dst.probeTTL - step.src.probeTTL :=
      int64_eq_self (by omega) hlt
    exact ⟨by omega, hgap⟩

theorem lt_of_follows {hops : List ParsedHop}
    (h : hops.Pairwise fun a b => a.probeTTL < b.probeTTL) {src dst : ParsedHop}
    (hin : [src, dst] <:+: hops) : src.probeTTL < dst.probeTTL :=
  List.rel_of_pairwise_cons (h.sublist hin.sublist) (by simp)

section

variable {p : Int} (haddr : payload.Addressed)

include haddr

theorem key_eq_iff_of_mem_steps {a b : Step} (ha : a ∈ steps p (path rt payload p))
    (hb : b ∈ steps p (path rt payload p)) :
    a.key = b.key ↔ a.src.ip = b.src.ip ∧ a.dst.ip = b.dst.ip := by
  have hid : a.probeID = b.probeID := (mem_steps.mp ha).1.trans (mem_steps.mp hb).1.symm
  obtain ⟨has, had⟩ := mem_parsed_of_mem_steps ha
  obtain ⟨hbs, hbd⟩ := mem_parsed_of_mem_steps hb
  exact Step.key_eq_iff hid (haddr.named _ has) (haddr.named _ had) (haddr.named _ hbs)
    (haddr.named _ hbd)

theorem linksAlong_linksOf : LinksAlong (path rt payload p) (linksOf rt payload p) where
  sound link hlink := by
    obtain ⟨step, hstep, rfl⟩ := List.mem_map.mp hlink
    have hpath := isPath_path rt payload p
    have hmem := mem_of_mem_firsts hstep
    have hin := (mem_steps.mp hmem).2
    refine ⟨step.src, step.dst, hin, Step.joins_link (lt_of_follows hpath.ascending hin), ?_⟩
    intro src' dst' hin' hsrc hdst
    have hmem' : ⟨p, src', dst'⟩ ∈ steps p (path rt payload p) := mem_steps.mpr ⟨rfl, hin'⟩
    have hkey := (key_eq_iff_of_mem_steps haddr hmem' hmem).mpr ⟨hsrc, hdst⟩
    -- the steps are in ascending order of the TTL of their source
    have hsorted : (steps p (path rt payload p)).Pairwise
        fun a b => a.src.probeTTL < b.src.probeTTL :=
      List.pairwise_map.mpr (pairwise_neighbours hpath.ascending)
    rcases rel_of_mem_firsts hsorted hstep hmem' hkey with rfl | hlt
    · exact le_rfl
    · exact hlt.le
  complete src dst hin := by
    have hmem : ⟨p, src, dst⟩ ∈ steps p (path rt payload p) := mem_steps.mpr ⟨rfl, hin⟩
    obtain ⟨step, hstep, hkey⟩ := exists_mem_firsts hmem (Finset.notMem_empty (Step.key _))
    obtain ⟨hsrc, hdst⟩ :=
      (key_eq_iff_of_mem_steps haddr (mem_of_mem_firsts hstep) hmem).mp hkey
    refine ⟨step.link, List.mem_map_of_mem hstep, hsrc, hdst, ?_, ?_⟩
    · rw [← ParsedHop.isTimeout_of_ip_eq hsrc]
      rfl
    · rw [← ParsedHop.isTimeout_of_ip_eq hdst]
      rfl
  distinct := by
    refine List.pairwise_map.mpr ((firsts_pairwise ∅ _).imp_of_mem ?_)
    intro a b ha hb hkey hips
    exact hkey ((key_eq_iff_of_mem_steps haddr (mem_of_mem_firsts ha) (mem_of_mem_firsts hb)).mpr
      hips)

end

/--
**The links of every probe are sound, complete and without duplicates.** With the hops of the probe
in ascending order of their TTL, one for each, a link joins two that follow each other, all of those
are represented, no source and destination occur twice, and what is kept is the pair with the lowest
TTL.
-/
theorem extractLinks_spec (rt : Runtime) (payload : TraceDataTracePayload)
    (h : payload.Addressed) (p : Int) :
    ∃ hops, IsPath payload p hops ∧
      LinksAlong hops ((extractLinks rt payload).filter fun link => link.probeID = p) := by
  refine ⟨path rt payload p, isPath_path rt payload p, ?_⟩
  rw [filter_extractLinks]
  exact linksAlong_linksOf h

/-- A path that goes back and forth between two routers, with a hop that does not answer. -/
def bouncing : TraceDataTracePayload where
  hops :=
    [{ addr := "10.0.0.1", probeTTL := 3, probeID := 1, rtt := 3, replyTTL := 62, icmpType := 11
       icmpCode := 0 },
     { addr := "10.0.0.1", probeTTL := 1, probeID := 1, rtt := 1, replyTTL := 64, icmpType := 11
       icmpCode := 0 },
     { addr := "10.0.0.2", probeTTL := 2, probeID := 1, rtt := 2, replyTTL := 63, icmpType := 11
       icmpCode := 0 },
     { addr := "10.0.0.2", probeTTL := 4, probeID := 1, rtt := 9, replyTTL := 61, icmpType := 11
       icmpCode := 0 }]
  noHops := [{ probeTTL := 6, probeID := 1 }]

theorem bouncing_links :
    ∃ hops, IsPath bouncing 1 hops ∧
      LinksAlong hops ((extractLinks .ascending bouncing).filter fun link => link.probeID = 1) :=
  extractLinks_spec .ascending bouncing (by unfold TraceDataTracePayload.Addressed; decide) 1

/-- The least and the greatest difference of TTLs. -/
def farApart : TraceDataTracePayload where
  hops := []
  noHops := [{ probeTTL := -1, probeID := 1 }, { probeTTL := 2 ^ 63 - 1, probeID := 1 }]

/-- The gap between TTLs that are too far apart is negative. -/
theorem farApart_gap :
    farApart.Addressed ∧
      extractLinks .ascending farApart =
        [{ probeID := 1, srcIP := none, dstIP := none, ttlGap := -2 ^ 63, isSrcRespond := false
           isDstRespond := false, diffRTT := none }] := by
  refine ⟨?_, by decide +kernel⟩
  intro hop hmem
  cases hmem

/-! ## Orders -/

/-- A path has the hops of the probe, if no two of them have the same TTL. -/
theorem IsPath.mem_iff {p : Int} {hops : List ParsedHop} (h : IsPath payload p hops)
    (hdistinct : (payload.parsed.map fun h => (h.probeID, h.probeTTL)).Nodup) (x : ParsedHop) :
    x ∈ hops ↔ x ∈ payload.ofProbe p := by
  refine ⟨h.ofProbe x, fun hx => ?_⟩
  obtain ⟨kept, hkept, httl⟩ := h.everyTTL x hx
  have hmem := List.mem_filter.mp (h.ofProbe kept hkept)
  have hmemx := List.mem_filter.mp hx
  have hid : kept.probeID = x.probeID :=
    (of_decide_eq_true hmem.2).trans (of_decide_eq_true hmemx.2).symm
  have heq : kept = x := List.inj_on_of_nodup_map hdistinct hmem.1 hmemx.1 (by rw [hid, httl])
  exact heq ▸ hkept

/-- Then there is only one. -/
theorem IsPath.unique {payload' : TraceDataTracePayload} {p : Int} {hops hops' : List ParsedHop}
    (h : IsPath payload p hops) (h' : IsPath payload' p hops')
    (hperm : payload'.parsed.Perm payload.parsed)
    (hdistinct : (payload.parsed.map fun h => (h.probeID, h.probeTTL)).Nodup) : hops' = hops := by
  have hdistinct' : (payload'.parsed.map fun h => (h.probeID, h.probeTTL)).Nodup :=
    (hperm.map _).nodup_iff.mpr hdistinct
  have hirrefl : Std.Irrefl fun a b : ParsedHop => a.probeTTL < b.probeTTL :=
    ⟨fun a => lt_irrefl a.probeTTL⟩
  have hmem : ∀ x, x ∈ hops' ↔ x ∈ hops := by
    intro x
    rw [h.mem_iff hdistinct, h'.mem_iff hdistinct']
    exact (hperm.filter _).mem_iff
  have hasymm : Std.Antisymm fun a b : ParsedHop => a.probeTTL < b.probeTTL :=
    ⟨fun a b hab hba => absurd hba (lt_asymm hab)⟩
  exact h'.ascending.eq_of_mem_iff h.ascending hmem

/--
**Neither the order of the report nor that of the loops matters**: if no probe has two hops with the
same TTL, every permutation of the report gives the same links, whatever the order of the maps is
and whatever sorting does with ties.
-/
theorem extractLinks_perm (rt rt' : Runtime) {payload payload' : TraceDataTracePayload}
    (hdistinct : (payload.parsed.map fun h => (h.probeID, h.probeTTL)).Nodup)
    (hhops : payload'.hops.Perm payload.hops) (hnoHops : payload'.noHops.Perm payload.noHops) :
    (extractLinks rt' payload').Perm (extractLinks rt payload) := by
  have hparsed : payload'.parsed.Perm payload.parsed :=
    (hhops.map Hop.parsed).append (hnoHops.map NoHop.parsed)
  have hprobes : (probes rt' payload').Perm (probes rt payload) := by
    refine (List.perm_ext_iff_of_nodup (rt'.linkRange.nodup _) (rt.linkRange.nodup _)).mpr ?_
    intro p
    rw [← probes, ← probes, mem_probes, mem_probes]
    simp only [hparsed.mem_iff]
  have hlinks : ∀ p, linksOf rt' payload' p = linksOf rt payload p := by
    intro p
    have hpath : path rt' payload' p = path rt payload p :=
      (isPath_path rt payload p).unique (isPath_path rt' payload' p) hparsed hdistinct
    rw [linksOf, linksOf, hpath]
  rw [extractLinks_eq, extractLinks_eq]
  refine hprobes.flatMap ?_
  intro p _
  rw [hlinks p]

theorem bouncing_reversed :
    (extractLinks .ascending { bouncing with hops := bouncing.hops.reverse }).Perm
      (extractLinks .ascending bouncing) :=
  extractLinks_perm .ascending .ascending (by decide) (List.reverse_perm _) (List.Perm.refl _)

end Cepheus.TraceProcessor
