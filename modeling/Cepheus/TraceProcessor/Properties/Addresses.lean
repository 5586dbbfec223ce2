import Cepheus.TraceProcessor.Properties.Transaction

/-!
# The addresses of hops and of links

A hop is stored with its address, and without one if the text of it is empty. For the links the hops
are read again, and there an end without an address is one that did not answer: the text of a hop
that did is an address, or an error. So a hop that answered with an empty text is stored as a hop,
and refused as an end of a link (`addresses_agree_iff`).
-/

namespace Cepheus.TraceProcessor

open Infra

section

variable {A U : Type} {netip : Netip A} {rt : Runtime} {payload : TraceDataTracePayload}

/-! ## Ends of links -/

/-- Where the hops are read for the links, an empty text is not an address. -/
theorem forall_parseAddr_iff {ip : Option String}
    (h : ∀ addr ∈ ip, addr = "" ∨ (netip.parseAddr addr).isSome) :
    (∀ addr ∈ ip, (netip.parseAddr addr).isSome) ↔ ip ≠ some "" := by
  constructor
  · rintro hparse rfl
    have hsome := hparse "" rfl
    rw [netip.parseAddr_empty] at hsome
    cases hsome
  · intro hne addr haddr
    refine (h addr haddr).resolve_left ?_
    rintro rfl
    exact hne haddr

/-- What is read of the hops is what is read for the links. -/
theorem readable_of_mem_parsed (h : ∀ hop ∈ payload.hops, hop.Readable netip) :
    ∀ hop ∈ payload.parsed, ∀ addr ∈ hop.ip, addr = "" ∨ (netip.parseAddr addr).isSome := by
  refine forall_mem_parsed.mpr ⟨fun hop hmem addr haddr => ?_, fun hop _ addr haddr => ?_⟩
  · obtain rfl := Option.some.inj haddr
    exact h hop hmem
  · cases haddr

/-- The steps of a probe for which there are links. -/
def linkedSteps (rt : Runtime) (payload : TraceDataTracePayload) (p : Int) : List Step :=
  firsts Step.key ∅ (steps p (path rt payload p))

theorem forall_mem_extractLinks {P : TraceLink → Prop} :
    (∀ link ∈ extractLinks rt payload, P link) ↔
      ∀ p, ∀ step ∈ linkedSteps rt payload p, P step.link := by
  constructor
  · intro h p step hstep
    have hmem : step.link ∈ linksOf rt payload p := List.mem_map_of_mem hstep
    rw [← filter_extractLinks] at hmem
    exact h _ (List.mem_filter.mp hmem).1
  · intro h link hlink
    have hmem : link ∈ linksOf rt payload link.probeID := by
      rw [← filter_extractLinks]
      exact List.mem_filter.mpr ⟨hlink, decide_eq_true rfl⟩
    obtain ⟨step, hstep, rfl⟩ := List.mem_map.mp hmem
    exact h _ step hstep

/-- No link has an end that answered with an empty text. -/
def NoEmptyEnd (rt : Runtime) (payload : TraceDataTracePayload) : Prop :=
  ∀ p, ∀ step ∈ linkedSteps rt payload p, step.src.ip ≠ some "" ∧ step.dst.ip ≠ some ""

theorem noEmptyEnd_of_addresses (h : ∀ hop ∈ payload.hops, hop.addr ≠ "") :
    NoEmptyEnd rt payload := by
  have hparsed : ∀ hop ∈ payload.parsed, hop.ip ≠ some "" := by
    refine forall_mem_parsed.mpr ⟨fun hop hmem => ?_, fun hop _ => nofun⟩
    exact fun hip => h hop hmem (Option.some.inj hip)
  intro p step hstep
  obtain ⟨hsrc, hdst⟩ := mem_parsed_of_mem_steps (mem_of_mem_firsts hstep)
  exact ⟨hparsed _ hsrc, hparsed _ hdst⟩

/-- **Which links are refused**, if the hops are not. -/
theorem readable_links_iff (h : ∀ hop ∈ payload.hops, hop.Readable netip) :
    (∀ link ∈ extractLinks rt payload, link.Readable netip) ↔ NoEmptyEnd rt payload := by
  rw [forall_mem_extractLinks]
  refine forall_congr' fun p => forall₂_congr fun step hstep => ?_
  obtain ⟨hsrc, hdst⟩ := mem_parsed_of_mem_steps (mem_of_mem_firsts hstep)
  rw [← forall_parseAddr_iff (readable_of_mem_parsed h _ hsrc),
    ← forall_parseAddr_iff (readable_of_mem_parsed h _ hdst)]
  exact ⟨fun hlink => ⟨hlink.src, hlink.dst⟩, fun ⟨hsrc, hdst⟩ => ⟨hsrc, hdst⟩⟩

/-! ## Agreement -/

/-- No call fails. -/
structure Outside.AllSucceed (outside : Outside) : Prop where
  beginTx : outside.beginTx = true
  insertTraceMeasurement : outside.insertTraceMeasurement = true
  getExistingIPs : outside.getExistingIPs = true
  getASNForIPs : outside.getASNForIPs = true
  publish : (attempts outside.replies).2 = true
  upsertFingerprintHash : outside.upsertFingerprintHash = true
  insertTraceHop : outside.insertTraceHop = true
  insertTraceLink : outside.insertTraceLink = true
  commit : outside.commit = .done

/-- **A trace whose hops are accepted is accepted**, if nothing else fails, if and only if no link
has an end that answered with an empty text. -/
theorem addresses_agree_iff [DecidableEq A] {netip : Netip A} {parseUUID : String → Option U}
    {outside : Outside} (rt : Runtime) {asDetails : Table A AsDetails} {report : Report}
    {trace : Trace} (hcalls : outside.AllSucceed)
    (henriches : Enriches netip outside asDetails (trace.hops.map (Hop.address netip)))
    (hdata : report.data = some trace) (hid : (parseUUID report.agentConfigId).isSome)
    (hsrc : (netip.parseAddr trace.src).isSome) (hdst : (netip.parseAddr trace.dst).isSome)
    (hhops : ∀ hop ∈ trace.hops, hop.Readable netip) :
    ((processNormalTrace netip parseUUID outside rt asDetails report).error = none ∧
      ∀ link ∈ extractLinks rt trace.toTraceDataTracePayload,
        ∃ row, linkRow netip report.timestamp link = .ok row) ↔
      NoEmptyEnd rt trace.toTraceDataTracePayload := by
  have hprepares : Prepares netip parseUUID outside asDetails report trace :=
    ⟨hdata, hsrc, hdst, hcalls.beginTx, hid, hcalls.insertTraceMeasurement, hhops,
      hcalls.getExistingIPs, henriches, hcalls.getASNForIPs⟩
  obtain ⟨prepared, hprepare⟩ := hprepares.prepare_isOk rt
  have hfor := (prepare_ok hprepare).2
  have htrace : prepared.trace = trace := Option.some.inj (hfor.data.symm.trans hdata)
  have herror := (processNormalTrace_follows hprepare).error
  rw [hfor.links, htrace] at herror
  rw [herror, ← readable_links_iff hhops]
  constructor
  · exact fun h => h.1.finishes.links
  · intro hlinks
    exact ⟨⟨hcalls.publish, ⟨hcalls.upsertFingerprintHash, hcalls.insertTraceHop, hlinks,
      hcalls.insertTraceLink⟩, hcalls.commit⟩,
      fun link hlink => ⟨_, (linkRow_eq_ok_iff _ link _).mpr ⟨hlinks link hlink, rfl⟩⟩⟩

end

/-! Two routers, and a router and a hop without a text. -/

theorem allSucceed_allWell : allWell.AllSucceed :=
  ⟨rfl, rfl, rfl, rfl, rfl, rfl, rfl, rfl, rfl⟩

/-- A trace over two routers is accepted. -/
theorem two_routers_accepted :
    (twoHops allWell).error = none ∧
      ∀ link ∈ extractLinks .ascending (traceOver ["8.8.8.8", "8.8.4.4"]).toTraceDataTracePayload,
        ∃ row, linkRow .v4 0 link = .ok row := by
  have henriches : Enriches .v4 allWell ∅
      ((traceOver ["8.8.8.8", "8.8.4.4"]).hops.map (Hop.address .v4)) :=
    ⟨⟨["8.8.8.8", "8.8.4.4"].map sameSystem, by decide +kernel, by decide +kernel,
      by decide +kernel, by decide +kernel⟩, rfl⟩
  have hhops : ∀ hop ∈ (traceOver ["8.8.8.8", "8.8.4.4"]).hops, hop.Readable .v4 := by
    simp only [Hop.Readable]
    decide +kernel
  exact (addresses_agree_iff .ascending allSucceed_allWell henriches rfl (by decide +kernel)
    (by decide +kernel) (by decide +kernel) hhops).mpr (noEmptyEnd_of_addresses (by decide +kernel))

/-- A lookup that has no result for what is not an address. -/
def leavesOut : Outside :=
  { allWell with
    lookup := fun addrs => some ((addrs.filter fun addr => addr ≠ "invalid IP").map sameSystem) }

/-- The hops are accepted, the event is published, and the link is refused. -/
theorem empty_text_refused :
    leavesOut.AllSucceed ∧
      Enriches .v4 leavesOut ∅ ((traceOver ["8.8.8.8", ""]).hops.map (Hop.address .v4)) ∧
      (∀ hop ∈ (traceOver ["8.8.8.8", ""]).hops, hop.Readable .v4) ∧
      (processOver leavesOut ["8.8.8.8", ""]).error = some (.linkDstIP "") ∧
      (processOver leavesOut ["8.8.8.8", ""]).published.map TraceEvent.target = ["8.8.4.4"] ∧
      (processOver leavesOut ["8.8.8.8", ""]).committed.isNone := by
  refine ⟨⟨rfl, rfl, rfl, rfl, rfl, rfl, rfl, rfl, rfl⟩, ?_, ?_, by decide +kernel,
    by decide +kernel, by decide +kernel⟩
  · exact ⟨⟨[sameSystem "8.8.8.8"], by decide +kernel, by decide +kernel, by decide +kernel,
      by decide +kernel⟩, rfl⟩
  · simp only [Hop.Readable]
    decide +kernel

end Cepheus.TraceProcessor
