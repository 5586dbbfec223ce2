import Mathlib.Data.List.ReduceOption
import Cepheus.Infra.Traverse
import Cepheus.TraceProcessor.Process

/-!
# What is copied into `as_details`

The addresses that the table does not have are looked up and copied into it. A copy is all or
nothing: it is refused if two rows have the same address or if the table has one of them
(`copyAsDetails_isSome_iff`).

The addresses of a trace are not made unique before they are looked up, so each comes back as often
as it is among the hops. Nor is the zone dropped before they are compared with what the table has.
This is all that goes wrong (`enrichment_keeps_key_iff`).
-/

namespace Cepheus.TraceProcessor

open Infra

section

variable {A : Type} (netip : Netip A)

/-! ## The copy -/

/-- The addresses of the rows, as they are stored, are new and all different. -/
structure KeepsKey (asDetails : Table A AsDetails) (rows : List (A × AsDetails)) : Prop where
  distinct : (rows.map fun row => netip.withoutZone row.1).Nodup
  new : ∀ row ∈ rows, netip.withoutZone row.1 ∉ asDetails

variable {netip}

theorem KeepsKey.perm {asDetails : Table A AsDetails} {rows rows' : List (A × AsDetails)}
    (hperm : rows.Perm rows') : KeepsKey netip asDetails rows ↔ KeepsKey netip asDetails rows' := by
  constructor
  · exact fun h => ⟨(hperm.map _).nodup_iff.mp h.distinct,
      fun row hrow => h.new row (hperm.mem_iff.mpr hrow)⟩
  · exact fun h => ⟨(hperm.map _).nodup_iff.mpr h.distinct,
      fun row hrow => h.new row (hperm.mem_iff.mp hrow)⟩

variable [DecidableEq A]

/-- The first row is new, and the others are so when it is there. -/
theorem KeepsKey.cons_iff {asDetails : Table A AsDetails} {row : A × AsDetails}
    {rows : List (A × AsDetails)} :
    KeepsKey netip asDetails (row :: rows) ↔ netip.withoutZone row.1 ∉ asDetails ∧
      KeepsKey netip (asDetails.insert (netip.withoutZone row.1) row.2) rows := by
  constructor
  · intro h
    obtain ⟨hfirst, hrest⟩ := List.nodup_cons.mp h.distinct
    refine ⟨h.new row List.mem_cons_self, hrest, fun row' hrow' hmem => ?_⟩
    rcases Finmap.mem_insert.mp hmem with heq | hmem
    · exact hfirst (List.mem_map.mpr ⟨row', hrow', heq⟩)
    · exact h.new row' (List.mem_cons_of_mem row hrow') hmem
  · rintro ⟨hnew, h⟩
    refine ⟨List.nodup_cons.mpr ⟨fun hmem => ?_, h.distinct⟩, fun row' hrow' => ?_⟩
    · obtain ⟨row', hrow', heq⟩ := List.mem_map.mp hmem
      exact h.new row' hrow' (Finmap.mem_insert.mpr (.inl heq))
    · rcases List.mem_cons.mp hrow' with rfl | hrow'
      · exact hnew
      · exact fun hmem => h.new row' hrow' (Finmap.mem_insert.mpr (.inr hmem))

/-- **When the copy is accepted.** -/
theorem copyAsDetails_isSome_iff : ∀ {rows : List (A × AsDetails)} {asDetails : Table A AsDetails},
    (copyAsDetails netip asDetails rows).isSome ↔ KeepsKey netip asDetails rows
  | [], _ => ⟨fun _ => ⟨List.nodup_nil, nofun⟩, fun _ => rfl⟩
  | (ip, details) :: rows, asDetails => by
    rw [KeepsKey.cons_iff, copyAsDetails]
    by_cases hmem : netip.withoutZone ip ∈ asDetails
    · simp [hmem]
    · simp [hmem, copyAsDetails_isSome_iff]

/-! ## The rows -/

variable (netip) in
/-- The lookup gives one result for each address of a query, in any order. A hop without an address
is in the query as well, and gets no result. -/
structure OneEach (lookup : List String → Option (List AsnResult)) (answer : String → AsnResult)
    (query : List String) : Prop where
  ip : ∀ addr, (answer addr).ip = addr
  results : ∃ results, lookup query = some results ∧
    results.Perm ((query.filter fun addr => (netip.parseAddr addr).isSome).map answer)

variable (netip) in
/-- The addresses of the hops that the table does not have and that have a number, as often as they
are among the hops. An address with a zone is never found in the table. -/
def announced (answer : String → AsnResult) (asDetails : Table A AsDetails)
    (ips : List (Option A)) : List A :=
  ips.reduceOption.filter fun a =>
    ¬ (netip.withoutZone a = a ∧ a ∈ asDetails) ∧ (answer (netip.string a)).asn ≠ 0

variable {outside : Outside} {answer : String → AsnResult} {asDetails : Table A AsDetails}

/-- What the query finds for the hops is compared with their addresses. -/
theorem mem_existingIPs {ips : List (Option A)} {a : A} (h : some a ∈ ips) :
    a ∈ existingIPs netip asDetails ips ↔ netip.withoutZone a = a ∧ a ∈ asDetails := by
  rw [existingIPs, List.mem_filter, decide_eq_true_eq, storedIPs, List.mem_filterMap]
  refine and_congr_left fun _ => ⟨?_, fun hzone => ⟨some a, h, by rw [Option.map_some, hzone]⟩⟩
  rintro ⟨ip, -, hip⟩
  obtain ⟨b, -, rfl⟩ := Option.map_eq_some_iff.mp hip
  exact netip.withoutZone_withoutZone b

variable (netip) in
/-- The row of a result. -/
def AsnResult.row (r : AsnResult) : Option (A × AsDetails) :=
  if r.asn = 0 then none else (netip.parseAddr r.ip).map fun ip => (ip, r.details)

omit [DecidableEq A] in
theorem asDetailsRow_eq_ok_iff (r : AsnResult) (row : Option (A × AsDetails)) :
    asDetailsRow netip r = .ok row ↔ (netip.parseAddr r.ip).isSome ∧ row = r.row netip := by
  unfold asDetailsRow AsnResult.row
  cases hparse : netip.parseAddr r.ip with
  | none => simp [orError]
  | some ip => simp [orError, @eq_comm _ row]

/-- **The rows that are made** are those of the results, which have to be for addresses. -/
theorem missingRows_eq_ok_iff {existing : List A} {ips : List (Option A)}
    {rows : List (A × AsDetails)} :
    missingRows netip outside existing ips = .ok rows ↔ ∃ results,
      outside.lookup (missingIPs netip existing ips) = some results ∧
        (∀ r ∈ results, (netip.parseAddr r.ip).isSome) ∧
        rows = results.filterMap (AsnResult.row netip) := by
  simp only [missingRows, bind_eq_ok_iff, orError_eq_ok_iff, mapM_eq_ok_iff asDetailsRow_eq_ok_iff,
    pure, Except.pure, Except.ok.injEq]
  constructor
  · rintro ⟨results, hlookup, _, ⟨hparse, rfl⟩, rfl⟩
    exact ⟨results, hlookup, hparse, List.filterMap_map⟩
  · rintro ⟨results, hlookup, hparse, rfl⟩
    exact ⟨results, hlookup, _, ⟨hparse, rfl⟩, List.filterMap_map⟩

/-- The results for the addresses of the hops that are not found have rows for those that are
announced. -/
theorem filterMap_row (h : ∀ addr, (answer addr).ip = addr) (ips : List (Option A)) :
    ((missingIPs netip (existingIPs netip asDetails ips) ips).map answer).filterMap
        (AsnResult.row netip) =
      (announced netip answer asDetails ips).map fun a =>
        (a, (answer (netip.string a)).details) := by
  rw [missingIPs, announced, List.reduceOption, List.filter_filterMap, List.map_filterMap,
    List.map_map, List.filterMap_map, List.filterMap_filter]
  refine List.filterMap_congr fun ip hip => ?_
  cases ip with
  | none => simp [AsnResult.row, h, netip.parseAddr_print]
  | some a =>
    have hfound : a ∈ existingIPs netip asDetails ips ↔ netip.withoutZone a = a ∧ a ∈ asDetails :=
      mem_existingIPs hip
    by_cases hthere : netip.withoutZone a = a ∧ a ∈ asDetails
    · simp [hfound, hthere]
    · by_cases hasn : (answer (netip.string a)).asn = 0
      · simp [Netip.print, AsnResult.row, hasn]
      · have hkept : (some a).filter (fun a => decide (¬ (netip.withoutZone a = a ∧ a ∈ asDetails) ∧
            (answer (netip.string a)).asn ≠ 0)) = some a :=
          Option.filter_some_pos (decide_eq_true ⟨hthere, hasn⟩)
        rw [id_eq, hkept]
        simp [hfound, hthere, hasn, AsnResult.row, h, netip.parseAddr_string, Netip.print]

omit [DecidableEq A] in
/-- What is not an address has no row. -/
theorem filterMap_row_filter (h : ∀ addr, (answer addr).ip = addr) (query : List String) :
    ((query.filter fun addr => (netip.parseAddr addr).isSome).map answer).filterMap
        (AsnResult.row netip) =
      (query.map answer).filterMap (AsnResult.row netip) := by
  rw [List.filterMap_map, List.filterMap_map, List.filterMap_filter]
  refine List.filterMap_congr fun addr _ => ?_
  cases hparse : netip.parseAddr addr with
  | none => simp [AsnResult.row, h, hparse]
  | some a => simp

/-- The rows are those of the addresses that are announced. -/
theorem missingRows_eq_ok {ips : List (Option A)}
    (h : OneEach netip outside.lookup answer
      (missingIPs netip (existingIPs netip asDetails ips) ips)) :
    ∃ rows, missingRows netip outside (existingIPs netip asDetails ips) ips = .ok rows ∧
      rows.Perm ((announced netip answer asDetails ips).map fun a =>
        (a, (answer (netip.string a)).details)) := by
  obtain ⟨results, hlookup, hperm⟩ := h.results
  have hparse : ∀ r ∈ results, (netip.parseAddr r.ip).isSome := by
    intro r hr
    obtain ⟨addr, haddr, rfl⟩ := List.mem_map.mp (hperm.mem_iff.mp hr)
    rw [h.ip]
    exact (List.mem_filter.mp haddr).2
  refine ⟨_, missingRows_eq_ok_iff.mpr ⟨results, hlookup, hparse, rfl⟩, ?_⟩
  rw [← filterMap_row h.ip, ← filterMap_row_filter h.ip]
  exact hperm.filterMap _

/-! ## Enrichment -/

omit [DecidableEq A] in
theorem keepsKey_announced {as : List A} {details : A → AsDetails} :
    KeepsKey netip asDetails (as.map fun a => (a, details a)) ↔
      (as.map netip.withoutZone).Nodup ∧ ∀ a ∈ as, netip.withoutZone a ∉ asDetails := by
  have hmap : ((as.map fun a => (a, details a)).map fun row => netip.withoutZone row.1) =
      as.map netip.withoutZone := by
    rw [List.map_map]
    rfl
  constructor
  · exact fun h => ⟨hmap ▸ h.distinct, fun a ha => h.new _ (List.mem_map_of_mem ha)⟩
  · rintro ⟨hdistinct, hnew⟩
    refine ⟨hmap.symm ▸ hdistinct, fun row hrow => ?_⟩
    obtain ⟨a, ha, rfl⟩ := List.mem_map.mp hrow
    exact hnew a ha

/-- **What is copied keeps the primary key** if and only if no two of the addresses that are
announced are stored as one, and none is stored as one that the table has. -/
theorem enrichment_keeps_key_iff (netip : Netip A) {outside : Outside}
    {answer : String → AsnResult} (asDetails : Table A AsDetails) (ips : List (Option A))
    (h : OneEach netip outside.lookup answer
      (missingIPs netip (existingIPs netip asDetails ips) ips)) :
    (∃ rows, missingRows netip outside (existingIPs netip asDetails ips) ips = .ok rows ∧
      (rows.map fun row => netip.withoutZone row.1).Nodup ∧
        (∀ row ∈ rows, netip.withoutZone row.1 ∉ asDetails) ∧
        (copyAsDetails netip asDetails rows).isSome) ↔
      ((announced netip answer asDetails ips).map netip.withoutZone).Nodup ∧
        ∀ a ∈ announced netip answer asDetails ips, netip.withoutZone a ∉ asDetails := by
  simp only [copyAsDetails_isSome_iff]
  obtain ⟨rows, hrows, hperm⟩ := missingRows_eq_ok h
  constructor
  · rintro ⟨rows', hrows', -, -, hkey⟩
    obtain rfl := Except.ok.inj (hrows.symm.trans hrows')
    exact keepsKey_announced.mp ((KeepsKey.perm hperm).mp hkey)
  · intro hnew
    have hkey := (KeepsKey.perm hperm).mpr (keepsKey_announced.mpr hnew)
    exact ⟨rows, hrows, hkey.distinct, hkey.new, hkey⟩

end

/-! Routers, and one that answers twice. -/

/-- A lookup that gives every address the same number. -/
def sameSystem (addr : String) : AsnResult where
  ip := addr
  asn := 15169
  bgpPrefix := "8.8.8.0/24"
  asName := "GOOGLE, US"
  countryCode := "US"

/-- Nothing outside fails. -/
def allWell : Outside where
  beginTx := true
  insertTraceMeasurement := true
  getExistingIPs := true
  lookup := fun query =>
    some ((query.filter fun addr => (Netip.v4.parseAddr addr).isSome).map sameSystem)
  upsertAsDetails := true
  getASNForIPs := true
  publish := fun _ => .done
  upsertFingerprintHash := true
  insertTraceHop := true
  insertTraceLink := true
  commit := .done

theorem oneEach_allWell (query : List String) :
    OneEach .v4 allWell.lookup sameSystem query where
  ip := fun _ => rfl
  results := ⟨_, rfl, .refl _⟩

def google : Netip.V4 := ⟨8, 8, 8, 8⟩

/-- Two routers, and a hop without an address. -/
def twoRouters : List (Option Netip.V4) := [some google, none, some ⟨8, 8, 4, 4⟩]

def twoRows : List (Netip.V4 × AsDetails) :=
  [(google, (sameSystem "8.8.8.8").details), (⟨8, 8, 4, 4⟩, (sameSystem "8.8.4.4").details)]

/-- Two routers are copied into the empty table. -/
theorem enrichment_two_routers :
    missingRows .v4 allWell (existingIPs .v4 ∅ twoRouters) twoRouters = .ok twoRows ∧
      OneEach .v4 allWell.lookup sameSystem
        (missingIPs .v4 (existingIPs .v4 ∅ twoRouters) twoRouters) ∧
      ∃ rows, missingRows .v4 allWell (existingIPs .v4 ∅ twoRouters) twoRouters = .ok rows ∧
        (rows.map fun row => Netip.v4.withoutZone row.1).Nodup ∧
        (∀ row ∈ rows, Netip.v4.withoutZone row.1 ∉ (∅ : Table Netip.V4 AsDetails)) ∧
        (copyAsDetails .v4 ∅ rows).isSome :=
  ⟨by decide +kernel, oneEach_allWell _,
    (enrichment_keeps_key_iff .v4 ∅ twoRouters (oneEach_allWell _)).mpr (by decide +kernel)⟩

/-- There are two rows for the one router, and the copy is refused. A hop without an address does
not change this. -/
theorem repeated_hop_violates_key :
    missingRows .v4 allWell (existingIPs .v4 ∅ [some google, some google])
        [some google, some google] =
      .ok [(google, (sameSystem "8.8.8.8").details), (google, (sameSystem "8.8.8.8").details)] ∧
      (copyAsDetails .v4 ∅ [(google, (sameSystem "8.8.8.8").details),
        (google, (sameSystem "8.8.8.8").details)]) = none ∧
      enrichMissingHops .v4 allWell ∅ (existingIPs .v4 ∅ [some google, some google])
        [some google, some google] = .error .upsertAsDetails ∧
      enrichMissingHops .v4 allWell ∅ (existingIPs .v4 ∅ [some google, some google, none])
        [some google, some google, none] = .error .upsertAsDetails := by
  refine ⟨by decide +kernel, by decide +kernel, by decide +kernel, by decide +kernel⟩

end Cepheus.TraceProcessor
