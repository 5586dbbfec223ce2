import Mathlib.Order.Bounds.Basic
import Cepheus.Infra.Custody
import Cepheus.Argus.Properties.Reference
import Cepheus.Argus.Properties.Success

/-!
# The aggregates of an event

`argus_events` carries the number of findings of an event, their greatest severity and the time of
the latest one. They are written when the event is opened, and never again.

* `Database.Booked` - the aggregates are those of the findings that are attached
* `events_booked` - they are, as long as no finding is attached later, and the event is opened by
  its latest finding with all the pending ones still in memory
-/

namespace Cepheus.Argus

open Infra

/-! ## What the aggregates should be -/

/-- The ids of the findings attached to `e`. -/
def Database.attached (db : Database) (e : Uuid) : Finset Uuid :=
  db.findings.keys.filter fun id => db.eventOf id = some e

/-- The findings attached to `e`. -/
def Database.findingsOf (db : Database) (e : Uuid) : Set FindingRow :=
  { row | ∃ id, db.findings.lookup id = some row ∧ row.eventId = some e }

/-- The aggregates of the event `e` are those of its findings. -/
structure EventRow.Booked (ev : EventRow) (db : Database) (e : Uuid) : Prop where
  findingCount : ev.findingCount = (db.attached e).card
  peakSeverity : IsGreatest (FindingRow.severity '' db.findingsOf e) ev.peakSeverity
  lastSeenAt : IsGreatest (FindingRow.ts '' db.findingsOf e) ev.lastSeenAt

/-- The aggregates of every event are those of its findings. -/
def Database.Booked (db : Database) : Prop :=
  ∀ e ev, db.events.lookup e = some ev → ev.Booked db e

/-- The finding is not for a series that has an event. If it opens one, it is the latest of the
pending findings, they are all still in memory, and their number fits into an `int32`. -/
def Call.KeepsBooks (cfg : PolicyEngineConfig) (w : World) : Call → Prop
  | .applyFinding k finding id env => ∀ s ∈ (loadState env k w).toOption, ¬ s.Alarmed ∧
      (s.CrossesOpen cfg finding →
        (∀ pf ∈ (s.watch cfg finding id).pendingFindings, ∃ f ∈ pf.finding,
          Time.micros f.ts ≤ Time.micros finding.ts) ∧
        (s.watch cfg finding id).pendingFindings.length < 2 ^ 31)
  | _ => True

instance (cfg : PolicyEngineConfig) (w : World) : DecidablePred (Call.KeepsBooks cfg w)
  | .insertFinding .. => inferInstanceAs (Decidable True)
  | .applyFinding k finding id env => inferInstanceAs (Decidable
      (∀ s ∈ (loadState env k w).toOption, ¬ s.Alarmed ∧ (s.CrossesOpen cfg finding →
        (∀ pf ∈ (s.watch cfg finding id).pendingFindings, ∃ f ∈ pf.finding,
          Time.micros f.ts ≤ Time.micros finding.ts) ∧
        (s.watch cfg finding id).pendingFindings.length < 2 ^ 31)))
  | .sweep _ => inferInstanceAs (Decidable True)
  | .restart => inferInstanceAs (Decidable True)

/-! ## The pending findings that are in memory -/

/-- The pending findings that are still in memory, with their ids. -/
def PolicyState.known (s : PolicyState) : List (Uuid × Finding) :=
  s.pendingFindings.filterMap fun pf => pf.finding.map fun f => (pf.id, f)

theorem PolicyRow.known_hydrate (row : PolicyRow) : row.hydrate.known = [] := by
  unfold PolicyState.known PolicyRow.hydrate
  simp

theorem PolicyState.known_watch (cfg : PolicyEngineConfig) (s : PolicyState) (finding : Finding)
    (id : Uuid) :
    (s.watch cfg finding id).known = [(id, finding)] ∨
      (s.watch cfg finding id).known = s.known ++ [(id, finding)] := by
  unfold PolicyState.watch
  split
  · left
    simp [PolicyState.known, PolicyState.startWatching]
  · right
    simp [PolicyState.known, PolicyState.keepWatching, PolicyState.score]

/-- If every pending finding is in memory, the known ones are the pending ones. -/
theorem PolicyState.known_map_fst {s : PolicyState}
    (h : ∀ pf ∈ s.pendingFindings, ∃ f, pf.finding = some f) :
    s.known.map Prod.fst = s.pendingFindings.map PendingFinding.id := by
  unfold PolicyState.known
  generalize s.pendingFindings = pending at h
  induction pending with
  | nil => rfl
  | cons pf rest ih =>
    obtain ⟨f, hf⟩ := h pf (by simp)
    have hrest := ih fun pf' hpf' => h pf' (by simp [hpf'])
    simp only [List.filterMap_cons, hf, Option.map_some, List.map_cons, hrest]

theorem PolicyState.mem_known {s : PolicyState} {id : Uuid} {f : Finding} :
    (id, f) ∈ s.known ↔ ∃ pf ∈ s.pendingFindings, pf.id = id ∧ pf.finding = some f := by
  unfold PolicyState.known
  rw [List.mem_filterMap]
  constructor
  · rintro ⟨pf, hpf, h⟩
    obtain ⟨g, hg, heq⟩ := Option.map_eq_some_iff.mp h
    simp only [Prod.mk.injEq] at heq
    exact ⟨pf, hpf, heq.1, heq.2 ▸ hg⟩
  · rintro ⟨pf, hpf, rfl, hf⟩
    exact ⟨pf, hpf, by simp [hf]⟩

/-- The pending findings of `k` that are in memory, with their ids. -/
def World.known (w : World) (k : SeriesKey) : List (Uuid × Finding) :=
  (w.states.lookup k).elim [] PolicyState.known

theorem World.known_of_lookup {w : World} {k : SeriesKey} {s : PolicyState}
    (hs : w.states.lookup k = some s) : w.known k = s.known := by
  rw [World.known, hs]
  rfl

theorem World.known_insert {w w' : World} {k : SeriesKey} {s' : PolicyState}
    (hw : w'.states = w.states.insert k s') (k' : SeriesKey) :
    w'.known k' = if k' = k then s'.known else w.known k' := by
  unfold World.known
  rw [hw, Table.lookup_insert_if]
  split <;> rfl

/-! ## The books -/

/-- The finding `f` is in the table under `id`, and waits for an event. -/
def Database.Waiting (db : Database) (id : Uuid) (f : Finding) : Prop :=
  ∃ row, db.findings.lookup id = some row ∧ row.eventId = none ∧ row.severity = f.severity ∧
    row.ts = Time.micros f.ts

/-- The aggregates are right, and every finding that is pending in memory or in flight waits for
its event in one place. -/
structure Books (w : World) (inFlight : Table Uuid (SeriesKey × Finding)) : Prop where
  booked : w.db.Booked
  refs : w.db.FindingsReferenced
  custody : Custody w.db.Waiting w.known fun id f => ∃ k, inFlight.lookup id = some (k, f)

section

variable {w : World} {inFlight : Table Uuid (SeriesKey × Finding)} {k : SeriesKey}
  {s s' : PolicyState} {id : Uuid} {finding : Finding}

theorem Database.mem_attached {db : Database} {e i : Uuid} :
    i ∈ db.attached e ↔ ∃ row, db.findings.lookup i = some row ∧ row.eventId = some e := by
  unfold Database.attached Database.eventOf
  rw [Finset.mem_filter, Table.mem_keys]
  constructor
  · rintro ⟨⟨row, hrow⟩, he⟩
    rw [hrow] at he
    exact ⟨row, hrow, he⟩
  · rintro ⟨row, hrow, he⟩
    exact ⟨⟨row, hrow⟩, by rw [hrow]; exact he⟩

/-- Events with the same findings and the same columns have the same aggregates. -/
theorem EventRow.Booked.congr {ev ev' : EventRow} {db db' : Database} {e : Uuid}
    (h : ev.Booked db e)
    (hiff : ∀ i row, (db'.findings.lookup i = some row ∧ row.eventId = some e) ↔
      (db.findings.lookup i = some row ∧ row.eventId = some e))
    (hcount : ev'.findingCount = ev.findingCount) (hpeak : ev'.peakSeverity = ev.peakSeverity)
    (hlast : ev'.lastSeenAt = ev.lastSeenAt) : ev'.Booked db' e := by
  have hatt : db'.attached e = db.attached e := by
    ext i
    rw [Database.mem_attached, Database.mem_attached]
    exact exists_congr fun row => hiff i row
  have hof : db'.findingsOf e = db.findingsOf e := by
    ext row
    exact exists_congr fun i => hiff i row
  exact ⟨by rw [hcount, hatt]; exact h.findingCount, by rw [hpeak, hof]; exact h.peakSeverity,
    by rw [hlast, hof]; exact h.lastSeenAt⟩

/-- Saving a state does not touch the books. -/
theorem Books.upsert (h : Books w inFlight) (r : RowKey) (row : PolicyRow) :
    Books { w with db := w.db.upsertPolicyState r row } inFlight :=
  ⟨fun e ev hev => (h.booked e ev hev).congr (fun _ _ => Iff.rfl) rfl rfl rfl, h.refs, h.custody⟩

/-- Closing an event leaves its aggregates as they are. -/
theorem Books.closeEvent (h : Books w inFlight) (e : Uuid) (now : Time) :
    Books { w with db := w.db.closeEvent e now } inFlight := by
  refine ⟨?_, h.refs.closeEvent e now, h.custody⟩
  intro e' ev' hev'
  simp only [Database.closeEvent, Table.lookup_adjust] at hev'
  split at hev'
  · obtain ⟨ev, hev, rfl⟩ := Option.map_eq_some_iff.mp hev'
    exact (h.booked e' ev hev).congr (fun _ _ => Iff.rfl) rfl rfl rfl
  · exact (h.booked e' ev' hev').congr (fun _ _ => Iff.rfl) rfl rfl rfl

/-- A state that knows no finding that its entry did not know. -/
theorem Books.replace (h : Books w inFlight) (hs' : s'.known = [] ∨ s'.known = w.known k) :
    Books { w with states := w.states.insert k s' } inFlight := by
  refine ⟨h.booked, h.refs, h.custody.of_held ?_ fun i f hi _ => hi⟩
  intro k'
  rw [World.known_insert rfl]
  split
  · next hk => exact hk ▸ hs'
  · exact .inr rfl

/-- A finding in flight becomes a pending one. -/
theorem Books.note (h : Books w inFlight) (hfl : inFlight.lookup id = some (k, finding))
    {old : List (Uuid × Finding)} (hold : old = [] ∨ old = w.known k)
    (hs' : s'.known = old ++ [(id, finding)]) :
    Books { w with states := w.states.insert k s' } (inFlight.erase id) := by
  refine ⟨h.booked, h.refs, h.custody.land ⟨k, hfl⟩ hold ?_ ?_ ?_⟩
  · rw [World.known_insert rfl, if_pos rfl, hs']
  · intro k' hne
    rw [World.known_insert rfl, if_neg hne]
  · rintro i f ⟨k', hi⟩
    by_cases hne : i = id
    · rw [hne, Finmap.lookup_erase] at hi
      cases hi
    · rw [Finmap.lookup_erase_ne hne] at hi
      exact ⟨⟨k', hi⟩, hne⟩

theorem Books.hydrated (h : Books w inFlight) (rows : List RowKey) :
    Books (w.hydrated rows) inFlight := by
  refine ⟨h.booked, h.refs, h.custody.of_held ?_ fun i f hi _ => hi⟩
  intro k
  cases hs : (w.hydrated rows).states.lookup k with
  | none =>
    left
    rw [World.known, hs]
    rfl
  | some s =>
    rw [World.known_of_lookup hs]
    rcases hydrated_cases hs with hs | ⟨-, r, row, -, -, -, rfl⟩
    · exact .inr (World.known_of_lookup hs).symm
    · -- findings are not read back
      exact .inl row.known_hydrate

/-! ## Opening an event -/

theorem int32_of_lt {n : Nat} (h : n < 2 ^ 31) : int32 n = n := by
  unfold int32
  rw [Int.bmod_eq_of_le] <;> omega

/-- Which findings an opened event has, and that the other events keep theirs. -/
theorem OpensEvent.lookup_iff {env : ApplyEnv} {db tx : Database}
    (htx : OpensEvent env k s finding db tx)
    (hwait : ∀ i ∈ s.pendingFindings.map PendingFinding.id, ∃ f, db.Waiting i f) {e : Uuid}
    (he : e ≠ env.eventId) (i : Uuid) (row : FindingRow) :
    (tx.findings.lookup i = some row ∧ row.eventId = some e) ↔
      (db.findings.lookup i = some row ∧ row.eventId = some e) := by
  rw [htx.findings]
  split
  · next hi =>
    obtain ⟨f, row₀, hrow₀, hnone, -⟩ := hwait i hi
    rw [hrow₀]
    constructor
    · rintro ⟨hrow, hev⟩
      rw [Option.map_some, Option.some.injEq] at hrow
      rw [← hrow] at hev
      exact absurd (Option.some.inj hev).symm he
    · rintro ⟨hrow, hev⟩
      rw [Option.some.injEq] at hrow
      rw [← hrow, hnone] at hev
      cases hev
  · rfl

/-- A finding of the new event was pending, as it was inserted. -/
theorem OpensEvent.known_of_attached {env : ApplyEnv} {db tx : Database}
    (htx : OpensEvent env k s finding db tx) (hrefs : db.FindingsReferenced)
    (hids : s.known.map Prod.fst = s.pendingFindings.map PendingFinding.id)
    (hwait : ∀ i f, (i, f) ∈ s.known → db.Waiting i f) {i : Uuid} {row : FindingRow}
    (hl : tx.findings.lookup i = some row) (he : row.eventId = some env.eventId) :
    ∃ f, (i, f) ∈ s.known ∧ row.severity = f.severity ∧ row.ts = Time.micros f.ts := by
  rw [htx.findings] at hl
  split at hl
  · next hi =>
    rw [← hids, List.mem_map] at hi
    obtain ⟨⟨i', f⟩, hf, rfl⟩ := hi
    obtain ⟨row₀, hrow₀, -, hsev, hts⟩ := hwait i' f hf
    rw [hrow₀, Option.map_some] at hl
    obtain rfl := Option.some.inj hl
    exact ⟨f, hf, hsev, hts⟩
  · exact absurd (hrefs i row _ hl he) htx.fresh

/-- A finding that was pending is one of the new event. -/
theorem OpensEvent.attached_of_known {env : ApplyEnv} {db tx : Database}
    (htx : OpensEvent env k s finding db tx)
    (hids : s.known.map Prod.fst = s.pendingFindings.map PendingFinding.id)
    (hwait : ∀ i f, (i, f) ∈ s.known → db.Waiting i f) {i : Uuid} {f : Finding}
    (hf : (i, f) ∈ s.known) : ∃ row, tx.findings.lookup i = some row ∧
      row.eventId = some env.eventId ∧ row.severity = f.severity ∧ row.ts = Time.micros f.ts := by
  obtain ⟨row₀, hrow₀, -, hsev, hts⟩ := hwait i f hf
  have hi : i ∈ s.pendingFindings.map PendingFinding.id := by
    rw [← hids]
    exact Custody.mem_ids hf
  exact ⟨{ row₀ with eventId := some env.eventId },
    by rw [htx.findings, if_pos hi, hrow₀, Option.map_some], rfl, hsev, hts⟩

/-- **The aggregates of an event that is opened over known findings, by the latest of them.** -/
theorem OpensEvent.booked {env : ApplyEnv} {db tx : Database}
    (htx : OpensEvent env k s finding db tx)
    (hrefs : db.FindingsReferenced) (hnodup : (s.known.map Prod.fst).Nodup)
    (hwait : ∀ i f, (i, f) ∈ s.known → db.Waiting i f)
    (htrigger : ∃ i, (i, finding) ∈ s.known)
    (hall : ∀ pf ∈ s.pendingFindings, ∃ f ∈ pf.finding,
      Time.micros f.ts ≤ Time.micros finding.ts)
    (hlen : s.pendingFindings.length < 2 ^ 31) :
    (openedRow k s finding).Booked tx env.eventId := by
  have hids : s.known.map Prod.fst = s.pendingFindings.map PendingFinding.id :=
    PolicyState.known_map_fst fun pf hpf => by
      obtain ⟨f, hf, -⟩ := hall pf hpf
      exact ⟨f, hf⟩
  have hfind := fun i row =>
    @OpensEvent.known_of_attached k s finding env db tx htx hrefs hids hwait i row
  have hpend := fun i f => @OpensEvent.attached_of_known k s finding env db tx htx hids hwait i f
  obtain ⟨hmem, hle, hmax⟩ := peakSeverity_spec finding s.pendingFindings
  obtain ⟨i₀, hi₀⟩ := htrigger
  obtain ⟨row₀, hl₀, he₀, hsev₀, hts₀⟩ := hpend i₀ finding hi₀
  refine ⟨?_, ⟨?_, ?_⟩, ⟨?_, ?_⟩⟩
  · have hatt : tx.attached env.eventId = (s.known.map Prod.fst).toFinset := by
      ext i
      rw [Database.mem_attached, List.mem_toFinset, List.mem_map]
      constructor
      · rintro ⟨row, hl, he⟩
        obtain ⟨f, hf, -⟩ := hfind i row hl he
        exact ⟨(i, f), hf, rfl⟩
      · rintro ⟨⟨i', f⟩, hf, rfl⟩
        obtain ⟨row, hl, he, -⟩ := hpend i' f hf
        exact ⟨row, hl, he⟩
    rw [hatt, List.toFinset_card_of_nodup hnodup, hids, List.length_map, ← int32_of_lt hlen,
      openedRow]
  · -- the peak is reached
    rcases hmem with heq | ⟨pf, hpf, f, hf, hsev⟩
    · exact ⟨row₀, ⟨i₀, hl₀, he₀⟩, hsev₀.trans heq.symm⟩
    · obtain ⟨row, hl, he, hsev', -⟩ := hpend pf.id f (PolicyState.mem_known.mpr ⟨pf, hpf, rfl, hf⟩)
      exact ⟨row, ⟨pf.id, hl, he⟩, hsev'.trans hsev⟩
  · rintro x ⟨row, ⟨i, hl, he⟩, rfl⟩
    obtain ⟨f, hf, hsev, -⟩ := hfind i row hl he
    obtain ⟨pf, hpf, -, hpff⟩ := PolicyState.mem_known.mp hf
    rw [hsev]
    exact hmax pf hpf f hpff
  · exact ⟨row₀, ⟨i₀, hl₀, he₀⟩, hts₀⟩
  · rintro x ⟨row, ⟨i, hl, he⟩, rfl⟩
    obtain ⟨f, hf, -, hts⟩ := hfind i row hl he
    obtain ⟨pf, hpf, -, hpff⟩ := PolicyState.mem_known.mp hf
    obtain ⟨f', hf', hlate⟩ := hall pf hpf
    obtain rfl : f = f' := Option.some.inj (hpff ▸ hf')
    rw [hts]
    exact hlate

/-- The pending findings of `k` become those of an event. -/
theorem Books.openEvent (h : Books w inFlight) {env : ApplyEnv} {tx : Database}
    (hs : w.states.lookup k = some s) (htx : OpensEvent env k s finding w.db tx)
    (htrigger : ∃ i, (i, finding) ∈ s.known)
    (hall : ∀ pf ∈ s.pendingFindings, ∃ f ∈ pf.finding,
      Time.micros f.ts ≤ Time.micros finding.ts)
    (hlen : s.pendingFindings.length < 2 ^ 31) :
    Books { states := w.states.insert k (s.fire finding env.eventId), db := tx } inFlight := by
  have hids : s.known.map Prod.fst = s.pendingFindings.map PendingFinding.id :=
    PolicyState.known_map_fst fun pf hpf => by
      obtain ⟨f, hf, -⟩ := hall pf hpf
      exact ⟨f, hf⟩
  have hknown : w.known k = s.known := World.known_of_lookup hs
  have hwait : ∀ i f, (i, f) ∈ s.known → w.db.Waiting i f := by
    intro i f hf
    rw [← hknown] at hf
    exact h.custody.kept k i f hf
  refine ⟨?_, htx.findingsReferenced h.refs, h.custody.of_held ?_ ?_⟩
  · intro e ev hev
    rw [htx.events, Table.lookup_insert_if] at hev
    split at hev
    · next he =>
      rw [he, ← Option.some.inj hev]
      exact htx.booked h.refs (hknown ▸ h.custody.nodup k) hwait htrigger hall hlen
    · next he =>
      refine (h.booked e ev hev).congr (htx.lookup_iff ?_ he) rfl rfl rfl
      intro i hi
      rw [← hids, List.mem_map] at hi
      obtain ⟨⟨i', f⟩, hf, rfl⟩ := hi
      exact ⟨f, hwait i' f hf⟩
  · intro k'
    rw [World.known_insert rfl]
    split
    · exact .inl rfl
    · exact .inr rfl
  · -- a finding that waits elsewhere is not attached
    rintro i f ⟨row, hl, hrest⟩ hleft
    have hi : i ∉ s.known.map Prod.fst := by
      rw [← hknown]
      rcases hleft with hfl | ⟨k', hk'⟩
      · exact h.custody.landed i f k hfl
      · rw [World.known_insert rfl] at hk'
        split at hk'
        · cases hk'
        · next hne => exact fun hc => hne (h.custody.apart k' k i (Custody.mem_ids hk') hc)
    exact ⟨row, by rw [htx.findings, if_neg (hids ▸ hi)]; exact hl, hrest⟩

/-! ## Calls -/

/-- A finding that is inserted goes in flight. -/
theorem Books.insertFinding (h : Books w inFlight) {db : Database}
    (hd : w.db.insertFinding id (finding.row k) = some db) :
    Books { w with db } (inFlight.insert id (k, finding)) := by
  obtain ⟨hfresh, rfl⟩ := Database.insertFinding_eq_some hd
  have hold : ∀ i row, w.db.findings.lookup i = some row → i ≠ id := by
    rintro i row hl rfl
    rw [hfresh] at hl
    cases hl
  have hkeep : ∀ i f, w.db.Waiting i f → Database.Waiting
      { w.db with
        findings := w.db.findings.insert id
          { finding.row k with ts := Time.micros (finding.row k).ts } } i f := by
    rintro i f ⟨row, hl, hrest⟩
    exact ⟨row, by rw [Table.lookup_insert_if, if_neg (hold i row hl)]; exact hl, hrest⟩
  refine ⟨?_, h.refs.insertFinding hd, h.custody.depart (i := id) ?_ hkeep ?_⟩
  · intro e ev hev
    refine (h.booked e ev hev).congr ?_ rfl rfl rfl
    intro i row
    rw [Table.lookup_insert_if]
    split
    · next hi =>
      rw [hi, hfresh]
      constructor
      · rintro ⟨hrow, he⟩
        rw [← Option.some.inj hrow] at he
        cases he
      · rintro ⟨hrow, -⟩
        cases hrow
    · rfl
  · rintro g ⟨row, hl, -⟩
    exact hold id row hl rfl
  · rintro i f ⟨k', hfl⟩
    rw [Table.lookup_insert_if] at hfl
    split at hfl
    · next hi =>
      obtain ⟨rfl, rfl⟩ := Prod.mk.injEq .. ▸ Option.some.inj hfl
      exact .inr ⟨hi, _, by rw [Table.lookup_insert_if, if_pos hi], rfl, rfl, rfl⟩
    · exact .inl ⟨k', hfl⟩

variable {cfg : PolicyEngineConfig}

/-- A round of `Sweep` in which nothing fails. -/
theorem Books.swept (h : Books w inFlight) {now : Time} {db : Database}
    (hs : w.states.lookup k = some s) (hsw : SweptOk cfg now s w.db (s', db)) :
    Books { states := w.states.insert k s', db := db.upsertPolicyState k.rowKey s'.row }
      inFlight := by
  cases hsw with
  | drain =>
    have hknown : (s.drain cfg now).known = s.known := rfl
    exact (h.replace (.inr (hknown.trans (World.known_of_lookup hs).symm))).upsert _ _
  | expire => exact (h.replace (.inl rfl)).upsert _ _
  | recover =>
    have hknown : ((s.drain cfg now).enter .recovering now).known = s.known := rfl
    exact (h.replace (.inr (hknown.trans (World.known_of_lookup hs).symm))).upsert _ _
  | close e => exact ((h.closeEvent e now).replace (.inl rfl)).upsert _ _

theorem Books.applyFinding (h : Books w inFlight) (hw : ShowsAlarms w) {env : ApplyEnv}
    (henv : env.Succeeds w) (hfl : inFlight.lookup id = some (k, finding))
    (hkeep : Call.KeepsBooks cfg w (.applyFinding k finding id env)) :
    Books (Argus.step cfg w (.applyFinding k finding id env)) (inFlight.erase id) := by
  obtain ⟨s, s', db, hld, happ, hstep⟩ := @step_applyFinding cfg w hw env henv k finding id
  obtain ⟨hna, hopen⟩ := hkeep s (by rw [hld]; rfl)
  have hknown : s.known = [] ∨ s.known = w.known k := by
    rcases loadState_cases hld with hs | ⟨-, ⟨row, -, rfl⟩ | ⟨-, rfl⟩⟩
    · exact .inr (World.known_of_lookup hs).symm
    · exact .inl row.known_hydrate
    · exact .inl rfl
  -- the finding is noted first, whether or not it opens an event
  have hnote : Books { w with states := w.states.insert k (s.watch cfg finding id) }
      (inFlight.erase id) := by
    rcases s.known_watch cfg finding id with hw' | hw'
    · exact h.note hfl (.inl rfl) (hw'.trans (List.nil_append _).symm)
    · exact h.note hfl hknown hw'
  rw [hstep]
  cases happ with
  | watch => exact hnote.upsert _ _
  | opened tx hq hc htx =>
    obtain ⟨hall, hlen⟩ := hopen hc
    have htrigger : ∃ i, (i, finding) ∈ (s.watch cfg finding id).known := by
      rcases s.known_watch cfg finding id with hw' | hw' <;> exact ⟨id, by simp [hw']⟩
    have hopened := hnote.openEvent (Finmap.lookup_insert _) htx htrigger hall hlen
    simp only [Finmap.insert_insert] at hopened
    exact hopened.upsert _ _
  | attach e hs => exact absurd (.inl hs) hna
  | refire e hs => exact absurd (.inr hs) hna

/-- **A call in which nothing fails keeps the books**, under its condition. -/
theorem Books.step {s : Reporting} (h : Books s.world s.inFlight) (hw : ShowsAlarms s.world)
    {c : Call} (hl : c.Legal s.world) (hok : c.Succeeds s.world) (hrun : c.NotRestart)
    (hrep : s.Reports c) (hkeep : c.KeepsBooks cfg s.world) :
    Books (s.step cfg c).world (s.step cfg c).inFlight := by
  cases c with
  | insertFinding k finding id o =>
    obtain rfl : o = .ok := hok
    dsimp only [Reporting.step]
    rw [step_insertFinding]
    cases hd : s.world.db.insertFinding id (finding.row k) with
    | none => simpa [Argus.insertFinding, hd] using h
    | some db =>
      simpa [Argus.insertFinding, hd, Outcome.exec, Outcome.halt] using h.insertFinding hd
  | applyFinding k finding id env => exact h.applyFinding hw hok hrep hkeep
  | sweep env =>
    dsimp only [Reporting.step]
    exact @step_sweep_invariant cfg s.world env hl hok (fun w => Books w s.inFlight)
      (h.hydrated env.rows) fun w k s s' db hw hs hsw => hw.swept hs hsw
  | restart => exact absurd hrun id

/--
**The aggregates of every event are those of its findings**, in a run without failures.

It takes that no finding is for a series that has an event already, and that an event is opened by
the latest of its findings while the others are in memory.
-/
theorem events_booked (cfg : PolicyEngineConfig) {calls : List Call}
    (henv : Along (Reporting.step cfg)
      (fun s c => c.Legal s.world ∧ c.Succeeds s.world ∧ c.NotRestart ∧ s.Reports c)
      ⟨World.init, ∅⟩ calls)
    (hkeep : Along (Reporting.step cfg) (fun s c => c.KeepsBooks cfg s.world) ⟨World.init, ∅⟩
      calls) :
    Throughout (Reporting.step cfg) (fun s => s.world.db.Booked) ⟨World.init, ∅⟩ calls := by
  have hcalls := along_and.mpr ⟨henv, hkeep⟩
  have hinit : ShowsAlarms World.init ∧ Books World.init ∅ := by
    refine ⟨Pointwise.init _ _, ?_, Referenced.init.findings, ?_, ?_, ?_, ?_, ?_⟩
    all_goals simp [World.init, Database.empty, Database.Booked, World.known]
  have hstep : ∀ (s : Reporting) c, ShowsAlarms s.world ∧ Books s.world s.inFlight →
      (c.Legal s.world ∧ c.Succeeds s.world ∧ c.NotRestart ∧ s.Reports c) ∧
        c.KeepsBooks cfg s.world →
        ShowsAlarms (s.step cfg c).world ∧ Books (s.step cfg c).world (s.step cfg c).inFlight := by
    rintro s c ⟨hw, hb⟩ ⟨⟨hl, hok, hrun, hrep⟩, hkeep⟩
    exact ⟨ShowsAlarms.step hw hl, hb.step hw hl hok hrun hrep hkeep⟩
  exact (throughout_of_invariant hstep hinit hcalls).imp fun s hs => hs.2.booked

end

/-- A finding of the given severity is inserted, and applied when it is observed. -/
def insertAndReport (k : SeriesKey) (ts : Time) (severity : ℚ) (id : Uuid) : List Call :=
  [.insertFinding k { ts, value := 0, severity } id .ok, .report k ts severity id id]

/-- The second finding of agent "a" is attached to the event that the first one opened. -/
def attachedLater : List Call :=
  insertAndReport (pingKey "a") (1000 * second) 6 0 ++
    insertAndReport (pingKey "a") (1001 * second) 7 1

/-- The event keeps the count of one. -/
theorem attachedLater_not_booked :
    ¬ ∀ (cfg : PolicyEngineConfig) (calls : List Call),
      Along (Reporting.step cfg)
        (fun s c => c.Legal s.world ∧ c.Succeeds s.world ∧ c.NotRestart ∧ s.Reports c)
        ⟨World.init, ∅⟩ calls →
        Throughout (Reporting.step cfg) (fun s => s.world.db.Booked) ⟨World.init, ∅⟩ calls := by
  intro h
  have hbooked := (h startConfig attachedLater
    ⟨⟨trivial, rfl, trivial, trivial⟩,
      ⟨trivial, ApplyEnv.succeeds_ok (by decide +kernel), trivial, by decide +kernel⟩,
      ⟨trivial, rfl, trivial, trivial⟩,
      ⟨trivial, ApplyEnv.succeeds_ok (by decide +kernel), trivial, by decide +kernel⟩,
      trivial⟩).last
  obtain ⟨ev, hev, hcount⟩ : ∃ ev ∈ (run (Reporting.step startConfig) ⟨World.init, ∅⟩
      attachedLater).world.db.events.lookup 0, ev.findingCount ≠
        ((run (Reporting.step startConfig) ⟨World.init, ∅⟩
          attachedLater).world.db.attached 0).card := by
    decide +kernel
  exact hcount (hbooked 0 ev hev).findingCount

/-- Two findings of agent "a" open an event together. -/
def openedByTwo : List Call :=
  insertAndReport (pingKey "a") (1000 * second) 3 0 ++
    insertAndReport (pingKey "a") (1001 * second) 4 1

/-- Its aggregates are right. -/
theorem openedByTwo_booked :
    Throughout (Reporting.step startConfig) (fun s => s.world.db.Booked) ⟨World.init, ∅⟩
      openedByTwo :=
  events_booked startConfig
    ⟨⟨trivial, rfl, trivial, trivial⟩,
      ⟨trivial, ApplyEnv.succeeds_ok (by decide +kernel), trivial, by decide +kernel⟩,
      ⟨trivial, rfl, trivial, trivial⟩,
      ⟨trivial, ApplyEnv.succeeds_ok (by decide +kernel), trivial, by decide +kernel⟩, trivial⟩
    (by decide +kernel)

end Cepheus.Argus
