import Cepheus.Argus.Properties.Call

/-!
# The loop of Sweep, entry by entry

What the second loop of `Sweep` leaves behind when it gets to its end, for every entry of the map,
every row and every event.

* `sweepState_eq` - a round is a pure function of the entry, and one write to the tables
* `PolicyState.Blocks` - the only thing that ends the loop early, apart from the end of the process
* `sweepLoop_sweepsAll` - without it, every entry is swept once
-/

namespace Cepheus.Argus

open Infra

/-! ## One round -/

/-- The state that a round of the loop leaves; it does not depend on the tables. -/
def PolicyState.swept (cfg : PolicyEngineConfig) (now : Time) (o : Outcome) (state : PolicyState) :
    PolicyState :=
  if state.status = .watching ∧ cfg.confirmWindow < Time.sub now state.statusUpdatedAt then
    (state.drain cfg now).expire now
  else if state.status = .firing ∧ (cfg.bucket.decay state.bucketState now).crossedClose then
    (state.drain cfg now).enter .recovering now
  else if state.CloseDue cfg now ∧ state.openEventId ≠ none ∧ o = .ok then
    (state.drain cfg now).close now
  else state.drain cfg now

/-- The close of the event is due, and does not go through. -/
def PolicyState.Blocks (cfg : PolicyEngineConfig) (now : Time) (o : Outcome) (state : PolicyState) :
    Prop :=
  state.CloseDue cfg now ∧ state.openEventId ≠ none ∧ o ≠ .ok

/-- The round closes the event `e` in the table. -/
def PolicyState.Closes (cfg : PolicyEngineConfig) (now : Time) (o : Outcome) (state : PolicyState)
    (e : Uuid) : Prop :=
  state.CloseDue cfg now ∧ state.openEventId = some e ∧ o.Applies

instance (cfg : PolicyEngineConfig) (now : Time) (o : Outcome) (state : PolicyState) :
    Decidable (state.Blocks cfg now o) :=
  inferInstanceAs (Decidable (_ ∧ _))

instance (cfg : PolicyEngineConfig) (now : Time) (o : Outcome) (state : PolicyState) (e : Uuid) :
    Decidable (state.Closes cfg now o e) :=
  inferInstanceAs (Decidable (_ ∧ _))

/-- The row of a closed event. -/
def EventRow.close (row : EventRow) (now : Time) : EventRow :=
  { row with status := .closed, closedAt := some (Time.micros now) }

/-- The tables once the round has closed the event of its state, if it does. -/
def PolicyState.closing (cfg : PolicyEngineConfig) (now : Time) (o : Outcome) (state : PolicyState)
    (db : Database) : Database :=
  if state.CloseDue cfg now ∧ o.Applies then
    state.openEventId.elim db fun e => db.closeEvent e now
  else db

section

variable {cfg : PolicyEngineConfig} {now : Time} {o : Outcome} {s : PolicyState} {db : Database}

@[simp] theorem PolicyState.closing_policyStates :
    (s.closing cfg now o db).policyStates = db.policyStates := by
  unfold PolicyState.closing
  split
  · cases s.openEventId <;> rfl
  · rfl

@[simp] theorem PolicyState.closing_findings :
    (s.closing cfg now o db).findings = db.findings := by
  unfold PolicyState.closing
  split
  · cases s.openEventId <;> rfl
  · rfl

theorem PolicyState.lookup_closing (e : Uuid) :
    (s.closing cfg now o db).events.lookup e =
      if s.Closes cfg now o e then (db.events.lookup e).map (EventRow.close · now)
      else db.events.lookup e := by
  by_cases hc : s.Closes cfg now o e
  · obtain ⟨hd, he, ho⟩ := id hc
    rw [if_pos hc, PolicyState.closing, if_pos ⟨hd, ho⟩, he]
    simp [Database.closeEvent, Table.lookup_adjust, EventRow.close]
  · rw [if_neg hc]
    unfold PolicyState.closing
    split
    · next hd =>
      cases he : s.openEventId with
      | none => rfl
      | some e' =>
        have hne : e ≠ e' := fun h => hc ⟨hd.1, h ▸ he, hd.2⟩
        simp [Database.closeEvent, Table.lookup_adjust, hne]
    · rfl

/-- A way of `Swept` is determined by the entry. -/
theorem Swept.eq {r : PolicyState × Database × Option Halt} (h : Swept cfg now o s db r) :
    r = (s.swept cfg now o, s.closing cfg now o db,
      if s.Blocks cfg now o then o.halt .closeEvent else none) := by
  cases h with
  | drain hs hf hr =>
    have hb : ¬ s.Blocks cfg now o := fun hb => hb.2.1 (hr hb.1)
    have hc : s.closing cfg now o db = db := by
      unfold PolicyState.closing
      split
      · next hc => rw [hr hc.1]; rfl
      · rfl
    have hsw : s.swept cfg now o = s.drain cfg now := by
      unfold PolicyState.swept
      rw [if_neg hs, if_neg, if_neg]
      · exact fun hc => hc.2.1 (hr hc.1)
      · exact fun hc => by simp [hf hc.1] at hc
    rw [hsw, hc, if_neg hb]
  | expire hs hw =>
    have hnd : ¬ s.CloseDue cfg now := by simp [PolicyState.CloseDue, hs]
    simp [PolicyState.swept, PolicyState.closing, PolicyState.Blocks, hs, hw, hnd]
  | recover hs hc =>
    have hnd : ¬ s.CloseDue cfg now := by simp [PolicyState.CloseDue, hs]
    simp [PolicyState.swept, PolicyState.closing, PolicyState.Blocks, hs, hc, hnd]
  | close e hs he ho =>
    simp [PolicyState.swept, PolicyState.closing, PolicyState.Blocks, hs, he, ho, hs.1,
      Outcome.Applies]
  | unclosed e hs he ho =>
    simp [PolicyState.swept, PolicyState.closing, PolicyState.Blocks, hs, he, ho, hs.1]

/-- **A round of the loop up to the save**, as a function of the entry. -/
theorem sweepState_eq (cfg : PolicyEngineConfig) (now : Time) (o : Outcome) (s : PolicyState)
    (db : Database) :
    sweepState cfg now o s db =
      (s.swept cfg now o, s.closing cfg now o db,
        if s.Blocks cfg now o then o.halt .closeEvent else none) :=
  sweepState_swept.eq

end

/-! ## One round, with the save -/

section

variable {cfg : PolicyEngineConfig} {env : SweepEnv} {k : SeriesKey} {w : World} {s : PolicyState}

/-- The sweep of `k` ends with an error of `CloseEvent`. -/
theorem sweepOne_of_blocks (hs : w.states.lookup k = some s)
    (hb : s.Blocks cfg env.now (env.closeEvent k)) :
    sweepOne cfg env k w =
      ({ states := w.states.insert k (s.swept cfg env.now (env.closeEvent k))
         db := s.closing cfg env.now (env.closeEvent k) w.db },
        (env.closeEvent k).halt .closeEvent) := by
  unfold sweepOne
  rw [hs]
  simp only [sweepState_eq, if_pos hb]
  cases ho : env.closeEvent k with
  | ok => exact absurd ho hb.2.2
  | failed => rfl
  | lost => rfl
  | crash => rfl

/-- The sweep of `k` gets as far as the save, and the process survives it. -/
theorem sweepOne_of_free (hs : w.states.lookup k = some s)
    (hb : ¬ s.Blocks cfg env.now (env.closeEvent k)) (hc : env.upsert k ≠ .crash) :
    sweepOne cfg env k w =
      ({ states := w.states.insert k (s.swept cfg env.now (env.closeEvent k))
         db := saved (env.upsert k) k (s.swept cfg env.now (env.closeEvent k))
           (s.closing cfg env.now (env.closeEvent k) w.db) }, none) := by
  unfold sweepOne
  rw [hs]
  simp only [sweepState_eq, if_neg hb, savePolicyState, Outcome.exec, saved]
  cases ho : env.upsert k with
  | ok => rfl
  | failed => rfl
  | lost => rfl
  | crash => exact absurd ho hc

end

/-! ## The loop -/

/-- No round over `order` ends the loop: every close that is due goes through, and the process
survives. -/
def Unblocked (cfg : PolicyEngineConfig) (env : SweepEnv) (order : List SeriesKey) (w : World) :
    Prop :=
  ∀ k ∈ order, ∀ s, w.states.lookup k = some s →
    ¬ s.Blocks cfg env.now (env.closeEvent k) ∧ env.upsert k ≠ .crash

/-- What the loop leaves when it sweeps every entry of `order` once. -/
structure SweepsAll (cfg : PolicyEngineConfig) (env : SweepEnv) (order : List SeriesKey)
    (w w' : World) : Prop where
  states : ∀ k, w'.states.lookup k =
    if k ∈ order then (w.states.lookup k).map (·.swept cfg env.now (env.closeEvent k))
    else w.states.lookup k
  /-- A row is what one of the entries saved, or no entry has saved it. -/
  rows : ∀ r,
    (∃ k ∈ order, ∃ s, w.states.lookup k = some s ∧ k.rowKey = r ∧ (env.upsert k).Applies ∧
        w'.db.policyStates.lookup r = some (s.swept cfg env.now (env.closeEvent k)).stored) ∨
      (∀ k ∈ order, ∀ s, w.states.lookup k = some s → k.rowKey = r → ¬ (env.upsert k).Applies) ∧
        w'.db.policyStates.lookup r = w.db.policyStates.lookup r
  closed : ∀ k ∈ order, ∀ s e, w.states.lookup k = some s →
    s.Closes cfg env.now (env.closeEvent k) e →
      w'.db.events.lookup e = (w.db.events.lookup e).map (EventRow.close · env.now)
  kept : ∀ e, (∀ k ∈ order, ∀ s, w.states.lookup k = some s →
      ¬ s.Closes cfg env.now (env.closeEvent k) e) →
    w'.db.events.lookup e = w.db.events.lookup e
  findings : w'.db.findings = w.db.findings

section

variable {cfg : PolicyEngineConfig} {env : SweepEnv} {w : World}

theorem sweepLoop_append {order rest : List SeriesKey} :
    ∀ {w : World}, (sweepLoop cfg env order w).2 = none →
      sweepLoop cfg env (order ++ rest) w =
        sweepLoop cfg env rest (sweepLoop cfg env order w).1 := by
  induction order with
  | nil => intro w _; rfl
  | cons k order ih =>
    intro w h
    simp only [sweepLoop, List.cons_append] at h ⊢
    rcases hx : sweepOne cfg env k w with ⟨w', _ | x⟩
    · rw [hx] at h
      exact ih h
    · rw [hx] at h
      cases h

/-- One round sweeps one entry. -/
theorem sweepOne_sweepsAll {k : SeriesKey} (hu : Unblocked cfg env [k] w) :
    (sweepOne cfg env k w).2 = none ∧ SweepsAll cfg env [k] w (sweepOne cfg env k w).1 := by
  cases hs : w.states.lookup k with
  | none =>
    rw [sweepOne_of_none hs]
    refine ⟨rfl, ?_, fun r => .inr ⟨?_, rfl⟩, ?_, fun _ _ => rfl, rfl⟩
    · intro k'
      by_cases hk : k' = k
      · subst hk; simp [hs]
      · simp [hk]
    · simp [hs]
    · simp [hs]
  | some s =>
    obtain ⟨hb, hc⟩ := hu k (by simp) s hs
    rw [sweepOne_of_free hs hb hc]
    refine ⟨rfl, ?_, ?_, ?_, ?_, by simp⟩
    · intro k'
      rw [Table.lookup_insert_if]
      by_cases hk : k' = k
      · subst hk; simp [hs]
      · simp [hk]
    · intro r
      rw [lookup_saved, PolicyState.closing_policyStates]
      by_cases hr : r = k.rowKey ∧ (env.upsert k).Applies
      · exact .inl ⟨k, by simp, s, hs, hr.1.symm, hr.2, if_pos hr⟩
      · refine .inr ⟨?_, if_neg hr⟩
        simp only [List.mem_singleton]
        rintro k' rfl _ _ hrow ho
        exact hr ⟨hrow.symm, ho⟩
    · simp only [List.mem_singleton]
      rintro k' rfl s' e hs' hcl
      obtain rfl : s = s' := Option.some.inj (hs ▸ hs')
      rw [saved_events, PolicyState.lookup_closing, if_pos hcl]
    · intro e he
      rw [saved_events, PolicyState.lookup_closing, if_neg (he k (by simp) s hs)]

/-- Sweeps of different entries add up. -/
theorem SweepsAll.trans {l l' : List SeriesKey} {w₁ w₂ : World} (hd : l.Disjoint l')
    (h₁ : SweepsAll cfg env l w w₁) (h₂ : SweepsAll cfg env l' w₁ w₂) :
    SweepsAll cfg env (l ++ l') w w₂ := by
  have hsame : ∀ k ∈ l', w₁.states.lookup k = w.states.lookup k := fun k hk => by
    rw [h₁.states k, if_neg fun hc => hd hc hk]
  refine ⟨?_, ?_, ?_, ?_, h₂.findings.trans h₁.findings⟩
  · intro k
    rw [h₂.states k, h₁.states k]
    by_cases hl : k ∈ l
    · have hl' : k ∉ l' := fun hc => hd hl hc
      simp [hl, hl']
    · simp [hl]
  · intro r
    rcases h₂.rows r with ⟨k, hk, s, hs, hrest⟩ | ⟨hno, hrow⟩
    · exact .inl ⟨k, by simp [hk], s, hsame k hk ▸ hs, hrest⟩
    · rcases h₁.rows r with ⟨k, hk, s, hs, hr, ho, hrow₁⟩ | ⟨hno₁, hrow₁⟩
      · exact .inl ⟨k, by simp [hk], s, hs, hr, ho, hrow.trans hrow₁⟩
      · refine .inr ⟨?_, hrow.trans hrow₁⟩
        intro k hk s hs
        rcases List.mem_append.mp hk with hk | hk
        · exact hno₁ k hk s hs
        · exact hno k hk s ((hsame k hk).trans hs)
  · intro k hk s e hs hcl
    -- an event closed twice at one time is closed once
    have hclose : (w₁.db.events.lookup e).map (EventRow.close · env.now) =
        (w.db.events.lookup e).map (EventRow.close · env.now) := by
      by_cases hex : ∃ k ∈ l, ∃ s, w.states.lookup k = some s ∧
          s.Closes cfg env.now (env.closeEvent k) e
      · obtain ⟨k, hk, s, hs, hcl⟩ := hex
        rw [h₁.closed k hk s e hs hcl, Option.map_map]
        rfl
      · rw [h₁.kept e fun k hk s hs hcl => hex ⟨k, hk, s, hs, hcl⟩]
    rcases List.mem_append.mp hk with hk | hk
    · by_cases hex : ∃ k ∈ l', ∃ s, w₁.states.lookup k = some s ∧
          s.Closes cfg env.now (env.closeEvent k) e
      · obtain ⟨k', hk', s', hs', hcl'⟩ := hex
        rw [h₂.closed k' hk' s' e hs' hcl', hclose]
      · rw [h₂.kept e fun k' hk' s' hs' hcl' => hex ⟨k', hk', s', hs', hcl'⟩,
          h₁.closed k hk s e hs hcl]
    · rw [h₂.closed k hk s e ((hsame k hk).trans hs) hcl, hclose]
  · intro e he
    rw [h₂.kept e fun k hk s hs => he k (by simp [hk]) s (hsame k hk ▸ hs),
      h₁.kept e fun k hk s hs => he k (by simp [hk]) s hs]

/-- **A loop that nothing ends sweeps every entry once.** -/
theorem sweepLoop_sweepsAll {order : List SeriesKey} :
    ∀ {w : World}, order.Nodup → Unblocked cfg env order w →
      (sweepLoop cfg env order w).2 = none ∧
        SweepsAll cfg env order w (sweepLoop cfg env order w).1 := by
  induction order with
  | nil =>
    intro w _ _
    exact ⟨rfl, by simp [sweepLoop], fun r => .inr ⟨by simp, rfl⟩, by simp, fun _ _ => rfl, rfl⟩
  | cons k order ih =>
    intro w hnd hu
    rw [List.nodup_cons] at hnd
    have hne : ∀ k' ∈ order, k' ≠ k := fun k' hk' h => hnd.1 (h ▸ hk')
    obtain ⟨hone, hall⟩ := @sweepOne_sweepsAll cfg env w k
      fun k' hk' => hu k' (by simp_all)
    obtain ⟨hn, hrest⟩ := ih hnd.2 (w := (sweepOne cfg env k w).1) fun k' hk' s hs =>
      hu k' (by simp [hk']) s (by rwa [sweepOne_lookup_of_ne (hne k' hk')] at hs)
    have hloop : sweepLoop cfg env (k :: order) w =
        sweepLoop cfg env order (sweepOne cfg env k w).1 := by
      simp only [sweepLoop]
      rcases hx : sweepOne cfg env k w with ⟨w', _ | x⟩
      · rfl
      · rw [hx] at hone; cases hone
    rw [hloop]
    exact ⟨hn, hall.trans (by simpa using hnd.1) hrest⟩

/-- The loop gets to its end just when no round ends it. -/
theorem sweepLoop_eq_none_iff {order : List SeriesKey} (hnd : order.Nodup) :
    (sweepLoop cfg env order w).2 = none ↔ Unblocked cfg env order w := by
  refine ⟨?_, fun hu => (sweepLoop_sweepsAll hnd hu).1⟩
  induction order generalizing w with
  | nil => intro _ k hk; simp at hk
  | cons k order ih =>
    intro h k' hk' s hs
    rw [List.nodup_cons] at hnd
    simp only [sweepLoop] at h
    rcases hx : sweepOne cfg env k w with ⟨w', _ | x⟩
    · rw [hx] at h
      rcases List.mem_cons.mp hk' with rfl | hk'
      · by_cases hb : s.Blocks cfg env.now (env.closeEvent k')
        · have hone := sweepOne_of_blocks hs hb
          rw [hx] at hone
          cases ho : env.closeEvent k' with
          | ok => exact absurd ho hb.2.2
          | failed => simp [ho, Outcome.halt] at hone
          | lost => simp [ho, Outcome.halt] at hone
          | crash => simp [ho, Outcome.halt] at hone
        · refine ⟨hb, ?_⟩
          intro hc
          have hone : (sweepOne cfg env k' w).2 = some .crash := by
            simp [sweepOne, hs, sweepState_eq, hb, savePolicyState, Outcome.exec, hc, Outcome.halt]
          rw [hx] at hone
          cases hone
      · have hne : k' ≠ k := fun he => hnd.1 (he ▸ hk')
        have hs' : w'.states.lookup k' = some s := by
          rw [← hs, ← @sweepOne_lookup_of_ne cfg env k k' w hne, hx]
        exact ih hnd.2 h k' hk' s hs'
    · rw [hx] at h
      cases h

/-- What comes after a round that ends the loop does not happen. -/
theorem sweepLoop_append_of_halt {order rest : List SeriesKey}
    (h : (sweepLoop cfg env order w).2 ≠ none) :
    sweepLoop cfg env (order ++ rest) w = sweepLoop cfg env order w := by
  induction order generalizing w with
  | nil => exact absurd rfl h
  | cons k order ih =>
    simp only [sweepLoop, List.cons_append] at h ⊢
    rcases hx : sweepOne cfg env k w with ⟨w', _ | x⟩
    · rw [hx] at h
      exact ih h
    · rfl

end

/-! ## The entries a sweep gets to -/

/-- The sweep gets as far as the entry `k`: the rows are listed, and no round before that of `k`
ends the loop. -/
def SweepEnv.Reaches (cfg : PolicyEngineConfig) (env : SweepEnv) (w : World) (k : SeriesKey) :
    Prop :=
  env.listNonClean = .ok ∧ k ∈ env.order ∧
    Unblocked cfg env (env.order.takeWhile (· ≠ k)) (w.hydrated env.rows)

section

variable {cfg : PolicyEngineConfig} {env : SweepEnv} {w : World} {k : SeriesKey}

/-- The entries visited before `k`, and those after it. -/
theorem exists_eq_takeWhile_append {order : List SeriesKey} (hnd : order.Nodup) (hk : k ∈ order) :
    ∃ pre rest, order.takeWhile (· ≠ k) = pre ∧ order = pre ++ k :: rest ∧ pre.Nodup ∧ k ∉ pre ∧
      k ∉ rest := by
  obtain ⟨pre, rest, rfl⟩ := List.append_of_mem hk
  obtain ⟨hpre, hrest, hne⟩ := List.nodup_append.mp hnd
  refine ⟨pre, rest, ?_, rfl, hpre, fun hc => hne k hc k (by simp) rfl,
    (List.nodup_cons.mp hrest).1⟩
  rw [List.takeWhile_append_of_pos]
  · simp
  · intro a ha
    simpa using hne a ha k (by simp)

/-- The entry that is swept in a round, however the round ends. -/
theorem sweepOne_lookup_self {s : PolicyState} (hs : w.states.lookup k = some s) :
    (sweepOne cfg env k w).1.states.lookup k =
      some (s.swept cfg env.now (env.closeEvent k)) := by
  rcases sweepOne_cases cfg env k w with ⟨hn, -⟩ | ⟨s₀, s', db, hs₀, ⟨h, hsw, he⟩ | ⟨hsw, he⟩⟩
  · rw [hs] at hn
    cases hn
  all_goals
    obtain rfl : s = s₀ := Option.some.inj (hs ▸ hs₀)
    rw [he, Table.lookup_insert_if, if_pos rfl, (Prod.mk.inj hsw.eq).1]

/-- An entry the sweep gets to is swept. -/
theorem sweep_lookup_of_reaches (hl : env.Legal w) (hr : env.Reaches cfg w k) {s : PolicyState}
    (hs : (w.hydrated env.rows).states.lookup k = some s) :
    (sweep cfg env w).1.states.lookup k = some (s.swept cfg env.now (env.closeEvent k)) := by
  obtain ⟨hlist, hk, hu⟩ := hr
  obtain ⟨pre, rest, hpre, hsplit, hnd, hkpre, hkrest⟩ :=
    exists_eq_takeWhile_append hl.order_nodup hk
  rw [hpre] at hu
  have hs' : (sweepLoop cfg env pre (w.hydrated env.rows)).1.states.lookup k = some s := by
    rw [sweepLoop_lookup_of_notMem hkpre, hs]
  have hswept := @sweepOne_lookup_self cfg env _ k s hs'
  rw [sweep_of_listed hlist, hsplit, sweepLoop_append (sweepLoop_sweepsAll hnd hu).1]
  simp only [sweepLoop]
  split
  · next hx => rw [hx] at hswept; exact hswept
  · next hx => rw [hx] at hswept; rw [sweepLoop_lookup_of_notMem hkrest]; exact hswept

/-- An entry the sweep does not get to stays as it is. -/
theorem sweep_lookup_of_not_reaches (hl : env.Legal w) (hlist : env.listNonClean = .ok)
    (hr : ¬ env.Reaches cfg w k) :
    (sweep cfg env w).1.states.lookup k = (w.hydrated env.rows).states.lookup k := by
  rw [sweep_of_listed hlist]
  by_cases hk : k ∈ env.order
  · obtain ⟨pre, rest, hpre, hsplit, hnd, hkpre, -⟩ :=
      exists_eq_takeWhile_append hl.order_nodup hk
    have hhalt : (sweepLoop cfg env pre (w.hydrated env.rows)).2 ≠ none := fun hn =>
      hr ⟨hlist, hk, by rw [hpre]; exact (sweepLoop_eq_none_iff hnd).mp hn⟩
    rw [hsplit, sweepLoop_append_of_halt hhalt, sweepLoop_lookup_of_notMem hkpre]
  · rw [sweepLoop_lookup_of_notMem hk]

end

end Cepheus.Argus
