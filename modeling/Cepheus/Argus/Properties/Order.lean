import Cepheus.Argus.Properties.Sweep

/-!
# Sweep and the iteration order

Go visits a map in any order. `Sweep` returns as soon as an event cannot be closed, and several
keys can stand for one row, so the order can matter.

* `Separable` - when it does not, in terms of what the loop finds: where a round ends the sweep,
  there is nothing to do for the other entries, and the entries of one row are in line with each
  other
* `RoundsApart` - the same, in terms of what the rounds do
* `sweep_independent_iff` - and this is exactly when
-/

namespace Cepheus.Argus

open Infra

/-- An order in which the runtime can visit the map. -/
def World.Order (w : World) (order : List SeriesKey) : Prop :=
  order.Nodup ∧ order.toFinset = w.states.keys

instance (w : World) (order : List SeriesKey) : Decidable (w.Order order) :=
  inferInstanceAs (Decidable (_ ∧ _))

/-- The engine with the entries of one persisted series alone in its map. -/
def World.only (r : RowKey) (w : World) : World :=
  { w with states := w.states.filter fun k => k.rowKey = r }

/-- No two entries of the map stand for the same row. -/
def World.NoAlias (w : World) : Prop :=
  ∀ k ∈ w.states.keys, ∀ k' ∈ w.states.keys, k.rowKey = k'.rowKey → k = k'

instance : DecidablePred World.NoAlias := fun w =>
  inferInstanceAs (Decidable (∀ k ∈ w.states.keys, ∀ k' ∈ w.states.keys, _ → _))

/-- The same surroundings, with the map visited in the given order. -/
def SweepEnv.visiting (env : SweepEnv) (order : List SeriesKey) : SweepEnv := { env with order }

/--
`Sweep` does not depend on the iteration order, and treats every series as if it were the only
one.

The map that is iterated is the one the first loop of `Sweep` leaves. A series is a row of
`argus_policy_state`; its entries are the keys that stand for it.
-/
structure Independent (cfg : PolicyEngineConfig) (env : SweepEnv) (w : World) : Prop where
  order : ∀ o₁ o₂, (w.hydrated env.rows).Order o₁ → (w.hydrated env.rows).Order o₂ →
    (sweep cfg (env.visiting o₁) w).1 = (sweep cfg (env.visiting o₂) w).1
  series : ∀ o r o', (w.hydrated env.rows).Order o → ((w.hydrated env.rows).only r).Order o' →
    (∀ k, k.rowKey = r → (sweep cfg (env.visiting o) w).1.states.lookup k =
        (sweepLoop cfg env o' ((w.hydrated env.rows).only r)).1.states.lookup k) ∧
      (sweep cfg (env.visiting o) w).1.db.policyStates.lookup r =
        (sweepLoop cfg env o' ((w.hydrated env.rows).only r)).1.db.policyStates.lookup r

/-! ## What the loop finds -/

namespace PolicyState

variable (cfg : PolicyEngineConfig) (now : Time) (s : PolicyState)

/-- The confirm window of the state is over. -/
def Expires : Prop := s.status = .watching ∧ cfg.confirmWindow < Time.sub now s.statusUpdatedAt

/-- The score has been over the closing threshold, and has drained below it. -/
def Recovers : Prop :=
  s.status = .firing ∧ cfg.bucket.closeThreshold ≤ s.bucketState.score ∧
    cfg.bucket.decayed s.bucketState now < cfg.bucket.closeThreshold

/-- The state has an event, and its close is due. -/
def Finishes : Prop := s.CloseDue cfg now ∧ s.openEventId ≠ none

instance : Decidable (s.Expires cfg now) := inferInstanceAs (Decidable (_ ∧ _))

instance : Decidable (s.Recovers cfg now) := inferInstanceAs (Decidable (_ ∧ _ ∧ _))

instance : Decidable (s.Finishes cfg now) := inferInstanceAs (Decidable (_ ∧ _))

/-- The score is that of `now`. -/
def ScoreCurrent : Prop := s.bucketState.scoreUpdatedAt = now ∧ 0 ≤ s.bucketState.score

/-- There is nothing to do for the state. -/
structure UpToDate : Prop where
  score : s.ScoreCurrent now
  expires : ¬ s.Expires cfg now
  finishes : ¬ s.Finishes cfg now

end PolicyState

/-- The transition that is due for a state. -/
inductive Due where
  | expire
  | recover
  | finish
  | stay
deriving DecidableEq, Repr

def PolicyState.due (cfg : PolicyEngineConfig) (now : Time) (s : PolicyState) : Due :=
  if s.Expires cfg now then .expire
  else if s.Recovers cfg now then .recover
  else if s.Finishes cfg now then .finish
  else .stay

/-- The state has been clean since `now`, with nothing pending. -/
def PolicyState.CleanSince (now : Time) (s : PolicyState) : Prop :=
  s.status = .clean ∧ Time.micros s.statusUpdatedAt = Time.micros now ∧ s.pendingFindings = []

/-- The scores of two states at `now` are the same, and so are their events and the ids of what is
pending. -/
def PolicyState.SameMeasure (cfg : PolicyEngineConfig) (now : Time) (s s' : PolicyState) : Prop :=
  cfg.bucket.decayed s.bucketState now = cfg.bucket.decayed s'.bucketState now ∧
    s.openEventId = s'.openEventId ∧
    s.pendingFindings.map PendingFinding.id = s'.pendingFindings.map PendingFinding.id

/-- A state for which a transition is due is in line with one that stays as it is: it has the event,
the score and the status that the transition leads to, since `now`. -/
def PolicyState.InLine (cfg : PolicyEngineConfig) (now : Time) (s s' : PolicyState) : Due → Prop
  | .expire => s'.CleanSince now ∧ s.openEventId = s'.openEventId ∧
    cfg.bucket.decayed s'.bucketState now = 0
  | .recover => s'.status = .recovering ∧ Time.micros s'.statusUpdatedAt = Time.micros now ∧
    s.SameMeasure cfg now s'
  | .finish => s'.CleanSince now ∧ s'.openEventId = none ∧
    cfg.bucket.decayed s.bucketState now = cfg.bucket.decayed s'.bucketState now
  | .stay => s.status = s'.status ∧
    Time.micros s.statusUpdatedAt = Time.micros s'.statusUpdatedAt ∧ s.SameMeasure cfg now s'

/-- **When two states lead to the same row**, by the transitions that are due for them. -/
def PolicyState.Alike (cfg : PolicyEngineConfig) (now : Time) (s s' : PolicyState) : Prop :=
  match s.due cfg now, s'.due cfg now with
  | .expire, .expire => s.openEventId = s'.openEventId
  | .recover, .recover => s.SameMeasure cfg now s'
  | .finish, .finish =>
    cfg.bucket.decayed s.bucketState now = cfg.bucket.decayed s'.bucketState now
  | .expire, .finish => s.openEventId = none ∧ cfg.bucket.decayed s'.bucketState now = 0
  | .finish, .expire => s'.openEventId = none ∧ cfg.bucket.decayed s.bucketState now = 0
  | .expire, .recover | .recover, .expire | .recover, .finish | .finish, .recover => False
  | due, .stay => s.InLine cfg now s' due
  | .stay, due => s'.InLine cfg now s due

/-- The event is closed, since `now`. -/
def EventRow.ClosedSince (now : Time) (row : EventRow) : Prop :=
  row.status = .closed ∧ row.closedAt = some (Time.micros now)

/-- The entries of a map do not get into each other's way. -/
structure Separable (cfg : PolicyEngineConfig) (env : SweepEnv) (w : World) : Prop where
  /-- Where an event cannot be closed, there is nothing to do for an entry without such an event;
  and its row, if the upsert takes effect, is what its state is. -/
  idle : ∀ k₀ s₀ k s, w.states.lookup k₀ = some s₀ → w.states.lookup k = some s →
    s₀.Blocks cfg env.now (env.closeEvent k₀) → ¬ s.Blocks cfg env.now (env.closeEvent k) →
      s.UpToDate cfg env.now ∧
        ((env.upsert k).Applies → w.db.policyStates.lookup k.rowKey = some s.stored)
  /-- Where two events cannot be closed, the scores are those of now. A close that takes effect all
  the same is that of both, or the event was closed at this time before. -/
  closes : ∀ k₀ s₀ k s, w.states.lookup k₀ = some s₀ → w.states.lookup k = some s → k ≠ k₀ →
    s₀.Blocks cfg env.now (env.closeEvent k₀) → s.Blocks cfg env.now (env.closeEvent k) →
      s.ScoreCurrent env.now ∧
        ∀ e row, w.db.events.lookup e = some row →
          (s.Closes cfg env.now (env.closeEvent k) e ↔
            s₀.Closes cfg env.now (env.closeEvent k₀) e) ∨ row.ClosedSince env.now
  /-- Entries of one row that are both saved lead to the same row. -/
  rows : ∀ k s k' s', w.states.lookup k = some s → w.states.lookup k' = some s' →
    k.rowKey = k'.rowKey →
    ¬ s.Blocks cfg env.now (env.closeEvent k) → ¬ s'.Blocks cfg env.now (env.closeEvent k') →
    (env.upsert k).Applies → (env.upsert k').Applies → s.Alike cfg env.now s'

/-! ## What the rounds do -/

/-- The rounds of the entries of a map do not get into each other's way. -/
structure RoundsApart (cfg : PolicyEngineConfig) (env : SweepEnv) (w : World) : Prop where
  /-- Where an event cannot be closed, the round of any other entry would change nothing, or just
  what this one changes. -/
  closes : ∀ k₀ s₀ k s, w.states.lookup k₀ = some s₀ → w.states.lookup k = some s → k ≠ k₀ →
    s₀.Blocks cfg env.now (env.closeEvent k₀) →
      (sweepOne cfg env k w).1 = w ∨ (sweepOne cfg env k w).1 = (sweepOne cfg env k₀ w).1
  /-- Entries of one row that are both saved are saved alike. -/
  rows : ∀ k s k' s', w.states.lookup k = some s → w.states.lookup k' = some s' →
    k.rowKey = k'.rowKey →
    ¬ s.Blocks cfg env.now (env.closeEvent k) → ¬ s'.Blocks cfg env.now (env.closeEvent k') →
    (env.upsert k).Applies → (env.upsert k').Applies →
      (s.swept cfg env.now (env.closeEvent k)).stored =
        (s'.swept cfg env.now (env.closeEvent k')).stored

section

variable {cfg : PolicyEngineConfig} {env : SweepEnv} {w : World} {k k₀ : SeriesKey}
  {s s₀ : PolicyState} {r : RowKey}

/-! ## Orders and series -/

theorem World.Order.mem {order : List SeriesKey} (h : w.Order order) :
    k ∈ order ↔ ∃ s, w.states.lookup k = some s := by
  rw [← List.mem_toFinset, h.2, Table.mem_keys]

theorem World.lookup_only (r : RowKey) (w : World) (k : SeriesKey) :
    (w.only r).states.lookup k = if k.rowKey = r then w.states.lookup k else none :=
  Table.lookup_filter _ _ _

theorem World.lookup_only_self (w : World) (hk : k.rowKey = r) :
    (w.only r).states.lookup k = w.states.lookup k := by
  rw [World.lookup_only, if_pos hk]

/-- An entry of one series is an entry of the whole map. -/
theorem World.lookup_of_only (h : (w.only r).states.lookup k = some s) :
    k.rowKey = r ∧ w.states.lookup k = some s := by
  rw [World.lookup_only] at h
  split at h
  · next hr => exact ⟨hr, h⟩
  · cases h

theorem sweepLoop_visiting (o : List SeriesKey) :
    ∀ (order : List SeriesKey) (w : World),
      sweepLoop cfg (env.visiting o) order w = sweepLoop cfg env order w := by
  intro order
  induction order with
  | nil => intro w; rfl
  | cons k order ih =>
    intro w
    have hone : sweepOne cfg (env.visiting o) k w = sweepOne cfg env k w := rfl
    simp only [sweepLoop, hone]
    split
    · rfl
    · exact ih _

/-- With its rows listed, `Sweep` is its loop. -/
theorem sweep_visiting (hl : env.listNonClean = .ok) (o : List SeriesKey) (w : World) :
    sweep cfg (env.visiting o) w = sweepLoop cfg env o (w.hydrated env.rows) := by
  rw [sweep_of_listed (show (env.visiting o).listNonClean = .ok from hl)]
  exact sweepLoop_visiting o o _

/-! ## Rounds that change nothing -/

/-- The process survives the sweep. -/
def SweepEnv.Survives (env : SweepEnv) : Prop :=
  ∀ k, env.closeEvent k ≠ .crash ∧ env.upsert k ≠ .crash

/-- A round that cannot close its event saves nothing. -/
theorem sweepOne_policyStates_of_blocks (hs : w.states.lookup k = some s)
    (hb : s.Blocks cfg env.now (env.closeEvent k)) :
    (sweepOne cfg env k w).1.db.policyStates = w.db.policyStates := by
  rw [sweepOne_of_blocks hs hb]
  exact PolicyState.closing_policyStates

/-- A state that a round leaves as it is has no event that the round closes. -/
theorem PolicyState.closing_of_swept_eq {now : Time} {o : Outcome} {db : Database}
    (hb : ¬ s.Blocks cfg now o) (h : s.swept cfg now o = s) : s.closing cfg now o db = db := by
  unfold PolicyState.closing
  split
  · next hd =>
    cases he : s.openEventId with
    | none => rfl
    | some e =>
      have ho : o = .ok := by
        by_contra ho
        exact hb ⟨hd.1, by simp [he], ho⟩
      have hclean : (s.swept cfg now o).status = .clean := by
        simp [PolicyState.swept, PolicyState.close, hd.1, hd.1.1, he, ho]
      rw [h, hd.1.1] at hclean
      cases hclean
  · rfl

theorem insert_of_lookup (hs : w.states.lookup k = some s) : w.states.insert k s = w.states := by
  refine Finmap.ext_lookup ?_
  intro k'
  rw [Table.lookup_insert_if]
  split
  · next hk => rw [hk, hs]
  · rfl

/-- A round that leaves the state and the rows as they are changes nothing at all. -/
theorem sweepOne_eq_self (hv : env.Survives) (hs : w.states.lookup k = some s)
    (hb : ¬ s.Blocks cfg env.now (env.closeEvent k))
    (hst : s.swept cfg env.now (env.closeEvent k) = s)
    (hrow : (sweepOne cfg env k w).1.db.policyStates = w.db.policyStates) :
    sweepOne cfg env k w = (w, none) := by
  have hone := sweepOne_of_free hs hb (hv k).2
  rw [hone] at hrow ⊢
  rw [hst, PolicyState.closing_of_swept_eq hb hst] at hrow ⊢
  have hdb : saved (env.upsert k) k s w.db = w.db := by
    refine Database.ext hrow ?_ ?_
    · exact saved_events ..
    · exact saved_findings ..
  rw [insert_of_lookup hs, hdb]

/-- A round that changes no more than one that ends the sweep changes nothing, unless it ends the
sweep itself. -/
theorem sweepOne_idle (hv : env.Survives) (hs₀ : w.states.lookup k₀ = some s₀)
    (hb₀ : s₀.Blocks cfg env.now (env.closeEvent k₀)) (hs : w.states.lookup k = some s)
    (hb : ¬ s.Blocks cfg env.now (env.closeEvent k)) (hne : k ≠ k₀)
    (h : (sweepOne cfg env k w).1 = w ∨ (sweepOne cfg env k w).1 = (sweepOne cfg env k₀ w).1) :
    sweepOne cfg env k w = (w, none) := by
  have hone := sweepOne_of_free hs hb (hv k).2
  rcases h with heq | heq
  · exact Prod.ext heq (by rw [hone])
  · -- the round of `k₀` changes neither the state of `k` nor any row
    refine sweepOne_eq_self hv hs hb ?_ ?_
    · have hk : (sweepOne cfg env k w).1.states.lookup k =
          (sweepOne cfg env k₀ w).1.states.lookup k := by rw [heq]
      rw [sweepOne_lookup_of_ne hne, hone, hs, Table.lookup_insert_if, if_pos rfl] at hk
      exact Option.some.inj hk
    · rw [heq, sweepOne_policyStates_of_blocks hs₀ hb₀]

/-- An entry whose round ends the sweep is not one whose round does not. -/
theorem ne_of_blocks (hs₀ : w.states.lookup k₀ = some s₀)
    (hb₀ : s₀.Blocks cfg env.now (env.closeEvent k₀)) (hs : w.states.lookup k = some s)
    (hb : ¬ s.Blocks cfg env.now (env.closeEvent k)) : k ≠ k₀ := by
  rintro rfl
  obtain rfl : s = s₀ := Option.some.inj (hs ▸ hs₀)
  exact hb hb₀

/-- Next to a round that ends the sweep, the others change nothing. -/
theorem RoundsApart.idle (h : RoundsApart cfg env w) (hv : env.Survives)
    (hs₀ : w.states.lookup k₀ = some s₀) (hb₀ : s₀.Blocks cfg env.now (env.closeEvent k₀))
    (hs : w.states.lookup k = some s) (hb : ¬ s.Blocks cfg env.now (env.closeEvent k)) :
    sweepOne cfg env k w = (w, none) := by
  have hne := ne_of_blocks hs₀ hb₀ hs hb
  exact sweepOne_idle hv hs₀ hb₀ hs hb hne (h.closes k₀ s₀ k s hs₀ hs hne hb₀)

/-- A round that cannot close its event is the last one. -/
theorem sweepLoop_cons_of_blocks (hv : env.Survives) (hs : w.states.lookup k = some s)
    (hb : s.Blocks cfg env.now (env.closeEvent k)) (rest : List SeriesKey) :
    sweepLoop cfg env (k :: rest) w = sweepOne cfg env k w := by
  have hone := sweepOne_of_blocks hs hb
  cases ho : env.closeEvent k with
  | ok => exact absurd ho hb.2.2
  | crash => exact absurd ho (hv k).1
  | failed => simp [sweepLoop, hone, ho, Outcome.halt]
  | lost => simp [sweepLoop, hone, ho, Outcome.halt]

/-- A loop of rounds that change nothing changes nothing. -/
theorem sweepLoop_idle {order : List SeriesKey}
    (h : ∀ k ∈ order, sweepOne cfg env k w = (w, none)) :
    sweepLoop cfg env order w = (w, none) := by
  induction order with
  | nil => rfl
  | cons k order ih =>
    rw [sweepLoop, h k (by simp)]
    exact ih fun k' hk' => h k' (by simp [hk'])

/-- A loop in which an event cannot be closed does one round: one that ends it. -/
theorem RoundsApart.sweepLoop_blocked (h : RoundsApart cfg env w) (hv : env.Survives)
    {order : List SeriesKey} (hlive : ∀ k ∈ order, ∃ s, w.states.lookup k = some s)
    (hblock : ∃ k ∈ order, ∃ s, w.states.lookup k = some s ∧
      s.Blocks cfg env.now (env.closeEvent k)) :
    ∃ k s, w.states.lookup k = some s ∧ s.Blocks cfg env.now (env.closeEvent k) ∧ k ∈ order ∧
      sweepLoop cfg env order w = sweepOne cfg env k w := by
  induction order with
  | nil => simp at hblock
  | cons k order ih =>
    obtain ⟨s, hs⟩ := hlive k (by simp)
    by_cases hb : s.Blocks cfg env.now (env.closeEvent k)
    · exact ⟨k, s, hs, hb, by simp, sweepLoop_cons_of_blocks hv hs hb _⟩
    · obtain ⟨k₀, hk₀, s₀, hs₀, hb₀⟩ := hblock
      have hmem : k₀ ∈ order := by
        rcases List.mem_cons.mp hk₀ with rfl | hmem
        · obtain rfl : s = s₀ := Option.some.inj (hs ▸ hs₀)
          exact absurd hb₀ hb
        · exact hmem
      obtain ⟨b, sb, hsb, hbb, hb, he⟩ := ih (fun k' hk' => hlive k' (by simp [hk']))
        ⟨k₀, hmem, s₀, hs₀, hb₀⟩
      refine ⟨b, sb, hsb, hbb, by simp [hb], ?_⟩
      rw [sweepLoop, h.idle hv hs₀ hb₀ hs ‹_›]
      exact he

/-! ## Rounds do not depend on the order -/

/-- Some entry's event cannot be closed. -/
def World.Blocked (cfg : PolicyEngineConfig) (env : SweepEnv) (w : World) : Prop :=
  ∃ k s, w.states.lookup k = some s ∧ s.Blocks cfg env.now (env.closeEvent k)

/-- Without such an entry, the loop sweeps every entry once. -/
theorem World.Order.sweepsAll {order : List SeriesKey} (ho : w.Order order) (hv : env.Survives)
    (hb : ¬ w.Blocked cfg env) :
    SweepsAll cfg env order w (sweepLoop cfg env order w).1 :=
  (sweepLoop_sweepsAll ho.1 fun k _ s hs =>
    ⟨fun hbl => hb ⟨k, s, hs, hbl⟩, (hv k).2⟩).2

/-- With such an entry, the loop does the round of one. -/
theorem RoundsApart.blocked_round (h : RoundsApart cfg env w) (hv : env.Survives)
    {order : List SeriesKey} (ho : w.Order order) (hb : w.Blocked cfg env) :
    ∃ k s, w.states.lookup k = some s ∧ s.Blocks cfg env.now (env.closeEvent k) ∧
      sweepLoop cfg env order w = sweepOne cfg env k w := by
  obtain ⟨k₀, s₀, hs₀, hb₀⟩ := hb
  obtain ⟨k, s, hs, hbk, -, he⟩ := h.sweepLoop_blocked hv (fun k hk => ho.mem.mp hk)
    ⟨k₀, ho.mem.mpr ⟨s₀, hs₀⟩, s₀, hs₀, hb₀⟩
  exact ⟨k, s, hs, hbk, he⟩

/-- Two rounds that end the sweep leave the same. -/
theorem RoundsApart.blocked_unique (h : RoundsApart cfg env w)
    (hs : w.states.lookup k = some s) (hb : s.Blocks cfg env.now (env.closeEvent k))
    (hs₀ : w.states.lookup k₀ = some s₀) (hb₀ : s₀.Blocks cfg env.now (env.closeEvent k₀)) :
    (sweepOne cfg env k w).1 = (sweepOne cfg env k₀ w).1 := by
  by_cases hne : k = k₀
  · rw [hne]
  · rcases h.closes k₀ s₀ k s hs₀ hs hne hb₀ with h₁ | h₁
    · rcases h.closes k s k₀ s₀ hs hs₀ (Ne.symm hne) hb with h₂ | h₂
      · rw [h₁, h₂]
      · exact h₂.symm
    · exact h₁

/-- A row that the loop writes is what any of its entries stores. -/
theorem RoundsApart.row_eq (h : RoundsApart cfg env w) (hb : ¬ w.Blocked cfg env)
    {order : List SeriesKey} {w' : World} (hall : SweepsAll cfg env order w w') (hk : k ∈ order)
    (hs : w.states.lookup k = some s) (hr : k.rowKey = r) (ho : (env.upsert k).Applies) :
    w'.db.policyStates.lookup r = some (s.swept cfg env.now (env.closeEvent k)).stored := by
  rcases hall.rows r with ⟨k', hk', s', hs', hr', ho', hrow⟩ | ⟨hno, -⟩
  · rw [hrow, h.rows k' s' k s hs' hs (hr'.trans hr.symm) (fun hbl => hb ⟨k', s', hs', hbl⟩)
      (fun hbl => hb ⟨k, s, hs, hbl⟩) ho' ho]
  · exact absurd ho (hno k hk s hs hr)

/-- **Rounds that are apart do the same in every order.** -/
theorem RoundsApart.order_free (h : RoundsApart cfg env w) (hv : env.Survives)
    {o₁ o₂ : List SeriesKey} (h₁ : w.Order o₁) (h₂ : w.Order o₂) :
    (sweepLoop cfg env o₁ w).1 = (sweepLoop cfg env o₂ w).1 := by
  by_cases hb : w.Blocked cfg env
  · obtain ⟨k₁, s₁, hs₁, hb₁, he₁⟩ := h.blocked_round hv h₁ hb
    obtain ⟨k₂, s₂, hs₂, hb₂, he₂⟩ := h.blocked_round hv h₂ hb
    rw [he₁, he₂]
    exact h.blocked_unique hs₁ hb₁ hs₂ hb₂
  · have ha₁ := h₁.sweepsAll hv hb
    have ha₂ := h₂.sweepsAll hv hb
    have hmem : ∀ k, k ∈ o₁ ↔ k ∈ o₂ := fun k => h₁.mem.trans h₂.mem.symm
    refine World.ext ?_ (Database.ext ?_ ?_ ?_)
    · refine Finmap.ext_lookup ?_
      intro k
      rw [ha₁.states k, ha₂.states k]
      simp only [hmem k]
    · refine Finmap.ext_lookup ?_
      intro r
      rcases ha₁.rows r with ⟨k, hk, s, hs, hr, ho, hrow⟩ | ⟨hno, hrow⟩
      · rw [hrow, h.row_eq hb ha₂ ((hmem k).mp hk) hs hr ho]
      · rcases ha₂.rows r with ⟨k, hk, s, hs, hr, ho, -⟩ | ⟨-, hrow₂⟩
        · exact absurd ho (hno k ((hmem k).mpr hk) s hs hr)
        · rw [hrow, hrow₂]
    · refine Finmap.ext_lookup ?_
      intro e
      by_cases hex : ∃ k ∈ o₁, ∃ s, w.states.lookup k = some s ∧
          s.Closes cfg env.now (env.closeEvent k) e
      · obtain ⟨k, hk, s, hs, hc⟩ := hex
        rw [ha₁.closed k hk s e hs hc, ha₂.closed k ((hmem k).mp hk) s e hs hc]
      · have hno : ∀ k ∈ o₁, ∀ s, w.states.lookup k = some s →
            ¬ s.Closes cfg env.now (env.closeEvent k) e :=
          fun k hk s hs hc => hex ⟨k, hk, s, hs, hc⟩
        rw [ha₁.kept e hno, ha₂.kept e fun k hk => hno k ((hmem k).mpr hk)]
    · rw [ha₁.findings, ha₂.findings]

/-! ## Series are swept as if alone -/

/-- A round does to its series what it does to the whole map. -/
theorem sweepOne_only (hk : k.rowKey = r) :
    sweepOne cfg env k (w.only r) =
      ((sweepOne cfg env k w).1.only r, (sweepOne cfg env k w).2) := by
  have hins : ∀ s' db, ({ states := (w.only r).states.insert k s', db } : World) =
      World.only r { states := w.states.insert k s', db } := fun s' db => by
    rw [World.only, World.only, Table.filter_insert w.states s' hk]
  have hdb : (w.only r).db = w.db := rfl
  unfold sweepOne
  rw [w.lookup_only_self hk, hdb]
  cases w.states.lookup k with
  | none => rfl
  | some s =>
    dsimp only
    rcases sweepState cfg env.now (env.closeEvent k) s w.db with ⟨s', db, _ | h⟩
    · dsimp only
      rcases savePolicyState (env.upsert k) k s' db with ⟨db', _ | _ | _ | _⟩ <;>
        rw [← hins]
    · rw [← hins]

theorem RoundsApart.only (h : RoundsApart cfg env w) (r : RowKey) :
    RoundsApart cfg env (w.only r) := by
  refine ⟨?_, ?_⟩
  · intro k₀ s₀ k s hs₀ hs hne hb₀
    obtain ⟨hr₀, hs₀⟩ := World.lookup_of_only hs₀
    obtain ⟨hr, hs⟩ := World.lookup_of_only hs
    rw [sweepOne_only hr, sweepOne_only hr₀]
    rcases h.closes k₀ s₀ k s hs₀ hs hne hb₀ with heq | heq
    · exact .inl (by rw [heq])
    · exact .inr (by rw [heq])
  · intro k s k' s' hs hs'
    exact h.rows k s k' s' (World.lookup_of_only hs).2 (World.lookup_of_only hs').2

/-- A sweep that no entry ends. -/
theorem RoundsApart.series_alone_of_not_blocked (h : RoundsApart cfg env w) (hv : env.Survives)
    {o o' : List SeriesKey} (ho : w.Order o) (ho' : (w.only r).Order o')
    (hb : ¬ w.Blocked cfg env) :
    (∀ k, k.rowKey = r → (sweepLoop cfg env o w).1.states.lookup k =
        (sweepLoop cfg env o' (w.only r)).1.states.lookup k) ∧
      (sweepLoop cfg env o w).1.db.policyStates.lookup r =
        (sweepLoop cfg env o' (w.only r)).1.db.policyStates.lookup r := by
  have hb' : ¬ (w.only r).Blocked cfg env := fun ⟨k, s, hs, hbl⟩ =>
    hb ⟨k, s, (World.lookup_of_only hs).2, hbl⟩
  have ha := ho.sweepsAll hv hb
  have ha' := ho'.sweepsAll hv hb'
  have hmem : ∀ k, k.rowKey = r → (k ∈ o' ↔ k ∈ o) := fun k hk => by
    rw [ho'.mem, ho.mem, w.lookup_only_self hk]
  refine ⟨?_, ?_⟩
  · intro k hk
    rw [ha.states k, ha'.states k, w.lookup_only_self hk]
    simp only [hmem k hk]
  · rcases ha.rows r with ⟨k, hk, s, hs, hr, hu, hrow⟩ | ⟨hno, hrow⟩
    · have hs' : (w.only r).states.lookup k = some s := (w.lookup_only_self hr).trans hs
      rw [hrow, (h.only r).row_eq hb' ha' ((hmem k hr).mpr hk) hs' hr hu]
    · rcases ha'.rows r with ⟨k, hk, s, hs, hr, hu, -⟩ | ⟨-, hrow'⟩
      · exact absurd hu (hno k ((hmem k hr).mp hk) s (World.lookup_of_only hs).2 hr)
      · rw [hrow, hrow']
        rfl

/-- **Rounds that are apart treat each series as if it were the only one.** -/
theorem RoundsApart.series_alone (h : RoundsApart cfg env w) (hv : env.Survives)
    {o o' : List SeriesKey} (ho : w.Order o) (ho' : (w.only r).Order o') :
    (∀ k, k.rowKey = r → (sweepLoop cfg env o w).1.states.lookup k =
        (sweepLoop cfg env o' (w.only r)).1.states.lookup k) ∧
      (sweepLoop cfg env o w).1.db.policyStates.lookup r =
        (sweepLoop cfg env o' (w.only r)).1.db.policyStates.lookup r := by
  by_cases hb : w.Blocked cfg env
  · obtain ⟨b, sb, hsb, hbb, he⟩ := h.blocked_round hv ho hb
    rw [he]
    by_cases hb' : (w.only r).Blocked cfg env
    · obtain ⟨b', sb', hsb', hbb', he'⟩ := (h.only r).blocked_round hv ho' hb'
      obtain ⟨hr', hsb'⟩ := World.lookup_of_only hsb'
      rw [he', sweepOne_only hr', ← h.blocked_unique hsb hbb hsb' hbb']
      exact ⟨fun k hk => (World.lookup_only_self _ hk).symm, rfl⟩
    · -- the sweep is ended by another series, and the entries of this one have nothing to do
      have hne : b.rowKey ≠ r := fun hr =>
        hb' ⟨b, sb, (w.lookup_only_self hr).trans hsb, hbb⟩
      have hidle : sweepLoop cfg env o' (w.only r) = (w.only r, none) := by
        refine sweepLoop_idle ?_
        intro k hk
        obtain ⟨s, hs⟩ := ho'.mem.mp hk
        have hbk : ¬ s.Blocks cfg env.now (env.closeEvent k) := fun hbl => hb' ⟨k, s, hs, hbl⟩
        obtain ⟨hr, hs⟩ := World.lookup_of_only hs
        rw [sweepOne_only hr, h.idle hv hsb hbb hs hbk]
      rw [hidle]
      refine ⟨?_, ?_⟩
      · intro k hk
        rw [w.lookup_only_self hk, sweepOne_lookup_of_ne]
        rintro rfl
        exact hne hk
      · rw [sweepOne_policyStates_of_blocks hsb hbb]
        rfl
  · exact h.series_alone_of_not_blocked hv ho ho' hb

/-! ## Nothing less will do -/

/-- Any entries can come first. -/
theorem World.exists_order (w : World) {l : List SeriesKey} (hnd : l.Nodup)
    (hl : ∀ k ∈ l, ∃ s, w.states.lookup k = some s) : ∃ rest, w.Order (l ++ rest) := by
  refine ⟨(w.states.keys \ l.toFinset).toList, ?_, ?_⟩
  · rw [List.nodup_append]
    refine ⟨hnd, Finset.nodup_toList _, ?_⟩
    intro a ha b hb hab
    rw [Finset.mem_toList, Finset.mem_sdiff, List.mem_toFinset] at hb
    exact hb.2 (hab ▸ ha)
  · ext k
    rw [List.mem_toFinset, List.mem_append, Finset.mem_toList, Finset.mem_sdiff, List.mem_toFinset]
    constructor
    · rintro (hk | hk)
      · exact Table.mem_keys.mpr (hl k hk)
      · exact hk.1
    · intro hk
      by_cases hm : k ∈ l
      · exact .inl hm
      · exact .inr ⟨hk, hm⟩

theorem World.Order.perm {o o' : List SeriesKey} (h : w.Order o) (hp : o.Perm o') : w.Order o' :=
  ⟨hp.nodup_iff.mp h.1, by rw [← h.2]; exact (List.toFinset_eq_of_perm _ _ hp).symm⟩

/-- A round that saves its state leaves it in the row. -/
theorem sweepOne_row (hv : env.Survives) (hs : w.states.lookup k = some s)
    (hb : ¬ s.Blocks cfg env.now (env.closeEvent k)) (ho : (env.upsert k).Applies) :
    (sweepOne cfg env k w).1.db.policyStates.lookup k.rowKey =
      some (s.swept cfg env.now (env.closeEvent k)).stored := by
  rw [sweepOne_of_free hs hb (hv k).2, lookup_saved, if_pos ⟨rfl, ho⟩]

/-- The entry that comes last has the last word about its row. -/
theorem sweepLoop_last_row (hv : env.Survives) (hb : ¬ w.Blocked cfg env) {rest : List SeriesKey}
    (hord : w.Order (rest ++ [k])) (hs : w.states.lookup k = some s) (ho : (env.upsert k).Applies) :
    (sweepLoop cfg env (rest ++ [k]) w).1.db.policyStates.lookup k.rowKey =
      some (s.swept cfg env.now (env.closeEvent k)).stored := by
  obtain ⟨hnd, -, hk⟩ := List.nodup_append.mp hord.1
  have hend := (@sweepLoop_sweepsAll cfg env rest w hnd fun k' _ s' hs' =>
    ⟨fun hbl => hb ⟨k', s', hs', hbl⟩, (hv k').2⟩).1
  have hs' : (sweepLoop cfg env rest w).1.states.lookup k = some s := by
    rw [sweepLoop_lookup_of_notMem fun hc => hk k hc k (by simp) rfl, hs]
  have hbk : ¬ s.Blocks cfg env.now (env.closeEvent k) := fun hbl => hb ⟨k, s, hs, hbl⟩
  rw [sweepLoop_append hend, ← sweepOne_row hv hs' hbk ho]
  simp only [sweepLoop]
  split <;> next hx => rw [hx]

/-- Where the order does not matter, a round that could come before one that ends the sweep, or be
cut off by it, changes nothing, or just what that one changes. -/
theorem sweepOne_of_order_free (hv : env.Survives)
    (h : ∀ o₁ o₂, w.Order o₁ → w.Order o₂ →
      (sweepLoop cfg env o₁ w).1 = (sweepLoop cfg env o₂ w).1)
    (hs₀ : w.states.lookup k₀ = some s₀) (hs : w.states.lookup k = some s) (hne : k ≠ k₀)
    (hb₀ : s₀.Blocks cfg env.now (env.closeEvent k₀)) :
    (sweepOne cfg env k w).1 = w ∨ (sweepOne cfg env k w).1 = (sweepOne cfg env k₀ w).1 := by
  obtain ⟨rest, hord⟩ := w.exists_order (l := [k, k₀]) (by simp [hne]) (by simp [hs, hs₀])
  have heq := h _ _ hord (hord.perm (List.Perm.swap k₀ k rest))
  rw [sweepLoop_cons_of_blocks hv hs₀ hb₀] at heq
  by_cases hb : s.Blocks cfg env.now (env.closeEvent k)
  · right
    rwa [List.cons_append, sweepLoop_cons_of_blocks hv hs hb] at heq
  · -- visited first, `k` is swept; visited second, it is not
    have hone := sweepOne_of_free hs hb (hv k).2
    have hs₀' : (sweepOne cfg env k w).1.states.lookup k₀ = some s₀ := by
      rw [sweepOne_lookup_of_ne (Ne.symm hne), hs₀]
    have hloop : sweepLoop cfg env ([k, k₀] ++ rest) w =
        sweepOne cfg env k₀ (sweepOne cfg env k w).1 := by
      rw [← sweepLoop_cons_of_blocks hv hs₀' hb₀ rest]
      simp only [List.cons_append, List.nil_append]
      rw [sweepLoop, hone]
    rw [hloop] at heq
    left
    rw [sweepOne_eq_self hv hs hb]
    · have hk := congrArg (fun w' : World => w'.states.lookup k) heq
      simp only [sweepOne_lookup_of_ne hne, hs] at hk
      rw [hone, Table.lookup_insert_if, if_pos rfl] at hk
      exact Option.some.inj hk
    · have hrow := congrArg (fun w' : World => w'.db.policyStates) heq
      simp only [sweepOne_policyStates_of_blocks hs₀' hb₀,
        sweepOne_policyStates_of_blocks hs₀ hb₀] at hrow
      exact hrow

/-- Where the order does not matter, two entries of one row are saved alike. -/
theorem stored_of_order_free (hv : env.Survives)
    (h : ∀ o₁ o₂, w.Order o₁ → w.Order o₂ →
      (sweepLoop cfg env o₁ w).1 = (sweepLoop cfg env o₂ w).1) {k' : SeriesKey} {s' : PolicyState}
    (hs : w.states.lookup k = some s) (hs' : w.states.lookup k' = some s')
    (hr : k.rowKey = k'.rowKey) (hb : ¬ s.Blocks cfg env.now (env.closeEvent k))
    (hb' : ¬ s'.Blocks cfg env.now (env.closeEvent k')) (ho : (env.upsert k).Applies)
    (ho' : (env.upsert k').Applies) :
    (s.swept cfg env.now (env.closeEvent k)).stored =
      (s'.swept cfg env.now (env.closeEvent k')).stored := by
  by_cases hblock : w.Blocked cfg env
  · -- both rounds change nothing, so both states are in the row already
    obtain ⟨k₀, s₀, hs₀, hb₀⟩ := hblock
    have hrow : ∀ k s, w.states.lookup k = some s → ¬ s.Blocks cfg env.now (env.closeEvent k) →
        (env.upsert k).Applies → w.db.policyStates.lookup k.rowKey =
          some (s.swept cfg env.now (env.closeEvent k)).stored := by
      intro k s hs hb ho
      have hne := ne_of_blocks hs₀ hb₀ hs hb
      rw [← sweepOne_row hv hs hb ho,
        sweepOne_idle hv hs₀ hb₀ hs hb hne (sweepOne_of_order_free hv h hs₀ hs hne hb₀)]
    have h₁ := hrow k s hs hb ho
    rw [hr, hrow k' s' hs' hb' ho'] at h₁
    exact (Option.some.inj h₁).symm
  · by_cases hkk : k = k'
    · subst hkk
      obtain rfl : s = s' := Option.some.inj (hs ▸ hs')
      rfl
    · -- either of them can be visited last
      obtain ⟨rest, hord⟩ := w.exists_order (l := [k, k']) (by simp [hkk]) (by simp [hs, hs'])
      have h₁ : w.Order ((rest ++ [k]) ++ [k']) := hord.perm (by
        rw [List.append_assoc]
        exact List.perm_append_comm)
      have h₂ : w.Order ((rest ++ [k']) ++ [k]) := hord.perm (by
        rw [List.append_assoc]
        exact (List.Perm.swap k' k rest).trans (@List.perm_append_comm _ [k', k] rest))
      have hlast := sweepLoop_last_row hv hblock h₂ hs ho
      rw [h _ _ h₂ h₁, hr, sweepLoop_last_row hv hblock h₁ hs' ho'] at hlast
      exact (Option.some.inj hlast).symm

/-- **Where the order does not matter, the rounds are apart.** -/
theorem RoundsApart.of_order_free (hv : env.Survives)
    (h : ∀ o₁ o₂, w.Order o₁ → w.Order o₂ →
      (sweepLoop cfg env o₁ w).1 = (sweepLoop cfg env o₂ w).1) : RoundsApart cfg env w := by
  constructor
  · intro k₀ s₀ k s hs₀ hs hne hb₀
    exact sweepOne_of_order_free hv h hs₀ hs hne hb₀
  · intro k s k' s' hs hs' hr hb hb' ho ho'
    exact stored_of_order_free hv h hs hs' hr hb hb' ho ho'

/-! ## Rounds and what they find -/

/-- Draining changes nothing if the score is that of now. -/
theorem PolicyState.drain_eq_self_iff {now : Time} : s.drain cfg now = s ↔ s.ScoreCurrent now := by
  constructor
  · intro h
    have hbucket : (cfg.bucket.decay s.bucketState now).newState = s.bucketState :=
      congrArg PolicyState.bucketState h
    refine ⟨(congrArg BucketState.scoreUpdatedAt hbucket).symm, ?_⟩
    rw [← hbucket]
    exact cfg.bucket.decayed_nonneg s.bucketState now
  · rintro ⟨rfl, hscore⟩
    have hdecayed : cfg.bucket.decayed s.bucketState s.bucketState.scoreUpdatedAt =
        s.bucketState.score := by
      simp [LeakyBucket.decayed, Time.sub_eq_zero.mpr, Duration.seconds, hscore]
    simp [PolicyState.drain, LeakyBucket.decay, hdecayed]

/-- A score that is that of now does not fall below the closing threshold now. -/
theorem PolicyState.ScoreCurrent.not_recovers {now : Time} (h : s.ScoreCurrent now) :
    ¬ s.Recovers cfg now := by
  rintro ⟨-, habove, hbelow⟩
  have hscore : cfg.bucket.decayed s.bucketState now = s.bucketState.score :=
    congrArg (fun s : PolicyState => s.bucketState.score)
      (@PolicyState.drain_eq_self_iff cfg s now |>.mpr h)
  rw [hscore] at hbelow
  exact absurd habove (not_le.mpr hbelow)

theorem PolicyState.crossedClose_iff {now : Time} :
    (s.status = .firing ∧ (cfg.bucket.decay s.bucketState now).crossedClose) ↔
      s.Recovers cfg now := by
  rw [PolicyState.Recovers, LeakyBucket.decay_crossedClose]

/-- The state that a round leaves, by the transition that is due. -/
theorem PolicyState.swept_eq {now : Time} {o : Outcome} (hb : ¬ s.Blocks cfg now o) :
    s.swept cfg now o = match s.due cfg now with
      | .expire => (s.drain cfg now).expire now
      | .recover => (s.drain cfg now).enter .recovering now
      | .finish => (s.drain cfg now).close now
      | .stay => s.drain cfg now := by
  have hclose : (s.CloseDue cfg now ∧ s.openEventId ≠ none ∧ o = .ok) ↔ s.Finishes cfg now := by
    refine ⟨fun h => ⟨h.1, h.2.1⟩, fun h => ⟨h.1, h.2, ?_⟩⟩
    by_contra ho
    exact hb ⟨h.1, h.2, ho⟩
  unfold PolicyState.swept PolicyState.due
  have hexpire : (s.status = .watching ∧ cfg.confirmWindow < Time.sub now s.statusUpdatedAt) ↔
      s.Expires cfg now := Iff.rfl
  simp only [hexpire, PolicyState.crossedClose_iff, hclose]
  by_cases hexpires : s.Expires cfg now
  · simp [hexpires]
  · by_cases hrecovers : s.Recovers cfg now
    · simp [hexpires, hrecovers]
    · by_cases hfinishes : s.Finishes cfg now <;> simp [hexpires, hrecovers, hfinishes]

theorem PolicyState.swept_eq_of_blocks {now : Time} {o : Outcome} (hb : s.Blocks cfg now o) :
    s.swept cfg now o = s.drain cfg now := by
  obtain ⟨hdue, -, ho⟩ := hb
  simp [PolicyState.swept, hdue.1, ho]

/-- A round leaves a state as it is if there is nothing to do for it. -/
theorem PolicyState.swept_eq_self_iff {now : Time} {o : Outcome} (hb : ¬ s.Blocks cfg now o) :
    s.swept cfg now o = s ↔ s.UpToDate cfg now := by
  rw [PolicyState.swept_eq hb]
  constructor
  · intro h
    unfold PolicyState.due at h
    split_ifs at h with hexpires hrecovers hfinishes
    · have hstatus := congrArg PolicyState.status h
      rw [hexpires.1] at hstatus
      cases hstatus
    · have hstatus := congrArg PolicyState.status h
      rw [hrecovers.1] at hstatus
      cases hstatus
    · have hstatus := congrArg PolicyState.status h
      rw [hfinishes.1.1] at hstatus
      cases hstatus
    · exact ⟨PolicyState.drain_eq_self_iff.mp h, hexpires, hfinishes⟩
  · intro h
    rw [PolicyState.due, if_neg h.expires, if_neg h.score.not_recovers, if_neg h.finishes]
    exact PolicyState.drain_eq_self_iff.mpr h.score

/-- **Two states lead to the same row just if they are alike.** -/
theorem PolicyState.stored_swept_eq_iff {now : Time} {o o' : Outcome} {s' : PolicyState}
    (hb : ¬ s.Blocks cfg now o) (hb' : ¬ s'.Blocks cfg now o') :
    (s.swept cfg now o).stored = (s'.swept cfg now o').stored ↔ s.Alike cfg now s' := by
  rw [PolicyState.swept_eq hb, PolicyState.swept_eq hb', PolicyState.Alike]
  generalize s.due cfg now = due, s'.due cfg now = due'
  cases due <;> cases due' <;>
    simp [PolicyState.stored, PolicyState.row, PolicyState.drain, PolicyState.expire,
      PolicyState.enter, PolicyState.close, LeakyBucket.decay, PolicyState.InLine,
      PolicyState.CleanSince, PolicyState.SameMeasure]
  -- column by column, in another order
  all_goals grind

theorem EventRow.close_eq_self_iff {now : Time} {row : EventRow} :
    row.close now = row ↔ row.ClosedSince now := by
  constructor
  · intro h
    exact ⟨(congrArg EventRow.status h).symm, (congrArg EventRow.closedAt h).symm⟩
  · rintro ⟨hstatus, hclosed⟩
    rw [EventRow.close, ← hstatus, ← hclosed]

/-- Two rounds close the same. -/
theorem PolicyState.closing_eq_iff {now : Time} {o o₀ : Outcome} {db : Database} :
    s.closing cfg now o db = s₀.closing cfg now o₀ db ↔
      ∀ e row, db.events.lookup e = some row →
        (s.Closes cfg now o e ↔ s₀.Closes cfg now o₀ e) ∨ row.ClosedSince now := by
  constructor
  · intro h e row hrow
    have hlookup := congrArg (fun db : Database => db.events.lookup e) h
    simp only [PolicyState.lookup_closing, hrow, Option.map_some] at hlookup
    rw [← EventRow.close_eq_self_iff]
    split_ifs at hlookup with hc hc₀ hc₀
    · exact .inl (iff_of_true hc hc₀)
    · exact .inr (Option.some.inj hlookup)
    · exact .inr (Option.some.inj hlookup).symm
    · exact .inl (iff_of_false hc hc₀)
  · intro h
    refine Database.ext (by simp) (Finmap.ext_lookup fun e => ?_) (by simp)
    rw [PolicyState.lookup_closing, PolicyState.lookup_closing]
    cases hrow : db.events.lookup e with
    | none => simp
    | some row =>
      rcases h e row hrow with hiff | hclosed
      · simp only [hiff]
      · simp [EventRow.close_eq_self_iff.mpr hclosed]

/-- A round that does not end the sweep changes nothing if there is nothing to do. -/
theorem sweepOne_eq_self_iff (hv : env.Survives) (hs : w.states.lookup k = some s)
    (hb : ¬ s.Blocks cfg env.now (env.closeEvent k)) :
    (sweepOne cfg env k w).1 = w ↔ s.UpToDate cfg env.now ∧
      ((env.upsert k).Applies → w.db.policyStates.lookup k.rowKey = some s.stored) := by
  have hone := sweepOne_of_free hs hb (hv k).2
  constructor
  · intro h
    have hstate : s.swept cfg env.now (env.closeEvent k) = s := by
      have hlookup : (sweepOne cfg env k w).1.states.lookup k = some s := by rw [h, hs]
      rw [hone, Table.lookup_insert_if, if_pos rfl] at hlookup
      exact Option.some.inj hlookup
    refine ⟨(PolicyState.swept_eq_self_iff hb).mp hstate, fun ho => ?_⟩
    rw [← h, sweepOne_row hv hs hb ho, hstate]
  · rintro ⟨hdate, hrow⟩
    have hstate := (PolicyState.swept_eq_self_iff hb).mpr hdate
    rw [sweepOne_eq_self hv hs hb hstate]
    refine Finmap.ext_lookup fun r => ?_
    rw [hone, hstate, lookup_saved, PolicyState.closing_policyStates]
    split
    · next hr => rw [hr.1, hrow hr.2]
    · rfl

/-- The round of an entry whose event cannot be closed. -/
theorem sweepOne_of_scoreCurrent (hs : w.states.lookup k = some s)
    (hb : s.Blocks cfg env.now (env.closeEvent k)) (hscore : s.ScoreCurrent env.now) :
    (sweepOne cfg env k w).1 = { w with db := s.closing cfg env.now (env.closeEvent k) w.db } := by
  rw [sweepOne_of_blocks hs hb, PolicyState.swept_eq_of_blocks hb,
    PolicyState.drain_eq_self_iff.mpr hscore, insert_of_lookup hs]

/-- **The rounds are apart just if the entries are separable.** -/
theorem separable_iff_roundsApart (hv : env.Survives) :
    Separable cfg env w ↔ RoundsApart cfg env w := by
  constructor
  · intro h
    constructor
    · intro k₀ s₀ k s hs₀ hs hne hb₀
      by_cases hb : s.Blocks cfg env.now (env.closeEvent k)
      · have hclosing := PolicyState.closing_eq_iff.mpr (h.closes k₀ s₀ k s hs₀ hs hne hb₀ hb).2
        right
        rw [sweepOne_of_scoreCurrent hs hb (h.closes k₀ s₀ k s hs₀ hs hne hb₀ hb).1,
          sweepOne_of_scoreCurrent hs₀ hb₀ (h.closes k s k₀ s₀ hs hs₀ hne.symm hb hb₀).1, hclosing]
      · exact .inl ((sweepOne_eq_self_iff hv hs hb).mpr (h.idle k₀ s₀ k s hs₀ hs hb₀ hb))
    · intro k s k' s' hs hs' hr hb hb' ho ho'
      exact (PolicyState.stored_swept_eq_iff hb hb').mpr (h.rows k s k' s' hs hs' hr hb hb' ho ho')
  · intro h
    refine ⟨?_, ?_, ?_⟩
    · intro k₀ s₀ k s hs₀ hs hb₀ hb
      exact (sweepOne_eq_self_iff hv hs hb).mp (by rw [h.idle hv hs₀ hb₀ hs hb])
    · intro k₀ s₀ k s hs₀ hs hne hb₀ hb
      -- the round of `k₀` leaves the entry of `k` as it is
      have hscore : ∀ k₀ s₀ k s, w.states.lookup k₀ = some s₀ → w.states.lookup k = some s →
          k ≠ k₀ → s₀.Blocks cfg env.now (env.closeEvent k₀) →
          s.Blocks cfg env.now (env.closeEvent k) → s.ScoreCurrent env.now := by
        intro k₀ s₀ k s hs₀ hs hne hb₀ hb
        have hlookup : (sweepOne cfg env k w).1.states.lookup k = some s := by
          rw [h.blocked_unique hs hb hs₀ hb₀, sweepOne_lookup_of_ne hne, hs]
        rw [sweepOne_of_blocks hs hb, Table.lookup_insert_if, if_pos rfl,
          PolicyState.swept_eq_of_blocks hb] at hlookup
        exact PolicyState.drain_eq_self_iff.mp (Option.some.inj hlookup)
      have hcurrent := hscore k₀ s₀ k s hs₀ hs hne hb₀ hb
      refine ⟨hcurrent, PolicyState.closing_eq_iff.mp ?_⟩
      have hunique := h.blocked_unique hs hb hs₀ hb₀
      rw [sweepOne_of_scoreCurrent hs hb hcurrent,
        sweepOne_of_scoreCurrent hs₀ hb₀ (hscore k s k₀ s₀ hs hs₀ hne.symm hb hb₀)] at hunique
      exact congrArg World.db hunique
    · intro k s k' s' hs hs' hr hb hb' ho ho'
      exact (PolicyState.stored_swept_eq_iff hb hb').mp (h.rows k s k' s' hs hs' hr hb hb' ho ho')

/-- Entries are separable when every close that is due goes through and no two of them stand for
one row. -/
theorem separable_of_noAlias (hb : ¬ w.Blocked cfg env) (hr : w.NoAlias) :
    Separable cfg env w where
  idle := fun k₀ s₀ _ _ hs₀ _ hb₀ _ => absurd ⟨k₀, s₀, hs₀, hb₀⟩ hb
  closes := fun k₀ s₀ _ _ hs₀ _ _ hb₀ _ => absurd ⟨k₀, s₀, hs₀, hb₀⟩ hb
  rows := by
    intro k s k' s' hs hs' hrow hbk _ _ _
    obtain rfl := hr k (Table.mem_keys.mpr ⟨s, hs⟩) k' (Table.mem_keys.mpr ⟨s', hs'⟩) hrow
    obtain rfl : s = s' := Option.some.inj (hs ▸ hs')
    exact (PolicyState.stored_swept_eq_iff hbk hbk).mp rfl

/--
**`Sweep` is independent of the iteration order, and treats every series as if it were alone, just
when the entries of its map are separable.**
-/
theorem sweep_independent_iff (cfg : PolicyEngineConfig) (env : SweepEnv) (w : World)
    (hl : env.listNonClean = .ok) (hv : env.Survives) :
    Independent cfg env w ↔ Separable cfg env (w.hydrated env.rows) := by
  rw [separable_iff_roundsApart hv]
  constructor
  · rintro ⟨horder, -⟩
    refine RoundsApart.of_order_free hv ?_
    intro o₁ o₂ h₁ h₂
    have heq := horder o₁ o₂ h₁ h₂
    rwa [sweep_visiting hl, sweep_visiting hl] at heq
  · intro h
    refine ⟨?_, ?_⟩
    · intro o₁ o₂ h₁ h₂
      rw [sweep_visiting hl, sweep_visiting hl]
      exact h.order_free hv h₁ h₂
    · intro o r o' ho ho'
      rw [sweep_visiting hl]
      exact h.series_alone hv ho ho'

end

/-- Agent "b" recovers if it is visited before agent "a", and is left firing if it is not. -/
theorem unclosedSweep_depends_on_order :
    ¬ ∀ (cfg : PolicyEngineConfig) (env : SweepEnv) (w : World),
      env.listNonClean = .ok → env.Survives → Independent cfg env w := by
  intro h
  have hv : (unclosedSweep []).Survives := fun k => by
    refine ⟨?_, by simp [unclosedSweep, SweepEnv.ok]⟩
    simp only [unclosedSweep]
    split <;> simp
  exact absurd
    ((h startConfig (unclosedSweep []) (run (step startConfig) World.init twoAlarms) rfl hv).order
      [(pingKey "a").rowKey.hydratedKey, (pingKey "b").rowKey.hydratedKey]
      [(pingKey "b").rowKey.hydratedKey, (pingKey "a").rowKey.hydratedKey]
      (by decide +kernel) (by decide +kernel))
    (by decide +kernel)

/-- With nothing failing, the two agents are swept independently of each other. -/
theorem twoAlarms_independent :
    Independent startConfig
      (SweepEnv.ok (1200 * second) [(pingKey "a").rowKey, (pingKey "b").rowKey] [])
      (run (step startConfig) World.init twoAlarms) :=
  (sweep_independent_iff _ _ _ rfl fun _ => ⟨by simp [SweepEnv.ok], by simp [SweepEnv.ok]⟩).mpr
    (separable_of_noAlias (fun ⟨_, _, _, hb⟩ => hb.2.2 rfl) (by decide +kernel))

end Cepheus.Argus
