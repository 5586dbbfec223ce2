import Cepheus.Infra.Words
import Cepheus.Agent.Properties.DataStream
import Cepheus.Agent.Properties.Typed

/-!
# Panics of the task loops

`startTaskLoop` gives an interval and a percentage that come from the control plane to two library
functions that panic unless an argument is positive: `rand.Int63n`, in `computeJitter`, and
`time.NewTicker`. A negative interval is caught before, an interval of zero is not; and the product
that `computeJitter` starts with may leave the range of an `int64`. A third panic is not a matter of
the schedule: `Insert` panics when it finds the stream of the results full.

`Loop.never_panics_iff` says for which schedules a loop can be left to itself, whatever happens to
it but a full stream, and `task_loop_safe_iff` what this means for the numbers of a configuration.
-/

namespace Cepheus.Agent

open Infra

/-! ## Runs of a loop -/

/-- Where a loop gets to, with what it finds of its context. -/
def Loop.after (executors : TaskType → Bool) (l : Loop) : List (Bool × LoopMove) → LoopNext
  | [] => .goes l.pc
  | (done, m) :: rest =>
    match l.next executors done m with
    | .goes pc => Loop.after executors { l with pc } rest
    | next => next

/-- What happens to a loop is not that its `Insert` finds the stream full. -/
def Loop.Spares (l : Loop) (m : LoopMove) : Prop := l.pc = .executing → m ≠ .executed .overflowed

instance (l : Loop) (m : LoopMove) : Decidable (l.Spares m) := inferInstanceAs (Decidable (_ → _))

/-- No `Insert` of a loop finds the stream full. -/
def Loop.Spared (executors : TaskType → Bool) (l : Loop) : List (Bool × LoopMove) → Prop
  | [] => True
  | (done, m) :: rest => l.Spares m ∧
    match l.next executors done m with
    | .goes pc => Loop.Spared executors { l with pc } rest
    | _ => True

/-- The loop that `startTask` starts. -/
def Task.loop (t : Task) : Loop := { spec := t, cancelled := false, pc := .fresh }

/-- The library functions get what they ask for. -/
def TaskSchedule.Runs (s : TaskSchedule) : Prop :=
  s.enabled = true → 0 ≤ s.interval →
    0 < s.interval ∧ computeJitterPanics s.interval s.jitterPercent = false

/-- A loop that has started has an interval for its ticker. -/
def Loop.Sound (l : Loop) : Prop :=
  l.pc ≠ .fresh → l.spec.schedule.enabled = true → 0 < l.spec.schedule.interval

/-- The loop does not panic, and is sound where it goes on. -/
def LoopNext.Fine (l : Loop) : LoopNext → Prop
  | .goes pc => ({ l with pc } : Loop).Sound
  | .ends _ => True
  | .panics => False

section

variable {executors : TaskType → Bool} {l : Loop}

theorem Loop.fine_afterRun (h : l.spec.schedule.enabled = true → 0 < l.spec.schedule.interval)
    (failed : Bool) : (l.afterRun failed).Fine l := by
  unfold Loop.afterRun
  split
  · trivial
  · next henabled =>
    have hpos := h (by simpa using henabled)
    rw [if_neg (Int64.not_le.mpr hpos)]
    exact fun _ => h

theorem Loop.fine_runOnce (h : l.spec.schedule.enabled = true → 0 < l.spec.schedule.interval) :
    (l.runOnce executors).Fine l := by
  unfold Loop.runOnce
  split
  · exact fun _ => h
  · exact fine_afterRun h false

theorem Loop.fine_begin (hr : l.spec.schedule.Runs) : (l.begin executors).Fine l := by
  unfold Loop.begin
  split
  · trivial
  · split
    · trivial
    · next hneg =>
      have hpos := Int64.not_lt.mp hneg
      split
      · next hdisabled =>
        exact fine_runOnce fun henabled => absurd henabled (by simpa using hdisabled)
      · next henabled =>
        obtain ⟨hticker, hjitter⟩ := hr (by simpa using henabled) hpos
        rw [hjitter]
        exact fun _ _ => hticker

theorem Loop.fine_executed (h : l.spec.schedule.enabled = true → 0 < l.spec.schedule.interval)
    {outcome : Executed} (ho : outcome ≠ .overflowed) : (l.executed outcome).Fine l := by
  cases outcome with
  | failed => exact fine_afterRun h true
  | inserted => exact fine_afterRun h false
  | overflowed => exact absurd rfl ho

theorem Loop.fine_next (hr : l.spec.schedule.Runs) (hs : l.Sound) (done : Bool) {m : LoopMove}
    (hm : l.Spares m) : (l.next executors done m).Fine l := by
  have hsame : (LoopNext.goes l.pc).Fine l := hs
  cases m with
  | begin =>
    cases hpc : l.pc <;> simp only [Loop.next, hpc] at hsame ⊢
    · exact fine_begin hr
    all_goals exact hsame
  | fire =>
    cases hpc : l.pc <;> simp only [Loop.next, hpc] at hsame ⊢
    · exact hsame
    · exact fine_runOnce (hs (by simp [hpc]))
    · exact hsame
    · exact fine_runOnce (hs (by simp [hpc]))
  | executed outcome =>
    cases hpc : l.pc <;> simp only [Loop.next, hpc] at hsame ⊢
    · exact hsame
    · exact hsame
    · exact fine_executed (hs (by simp [hpc])) fun ho => hm hpc (congrArg LoopMove.executed ho)
    · exact hsame
  | exit =>
    cases hpc : l.pc <;> simp only [Loop.next, hpc] at hsame ⊢
    · exact hsame
    · split
      · trivial
      · exact hsame
    · exact hsame
    · split
      · trivial
      · exact hsame

theorem Loop.after_ne_panics : ∀ (moves : List (Bool × LoopMove)) {l : Loop},
    l.spec.schedule.Runs → l.Sound → l.Spared executors moves → l.after executors moves ≠ .panics
  | [], _, _, _, _ => by simp [Loop.after]
  | (done, m) :: rest, l, hr, hs, ⟨hm, hrest⟩ => by
    have hfine : (l.next executors done m).Fine l := l.fine_next hr hs done hm
    unfold Loop.after
    cases hnext : l.next executors done m with
    | goes pc =>
      rw [hnext] at hfine hrest
      exact after_ne_panics rest hr hfine hrest
    | ends failed => simp
    | panics =>
      rw [hnext] at hfine
      exact hfine.elim

theorem Loop.spared_of_forall : ∀ {moves : List (Bool × LoopMove)} {l : Loop},
    (∀ x ∈ moves, x.2 ≠ .executed .overflowed) → l.Spared executors moves
  | [], _, _ => trivial
  | (done, m) :: rest, l, h => by
    refine ⟨fun _ => h _ List.mem_cons_self, ?_⟩
    split
    · exact spared_of_forall fun x hx => h x (List.mem_cons_of_mem _ hx)
    · trivial

/-- A loop whose `Insert` finds the stream full panics. -/
theorem Loop.after_eq_panics : ∀ (moves : List (Bool × LoopMove)) {l : Loop},
    ¬ l.Spared executors moves → l.after executors moves = .panics
  | [], _, h => absurd trivial h
  | (done, m) :: rest, l, h => by
    unfold Loop.after
    by_cases hm : l.Spares m
    · have hrest := fun hrest => h ⟨hm, hrest⟩
      cases hnext : l.next executors done m with
      | goes pc =>
        rw [hnext] at hrest
        exact after_eq_panics rest hrest
      | ends failed =>
        rw [hnext] at hrest
        exact absurd trivial hrest
      | panics => rfl
    · obtain ⟨hpc, rfl⟩ : l.pc = .executing ∧ m = .executed .overflowed := by
        simpa [Loop.Spares] using hm
      simp [Loop.next, hpc, Loop.executed]

end

/-- A schedule that is not fit to run makes its loop panic, with its first wait or after its first
run. -/
theorem Loop.runs_of_never_panics {t : Task} (hp : t.params ≠ none)
    (h : ∀ executors moves, t.loop.Spared executors moves →
      t.loop.after executors moves ≠ .panics) : t.schedule.Runs := by
  intro henabled hpos
  have hbegin : ∀ executors, t.loop.begin executors =
      if computeJitterPanics t.schedule.interval t.schedule.jitterPercent then .panics
      else .goes .delaying := by
    intro executors
    unfold Loop.begin Task.loop
    rw [if_neg hp, if_neg (Int64.not_lt.mpr hpos), if_neg (by simp [henabled])]
  have hjitter : computeJitterPanics t.schedule.interval t.schedule.jitterPercent = false := by
    by_contra hpanics
    apply h (fun _ => false) [(false, .begin)] (spared_of_forall (by simp))
    rw [Loop.after]
    show (match t.loop.begin fun _ => false with
      | .goes pc => Loop.after (fun _ => false) { t.loop with pc } []
      | next => next) = _
    rw [hbegin, if_pos (by simpa using hpanics)]
  refine ⟨?_, hjitter⟩
  by_contra hzero
  apply h (fun _ => false) [(false, .begin), (false, .fire)] (spared_of_forall (by simp))
  rw [Loop.after]
  show (match t.loop.begin fun _ => false with
    | .goes pc => Loop.after (fun _ => false) { t.loop with pc } [(false, .fire)]
    | next => next) = _
  rw [hbegin, hjitter]
  simp [Loop.after, Loop.next, Loop.runOnce, Loop.afterRun, Task.loop, henabled,
    Int64.not_lt.mp hzero]

/-- Whatever happens to a loop but a full stream, it does not panic, if and only if its schedule is
fit to run. -/
theorem Loop.never_panics_iff {t : Task} (hp : t.params ≠ none) :
    (∀ executors moves, t.loop.Spared executors moves → t.loop.after executors moves ≠ .panics) ↔
      t.schedule.Runs :=
  ⟨runs_of_never_panics hp, fun hr _ moves =>
    after_ne_panics moves hr fun hpc => absurd rfl hpc⟩

/-- An `Insert` overflows if it finds the stream full and its context is live: the stream has no
logger (`Reporting.Made.logger`). -/
theorem executed_insert_iff {R : Type} {s : Reporting R} (hlogger : s.probes.logger = false)
    (done leaves : Bool) (data : R) :
    (s.probes.insert s.waiting done leaves data).executed = .overflowed ↔
      s.Full ∧ done = false := by
  rw [Reporting.full_iff data]
  have hinserts := s.probes.insert_inserts s.waiting done leaves data
  generalize s.probes.insert s.waiting done leaves data = result at hinserts ⊢
  cases hinserts with
  | buffered hsend => simp [Inserted.executed, hsend]
  | handed hsend hwaiting => simp [Inserted.executed, hwaiting]
  | left hdone => simp [Inserted.executed, hdone]
  | dropped hsend hwaiting hdone => simp [Inserted.executed, hlogger, hsend, hwaiting, hdone]

/-! ## The jitter -/

/-- What a loop relies on where it computes its first delay. -/
structure JitterSound (interval jitterPerc : Int64) : Prop where
  bound : 0 < jitterPerc → 0 < interval * jitterPerc / 100 * 2
  product : 0 < jitterPerc → (interval * jitterPerc).toInt = interval.toInt * jitterPerc.toInt
  within : ∀ draw, ∃ delay, computeJitter draw interval jitterPerc = some delay ∧
    |delay.toInt - interval.toInt| * 100 ≤ |interval.toInt * jitterPerc.toInt|

theorem JitterSound.computeJitterPanics {interval jitterPerc : Int64}
    (h : JitterSound interval jitterPerc) : computeJitterPanics interval jitterPerc = false := by
  obtain ⟨delay, hdelay, -⟩ := h.within 0
  rw [← Bool.not_eq_true, ← computeJitter_eq_none_iff 0, hdelay]
  simp

/-- Without jitter the first delay is the interval. -/
theorem jitterSound_of_nonpos {interval jitterPerc : Int64} (h : jitterPerc ≤ 0) :
    JitterSound interval jitterPerc where
  bound := fun hpos => absurd h (Int64.not_le.mpr hpos)
  product := fun hpos => absurd h (Int64.not_le.mpr hpos)
  within := fun draw => by
    refine ⟨interval, by rw [computeJitter, if_pos h], ?_⟩
    rw [sub_self, abs_zero, zero_mul]
    exact abs_nonneg _

theorem int63n_of_pos {n : Int64} (h : 0 < n) (draw : Nat) :
    ∃ r, int63n draw n = some r ∧ 0 ≤ r.toInt ∧ r.toInt < n.toInt := by
  have hpos : 0 < n.toInt := Int64.lt_iff_toInt_lt.mp h
  have hn : (n.toNatClampNeg : Int) = n.toInt := by
    rw [← Int64.toNat_toInt]
    omega
  have hlt : draw % n.toNatClampNeg < n.toNatClampNeg := Nat.mod_lt _ (by omega)
  have hr : (Int64.ofNat (draw % n.toNatClampNeg)).toInt = (draw % n.toNatClampNeg : Nat) :=
    Int64.toInt_ofNat_of_lt (by have := n.toInt_lt; omega)
  exact ⟨_, by rw [int63n, if_neg (Int64.not_le.mpr h)], by omega, by omega⟩

/-- The random part of the delay is drawn from both sides of zero. -/
theorem jitterSound_of_product {interval jitterPerc : Int64} (hperc : 0 < jitterPerc)
    (hlow : 100 ≤ interval.toInt * jitterPerc.toInt)
    (hhigh : interval.toInt * jitterPerc.toInt < 2 ^ 63)
    (hinterval : interval.toInt < 2 ^ 62) (hnonneg : 0 ≤ interval.toInt) :
    JitterSound interval jitterPerc := by
  have hproduct : (interval * jitterPerc).toInt = interval.toInt * jitterPerc.toInt :=
    (toInt_mul_eq_iff _ _).mpr ⟨by omega, hhigh⟩
  have hhundred : (100 : Int64).toInt = 100 := by decide
  have htwo : (2 : Int64).toInt = 2 := by decide
  have hzero : (0 : Int64).toInt = 0 := by decide
  -- the bound of the jitter, to each side
  have hmax : (interval * jitterPerc / 100).toInt = interval.toInt * jitterPerc.toInt / 100 := by
    rw [Int64.toInt_div_of_ne_right _ _ (by decide), hproduct, hhundred,
      Int.tdiv_eq_ediv_of_nonneg (by omega)]
  generalize hM : interval * jitterPerc / 100 = maxJitter at hmax
  have hbound : (maxJitter * 2).toInt = maxJitter.toInt * 2 := by
    have := (toInt_mul_eq_iff maxJitter 2).mpr
    rw [htwo] at this
    exact this ⟨by omega, by omega⟩
  have hboundpos : 0 < maxJitter * 2 := by
    rw [Int64.lt_iff_toInt_lt, hzero, hbound]
    omega
  refine
    { bound := fun _ => by rw [hM]; exact hboundpos
      product := fun _ => hproduct
      within := fun draw => ?_ }
  obtain ⟨r, hdraw, hr, hr'⟩ := int63n_of_pos hboundpos draw
  have hjitter : (r - maxJitter).toInt = r.toInt - maxJitter.toInt :=
    toInt_sub_of_le (by omega) (by omega)
  have hdelay : (interval + (r - maxJitter)).toInt =
      interval.toInt + (r.toInt - maxJitter.toInt) := by
    rw [toInt_add_of_le (by omega) (by omega), hjitter]
  refine ⟨interval + (r - maxJitter), ?_, ?_⟩
  · rw [computeJitter, if_neg (Int64.not_le.mpr hperc), hM]
    show (int63n draw (maxJitter * 2)).bind _ = _
    rw [hdraw]
    rfl
  · have habs : |interval.toInt * jitterPerc.toInt| = interval.toInt * jitterPerc.toInt :=
      abs_of_nonneg (by omega)
    have hdiff : |r.toInt - maxJitter.toInt| ≤ maxJitter.toInt := abs_le.mpr ⟨by omega, by omega⟩
    rw [hdelay, add_sub_cancel_left, habs]
    omega

theorem jitterSound_iff {interval jitterPerc : Int64} (hlow : 100 ≤ interval.toInt)
    (hhigh : interval.toInt < 2 ^ 62) :
    JitterSound interval jitterPerc ↔
      jitterPerc ≤ 0 ∨ interval.toInt * jitterPerc.toInt < 2 ^ 63 := by
  constructor
  · intro h
    rcases Int64.le_or_lt jitterPerc 0 with hperc | hperc
    · exact .inl hperc
    · exact .inr ((toInt_mul_eq_iff _ _).mp (h.product hperc)).2
  · rintro (hperc | hproduct)
    · exact jitterSound_of_nonpos hperc
    · rcases Int64.le_or_lt jitterPerc 0 with hperc | hperc
      · exact jitterSound_of_nonpos hperc
      · have hpos : 0 < jitterPerc.toInt := Int64.lt_iff_toInt_lt.mp hperc
        refine jitterSound_of_product hperc ?_ hproduct hhigh (by omega)
        calc (100 : Int) ≤ interval.toInt := hlow
          _ ≤ interval.toInt * jitterPerc.toInt := le_mul_of_one_le_right (by omega) hpos

/-! ## The schedules of a configuration -/

/-- A loop does not panic, unless its `Insert` finds the stream full, and neither do the library
functions get what they do not expect. -/
structure Task.LoopSafe (t : Task) : Prop where
  loop : ∀ executors moves, t.loop.Spared executors moves →
    t.loop.after executors moves ≠ .panics
  jitter : t.schedule.enabled = true → 0 ≤ t.schedule.interval →
    JitterSound t.schedule.interval t.schedule.jitterPercent

/-- The interval is negative, and the loop gives up; or it is positive, and so small with the
percentage that their product, in nanoseconds, is an `int64`. -/
def TaskSchedule.Schedulable (s : TaskSchedule) : Prop :=
  s.enabled = true → s.intervalSeconds < 0 ∨
    0 < s.intervalSeconds ∧ (s.jitterPercent ≤ 0 ∨
      s.intervalSeconds.toInt * 1000000000 * s.jitterPercent.toInt < 2 ^ 63)

instance (s : TaskSchedule) : Decidable s.Schedulable := inferInstanceAs (Decidable (_ → _))

/-- An `int32` of seconds is a duration. -/
theorem toInt_interval {s : TaskSchedule} (h : FitsInt32 s.intervalSeconds) :
    s.interval.toInt = s.intervalSeconds.toInt * 1000000000 := by
  have hbillion : (1000000000 : Int64).toInt = 1000000000 := by decide
  have hmul := (toInt_mul_eq_iff s.intervalSeconds 1000000000).mpr
  obtain ⟨hlow, hhigh⟩ := h
  rw [hbillion] at hmul
  exact hmul ⟨by omega, by omega⟩

theorem interval_pos_iff {s : TaskSchedule} (h : FitsInt32 s.intervalSeconds) :
    0 < s.interval ↔ 0 < s.intervalSeconds := by
  have hzero : (0 : Int64).toInt = 0 := by decide
  rw [Int64.lt_iff_toInt_lt, Int64.lt_iff_toInt_lt, toInt_interval h, hzero]
  omega

theorem interval_nonneg_iff {s : TaskSchedule} (h : FitsInt32 s.intervalSeconds) :
    0 ≤ s.interval ↔ 0 ≤ s.intervalSeconds := by
  have hzero : (0 : Int64).toInt = 0 := by decide
  rw [Int64.le_iff_toInt_le, Int64.le_iff_toInt_le, toInt_interval h, hzero]
  omega

theorem jitterSound_interval_iff {s : TaskSchedule} (h : FitsInt32 s.intervalSeconds)
    (hpos : 0 < s.intervalSeconds) :
    JitterSound s.interval s.jitterPercent ↔ s.jitterPercent ≤ 0 ∨
      s.intervalSeconds.toInt * 1000000000 * s.jitterPercent.toInt < 2 ^ 63 := by
  have hinterval := toInt_interval h
  have hpos' : 0 < s.intervalSeconds.toInt := Int64.lt_iff_toInt_lt.mp hpos
  obtain ⟨-, hhigh⟩ := h
  rw [← hinterval]
  exact jitterSound_iff (by omega) (by omega)

theorem loopSafe_iff {t : Task} (hp : t.params ≠ none)
    (hfits : FitsInt32 t.schedule.intervalSeconds) :
    t.LoopSafe ↔ t.schedule.Schedulable := by
  constructor
  · intro h henabled
    rcases Int64.lt_or_le t.schedule.intervalSeconds 0 with hneg | hnonneg
    · exact .inl hneg
    · have hnonneg' := (interval_nonneg_iff hfits).mpr hnonneg
      have hticker := ((Loop.never_panics_iff hp).mp h.loop henabled hnonneg').1
      have hpos := (interval_pos_iff hfits).mp hticker
      exact .inr ⟨hpos, (jitterSound_interval_iff hfits hpos).mp (h.jitter henabled hnonneg')⟩
  · intro h
    have hsound : t.schedule.enabled = true → 0 ≤ t.schedule.interval →
        0 < t.schedule.interval ∧
          JitterSound t.schedule.interval t.schedule.jitterPercent := by
      intro henabled hnonneg
      rcases h henabled with hneg | ⟨hpos, hproduct⟩
      · exact absurd ((interval_nonneg_iff hfits).mp hnonneg) (Int64.not_le.mpr hneg)
      · have hjitter := (jitterSound_interval_iff hfits hpos).mpr hproduct
        exact ⟨(interval_pos_iff hfits).mpr hpos, hjitter⟩
    refine { loop := (Loop.never_panics_iff hp).mpr ?_, jitter := fun he hn => (hsound he hn).2 }
    intro henabled hnonneg
    exact ⟨(hsound henabled hnonneg).1, (hsound henabled hnonneg).2.computeJitterPanics⟩

/-- The numbers of a schedule are widened from `int32`. -/
theorem fitsInt32_of_agentConfigFromProto {response : Option AgentV1.AgentConfig}
    {config : AgentConfig} (h : agentConfigFromProto response = .ok config) {t : Task}
    (ht : t ∈ config.tasks) : FitsInt32 t.schedule.intervalSeconds := by
  obtain ⟨pb, rfl, htasks⟩ := agentConfigFromProto_ok h
  obtain ⟨pt, -, hok⟩ := (mem_of_mapM_ok htasks t).mp ht
  rw [(taskFromProto_ok hok).2.2.1, FitsInt32, Int32.toInt_toInt64]
  exact ⟨Int32.le_toInt _, Int32.toInt_lt _⟩

/-- **As long as no `Insert` finds the stream full, the loop of a task of a configuration is safe if
and only if its schedule is off, its interval is negative, or its interval is positive and its
jitter does not overflow; and an `Insert` that finds the stream full makes it panic.** -/
theorem task_loop_safe_iff (response : Option AgentV1.AgentConfig) (config : AgentConfig)
    (h : agentConfigFromProto response = .ok config) (t : Task) (ht : t ∈ config.tasks)
    (hp : t.params ≠ none) :
    (t.LoopSafe ↔ t.schedule.Schedulable) ∧
      ∀ executors moves, ¬ t.loop.Spared executors moves →
        t.loop.after executors moves = .panics :=
  ⟨loopSafe_iff hp (fitsInt32_of_agentConfigFromProto h ht),
    fun _ moves => Loop.after_eq_panics moves⟩

/-! A ping at an interval of some seconds, with a jitter. -/

def pingEvery (intervalSeconds jitterPercent : Int32) : AgentV1.AgentConfig :=
  { tasks :=
      [{ taskId := "edge"
         type := .ping
         params := some pingOnce
         schedule := some { enabled := true, intervalSeconds, jitterPercent } }] }

/-- What the agent makes of it. -/
def pingTask (intervalSeconds jitterPercent : Int64) : Task where
  taskID := "edge"
  type := .ping
  enabled := false
  generation := 0
  params := some (taskParamsFromProto pingOnce)
  schedule := { enabled := true, intervalSeconds, jitterPercent }

def pingEveryConfig (intervalSeconds jitterPercent : Int64) : AgentConfig :=
  { oneTaskConfig none with tasks := [pingTask intervalSeconds jitterPercent] }

theorem ping_loop_safe :
    agentConfigFromProto (some (pingEvery 60 10)) = .ok (pingEveryConfig 60 10) ∧
      (pingTask 60 10).schedule.Schedulable ∧ (pingTask 60 10).LoopSafe ∧
      (pingTask 60 10).loop.after (fun _ => true)
        [(false, .begin), (false, .fire), (false, .executed .overflowed)] = .panics := by
  have hsafe := task_loop_safe_iff (some (pingEvery 60 10)) (pingEveryConfig 60 10)
    (by decide +kernel) _ (List.mem_singleton.mpr rfl) (by decide)
  refine ⟨by decide +kernel, by decide +kernel, hsafe.1.mpr (by decide +kernel), hsafe.2 _ _ ?_⟩
  intro hspared
  exact hspared.2.2.1 (by decide +kernel) rfl

/-- An interval of zero ends the agent: in `computeJitter`, or without jitter after the first run.
And the product of a long interval and a usual percentage is not an `int64`. -/
theorem zero_interval_panics :
    agentConfigFromProto (some (pingEvery 0 10)) = .ok (pingEveryConfig 0 10) ∧
      (pingTask 0 10).loop.after (fun _ => true) [(false, .begin)] = .panics ∧
      (run (Supervisor.step fun _ => true) newSupervisor (executeOnce (pingTask 0 10))).crashed ∧
      (pingTask 0 0).loop.after (fun _ => true)
        [(false, .begin), (false, .fire), (false, .executed .inserted)] = .panics ∧
      ((pingTask 2147483647 10).schedule.interval * 10).toInt ≠
        (pingTask 2147483647 10).schedule.interval.toInt * 10 := by
  decide +kernel

/-! ## The supervisor -/

theorem Loop.sound_of_cancelLoop {loops : Table Nat Loop} {k : Nat}
    (h : ∀ n l, loops.lookup n = some l → l.Sound) {n : Nat} {l : Loop}
    (hl : (cancelLoop loops k).lookup n = some l) : l.Sound := by
  rw [cancelLoop, Table.lookup_adjust] at hl
  split at hl
  · obtain ⟨l', hl', rfl⟩ := Option.map_eq_some_iff.mp hl
    exact h n l' hl'
  · exact h n l hl

theorem Loop.sound_of_cancelLoops : ∀ (toStop : List RunningTask) {loops : Table Nat Loop},
    (∀ n l, loops.lookup n = some l → l.Sound) → ∀ {n : Nat} {l : Loop},
      (toStop.foldl (fun loops rt => cancelLoop loops rt.loop) loops).lookup n = some l → l.Sound
  | [], _, h, n, l, hl => h n l hl
  | _ :: toStop, _, h, _, _, hl => by
    rw [List.foldl_cons] at hl
    exact sound_of_cancelLoops toStop (fun _ _ => sound_of_cancelLoop h) hl

/-- No `Insert` finds the stream full. -/
def Move.Spares : Move → Prop
  | .loop _ m => m ≠ .executed .overflowed
  | _ => True

namespace Supervisor

variable {s s' : Supervisor} {m : Move}

/-- No goroutine has panicked, and those that have started have intervals for their tickers. -/
structure Steady (s : Supervisor) : Prop where
  crashed : s.crashed = false
  sound : ∀ n l, s.loops.lookup n = some l → l.Sound

theorem Steady.startTask (h : s.Steady) (id : String) (t : Task) (phase : Phase) :
    Steady { s.startTask id t with phase } := by
  refine { crashed := h.crashed, sound := ?_ }
  intro n l hl
  rw [lookup_loops_startTask] at hl
  split at hl
  · obtain rfl := Option.some.inj hl
    exact fun hpc => absurd rfl hpc
  · exact h.sound n l hl

/-- Only the goroutines themselves can break this. -/
theorem Steady.next (h : s.Steady) (hn : s.Next m s') (hm : ∀ n lm, m ≠ .loop n lm) :
    s'.Steady := by
  cases hn with
  | called _ _ _ =>
    exact { crashed := h.crashed, sound := fun _ _ hl => Loop.sound_of_cancelLoops _ h.sound hl }
  | added _ _ _ | replaced _ _ => exact h.startTask _ _ _
  | cancelled _ _ _ _ =>
    exact { crashed := h.crashed, sound := fun _ _ hl => Loop.sound_of_cancelLoop h.sound hl }
  | moved _ _ | ended _ _ | crashed => exact absurd rfl (hm _ _)
  | same _ | cleared _ _ | returned _ | vanished _ _ | kept _ _ _ _ | shutdown => exact { h with }

theorem Steady.moveLoop (executors : TaskType → Bool) (h : s.Steady)
    (hruns : ∀ n l, s.loops.lookup n = some l → l.spec.schedule.Runs) (n : Nat) {m : LoopMove}
    (hm : m ≠ .executed .overflowed) : (s.moveLoop executors n m).Steady := by
  unfold Supervisor.moveLoop
  cases hl : s.loops.lookup n with
  | none => exact h
  | some l =>
    have hfine : (l.next executors s.ctxDone m).Fine l :=
      l.fine_next (hruns n l hl) (h.sound n l hl) s.ctxDone fun _ => hm
    simp only
    cases hnext : l.next executors s.ctxDone m with
    | goes pc =>
      rw [hnext] at hfine
      refine { crashed := h.crashed, sound := fun k l' hl' => ?_ }
      rw [Table.lookup_insert_if] at hl'
      split at hl'
      · obtain rfl := Option.some.inj hl'
        exact hfine
      · exact h.sound k l' hl'
    | ends failed =>
      refine { crashed := h.crashed, sound := fun k l' hl' => ?_ }
      by_cases hk : k = n
      · rw [hk, Finmap.lookup_erase] at hl'
        cases hl'
      · rw [Finmap.lookup_erase_ne hk] at hl'
        exact h.sound k l' hl'
    | panics =>
      rw [hnext] at hfine
      exact hfine.elim

theorem Steady.step (executors : TaskType → Bool) (h : s.Steady) (hr : s.Reconciling)
    (ht : s.AllTasks fun t => t.schedule.Runs) {m : Move} (hm : m.Spares) :
    (s.step executors m).Steady := by
  cases m with
  | loop n m =>
    rw [Supervisor.step, if_neg (by simp [h.crashed])]
    exact h.moveLoop executors (fun _ _ hl => ht.loops hr hl) n hm
  | setDesiredTasks _ _ _ | proceed | shutdown =>
    exact h.next (s.step_next executors _) fun _ _ h => by cases h

end Supervisor

/-- As long as every schedule is fit to run and the stream of the results is not full, the
goroutines of the tasks do not end the agent. -/
theorem supervisor_not_crashed (executors : TaskType → Bool) {moves : List Move}
    (hmoves : ∀ m ∈ moves, (m.Lists fun t => t.schedule.Runs) ∧ m.Spares) :
    Throughout (Supervisor.step executors) (fun s => s.crashed = false) newSupervisor moves := by
  have hinv : Throughout (Supervisor.step executors)
      (fun s => (s.Reconciling ∧ s.AllTasks fun t => t.schedule.Runs) ∧ s.Steady) newSupervisor
      moves := by
    refine throughout_of_invariant (fun s m h hm => ?_)
      ⟨⟨Supervisor.reconciling_new, Supervisor.allTasks_new⟩, rfl, ?_⟩ (along_of_mem hmoves)
    · have hn := s.step_next executors m
      exact ⟨⟨h.1.1.next hn, h.1.2.next h.1.1 hn hm.1⟩, h.2.step executors h.1.1 h.1.2 hm.2⟩
    · intro n l hl
      simp [newSupervisor] at hl
  exact hinv.imp fun s h => h.2.crashed

end Cepheus.Agent
