import Cepheus.Dashboard.Properties.UniqueIds

/-!
# Where the rows of the tables come from

The sessions only append to `agent_task`. Every row that they have appended was built of a row of
the form that somebody has typed (`System.Sourced`), in whatever order the sessions take their
steps. And it has a generation of its configuration that no transaction before it had: so no two
rows of a configuration have the same `task_id` and the same generation, even where sessions have
chosen the same `task_id` at the same time (`Versioned`).
-/

namespace Cepheus.Dashboard

open Infra Server

variable {S U : Type} [DecidableEq S] [DecidableEq U]
variable {inspect : String → String} {P : Row → Prop}

/-! ## Tasks of a session -/

variable (inspect P) in
/-- The task was built of such a row. -/
def Task.Of (t : Task) : Prop := ∃ row used, P row ∧ buildTask inspect row used = .ok t

theorem buildLoop_of {rows : List Row} (hrows : ∀ row ∈ rows, P row) :
    ∀ {acc tasks : List Task} {used : Finset String}, (∀ t ∈ acc, t.Of inspect P) →
      buildLoop inspect rows acc used = .ok tasks → ∀ t ∈ tasks, t.Of inspect P := by
  induction rows with
  | nil =>
    intro acc tasks used hacc h t ht
    rw [← Except.ok.inj h] at ht
    exact hacc t (List.mem_reverse.mp ht)
  | cons row rows ih =>
    intro acc tasks used hacc h
    obtain ⟨hrow, hrows⟩ := List.forall_mem_cons.mp hrows
    rw [buildLoop] at h
    split at h
    · next task htask =>
      refine ih hrows (fun t ht => ?_) h
      rcases List.mem_cons.mp ht with rfl | ht
      · exact ⟨row, used, hrow, htask⟩
      · exact hacc t ht
    · cases h

theorem buildTasks_of {rows : List Row} (hrows : ∀ row ∈ rows, P row) {existing : List String}
    {tasks : List Task} (h : buildTasks inspect rows existing = .ok tasks) :
    ∀ t ∈ tasks, t.Of inspect P := by
  cases rows with
  | nil => cases h
  | cons row rows =>
    have hnil : ∀ t ∈ ([] : List Task), t.Of inspect P := fun t ht => absurd ht List.not_mem_nil
    exact buildLoop_of hrows hnil h

variable (inspect P) in
/-- What the session has was typed, or built of what was typed. -/
structure Session.Sourced (x : Session U) : Prop where
  rows : ∀ row ∈ x.rows, P row
  built : ∀ tasks, x.built = some tasks → ∀ t ∈ tasks, t.Of inspect P

theorem Session.Sourced.build {x : Session U} (h : x.Sourced inspect P) (db : Database U) :
    (x.build inspect db).Sourced inspect P := by
  unfold Session.build
  split
  · next tasks hbuild =>
    refine { rows := h.rows, built := fun tasks' heq => ?_ }
    obtain rfl : tasks = tasks' := Option.some.inj heq
    exact buildTasks_of h.rows hbuild
  · exact h

omit [DecidableEq U] in
theorem Session.sourced_of_rows {x : Session U} (hbuilt : x.built = none)
    (hrows : ∀ row ∈ x.rows, P row) : x.Sourced inspect P where
  rows := hrows
  built := fun _ heq => by rw [hbuilt] at heq; cases heq

/-! ## Rows of the tables -/

variable (inspect P) in
/-- The row was inserted for a task of a session. -/
def Inserted (r : TaskRow) : Prop :=
  ∃ t generation, r = Database.insertRow generation t ∧ t.Of inspect P ∧
    Database.FitsInt t.scheduleIntervalSeconds

variable {db db' : Database U}

/-- What a transaction that does not fail has found and done. -/
theorem Database.addTasks_eq_some {config : U} {tasks : List Task}
    (h : db.addTasks config tasks = some db') :
    ∃ generation, db.agentConfig.lookup config = some generation ∧
      FitsInt (generation.toInt + 1) ∧ (∀ t ∈ tasks, FitsInt t.scheduleIntervalSeconds) ∧
      db' =
        { agentConfig := db.agentConfig.insert config (generation + 1)
          agentTask := db.agentTask ++
            tasks.map fun t => (config, insertRow (generation + 1) t) } := by
  unfold addTasks at h
  split at h
  · cases h
  · next generation hgen =>
    split at h
    · next hfits =>
      exact ⟨generation, hgen, hfits.1, fun t ht => (hfits.2 t ht).1, (Option.some.inj h).symm⟩
    · cases h

/-- The rows of a configuration before and after a transaction. -/
theorem Database.listTasksForConfig_addTasks {config : U} {tasks : List Task}
    {generation : Int32} {agentConfig : Table U Int32} (config' : U) :
    ({ agentConfig
       agentTask := db.agentTask ++ tasks.map fun t => (config, insertRow generation t) } :
        Database U).listTasksForConfig config' =
      db.listTasksForConfig config' ++
        if config' = config then tasks.map (insertRow generation) else [] := by
  rw [listTasksForConfig, ofConfig_append, ofConfig_insertRow]
  rfl

/-- No row of a configuration has a later generation than the configuration, and no two of them have
the same `task_id` and the same generation. -/
structure Database.Versioned (db : Database U) : Prop where
  bounded : ∀ config generation, db.agentConfig.lookup config = some generation →
    ∀ r ∈ db.listTasksForConfig config, r.generation.toInt ≤ generation.toInt
  distinct : ∀ config,
    ((db.listTasksForConfig config).map fun r => (r.taskID, r.generation)).Nodup

theorem toInt_succ_of_fitsInt {generation : Int32} (h : Database.FitsInt (generation.toInt + 1)) :
    (generation + 1).toInt = generation.toInt + 1 := by
  have hone : (1 : Int32).toInt = 1 := by decide
  obtain ⟨hlow, hhigh⟩ := h
  rw [Int32.toInt_add, hone, Int.bmod_eq_of_le (by omega) (by omega)]

/-- The rows of one transaction have different ids, and a generation that no row had before. -/
theorem Database.Versioned.addTasks (h : db.Versioned) {config : U} {tasks : List Task}
    (hadd : db.addTasks config tasks = some db') (hids : (tasks.map (·.taskID)).Nodup) :
    db'.Versioned := by
  obtain ⟨generation, hgen, hnext, -, rfl⟩ := addTasks_eq_some hadd
  have hsucc := toInt_succ_of_fitsInt hnext
  constructor
  · intro config' generation' hlookup r hr
    rw [listTasksForConfig_addTasks] at hr
    simp only [Table.lookup_insert_if] at hlookup
    split at hlookup
    · next heq =>
      subst heq
      obtain rfl := Option.some.inj hlookup
      rw [if_pos rfl] at hr
      rcases List.mem_append.mp hr with hr | hr
      · have hle := h.bounded config' generation hgen r hr
        omega
      · obtain ⟨t, -, rfl⟩ := List.mem_map.mp hr
        exact le_rfl
    · next hne =>
      rw [if_neg hne, List.append_nil] at hr
      exact h.bounded config' generation' hlookup r hr
  · intro config'
    rw [listTasksForConfig_addTasks]
    split
    · next heq =>
      subst heq
      rw [List.map_append, List.nodup_append]
      refine ⟨h.distinct config', ?_, ?_⟩
      · rw [List.map_map]
        exact List.Nodup.of_map Prod.fst (by rwa [List.map_map])
      · -- an old row has a generation up to that of the configuration
        rintro _ hold _ hnew rfl
        obtain ⟨r, hr, heq⟩ := List.mem_map.mp hold
        obtain ⟨r', hr', heq'⟩ := List.mem_map.mp hnew
        obtain ⟨t, -, rfl⟩ := List.mem_map.mp hr'
        have hle := h.bounded config' generation hgen r hr
        have hgeneration : r.generation = generation + 1 :=
          (congrArg Prod.snd (heq.trans heq'.symm) : _)
        rw [hgeneration, hsucc] at hle
        omega
    · rw [List.append_nil]
      exact h.distinct config'

/-- Somebody types such rows. -/
def Move.Types (P : Row → Prop) : Move S U → Prop
  | .edit _ rows => ∀ row ∈ rows, P row
  | _ => True

namespace System

variable {st : System S U} {m : Move S U} {db₀ : Database U}

/-- Rows are only appended. -/
theorem agentTask_step (m : Move S U) :
    st.db.agentTask <+: (st.step inspect m).db.agentTask := by
  have hn : st.Next inspect m (st.step inspect m) := step_next m
  generalize st.step inspect m = st' at hn ⊢
  cases hn with
  | kept _ _ | built _ => exact List.prefix_rfl
  | committed hcommit =>
    obtain ⟨-, -, -, hadd⟩ := commit_eq_some_iff.mp hcommit
    obtain ⟨generation, happend⟩ := Database.agentTask_addTasks hadd
    exact ⟨_, happend.symm⟩

variable (inspect P db₀) in
/-- The tables are those of the beginning, with rows that were inserted. -/
structure Sourced (st : System S U) : Prop where
  sessions : ∀ s x, st.sessions.lookup s = some x → x.Sourced inspect P
  rows : ∃ new, st.db.agentTask = db₀.agentTask ++ new ∧ ∀ r ∈ new, Inserted inspect P r.2

omit [DecidableEq U] in
theorem sourced_start : (start db₀ : System S U).Sourced inspect P db₀ where
  sessions := fun s x h => by cases h
  rows := ⟨[], by simp [start], fun r hr => absurd hr List.not_mem_nil⟩

omit [DecidableEq U] in
theorem Sourced.adjust (h : st.Sourced inspect P db₀) {s : S} {f : Session U → Session U}
    (hf : ∀ x, x.Sourced inspect P → (f x).Sourced inspect P) :
    Sourced inspect P db₀ { st with sessions := st.sessions.adjust s f } where
  sessions := by
    intro s' x hx
    rw [Table.lookup_adjust] at hx
    split at hx
    · obtain ⟨y, hy, rfl⟩ := Option.map_eq_some_iff.mp hx
      exact hf y (h.sessions s' y hy)
    · exact h.sessions s' x hx
  rows := h.rows

/-- What a session commits was built of what was typed. -/
theorem Sourced.committed (h : st.Sourced inspect P db₀) {s : S} {outcome : Outcome}
    {c : Commit U} (hcommit : st.commit s outcome = some c) :
    ∃ new, c.db.agentTask = db₀.agentTask ++ new ∧ ∀ r ∈ new, Inserted inspect P r.2 := by
  obtain ⟨hx, hbuilt, -, hadd⟩ := commit_eq_some_iff.mp hcommit
  obtain ⟨generation, -, -, hfits, hdb⟩ := Database.addTasks_eq_some hadd
  obtain ⟨new, hnew, hall⟩ := h.rows
  refine ⟨new ++ c.tasks.map fun t =>
    (c.session.config, Database.insertRow (generation + 1) t), ?_, ?_⟩
  · rw [hdb, ← List.append_assoc, ← hnew]
  · intro r hr
    rcases List.mem_append.mp hr with hr | hr
    · exact hall r hr
    · obtain ⟨t, ht, rfl⟩ := List.mem_map.mp hr
      exact ⟨t, generation + 1, rfl, (h.sessions s _ hx).built _ hbuilt t ht, hfits t ht⟩

theorem Sourced.step (h : st.Sourced inspect P db₀) (hm : Move.Types P m) :
    (st.step inspect m).Sourced inspect P db₀ := by
  cases m with
  | mount s config =>
    refine { sessions := fun s' x hx => ?_, rows := h.rows }
    simp only [System.step, Table.lookup_insert_if] at hx
    split at hx
    · obtain rfl := Option.some.inj hx
      exact Session.sourced_of_rows rfl fun _ hr => absurd hr List.not_mem_nil
    · exact h.sessions s' x hx
  | edit s rows =>
    refine h.adjust fun x hx => ?_
    split
    · exact { rows := hm, built := hx.built }
    · exact hx
  | build s =>
    refine h.adjust fun x hx => ?_
    split
    · exact hx.build st.db
    · exact hx
  | add s outcome =>
    cases hcommit : st.commit s outcome with
    | none =>
      simp only [System.step, hcommit]
      exact h.adjust fun x hx => Session.sourced_of_rows rfl hx.rows
    | some c =>
      simp only [System.step, hcommit]
      refine { sessions := fun s' x hx => ?_, rows := h.committed hcommit }
      obtain ⟨hsession, -, -, -⟩ := commit_eq_some_iff.mp hcommit
      have hc := h.sessions s c.session hsession
      simp only [Table.lookup_insert_if] at hx
      split at hx
      · obtain rfl := Option.some.inj hx
        refine Session.sourced_of_rows rfl fun row hrow => ?_
        simp only at hrow
        split at hrow
        · exact absurd hrow List.not_mem_nil
        · exact hc.rows row hrow
      · exact h.sessions s' x hx
  | close s =>
    refine { sessions := fun s' x hx => ?_, rows := h.rows }
    by_cases heq : s' = s
    · rw [heq, System.step, Finmap.lookup_erase] at hx
      cases hx
    · rw [System.step, Finmap.lookup_erase_ne heq] at hx
      exact h.sessions s' x hx

/-- No transaction uses a generation again. -/
theorem versioned_step (hb : st.Building) (h : st.db.Versioned) :
    (st.step inspect m).db.Versioned := by
  have hn : st.Next inspect m (st.step inspect m) := step_next m
  generalize st.step inspect m = st' at hn ⊢
  cases hn with
  | kept _ _ | built _ => exact h
  | committed hcommit =>
    obtain ⟨hx, hbuilt, -, hadd⟩ := commit_eq_some_iff.mp hcommit
    exact h.addTasks hadd (hb _ _ _ hx hbuilt).2.nodup

end System

end Cepheus.Dashboard
