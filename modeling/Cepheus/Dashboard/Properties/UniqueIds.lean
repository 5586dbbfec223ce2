import Cepheus.Infra.Run
import Cepheus.Agent.Properties.Config
import Cepheus.Agent.Properties.Goroutines
import Cepheus.Dashboard.Sessions
import Cepheus.Dashboard.Properties.FreshIds

/-!
# Whether task ids stay unique

A session chooses ids that were not in use when it read the table. What others have inserted since
then it does not know of, and neither the transaction nor the table refuses an id that is there
already. So the ids of a configuration stay different just as long as no session inserts a task
whose id another one has inserted into the configuration since it read (`task_ids_unique_iff`), and
two sessions that add the same task at the same time are enough to break this
(`task_ids_of_race`).

The agent puts the tasks of its configuration into a map by their ids. It has one for each row if
and only if the ids are different.
-/

namespace Cepheus.Dashboard

open Infra Server

variable {S U : Type} [DecidableEq S] [DecidableEq U]

/-! ## The table before and after -/

theorem ofConfig_append (config : U) (a b : List (U × TaskRow)) :
    ofConfig config (a ++ b) = ofConfig config a ++ ofConfig config b := by
  simp only [ofConfig, List.filter_append, List.map_append]

/-- The rows of a transaction all belong to its configuration. -/
theorem ofConfig_insertRow (config config' : U) (generation : Int32) (tasks : List Task) :
    ofConfig config (tasks.map fun t => (config', Database.insertRow generation t)) =
      if config = config' then tasks.map (Database.insertRow generation) else [] := by
  unfold ofConfig
  split
  case isTrue h => simp [h, List.filter_map, Function.comp_def]
  case isFalse h => simp [Ne.symm h]

namespace Database

variable (db : Database U)

/-- The ids of the configuration among the first `n` rows of the table. -/
def idsBefore (config : U) (n : Nat) : List String :=
  (ofConfig config (db.agentTask.take n)).map (·.taskID)

/-- The ids that were inserted for the configuration when the table had `n` rows or more. -/
def idsSince (config : U) (n : Nat) : List String :=
  (ofConfig config (db.agentTask.drop n)).map (·.taskID)

variable {db}

theorem taskIDs_eq (config : U) (n : Nat) :
    db.taskIDs config = db.idsBefore config n ++ db.idsSince config n := by
  rw [idsBefore, idsSince, ← List.map_append, ← ofConfig_append, List.take_append_drop]
  rfl

theorem idsBefore_length (config : U) :
    db.idsBefore config db.agentTask.length = db.taskIDs config := by
  rw [idsBefore, List.take_length]
  rfl

/-- What a transaction appends. -/
theorem agentTask_addTasks {config : U} {tasks : List Task} {db' : Database U}
    (h : db.addTasks config tasks = some db') :
    ∃ generation,
      db'.agentTask = db.agentTask ++ tasks.map fun t => (config, insertRow generation t) := by
  unfold addTasks at h
  split at h
  · cases h
  · split at h
    · obtain rfl := Option.some.inj h
      exact ⟨_, rfl⟩
    · cases h

theorem taskIDs_addTasks {config : U} {tasks : List Task} {db' : Database U}
    (h : db.addTasks config tasks = some db') (config' : U) :
    db'.taskIDs config' =
      if config' = config then db.taskIDs config' ++ tasks.map (·.taskID)
      else db.taskIDs config' := by
  obtain ⟨generation, happend⟩ := agentTask_addTasks h
  rw [taskIDs, listTasksForConfig, happend, ofConfig_append, ofConfig_insertRow, List.map_append]
  split
  · rw [List.map_map]
    rfl
  · rw [List.map_nil, List.append_nil]
    rfl

/-- The rows that were there stay in their places. -/
theorem idsBefore_addTasks {config : U} {tasks : List Task} {db' : Database U}
    (h : db.addTasks config tasks = some db') {n : Nat} (hn : n ≤ db.agentTask.length)
    (config' : U) : db'.idsBefore config' n = db.idsBefore config' n := by
  obtain ⟨generation, happend⟩ := agentTask_addTasks h
  rw [idsBefore, happend, List.take_append_of_le_length hn]
  rfl

theorem length_addTasks {config : U} {tasks : List Task} {db' : Database U}
    (h : db.addTasks config tasks = some db') : db.agentTask.length ≤ db'.agentTask.length := by
  obtain ⟨generation, happend⟩ := agentTask_addTasks h
  rw [happend, List.length_append]
  exact Nat.le_add_right ..

/-- **When a transaction keeps the ids different**: those of its tasks were not in use among the
first rows of the table, and they must not be among the others. -/
theorem nodup_append_iff_idsSince {config : U} {n : Nat} {tasks : List Task}
    (hids : (db.taskIDs config).Nodup) (hfresh : Fresh (db.idsBefore config n).toFinset tasks) :
    (db.taskIDs config ++ tasks.map (·.taskID)).Nodup ↔
      ∀ t ∈ tasks, t.taskID ∉ db.idsSince config n := by
  rw [List.nodup_append]
  constructor
  · rintro ⟨-, -, hdisj⟩ t ht hsince
    have hold : t.taskID ∈ db.taskIDs config := by
      rw [taskIDs_eq config n]
      exact List.mem_append_right _ hsince
    exact hdisj _ hold _ (List.mem_map_of_mem ht) rfl
  · intro hspared
    refine ⟨hids, hfresh.nodup, ?_⟩
    rintro id hold _ hnew rfl
    obtain ⟨t, ht, rfl⟩ := List.mem_map.mp hnew
    rw [taskIDs_eq config n] at hold
    rcases List.mem_append.mp hold with hbefore | hsince
    · exact hfresh.unused t ht (List.mem_toFinset.mpr hbefore)
    · exact hspared t ht hsince

end Database

/-! ## What a step can do -/

namespace System

variable {inspect : String → String} {st st' : System S U} {m : Move S U}

theorem commit_eq_some_iff {s : S} {outcome : Outcome} {c : Commit U} :
    st.commit s outcome = some c ↔
      st.sessions.lookup s = some c.session ∧ c.session.built = some c.tasks ∧
        outcome ≠ .failed ∧ st.db.addTasks c.session.config c.tasks = some c.db := by
  unfold commit
  simp only [Option.bind_eq_bind, Option.bind_eq_some_iff]
  constructor
  · rintro ⟨x, hx, tasks, htasks, hdb⟩
    split at hdb
    case isTrue => cases hdb
    case isFalse hout =>
      obtain ⟨db, hadd, rfl⟩ := Option.map_eq_some_iff.mp hdb
      exact ⟨hx, htasks, hout, hadd⟩
  · rintro ⟨hx, htasks, hout, hdb⟩
    exact ⟨c.session, hx, c.tasks, htasks, by rw [if_neg hout, hdb, Option.map_some]⟩

variable (inspect st) in
/-- All that a step can do to the tables and to what the sessions are about to insert. -/
inductive Next : Move S U → System S U → Prop
  /-- A session that has built tasks is left as it is, or drops them. -/
  | kept {m : Move S U} {sessions : Table S (Session U)}
      (hcommit : ∀ s outcome, m = .add s outcome → st.commit s outcome = none)
      (hkept : ∀ s x tasks, sessions.lookup s = some x → x.built = some tasks →
        st.sessions.lookup s = some x) :
      Next m { st with sessions }
  | built {s : S} {x : Session U} {tasks : List Task}
      (hbuild : buildTasks inspect x.rows (st.db.taskIDs x.config) = .ok tasks) :
      Next (.build s)
        { st with
          sessions := st.sessions.insert s
            { x with built := some tasks, seen := st.db.agentTask.length } }
  | committed {s : S} {outcome : Outcome} {c : Commit U} {rows : List Row}
      (hcommit : st.commit s outcome = some c) :
      Next (.add s outcome)
        { db := c.db, sessions := st.sessions.insert s { c.session with rows, built := none } }

/-- A move that is no transaction, and after which the session of its own has either built nothing
or is as it was. -/
theorem Next.adjusted {s : S} {f : Session U → Session U}
    (hcommit : ∀ s outcome, m = .add s outcome → st.commit s outcome = none)
    (hf : ∀ x, st.sessions.lookup s = some x → (f x).built = none ∨ f x = x) :
    st.Next inspect m { st with sessions := st.sessions.adjust s f } := by
  refine .kept hcommit fun s' x tasks hx hbuilt => ?_
  rw [Table.lookup_adjust] at hx
  split at hx
  case isTrue heq =>
    subst heq
    obtain ⟨y, hy, rfl⟩ := Option.map_eq_some_iff.mp hx
    rcases hf y hy with hnone | hsame
    · rw [hnone] at hbuilt
      cases hbuilt
    · rw [hsame, hy]
  case isFalse => exact hx

theorem step_next (m : Move S U) : st.Next inspect m (st.step inspect m) := by
  cases m with
  | mount s config =>
    refine .kept (fun _ _ h => by cases h) fun s' x tasks hx hbuilt => ?_
    rw [Table.lookup_insert_if] at hx
    split at hx
    · obtain rfl := Option.some.inj hx
      cases hbuilt
    · exact hx
  | edit s rows =>
    refine .adjusted (fun _ _ h => by cases h) fun x _ => ?_
    split
    case isTrue hnone => exact .inl (Option.isNone_iff_eq_none.mp hnone)
    case isFalse => exact .inr rfl
  | build s =>
    cases hx : st.sessions.lookup s with
    | none => exact .adjusted (fun _ _ h => by cases h) fun x hx' => by rw [hx] at hx'; cases hx'
    | some x =>
      by_cases hnone : x.built.isNone
      · cases hbuild : buildTasks inspect x.rows (st.db.taskIDs x.config) with
        | error message =>
          refine .adjusted (fun _ _ h => by cases h) fun x' hx' => ?_
          obtain rfl := Option.some.inj (hx.symm.trans hx')
          rw [if_pos hnone, Session.build, hbuild]
          exact .inr rfl
        | ok tasks =>
          have hstep : st.step inspect (.build s) =
              { st with
                sessions := st.sessions.insert s
                  { x with built := some tasks, seen := st.db.agentTask.length } } := by
            simp only [step, Table.adjust, hx, hnone, if_true, Session.build, hbuild]
          rw [hstep]
          exact .built hbuild
      · refine .adjusted (fun _ _ h => by cases h) fun x' hx' => ?_
        obtain rfl := Option.some.inj (hx.symm.trans hx')
        exact .inr (if_neg hnone)
  | add s outcome =>
    cases hcommit : st.commit s outcome with
    | some c =>
      simp only [step, hcommit]
      exact .committed hcommit
    | none =>
      simp only [step, hcommit]
      refine .adjusted (fun s' outcome' h => ?_) fun x _ => .inl rfl
      cases h
      exact hcommit
  | close s =>
    refine .kept (fun _ _ h => by cases h) fun s' x tasks hx hbuilt => ?_
    by_cases heq : s' = s
    · rw [heq, Finmap.lookup_erase] at hx
      cases hx
    · rwa [Finmap.lookup_erase_ne heq] at hx

/-! ## What the sessions are about to insert -/

/-- The tasks that a session has built have different ids, none of which was in the table when it
read it. -/
def Building (st : System S U) : Prop :=
  ∀ s x tasks, st.sessions.lookup s = some x → x.built = some tasks →
    x.seen ≤ st.db.agentTask.length ∧ Fresh (st.db.idsBefore x.config x.seen).toFinset tasks

theorem building_start (db : Database U) : (start db : System S U).Building := by
  intro s x tasks hx
  cases hx

theorem Building.next (h : st.Building) (hn : st.Next inspect m st') : st'.Building := by
  cases hn with
  | kept _ hkept => exact fun s x tasks hx hbuilt => h s x tasks (hkept s x tasks hx hbuilt) hbuilt
  | @built s y new hbuild =>
    intro s' x tasks hx hbuilt
    rw [Table.lookup_insert_if] at hx
    split at hx
    · obtain rfl := Option.some.inj hx
      obtain rfl := Option.some.inj hbuilt
      refine ⟨le_rfl, ?_⟩
      rw [Database.idsBefore_length]
      exact (buildTasks_fresh hbuild).2
    · exact h s' x tasks hx hbuilt
  | @committed s outcome c rows hcommit =>
    obtain ⟨-, -, -, hadd⟩ := commit_eq_some_iff.mp hcommit
    intro s' x tasks hx hbuilt
    rw [Table.lookup_insert_if] at hx
    split at hx
    · obtain rfl := Option.some.inj hx
      cases hbuilt
    · obtain ⟨hle, hfresh⟩ := h s' x tasks hx hbuilt
      refine ⟨hle.trans (Database.length_addTasks hadd), ?_⟩
      rw [Database.idsBefore_addTasks hadd hle]
      exact hfresh

/-! ## When ids stay unique -/

/-- No two rows of a configuration have the same `task_id`. -/
def UniqueIDs (st : System S U) : Prop := ∀ config, (st.db.taskIDs config).Nodup

/-- If the move commits a transaction, then none of the ids it inserts has been inserted into the
configuration since the session read them. -/
def Spared (st : System S U) : Move S U → Prop
  | .add s outcome =>
    ∀ c ∈ (st.commit s outcome).toList, ∀ t ∈ c.tasks,
      t.taskID ∉ st.db.idsSince c.session.config c.session.seen
  | _ => True

instance (st : System S U) : ∀ m, Decidable (st.Spared m)
  | .mount .. | .edit .. | .build .. | .close .. => inferInstanceAs (Decidable True)
  | .add s outcome =>
    inferInstanceAs (Decidable (∀ c ∈ (st.commit s outcome).toList, ∀ t ∈ c.tasks, _))

/-- One step keeps the ids unique just if it is spared. -/
theorem uniqueIDs_next_iff (h : st.Building) (hu : st.UniqueIDs) (hn : st.Next inspect m st') :
    st'.UniqueIDs ↔ st.Spared m := by
  cases hn with
  | kept hcommit _ =>
    refine iff_of_true hu ?_
    cases m with
    | add s outcome =>
      intro c hc
      rw [hcommit s outcome rfl] at hc
      cases hc
    | _ => trivial
  | built _ => exact iff_of_true hu trivial
  | @committed s outcome c rows hcommit =>
    obtain ⟨hx, hbuilt, -, hadd⟩ := commit_eq_some_iff.mp hcommit
    obtain ⟨-, hfresh⟩ := h s c.session c.tasks hx hbuilt
    have hspared : st.Spared (.add s outcome) ↔
        ∀ t ∈ c.tasks, t.taskID ∉ st.db.idsSince c.session.config c.session.seen := by
      simp only [Spared, hcommit, Option.toList_some, List.mem_singleton, forall_eq]
    rw [hspared, ← Database.nodup_append_iff_idsSince (hu c.session.config) hfresh]
    constructor
    · intro hnew
      have hconfig := hnew c.session.config
      rwa [Database.taskIDs_addTasks hadd, if_pos rfl] at hconfig
    · intro hconfig config
      show (c.db.taskIDs config).Nodup
      rw [Database.taskIDs_addTasks hadd]
      split
      case isTrue heq => rwa [heq]
      case isFalse => exact hu config

/-! ## The map of the agent -/

/-- The agent's map of desired tasks has one for each row of the configuration, in whatever order
the control plane reads them. -/
def DesiredComplete (parseFloat : Json.Number → Option UInt64) (rows : List TaskRow) : Prop :=
  ∀ (c : ConfigRow) (read : List TaskRow) (pb : AgentV1.AgentConfig) (cfg : Agent.AgentConfig),
    read.Perm rows →
    loadAgentConfig parseFloat (.rows ((selectRows c read).map .ok) none) = .ok pb →
    Agent.agentConfigFromProto (some pb) = .ok cfg →
    (Agent.desiredOf cfg.tasks).keys.card = rows.length

theorem desiredComplete_of_nodup {parseFloat : Json.Number → Option UInt64} {rows : List TaskRow}
    (h : (rows.map (·.taskID)).Nodup) : DesiredComplete parseFloat rows := by
  intro c read pb cfg hperm hload hcfg
  have hread : (read.map (·.taskID)).Nodup := (hperm.map _).nodup_iff.mpr h
  rw [Agent.keys_desiredOf, Agent.taskIDs_of_loaded hload hcfg,
    List.toFinset_card_of_nodup hread, List.length_map, hperm.length_eq]

/-- The ids of every configuration are different, and the agent drops no task. -/
structure Intact (parseFloat : Json.Number → Option UInt64) (st : System S U) : Prop where
  unique : st.UniqueIDs
  desired : ∀ config, DesiredComplete parseFloat (st.db.listTasksForConfig config)

omit [DecidableEq S] in
theorem intact_iff {parseFloat : Json.Number → Option UInt64} :
    st.Intact parseFloat ↔ st.UniqueIDs :=
  ⟨Intact.unique, fun h => ⟨h, fun config => desiredComplete_of_nodup (h config)⟩⟩

/-! ## Runs -/

theorem intact_step_iff (inspect : String → String) {parseFloat : Json.Number → Option UInt64}
    (h : st.Building) (hi : st.Intact parseFloat) (m : Move S U) :
    (st.step inspect m).Intact parseFloat ↔ st.Spared m := by
  rw [intact_iff, uniqueIDs_next_iff h hi.unique (step_next m)]

/--
**When task ids stay unique.**

In every interleaving of the sessions, from tables in which no configuration has an id twice, the
ids stay unique and the agents drop no task just if no session commits a task whose id was inserted
into the configuration since the session read the ids in use.
-/
theorem task_ids_unique_iff (inspect : String → String)
    (parseFloat : Json.Number → Option UInt64) {db : Database U}
    (hdb : ∀ config, (db.taskIDs config).Nodup) (moves : List (Move S U)) :
    Throughout (step inspect) (Intact parseFloat) (start db) moves ↔
      Along (step inspect) Spared (start db) moves := by
  have hexact : ∀ (st : System S U) m, st.Building → st.Intact parseFloat → True →
      ((st.step inspect m).Intact parseFloat ↔ st.Spared m) :=
    fun _ m hbuilding hintact _ => intact_step_iff inspect hbuilding hintact m
  have hinv : ∀ (st : System S U) m, st.Building → st.Intact parseFloat → True → st.Spared m →
      (st.step inspect m).Building :=
    fun _ m hbuilding _ _ _ => hbuilding.next (step_next m)
  exact throughout_iff_along hexact hinv (building_start db) (intact_iff.mpr hdb)
    (along_of_forall fun _ _ => trivial)

/-- If nothing is inserted into a configuration between the two steps of a session, the ids stay
unique. -/
theorem intact_of_serial (inspect : String → String)
    (parseFloat : Json.Number → Option UInt64) {db : Database U}
    (hdb : ∀ config, (db.taskIDs config).Nodup) {moves : List (Move S U)}
    (hserial : Along (step inspect) (fun st m => ∀ s outcome, m = .add s outcome →
      ∀ c ∈ (st.commit s outcome).toList, st.db.idsSince c.session.config c.session.seen = [])
      (start db) moves) :
    Throughout (step inspect) (Intact parseFloat) (start db) moves := by
  have hspared : Along (step inspect) Spared (start db) moves := by
    refine hserial.imp fun st m h => ?_
    cases m with
    | add s outcome =>
      intro c hc t _
      rw [h s outcome rfl c hc]
      exact List.not_mem_nil
    | _ => trivial
  have hkept : Throughout (step inspect)
      (fun st : System S U => st.Building ∧ st.Intact parseFloat) (start db) moves :=
    throughout_of_invariant
      (fun st m h hg => ⟨h.1.next (step_next m), (intact_step_iff inspect h.1 h.2 m).mpr hg⟩)
      ⟨building_start db, intact_iff.mpr hdb⟩ hspared
  exact hkept.imp fun _ h => h.2

/-! ## Two sessions -/

/-- One configuration without tasks. -/
def emptyDatabase : Database Unit where
  agentConfig := Finmap.insert () 1 ∅
  agentTask := []

/-- A session has a row for pings to `10.0.0.1`. -/
def opened (s : Bool) : List (Move Bool Unit) :=
  [.mount s (),
    .edit s [{ type := "ping", target := some "10.0.0.1", port := some "", interval := some "" }]]

/-- Both sessions read the table before one of them inserts. -/
def race : List (Move Bool Unit) :=
  opened false ++ opened true ++
    [.build false, .build true, .add false .committed, .add true .committed]

/-- One session after the other. -/
def turns : List (Move Bool Unit) :=
  opened false ++ opened true ++
    [.build false, .add false .committed, .build true, .add true .committed]

/-- One after the other, the second session takes the next free id. -/
theorem task_ids_unique_turns :
    (∀ config, (emptyDatabase.taskIDs config).Nodup) ∧
      Throughout (step id) (Intact fun _ => none) (start emptyDatabase) turns :=
  have hdb : ∀ config, (emptyDatabase.taskIDs config).Nodup := fun _ => List.nodup_nil
  ⟨hdb, (task_ids_unique_iff id (fun _ => none) hdb turns).mpr (by decide +kernel)⟩

/-- At the same time, both take the same. -/
theorem task_ids_of_race :
    (run (step id) (start emptyDatabase) race).db.taskIDs () =
        ["ping-10-0-0-1", "ping-10-0-0-1"] ∧
      ¬ Throughout (step id) (Intact fun _ => none) (start emptyDatabase) race := by
  have hids : (run (step id) (start emptyDatabase) race).db.taskIDs () =
      ["ping-10-0-0-1", "ping-10-0-0-1"] := by decide +kernel
  refine ⟨hids, fun h => ?_⟩
  have hnodup := h.last.unique ()
  rw [hids] at hnodup
  exact absurd hnodup (by decide)

end System

end Cepheus.Dashboard
