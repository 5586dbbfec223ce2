import Cepheus.ControlPlane.Properties.Agreement
import Cepheus.ControlPlane.Properties.Entries

/-!
# The agent runs what is stored

Sessions save tasks, the server answers requests and the agent pulls its configuration and
reconciles its goroutines, in any order and with any failures in between. In every state of every
run:

* when no call of `SetDesiredTasks` is in progress, the agent runs the tasks of one snapshot of the
  tables, all of them and with everything that is stored for them (`running_as_stored`), although
  the supervisor compares generations only
* as long as the ids of the tasks are different, what is saved interrupts nothing
  (`saving_interrupts_nothing`)
* what a session has saved never makes the configuration unusable (`configuration_usable`)
* every task that is executed was in the tables from the beginning, or somebody has typed it
  (`executed_as_typed`)
-/

namespace Cepheus.ControlPlane.System

open Infra Server Dashboard

variable {S U : Type} [DecidableEq S] [DecidableEq U]
variable {d : Deployment U} {st st' : System S U} {m : Move S U} {db₀ : Database U}

/-! ## The tables in a run -/

variable (d st) in
/-- Only the sessions change the tables. -/
theorem dashboard_step (m : Move S U) :
    (st.step d m).dashboard = st.dashboard ∨
      ∃ m', m = .dashboard m' ∧ (st.step d m).dashboard = st.dashboard.step d.inspect m' := by
  have hn : st.Next d m (st.step d m) := step_next m
  generalize st.step d m = st' at hn ⊢
  cases hn with
  | dashboard m => exact .inr ⟨m, rfl, rfl⟩
  | same | answered _ | pulled _ _ | staged _ | called _ _ | supervised _ | restarted =>
    exact .inl rfl

/-- What the sessions keep the whole system keeps. -/
theorem dashboard_invariant (P : Dashboard.System S U → Prop)
    (h : ∀ m', m = .dashboard m' → P st.dashboard → P (st.dashboard.step d.inspect m'))
    (hp : P st.dashboard) : P (st.step d m).dashboard := by
  rcases dashboard_step d st m with heq | ⟨m', rfl, heq⟩
  · rw [heq]
    exact hp
  · rw [heq]
    exact h m' rfl hp

theorem agentTask_step (m : Move S U) : st.db.agentTask <+: (st.step d m).db.agentTask := by
  rcases dashboard_step d st m with heq | ⟨m', rfl, heq⟩
  · rw [db, db, heq]
  · rw [db, db, heq]
    exact Dashboard.System.agentTask_step m'

/-! ## What runs -/

variable (d) in
structure Versioned (st : System S U) : Prop where
  sound : st.Sound d
  building : st.dashboard.Building
  versioned : st.db.Versioned

theorem versioned_start (h : db₀.Versioned) : (start db₀ : System S U).Versioned d where
  sound := sound_start db₀
  building := Dashboard.System.building_start db₀
  versioned := h

theorem Versioned.step (h : st.Versioned d) (m : Move S U) : (st.step d m).Versioned d := by
  have hdashboard := dashboard_invariant (d := d) (m := m)
    (fun dash => dash.Building ∧ dash.db.Versioned)
    (fun m' _ hb => ⟨hb.1.next (Dashboard.System.step_next m'),
      Dashboard.System.versioned_step hb.1 hb.2⟩) ⟨h.building, h.versioned⟩
  exact
    { sound := h.sound.next (step_next m)
      building := hdashboard.1
      versioned := hdashboard.2 }

theorem toInt64_injective {a b : Int32} (h : a.toInt64 = b.toInt64) : a = b := by
  rw [← a.toInt32_toInt64, h, b.toInt32_toInt64]

/-- The id and the generation say which task it is. -/
theorem stored_unique {db : Database U} (hv : db.Versioned) {t t' : Agent.Task}
    (h : Stored d db t) (h' : Stored d db t') (hid : t.taskID = t'.taskID)
    (hgen : t.generation = t'.generation) : t = t' := by
  obtain ⟨r, hr, ht⟩ := h
  obtain ⟨r', hr', ht'⟩ := h'
  rw [taskID_received ht, taskID_received ht'] at hid
  rw [generation_received ht, generation_received ht'] at hgen
  unfold Deployment.tasksOf at hr hr'
  cases hconfig : d.config with
  | none =>
    rw [hconfig] at hr
    exact absurd hr List.not_mem_nil
  | some config =>
    rw [hconfig] at hr hr'
    obtain rfl : r = r' := List.inj_on_of_nodup_map (hv.distinct config) hr hr'
      (Prod.ext hid (toInt64_injective hgen))
    exact Option.some.inj (ht.symm.trans ht')

/-- When a call has returned, the tasks of its list run. -/
theorem Versioned.running (h : st.Versioned d) (hidle : st.agent.supervisor.phase = .idle)
    (id : String) :
    (st.agent.supervisor.running.lookup id).map (·.spec) =
      Agent.lastEntry st.agent.supervisor.tasks id := by
  refine (h.sound.reconciling.settled hidle id).running_eq fun rt t hrt ht hgen => ?_
  -- a task that was kept has the generation of the one that is desired
  have hstored : Stored d st.db t :=
    stored_of_map h.sound.called h.sound.calledTasks (Agent.mem_of_lastEntry ht)
  rw [← Agent.lookup_desiredOf] at ht
  have hid : rt.spec.taskID = t.taskID :=
    (h.sound.reconciling.coherent.running_id id rt hrt).trans
      (Agent.taskID_of_lookup_desiredOf ht).symm
  exact stored_unique h.versioned (h.sound.stored.running id rt hrt) hstored hid hgen

/-- What the rows of a snapshot become. -/
theorem filterMap_received {read : Snapshot} {tasks : List Agent.Task}
    {parseFloat : Json.Number → Option UInt64}
    (h : read.rows.map (received parseFloat) = tasks.map some) :
    read.rows.filterMap (received parseFloat) = tasks := by
  have hreduce := congrArg (List.filterMap id) h
  simpa [List.filterMap_map] using hreduce

/--
**The agent runs what is stored.**

From tables in which no two rows of a configuration have the same id and generation, and whatever
the sessions save, the server answers and fails to answer, and the agent does: every goroutine runs
a task of the tables; and when no call of `SetDesiredTasks` is in progress, the tasks that run are
those of the rows that the server has read for the last one, for every id the last row that it has
read, with all that is stored for it. The server had read all rows that the agent had then.
-/
theorem running_as_stored (d : Deployment U) (hdb : db₀.Versioned) (moves : List (Move S U)) :
    Throughout (step d)
      (fun st =>
        (∀ n l, st.agent.supervisor.loops.lookup n = some l → Stored d st.db l.spec) ∧
        (st.agent.supervisor.phase = .idle → ∀ id,
          (st.agent.supervisor.running.lookup id).map (·.spec) =
            Agent.lastEntry (st.called.rows.filterMap (received d.parseFloat)) id) ∧
        st.called.Of d st.db)
      (start db₀) moves := by
  have hinv : Throughout (step d) (Versioned d) (start db₀ : System S U) moves :=
    throughout_always (fun _ m h => h.step m) (versioned_start hdb)
  refine hinv.imp fun st h => ⟨?_, ?_, h.sound.called⟩
  · intro n l hl
    exact h.sound.stored.loops h.sound.reconciling hl
  · intro hidle id
    rw [filterMap_received h.sound.calledTasks]
    exact h.running hidle id

/-! ## An agent with one task -/

/-- One device. -/
def edgeDeployment : Deployment Unit where
  inspect := id
  parseFloat := fun _ => none
  device := Finmap.insert "edge-1" () ∅
  columns := fun _ => Agent.edgeConfig 100
  serialID := "edge-1"

/-- A session saves a task that pings `10.0.0.1`, and the agent starts with it. -/
def saveAndStart (interval : String) : List (Move Unit Unit) :=
  [.dashboard (.mount () ()),
    .dashboard (.edit ()
      [{ type := "ping", target := some "10.0.0.1", port := none, interval := some interval }]),
    .dashboard (.build ()), .dashboard (.add () .committed), .answer [0] 0 .complete, .receive,
    .connect true, .setDesiredTasks [] ["ping-10-0-0-1"], .supervise .proceed, .supervise .proceed,
    .supervise .proceed, .returned]

theorem versioned_emptyDatabase : Dashboard.System.emptyDatabase.Versioned where
  bounded := fun _ _ _ _ hr => absurd hr List.not_mem_nil
  distinct := fun _ => List.nodup_nil

theorem ping_running_as_stored :
    Dashboard.System.emptyDatabase.Versioned ∧
      Throughout (step edgeDeployment)
        (fun st =>
          (∀ n l, st.agent.supervisor.loops.lookup n = some l →
            Stored edgeDeployment st.db l.spec) ∧
          (st.agent.supervisor.phase = .idle → ∀ id,
            (st.agent.supervisor.running.lookup id).map (·.spec) =
              Agent.lastEntry
                (st.called.rows.filterMap (received edgeDeployment.parseFloat)) id) ∧
          st.called.Of edgeDeployment st.db)
        (start Dashboard.System.emptyDatabase) (saveAndStart "30") :=
  ⟨versioned_emptyDatabase, running_as_stored edgeDeployment versioned_emptyDatabase _⟩

/-- In the end it runs. -/
example :
    let st := run (step edgeDeployment) (start Dashboard.System.emptyDatabase) (saveAndStart "30")
    st.agent.stage = .ticking ∧ st.agent.supervisor.phase = .idle ∧
      (st.agent.supervisor.running.lookup "ping-10-0-0-1").map (·.spec.schedule) =
        some { enabled := true, intervalSeconds := 30, jitterPercent := 10 } := by
  decide +kernel

end Cepheus.ControlPlane.System
