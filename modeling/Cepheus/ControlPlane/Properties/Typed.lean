import Cepheus.ControlPlane.Properties.Stored
import Cepheus.ControlPlane.Properties.Entries

/-!
# From what is typed to what is executed

Every row that the sessions insert was asked for in a form (`asked_of_inserted`), so the server and
the agent accept it. Whatever is saved, the configuration of an agent stays usable
(`configuration_usable`), and what the agent executes was in the tables from the beginning or was
typed by somebody, with nothing changed on the way (`executed_as_typed`).
-/

namespace Cepheus.ControlPlane

open Infra Server Dashboard

variable {S U : Type} [DecidableEq S] [DecidableEq U]

/-- A row that was inserted is what a row of the form asks for. -/
theorem asked_of_inserted {inspect : String → String} {P : Dashboard.Row → Prop} {r : TaskRow}
    (parseFloat : Json.Number → Option UInt64) (h : Inserted inspect P r) :
    ∃ row e, P row ∧ Asks inspect row e ∧ Database.FitsInt e.interval ∧
      received parseFloat r = some (e.task r.taskID r.generation) := by
  obtain ⟨t, generation, rfl, ⟨row, used, hrow, hbuild⟩, hfits⟩ := h
  obtain ⟨e, hasks, htype, hparams, hschedule⟩ := buildTask_asks hbuild
  have hinterval : t.scheduleIntervalSeconds = e.interval := by
    have heq : t.scheduleIntervalSeconds =
        (taskSpec e.type e.target e.port e.interval).2.scheduleIntervalSeconds :=
      congrArg Schedule.scheduleIntervalSeconds hschedule
    have hpos := hasks.interval_pos
    rw [heq]
    cases htype : e.type with
    | stampReflector =>
      rw [htype] at hpos
      exact hpos.symm
    | trace | ping | stampSender => rfl
  exact ⟨row, e, hrow, hasks, hinterval ▸ hfits,
    received_insertRow hasks htype hparams hschedule hfits⟩

/-- A list of values that are all there. -/
theorem exists_map_some {α β : Type} {f : α → Option β} :
    ∀ {l : List α}, (∀ a ∈ l, ∃ b, f a = some b) → ∃ bs : List β, l.map f = bs.map some
  | [], _ => ⟨[], rfl⟩
  | a :: l, h => by
    obtain ⟨b, hb⟩ := h a List.mem_cons_self
    obtain ⟨bs, hbs⟩ := exists_map_some fun x hx => h x (List.mem_cons_of_mem a hx)
    exact ⟨b :: bs, by rw [List.map_cons, hb, hbs, List.map_cons]⟩

namespace System

variable {d : Deployment U} {st : System S U} {m : Move S U} {db₀ : Database U}
variable {P : Dashboard.Row → Prop}

/-! ## Rows -/

/-- Somebody types such rows. -/
def Move.Types (P : Dashboard.Row → Prop) : Move S U → Prop
  | .dashboard m => m.Types P
  | _ => True

omit [DecidableEq S] [DecidableEq U] in
theorem types_true (m : Move S U) : Move.Types (fun _ => True) m := by
  cases m with
  | dashboard m => cases m <;> simp [Move.Types, Dashboard.Move.Types]
  | _ => trivial

theorem sourced_step (hm : Move.Types P m) (h : st.dashboard.Sourced d.inspect P db₀) :
    (st.step d m).dashboard.Sourced d.inspect P db₀ := by
  refine dashboard_invariant (fun dash => dash.Sourced d.inspect P db₀) (fun m' heq hs => ?_) h
  subst heq
  exact hs.step hm

/-- A row of the agent was there from the beginning or has been inserted. -/
theorem mem_tasks_sourced (h : st.dashboard.Sourced d.inspect P db₀) {r : TaskRow}
    (hr : r ∈ st.tasks d) :
    r ∈ Deployment.tasksOf db₀ d.config ∨ Inserted d.inspect P r := by
  obtain ⟨new, hnew, hall⟩ := h.rows
  unfold tasks Deployment.tasksOf at hr
  unfold Deployment.tasksOf
  cases hconfig : d.config with
  | none =>
    rw [hconfig] at hr
    exact absurd hr List.not_mem_nil
  | some config =>
    rw [hconfig] at hr
    have hr : r ∈ ofConfig config st.dashboard.db.agentTask := hr
    rw [hnew, ofConfig_append, List.mem_append] at hr
    rcases hr with hr | hr
    · exact .inl hr
    · obtain ⟨x, hx, rfl⟩ := List.mem_map.mp hr
      exact .inr (hall x (List.mem_filter.mp hx).1)

/-! ## Configurations -/

variable (d) in
/-- The agent has a configuration, and every row of it becomes a task. -/
structure Usable (db : Database U) : Prop where
  config : ∃ config generation, d.config = some config ∧
    db.agentConfig.lookup config = some generation
  rows : ∀ r ∈ Deployment.tasksOf db d.config, ∃ t, received d.parseFloat r = some t

/-- A configuration stays, with a generation that may change. -/
theorem lookup_addTasks {db db' : Database U} {config config' : U} {tasks : List Dashboard.Task}
    (h : db.addTasks config' tasks = some db')
    (hlookup : ∃ generation, db.agentConfig.lookup config = some generation) :
    ∃ generation, db'.agentConfig.lookup config = some generation := by
  obtain ⟨generation, -, -, -, rfl⟩ := Database.addTasks_eq_some h
  simp only [Table.lookup_insert_if]
  split
  · exact ⟨_, rfl⟩
  · exact hlookup

theorem lookup_dashboard_step {inspect : String → String} {dash : Dashboard.System S U}
    (m : Dashboard.Move S U) {config : U}
    (h : ∃ generation, dash.db.agentConfig.lookup config = some generation) :
    ∃ generation, (dash.step inspect m).db.agentConfig.lookup config = some generation := by
  have hn : dash.Next inspect m (dash.step inspect m) := Dashboard.System.step_next m
  generalize dash.step inspect m = dash' at hn ⊢
  cases hn with
  | kept _ _ | built _ => exact h
  | committed hcommit =>
    obtain ⟨-, -, -, hadd⟩ := Dashboard.System.commit_eq_some_iff.mp hcommit
    exact lookup_addTasks hadd h

/-- What is inserted is usable. -/
theorem usable_of_sourced (h : Usable d db₀) (hs : st.dashboard.Sourced d.inspect P db₀)
    (hlookup : ∀ config, d.config = some config →
      ∃ generation, st.db.agentConfig.lookup config = some generation) : Usable d st.db where
  config := by
    obtain ⟨config, -, hconfig, -⟩ := h.config
    obtain ⟨generation, hgen⟩ := hlookup config hconfig
    exact ⟨config, generation, hconfig, hgen⟩
  rows := by
    intro r hr
    rcases mem_tasks_sourced hs hr with hold | hnew
    · exact h.rows r hold
    · obtain ⟨row, e, -, -, -, hreceived⟩ := asked_of_inserted d.parseFloat hnew
      exact ⟨_, hreceived⟩

/-- The agent accepts what the server has read of a usable configuration. -/
theorem Usable.pulled {db : Database U} (h : Usable d db) (hserial : d.serialID ≠ "")
    {order : List Nat}
    (horder : order.Perm (List.range (Deployment.tasksOf db d.config).length))
    (updatedAt : Int64) :
    ∃ cfg, Agent.pullConfiguration (d.respond db order updatedAt .complete).response = .ok cfg ∧
      (arrange order (Deployment.tasksOf db d.config)).map (received d.parseFloat) =
        cfg.tasks.map some := by
  obtain ⟨config, generation, hconfig, hgen⟩ := h.config
  have hall : ∀ r ∈ arrange order (Deployment.tasksOf db d.config),
      ∃ t, received d.parseFloat r = some t :=
    fun r hr => h.rows r ((arrange_perm horder).mem_iff.mp hr)
  obtain ⟨tasks, htasks⟩ := exists_map_some hall
  obtain ⟨pb, cfg, hload, hcfg, rfl⟩ := pulled_of_received
    { d.columns config with generation, updatedAt } htasks
  refine ⟨cfg, ?_, htasks⟩
  simp only [Deployment.respond, Fetch.query, Deployment.select, hconfig, hgen] at hload ⊢
  simp only [getAgentConfig, hserial, if_false, hload, Agent.pullConfiguration, hcfg]

/--
**What is saved never makes a configuration unusable.**

If the agent has a configuration to begin with, all of whose rows the server and the agent accept,
then whatever the sessions save: every request that the server can answer from the tables gives the
agent a configuration that it accepts, with a task for every row.
-/
theorem configuration_usable (d : Deployment U) (hserial : d.serialID ≠ "") (hdb : Usable d db₀)
    (moves : List (Move S U)) :
    Throughout (step d)
      (fun st => ∀ order updatedAt, order.Perm (List.range (st.tasks d).length) →
        ∃ cfg, Agent.pullConfiguration (d.respond st.db order updatedAt .complete).response =
            .ok cfg ∧
          (arrange order (st.tasks d)).map (received d.parseFloat) = cfg.tasks.map some)
      (start db₀) moves := by
  have hinv : Throughout (step d)
      (fun st : System S U => st.dashboard.Sourced d.inspect (fun _ => True) db₀ ∧
        ∀ config, d.config = some config →
          ∃ generation, st.db.agentConfig.lookup config = some generation) (start db₀) moves := by
    have hstart : ∀ config, d.config = some config →
        ∃ generation, db₀.agentConfig.lookup config = some generation := by
      intro config hconfig
      obtain ⟨config', generation, hconfig', hgen⟩ := hdb.config
      obtain rfl := Option.some.inj (hconfig.symm.trans hconfig')
      exact ⟨generation, hgen⟩
    refine throughout_always (fun st m h => ⟨sourced_step (types_true m) h.1, ?_⟩)
      ⟨Dashboard.System.sourced_start, hstart⟩
    intro config hconfig
    exact dashboard_invariant
      (fun dash => ∃ generation, dash.db.agentConfig.lookup config = some generation)
      (fun m' _ => lookup_dashboard_step m') (h.2 config hconfig)
  refine hinv.imp fun st h order updatedAt horder => ?_
  exact (usable_of_sourced hdb h.1 h.2).pulled hserial horder updatedAt

theorem edge_configuration_usable :
    edgeDeployment.serialID ≠ "" ∧ Usable edgeDeployment Dashboard.System.emptyDatabase ∧
      Throughout (step edgeDeployment)
        (fun st => ∀ order updatedAt,
          order.Perm (List.range (st.tasks edgeDeployment).length) →
          ∃ cfg, Agent.pullConfiguration
              (edgeDeployment.respond st.db order updatedAt .complete).response = .ok cfg ∧
            (arrange order (st.tasks edgeDeployment)).map (received edgeDeployment.parseFloat) =
              cfg.tasks.map some)
        (start Dashboard.System.emptyDatabase) (saveAndStart "30") :=
  have hserial : edgeDeployment.serialID ≠ "" := by decide
  have husable : Usable edgeDeployment Dashboard.System.emptyDatabase :=
    { config := ⟨(), 1, by decide +kernel, by decide +kernel⟩
      rows := fun r hr => absurd hr (List.not_mem_nil) }
  ⟨hserial, husable, configuration_usable edgeDeployment hserial husable _⟩

/-! ## Executions -/

/-- Somebody has typed the row in the run. -/
def Typed (moves : List (Move S U)) (row : Dashboard.Row) : Prop :=
  ∃ s rows, Move.dashboard (.edit s rows) ∈ moves ∧ row ∈ rows

omit [DecidableEq S] [DecidableEq U] in
theorem Typed.mono {moves moves' : List (Move S U)} {row : Dashboard.Row} (h : Typed moves row)
    (hsub : moves ⊆ moves') : Typed moves' row := by
  obtain ⟨s, rows, hmem, hrow⟩ := h
  exact ⟨s, rows, hsub hmem, hrow⟩

omit [DecidableEq S] [DecidableEq U] in
theorem types_of_mem {moves : List (Move S U)} {m : Move S U} (h : m ∈ moves) :
    Move.Types (Typed moves) m := by
  cases m with
  | dashboard m =>
    cases m with
    | edit s rows => exact fun row hrow => ⟨s, rows, h, hrow⟩
    | _ => trivial
  | _ => trivial

/-- A task that is executed is that of a row, and each row was there or was asked for. -/
theorem executed_sourced (hsound : st.Sound d) (hsourced : st.dashboard.Sourced d.inspect P db₀)
    {x : Agent.Task × Option Agent.Task} (hx : x ∈ st.agent.supervisor.executions) :
    Stored d db₀ x.1 ∨
      ∃ row e taskID generation, P row ∧ Asks d.inspect row e ∧
        Database.FitsInt e.interval ∧ x.1 = e.task taskID generation := by
  obtain ⟨⟨r, hr, hreceived⟩, -⟩ := hsound.stored.executed x hx
  rcases mem_tasks_sourced hsourced hr with hold | hnew
  · exact .inl ⟨r, hold, hreceived⟩
  · obtain ⟨row, e, htyped, hasks, hfits, htask⟩ := asked_of_inserted d.parseFloat hnew
    exact .inr ⟨row, e, r.taskID, r.generation, htyped, hasks, hfits,
      Option.some.inj (hreceived.symm.trans htask)⟩

/-- What the forms hold, and so what is inserted, was typed in the run. -/
theorem typed_run (d : Deployment U) (db₀ : Database U) (moves : List (Move S U)) :
    (run (step d) (start db₀) moves).Sound d ∧
      (run (step d) (start db₀) moves).dashboard.Sourced d.inspect (Typed moves) db₀ := by
  have hinv : Throughout (step d)
      (fun st : System S U => st.Sound d ∧ st.dashboard.Sourced d.inspect (Typed moves) db₀)
      (start db₀) moves :=
    throughout_of_invariant
      (fun st m h hm => ⟨h.1.next (step_next m), sourced_step hm h.2⟩)
      ⟨sound_start db₀, Dashboard.System.sourced_start⟩
      (along_of_mem fun m hm => types_of_mem hm)
  exact hinv.last

/--
**What is executed was stored from the beginning or was typed.**

At the end of every run, every task that an executor of the agent was called with is the task of a
row that the tables had for the agent in the beginning; or somebody has typed a row in the form that
passes its checks, and the task is what this row asks for.
-/
theorem executed_as_typed (d : Deployment U) (db₀ : Database U) (moves : List (Move S U)) :
    ∀ x ∈ (run (step d) (start db₀) moves).agent.supervisor.executions,
      Stored d db₀ x.1 ∨
        ∃ row e taskID generation, Typed moves row ∧ Asks d.inspect row e ∧
          Database.FitsInt e.interval ∧ x.1 = e.task taskID generation := by
  obtain ⟨hsound, hsourced⟩ := typed_run d db₀ moves
  exact fun x hx => executed_sourced hsound hsourced hx

/-- The agent pings. -/
def saveAndPing : List (Move Unit Unit) :=
  saveAndStart "30" ++ [.supervise (.loop 0 .begin), .supervise (.loop 0 .fire)]

theorem ping_executed_as_typed :
    let st := run (step edgeDeployment) (start Dashboard.System.emptyDatabase) saveAndPing
    ∃ x ∈ st.agent.supervisor.executions,
      Stored edgeDeployment Dashboard.System.emptyDatabase x.1 ∨
        ∃ row e taskID generation, Typed saveAndPing row ∧ Asks edgeDeployment.inspect row e ∧
          Database.FitsInt e.interval ∧ x.1 = e.task taskID generation := by
  intro st
  have hne : st.agent.supervisor.executions ≠ [] := by decide +kernel
  obtain ⟨x, hx⟩ := List.exists_mem_of_ne_nil _ hne
  exact ⟨x, hx, executed_as_typed edgeDeployment _ saveAndPing x hx⟩

end System

end Cepheus.ControlPlane
