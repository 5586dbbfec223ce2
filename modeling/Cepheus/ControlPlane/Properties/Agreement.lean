import Cepheus.Agent.Properties.Calls
import Cepheus.Dashboard.Properties.Rows
import Cepheus.ControlPlane.System
import Cepheus.ControlPlane.Properties.Loading

/-!
# What the agent has of the tables

All that a step can do (`System.Next`), and what follows for the agent in every interleaving
(`System.Sound`): what it has pulled, and what the supervisor was called with, are the rows of its
configuration as they were at some time, all of them, and later than what it had before.
-/

namespace Cepheus.ControlPlane

open Infra Server Dashboard

variable {S U : Type} [DecidableEq S] [DecidableEq U]

/-! ## Rows in an order -/

theorem filterMap_range_getElem? {α : Type} (l : List α) :
    (List.range l.length).filterMap (l[·]?) = l := by
  induction l with
  | nil => rfl
  | cons a l ih => simp [List.range_succ_eq_map, List.filterMap_map, ih]

theorem arrange_perm {α : Type} {order : List Nat} {l : List α}
    (h : order.Perm (List.range l.length)) : (arrange order l).Perm l := by
  have hperm := h.filterMap (l[·]?)
  rwa [filterMap_range_getElem?] at hperm

/-! ## What a step can do -/

namespace System

variable (d : Deployment U) (st : System S U)

inductive Next : Move S U → System S U → Prop
  | same (m : Move S U) : Next m st
  | dashboard (m : Dashboard.Move S U) :
      Next (.dashboard m) { st with dashboard := st.dashboard.step d.inspect m }
  | answered {order : List Nat} {updatedAt : Int64} {fetch : Fetch}
      (horder : order.Perm (List.range (st.tasks d).length)) :
      Next (.answer order updatedAt fetch)
        { st with answer := some (d.respond st.db order updatedAt fetch) }
  /-- A configuration arrives. -/
  | pulled {a : Answer} {config : Agent.AgentConfig} {stage : Agent.Stage}
      (hanswer : st.answer = some a) (hconfig : Agent.pullConfiguration a.response = .ok config) :
      Next .receive
        { st with
          agent :=
            { st.agent with
              stage
              agentConfig :=
                if st.agent.generation = 0 then some config else st.agent.agentConfig }
          answer := none
          pulled := a.read }
  /-- The process gets to another place, and the supervisor has nothing to do with it. -/
  | staged {m : Move S U} {stage : Agent.Stage} {supervised : Bool} {answer : Option Answer}
      (hanswer : answer = none ∨ answer = st.answer) :
      Next m { st with agent := { st.agent with stage, supervised }, answer }
  | called {order visit : List String} (hcrashed : st.agent.supervisor.crashed = false)
      (hcalls : st.agent.Calls order visit) :
      Next (.setDesiredTasks order visit)
        { st with agent := st.agent.setDesiredTasks order visit, called := st.pulled }
  | supervised {m : Agent.Move} (hm : ∀ tasks order visit, m ≠ .setDesiredTasks tasks order visit) :
      Next (.supervise m)
        { st with
          agent := { st.agent with supervisor := st.agent.supervisor.step Agent.executors m } }
  | restarted :
      Next .restart
        { st with agent := .start, answer := none, pulled := .empty, called := .empty }

variable {d st}

/-- An attempt that fails changes the place of the process only. -/
theorem attempt_error {E : Type} (p : Agent.Process) (e : Agent.PullError E) :
    ∃ stage, p.attempt (.error e) = { p with stage } := by
  unfold Agent.Process.attempt
  split
  · simp only
    split
    · exact ⟨_, rfl⟩
    · exact ⟨_, rfl⟩
  · exact ⟨p.stage, rfl⟩

theorem Next.staged_of {m : Move S U} {agent : Agent.Process} {answer : Option Answer}
    (hanswer : answer = none ∨ answer = st.answer)
    (h : ∃ stage supervised, agent = { st.agent with stage, supervised }) :
    st.Next d m { st with agent, answer } := by
  obtain ⟨stage, supervised, rfl⟩ := h
  exact .staged hanswer

theorem receive_next : st.Next d .receive (st.agentStep d .receive) := by
  unfold agentStep
  simp only
  split
  · next failed a hstage hanswer =>
    cases hconfig : Agent.pullConfiguration a.response with
    | ok config =>
      simp only [Agent.Process.attempt, hstage, Except.toBool, if_true]
      exact .pulled hanswer hconfig
    | error e =>
      obtain ⟨stage, hattempt⟩ := attempt_error st.agent e
      simp only [hattempt, Except.toBool, if_false, Bool.false_eq_true]
      exact .staged (.inl rfl)
  · exact .same _

theorem agentStep_next (hrunning : ¬ st.agent.Ended) (m : Move S U) :
    st.Next d m (st.agentStep d m) := by
  cases m with
  | answer order updatedAt fetch =>
    unfold agentStep
    simp only
    split
    · next h => exact .answered h.2
    · exact .same _
  | receive => exact receive_next
  | lose =>
    obtain ⟨stage, hattempt⟩ := attempt_error st.agent
      (Agent.PullError.unreachable : Agent.PullError HandlerError)
    exact .staged_of (.inl rfl) ⟨stage, st.agent.supervised, hattempt⟩
  | connect ok =>
    refine .staged_of (.inr rfl) ?_
    unfold Agent.Process.connect
    split
    · split
      · exact ⟨_, _, rfl⟩
      · exact ⟨_, _, rfl⟩
    · exact ⟨st.agent.stage, st.agent.supervised, rfl⟩
  | setDesiredTasks order visit =>
    unfold agentStep
    simp only
    split
    · next h => exact .called (by simpa using fun hc => hrunning (.inr hc)) h
    · exact .same _
  | supervise m =>
    cases m with
    | setDesiredTasks tasks order visit => exact .same _
    | proceed | loop _ _ | shutdown => exact .supervised (fun _ _ _ h => by cases h)
  | returned =>
    refine .staged_of (.inr rfl) ?_
    unfold Agent.Process.returned
    split
    · exact ⟨_, _, rfl⟩
    · exact ⟨st.agent.stage, st.agent.supervised, rfl⟩
  | tick =>
    refine .staged_of (.inr rfl) ?_
    unfold Agent.Process.tick
    split
    · exact ⟨_, _, rfl⟩
    · exact ⟨st.agent.stage, st.agent.supervised, rfl⟩
  | quit =>
    refine .staged_of (.inr rfl) ?_
    unfold Agent.Process.quit
    split
    · exact ⟨_, _, rfl⟩
    · exact ⟨st.agent.stage, st.agent.supervised, rfl⟩
  | dashboard _ | restart => exact .same _

theorem step_next (m : Move S U) : st.Next d m (st.step d m) := by
  cases m with
  | dashboard m => exact .dashboard m
  | restart =>
    unfold step
    simp only
    split
    · exact .restarted
    · exact .same _
  | answer _ _ _ | receive | lose | connect _ | setDesiredTasks _ _ | supervise _ | returned
  | tick | quit =>
    unfold step
    simp only
    split
    · exact .same _
    · next hrunning => exact agentStep_next hrunning _

end System

/-! ## Snapshots -/

namespace Deployment

variable {d : Deployment U} {db db' : Database U}

variable (d db) in
/-- The rows of the agent among the first `n` of the table. -/
def tasksBefore (n : Nat) : List TaskRow :=
  d.config.elim [] fun config => ofConfig config (db.agentTask.take n)

theorem tasksBefore_length : d.tasksBefore db db.agentTask.length = tasksOf db d.config := by
  rw [tasksBefore, List.take_length]
  rfl

/-- Rows that are appended come later. -/
theorem tasksBefore_append (h : db.agentTask <+: db'.agentTask) {n : Nat}
    (hn : n ≤ db.agentTask.length) : d.tasksBefore db' n = d.tasksBefore db n := by
  obtain ⟨new, hnew⟩ := h
  rw [tasksBefore, tasksBefore, ← hnew, List.take_append_of_le_length hn]

/-- What was there earlier is there later. -/
theorem tasksBefore_sublist {n k : Nat} (h : n ≤ k) :
    (d.tasksBefore db n).Sublist (d.tasksBefore db k) := by
  unfold tasksBefore
  cases d.config with
  | none => exact List.Sublist.refl _
  | some config => exact ((List.take_sublist_take_left h).filter _).map _

theorem mem_tasksOf_append (h : db.agentTask <+: db'.agentTask) {r : TaskRow}
    (hr : r ∈ tasksOf db d.config) : r ∈ tasksOf db' d.config := by
  rw [← tasksBefore_length, ← tasksBefore_append h le_rfl] at hr
  rw [← tasksBefore_length]
  exact (tasksBefore_sublist h.length_le).subset hr

end Deployment

/-- The snapshot has the rows of the agent as they were when the table had so many rows. -/
structure Snapshot.Of (d : Deployment U) (db : Database U) (read : Snapshot) : Prop where
  seen : read.seen ≤ db.agentTask.length
  rows : read.rows.Perm (d.tasksBefore db read.seen)

section

variable {d : Deployment U} {db db' : Database U} {read : Snapshot}

theorem Snapshot.of_empty : Snapshot.empty.Of d db where
  seen := Nat.zero_le _
  rows := by
    unfold Deployment.tasksBefore
    cases d.config <;> exact List.Perm.nil

theorem Snapshot.Of.later (h : read.Of d db) (hp : db.agentTask <+: db'.agentTask) :
    read.Of d db' where
  seen := h.seen.trans hp.length_le
  rows := by
    rw [Deployment.tasksBefore_append hp h.seen]
    exact h.rows

theorem Snapshot.Of.mem (h : read.Of d db) {r : TaskRow} (hr : r ∈ read.rows) :
    r ∈ Deployment.tasksOf db d.config := by
  rw [← Deployment.tasksBefore_length]
  exact (Deployment.tasksBefore_sublist h.seen).subset (h.rows.mem_iff.mp hr)

/-- The server reads all rows of the agent. -/
theorem Snapshot.of_respond {order : List Nat} {updatedAt : Int64} {fetch : Fetch}
    (h : order.Perm (List.range (Deployment.tasksOf db d.config).length)) :
    (d.respond db order updatedAt fetch).read.Of d db where
  seen := le_rfl
  rows := by
    show (arrange order _).Perm (d.tasksBefore db db.agentTask.length)
    rw [Deployment.tasksBefore_length]
    exact arrange_perm h

/-- An answer that the agent accepts has all tasks of the rows that were read. -/
theorem received_of_respond {order : List Nat} {updatedAt : Int64} {fetch : Fetch}
    {config : Agent.AgentConfig}
    (h : Agent.pullConfiguration (d.respond db order updatedAt fetch).response = .ok config) :
    (d.respond db order updatedAt fetch).read.rows.map (received d.parseFloat) =
      config.tasks.map some := by
  unfold Agent.pullConfiguration at h
  split at h
  · cases h
  · next pb hresponse =>
    obtain ⟨-, hload⟩ := complete_of_getAgentConfig hresponse
    split at h
    · cases h
    · next cfg hcfg =>
      obtain rfl := Except.ok.inj h
      unfold Deployment.select at hload
      split at hload
      · cases hload
      · split at hload
        · cases hload
        · exact tasks_of_pulled hload hcfg

end

/-! ## In every interleaving -/

namespace System

variable {d : Deployment U} {st st' : System S U} {m : Move S U}

variable (d) in
/-- The task is that of a row of the agent. -/
def Stored (db : Database U) (t : Agent.Task) : Prop :=
  ∃ r ∈ Deployment.tasksOf db d.config, received d.parseFloat r = some t

variable (d) in
structure Sound (st : System S U) : Prop where
  answer : ∀ a ∈ st.answer, a.read.Of d st.db ∧ st.pulled.seen ≤ a.read.seen ∧
    ∀ config, Agent.pullConfiguration a.response = .ok config →
      a.read.rows.map (received d.parseFloat) = config.tasks.map some
  pulled : st.pulled.Of d st.db
  pulledTasks : st.pulled.rows.map (received d.parseFloat) = st.agent.tasks.map some
  called : st.called.Of d st.db
  calledTasks :
    st.called.rows.map (received d.parseFloat) = st.agent.supervisor.tasks.map some
  order : st.called.seen ≤ st.pulled.seen
  generation : st.agent.generation = 0
  reconciling : st.agent.supervisor.Reconciling
  stored : st.agent.supervisor.AllTasks (Stored d st.db)

omit [DecidableEq S] in
theorem sound_start (db : Database U) : (start db : System S U).Sound d where
  answer := fun a ha => by cases ha
  pulled := Snapshot.of_empty
  pulledTasks := rfl
  called := Snapshot.of_empty
  calledTasks := rfl
  order := le_rfl
  generation := rfl
  reconciling := Agent.Supervisor.reconciling_new
  stored := Agent.Supervisor.allTasks_new

/-- A task is stored once its row is there. -/
theorem Stored.later {db db' : Database U} (hp : db.agentTask <+: db'.agentTask) {t : Agent.Task}
    (h : Stored d db t) : Stored d db' t := by
  obtain ⟨r, hr, ht⟩ := h
  exact ⟨r, Deployment.mem_tasksOf_append hp hr, ht⟩

/-- The tasks of a list that was made of a snapshot are stored. -/
theorem stored_of_map {db : Database U} {read : Snapshot} (h : read.Of d db)
    {tasks : List Agent.Task} (hmap : read.rows.map (received d.parseFloat) = tasks.map some)
    {t : Agent.Task} (ht : t ∈ tasks) : Stored d db t := by
  have hsome : some t ∈ read.rows.map (received d.parseFloat) := by
    rw [hmap]
    exact List.mem_map_of_mem ht
  obtain ⟨r, hr, hreceived⟩ := List.mem_map.mp hsome
  exact ⟨r, h.mem hr, hreceived⟩

omit [DecidableEq S] in
/-- The tables have more rows. -/
theorem Sound.later (h : st.Sound d) {dashboard : Dashboard.System S U}
    (hp : st.db.agentTask <+: dashboard.db.agentTask) : Sound d { st with dashboard } where
  answer := fun a ha => by
    obtain ⟨hof, hseen, hreceived⟩ := h.answer a ha
    exact ⟨hof.later hp, hseen, hreceived⟩
  pulled := h.pulled.later hp
  pulledTasks := h.pulledTasks
  called := h.called.later hp
  calledTasks := h.calledTasks
  order := h.order
  generation := h.generation
  reconciling := h.reconciling
  stored := h.stored.imp fun _ => Stored.later hp

theorem Sound.next (h : st.Sound d) (hn : st.Next d m st') : st'.Sound d := by
  cases hn with
  | same => exact h
  | dashboard m => exact h.later (Dashboard.System.agentTask_step m)
  | answered horder =>
    refine { h with answer := fun a ha => ?_ }
    obtain rfl := Option.some.inj ha
    exact ⟨Snapshot.of_respond horder, h.pulled.seen, fun _ => received_of_respond⟩
  | @pulled a config stage hanswer hconfig =>
    obtain ⟨hof, hseen, hreceived⟩ := h.answer a hanswer
    refine
      { h with
        answer := fun a ha => by cases ha
        pulled := hof
        pulledTasks := ?_
        order := h.order.trans hseen }
    show _ = List.map some
      (Option.getD (Option.map _ (if st.agent.generation = 0 then _ else _)) [])
    rw [if_pos h.generation]
    exact hreceived config hconfig
  | staged hanswer =>
    refine { h with answer := fun a ha => ?_ }
    rcases hanswer with rfl | rfl
    · cases ha
    · exact h.answer a ha
  | @called order visit hcrashed hcalls =>
    have hstep : st.agent.supervisor.step Agent.executors
        (.setDesiredTasks st.agent.tasks order visit) =
        st.agent.supervisor.setDesiredTasks st.agent.tasks order visit := by
      simp only [Agent.Supervisor.step, hcrashed, Bool.false_eq_true, if_false]
      exact if_pos hcalls.2
    have hnext := st.agent.supervisor.step_next Agent.executors
      (.setDesiredTasks st.agent.tasks order visit)
    refine
      { h with
        answer := h.answer
        pulledTasks := h.pulledTasks
        called := h.pulled
        calledTasks := ?_
        order := le_rfl
        reconciling := h.reconciling.next hnext
        stored := h.stored.next h.reconciling hnext fun id t ht => ?_ }
    · rw [Agent.Process.setDesiredTasks, hstep]
      exact h.pulledTasks
    · exact stored_of_map h.pulled h.pulledTasks (Agent.mem_of_lastEntry ht)
  | @supervised m hm =>
    have hnext := st.agent.supervisor.step_next Agent.executors m
    refine
      { h with
        pulledTasks := h.pulledTasks
        calledTasks := ?_
        reconciling := h.reconciling.next hnext
        stored := h.stored.next h.reconciling hnext ?_ }
    · rw [hnext.tasks hm]
      exact h.calledTasks
    · cases m with
      | setDesiredTasks tasks order visit => exact absurd rfl (hm tasks order visit)
      | proceed | loop _ _ | shutdown => trivial
  | restarted => exact { sound_start st.db with }

end System

end Cepheus.ControlPlane
