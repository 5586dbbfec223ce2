import Cepheus.Agent.Properties.Panics
import Cepheus.ControlPlane.Properties.Typed

/-!
# What saving tasks does to the tasks that run

As long as the ids of the tasks of an agent are different, nothing that is saved stops one of them
or starts it again (`saving_interrupts_nothing`). And as long as no interval is longer than
922337203 seconds, nothing that is saved makes `computeJitter` or `time.NewTicker` panic, which
would end the agent with all of its tasks (`saving_crashes_nothing`). The form has no such bound: a
longer interval is an overflow in the computation of the jitter. What is left is `Insert`, which
panics when the stream of the results is full.
-/

namespace Cepheus.ControlPlane.System

open Infra Server Dashboard

variable {S U : Type} [DecidableEq S] [DecidableEq U]
variable {d : Deployment U} {st st' : System S U} {m : Move S U} {db₀ : Database U}

/-! ## Goroutines -/

variable (d) in
/-- No two tasks of the agent in the tables have the same id. -/
def UniqueIDs (st : System S U) : Prop := ((st.tasks d).map (·.taskID)).Nodup

theorem tasksOf_sublist {db db' : Database U} (h : db.agentTask <+: db'.agentTask) :
    (Deployment.tasksOf db d.config).Sublist (Deployment.tasksOf db' d.config) := by
  rw [← Deployment.tasksBefore_length, ← Deployment.tasksBefore_append h le_rfl,
    ← Deployment.tasksBefore_length]
  exact Deployment.tasksBefore_sublist h.length_le

/-- Rows stay, so ids that are different now were different before. -/
theorem UniqueIDs.earlier (h : (st.step d m).UniqueIDs d) : st.UniqueIDs d :=
  List.Nodup.sublist ((tasksOf_sublist (agentTask_step m)).map _) h

omit [DecidableEq S] in
theorem stored_eq_of_taskID (hu : st.UniqueIDs d) {t t' : Agent.Task} (h : Stored d st.db t)
    (h' : Stored d st.db t') (hid : t.taskID = t'.taskID) : t = t' := by
  obtain ⟨r, hr, ht⟩ := h
  obtain ⟨r', hr', ht'⟩ := h'
  rw [taskID_received ht, taskID_received ht'] at hid
  obtain rfl : r = r' := List.inj_on_of_nodup_map hu hr hr' hid
  exact Option.some.inj (ht.symm.trans ht')

omit [DecidableEq S] in
/-- What runs is still in the configuration that has been pulled. -/
theorem Sound.pulled_of_running (h : st.Sound d) (hidle : st.agent.supervisor.phase = .idle)
    {id : String} {rt : Agent.RunningTask}
    (hrt : st.agent.supervisor.running.lookup id = some rt) :
    ∃ t, Agent.lastEntry st.agent.tasks id = some t := by
  have hgen := (h.reconciling.callSettled hidle).generations id
  rw [hrt, Option.map_some, eq_comm, Option.map_eq_some_iff] at hgen
  obtain ⟨t, ht, -⟩ := hgen
  have hid : t.taskID = id := by
    rw [← Agent.lookup_desiredOf] at ht
    exact Agent.taskID_of_lookup_desiredOf ht
  -- the row of the task was read again
  have hcalled : some t ∈ st.called.rows.map (received d.parseFloat) := by
    rw [h.calledTasks]
    exact List.mem_map_of_mem (Agent.mem_of_lastEntry ht)
  obtain ⟨r, hr, hreceived⟩ := List.mem_map.mp hcalled
  have hpulled : r ∈ st.pulled.rows := h.pulled.rows.mem_iff.mpr
    ((Deployment.tasksBefore_sublist h.order).subset (h.called.rows.mem_iff.mp hr))
  have hsome : some t ∈ st.agent.tasks.map some := by
    rw [← h.pulledTasks, ← hreceived]
    exact List.mem_map_of_mem hpulled
  obtain ⟨t', ht', heq⟩ := List.mem_map.mp hsome
  obtain rfl := Option.some.inj heq
  rw [← hid]
  exact Agent.exists_lastEntry ht'

/-- A step does not stop anything as long as the ids are different. -/
theorem undisturbed_next (h : st.Sound d) (hu : st.UniqueIDs d)
    (hs : st.agent.supervisor.Undisturbed) (hn : st.Next d m st') :
    st'.agent.supervisor.Undisturbed := by
  have hgen : ∀ id t rt, st.agent.supervisor.desired.lookup id = some t →
      st.agent.supervisor.running.lookup id = some rt → rt.spec.generation = t.generation := by
    intro id t rt ht hrt
    have hid : rt.spec.taskID = t.taskID :=
      (h.reconciling.coherent.running_id id rt hrt).trans
        (h.reconciling.coherent.desired_id id t ht).symm
    rw [stored_eq_of_taskID hu (h.stored.running id rt hrt) (h.stored.desired id t ht) hid]
  cases hn with
  | same | dashboard _ | answered _ | pulled _ _ | staged _ => exact hs
  | @called order visit _ _ =>
    have hnext := st.agent.supervisor.step_next Agent.executors
      (.setDesiredTasks st.agent.tasks order visit)
    refine hs.next hnext (fun tasks order visit heq hidle => ?_) hgen
    cases heq
    exact fun id rt hrt => h.pulled_of_running hidle hrt
  | supervised hm =>
    refine hs.next (st.agent.supervisor.step_next _ _) (fun tasks order visit heq _ => ?_) hgen
    exact absurd heq (hm tasks order visit)
  | restarted => exact Agent.Supervisor.undisturbed_new

/--
**Saving tasks interrupts nothing.**

Whatever the sessions save and the agent does: as long as no two tasks of the agent in the tables
have the same id, no call of `SetDesiredTasks` stops a task, and no goroutine is cancelled.
-/
theorem saving_interrupts_nothing (d : Deployment U) (db₀ : Database U)
    (moves : List (Move S U)) :
    Throughout (step d)
      (fun st => st.UniqueIDs d → st.agent.supervisor.stopped = [] ∧
        ∀ n l, st.agent.supervisor.loops.lookup n = some l → l.cancelled = false)
      (start db₀) moves := by
  have hinv : Throughout (step d)
      (fun st : System S U =>
        st.Sound d ∧ (st.UniqueIDs d → st.agent.supervisor.Undisturbed)) (start db₀) moves := by
    refine throughout_always (fun st m h => ⟨h.1.next (step_next m), fun hu => ?_⟩)
      ⟨sound_start db₀, fun _ => Agent.Supervisor.undisturbed_new⟩
    exact undisturbed_next h.1 hu.earlier (h.2 hu.earlier) (step_next m)
  exact hinv.imp fun st h hu => ⟨(h.2 hu).stopped, (h.2 hu).loops⟩

/-! ## Panics -/

theorem runs_of_schedulable {s : Agent.TaskSchedule} (hfits : FitsInt32 s.intervalSeconds)
    (h : s.Schedulable) : s.Runs := by
  intro henabled hnonneg
  have hnonneg' := (Agent.interval_nonneg_iff hfits).mp hnonneg
  rcases h henabled with hneg | ⟨hpos, hjitter⟩
  · exact absurd hnonneg' (Int64.not_le.mpr hneg)
  · exact ⟨(Agent.interval_pos_iff hfits).mpr hpos,
      ((Agent.jitterSound_interval_iff hfits hpos).mpr hjitter).computeJitterPanics⟩

/-- The interval of a task comes from a column of 32 bits. -/
theorem fitsInt32_of_received {parseFloat : Json.Number → Option UInt64} {r : TaskRow}
    {t : Agent.Task} (h : received parseFloat r = some t) :
    FitsInt32 t.schedule.intervalSeconds := by
  rw [schedule_received h, FitsInt32, Int32.toInt_toInt64]
  exact ⟨Int32.le_toInt _, Int32.toInt_lt _⟩

/-- What is asked for can be scheduled, if the interval is not too long. -/
theorem schedulable_of_asks {inspect : String → String} {row : Dashboard.Row} {e : Entry}
    (h : Asks inspect row e) (hbound : e.interval ≤ 922337203) (taskID : String)
    (generation : Int32) : (e.task taskID generation).schedule.Schedulable := by
  intro henabled
  have hsched : e.type.schedulable = true := henabled
  have hpos := h.interval_pos
  rw [if_pos hsched] at hpos
  have hinterval : (Int64.ofInt e.interval).toInt = e.interval :=
    Int64.toInt_ofInt_of_le (by omega) (by omega)
  have hzero : (0 : Int64).toInt = 0 := by decide
  have hten : (10 : Int64).toInt = 10 := by decide
  refine .inr ⟨?_, .inr ?_⟩
  · show 0 < Int64.ofInt e.interval
    rw [Int64.lt_iff_toInt_lt, hzero, hinterval]
    exact hpos
  · show (Int64.ofInt e.interval).toInt * 1000000000 *
      (if e.type.schedulable then (10 : Int64) else 0).toInt < 2 ^ 63
    rw [if_pos hsched, hten, hinterval]
    omega

variable (d) in
/-- No task of the agent in the tables has an interval for which the jitter is an overflow. -/
def ShortIntervals (st : System S U) : Prop :=
  ∀ r ∈ st.tasks d, r.scheduleIntervalSeconds.toInt ≤ 922337203

theorem ShortIntervals.earlier (h : (st.step d m).ShortIntervals d) : st.ShortIntervals d :=
  fun r hr => h r ((tasksOf_sublist (agentTask_step m)).subset hr)

/-- The tasks in the tables do not make their goroutines panic. -/
theorem runs_of_stored (hdb : ∀ t, Stored d db₀ t → t.schedule.Schedulable)
    (hs : st.dashboard.Sourced d.inspect (fun _ => True) db₀) (hshort : st.ShortIntervals d)
    {t : Agent.Task} (h : Stored d st.db t) : t.schedule.Runs := by
  obtain ⟨r, hr, ht⟩ := h
  refine runs_of_schedulable (fitsInt32_of_received ht) ?_
  rcases mem_tasks_sourced hs hr with hold | hnew
  · exact hdb t ⟨r, hold, ht⟩
  · obtain ⟨row, e, -, hasks, hfits, htask⟩ := asked_of_inserted d.parseFloat hnew
    have hinterval : (Int64.ofInt e.interval).toInt = r.scheduleIntervalSeconds.toInt := by
      have hschedule := schedule_received htask
      have heq := congrArg Agent.TaskSchedule.intervalSeconds hschedule
      have heq : Int64.ofInt e.interval = r.scheduleIntervalSeconds.toInt64 := heq
      rw [heq, Int32.toInt_toInt64]
    obtain ⟨hlow, hhigh⟩ := hfits
    rw [Int64.toInt_ofInt_of_le (by omega) (by omega)] at hinterval
    have hbound := hshort r hr
    rw [Option.some.inj (ht.symm.trans htask)]
    exact schedulable_of_asks hasks (by omega) _ _

theorem steady_new : Agent.newSupervisor.Steady where
  crashed := rfl
  sound := fun n l hl => by simp [Agent.newSupervisor] at hl

/-- No `Insert` of the agent finds the stream of the results full. -/
def Spares : Move S U → Prop
  | .supervise m => m.Spares
  | _ => True

theorem steady_next (h : st.Sound d) (hruns : ∀ t, Stored d st.db t → t.schedule.Runs)
    (hs : st.agent.supervisor.Steady) (hm : Spares m) (hn : st.Next d m st') :
    st'.agent.supervisor.Steady := by
  have hall := h.stored.imp hruns
  cases hn with
  | same | dashboard _ | answered _ | pulled _ _ | staged _ => exact hs
  | @called order visit _ _ =>
    have hcall : (Agent.Move.setDesiredTasks st.agent.tasks order visit).Spares := trivial
    exact hs.step Agent.executors h.reconciling hall hcall
  | supervised _ => exact hs.step Agent.executors h.reconciling hall hm
  | restarted => exact steady_new

/--
**Saving tasks makes nothing panic, as long as the intervals are short.**

If the tasks that the tables have for the agent in the beginning can be scheduled, then whatever the
sessions save and the agent does, except that an `Insert` finds the stream of the results full: as
long as no task of the agent in the tables has an interval of more than 922337203 seconds, the agent
has not crashed.
-/
theorem saving_crashes_nothing (d : Deployment U)
    (hdb : ∀ t, Stored d db₀ t → t.schedule.Schedulable) {moves : List (Move S U)}
    (hmoves : ∀ m ∈ moves, Spares m) :
    Throughout (step d)
      (fun st => st.ShortIntervals d → st.agent.supervisor.crashed = false) (start db₀) moves := by
  have hinv : Throughout (step d)
      (fun st : System S U =>
        (st.Sound d ∧ st.dashboard.Sourced d.inspect (fun _ => True) db₀) ∧
          (st.ShortIntervals d → st.agent.supervisor.Steady)) (start db₀) moves := by
    refine throughout_of_invariant (fun st m h hm => ⟨⟨h.1.1.next (step_next m),
      sourced_step (types_true m) h.1.2⟩, fun hshort => ?_⟩)
      ⟨⟨sound_start db₀, Dashboard.System.sourced_start⟩, fun _ => steady_new⟩
      (along_of_mem hmoves)
    have hearlier := hshort.earlier
    exact steady_next h.1.1 (fun t => runs_of_stored hdb h.1.2 hearlier) (h.2 hearlier) hm
      (step_next m)
  exact hinv.imp fun st h hshort => (h.2 hshort).crashed

theorem ping_crashes_nothing :
    (∀ t, Stored edgeDeployment Dashboard.System.emptyDatabase t → t.schedule.Schedulable) ∧
      Throughout (step edgeDeployment)
        (fun st => st.ShortIntervals edgeDeployment → st.agent.supervisor.crashed = false)
        (start Dashboard.System.emptyDatabase)
        (saveAndStart "922337203" ++ [.supervise (.loop 0 .begin)]) := by
  have hdb : ∀ t, Stored edgeDeployment Dashboard.System.emptyDatabase t →
      t.schedule.Schedulable := fun _ ⟨_, hr, _⟩ => absurd hr List.not_mem_nil
  refine ⟨hdb, saving_crashes_nothing edgeDeployment hdb ?_⟩
  simp [saveAndStart, Spares, Agent.Move.Spares]

/-- One second more, and the agent crashes. -/
example :
    (run (step edgeDeployment) (start Dashboard.System.emptyDatabase)
      (saveAndStart "922337204" ++ [.supervise (.loop 0 .begin)])).agent.supervisor.crashed := by
  decide +kernel

end Cepheus.ControlPlane.System
