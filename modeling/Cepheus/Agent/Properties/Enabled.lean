import Cepheus.Agent.Properties.Tasks

/-!
# Disabled tasks

Nothing in the supervisor looks at the flag `enabled` of a task: an entry of the list is started
whether the flag is set or not. So a disabled task is only kept from running by leaving it out of
the list. As long as that is done, an executor is started for enabled tasks only, and a call stops
and starts just the tasks that have left the list, come into it or got a new generation.
-/

namespace Cepheus.Agent

open Infra

/-- Every call of `Execute` was for an enabled task, and while the task was desired as enabled. -/
def Supervisor.OnlyEnabled (s : Supervisor) : Prop :=
  ∀ x ∈ s.executions, x.1.enabled = true ∧ ∀ t ∈ x.2, t.enabled = true

instance (s : Supervisor) : Decidable s.OnlyEnabled :=
  inferInstanceAs (Decidable (∀ x ∈ s.executions, x.1.enabled = true ∧ ∀ t ∈ x.2, t.enabled = true))

/-- What the last call has stopped and started: just the tasks that are new in its list, or no
longer there, or there with another generation. -/
structure Supervisor.ChangedOnly (s : Supervisor) : Prop where
  stopped : ∀ id, (∃ rt ∈ s.stopped, rt.spec.taskID = id) ↔
    ∃ rt, s.before.lookup id = some rt ∧
      ∀ t, lastEntry s.tasks id = some t → t.generation ≠ rt.spec.generation
  begun : ∀ id, (∃ rt ∈ s.begun, rt.spec.taskID = id) ↔
    ∃ t, lastEntry s.tasks id = some t ∧
      ∀ rt, s.before.lookup id = some rt → t.generation ≠ rt.spec.generation

/-- A list without disabled tasks. Of two entries with one id the last one counts. -/
def ListsEnabled (tasks : List Task) : Prop :=
  ∀ id t, lastEntry tasks id = some t → t.enabled = true

/-- A call has a list without disabled tasks. -/
def Move.ListsEnabled : Move → Prop
  | .setDesiredTasks tasks _ _ => Agent.ListsEnabled tasks
  | _ => True

namespace Supervisor

variable {s s' : Supervisor} {m : Move}

theorem exists_mem_filter {l : List RunningTask} {id : String} :
    (∃ rt ∈ l, rt.spec.taskID = id) ↔ l.filter (fun rt => rt.spec.taskID = id) ≠ [] := by
  rw [Ne, List.filter_eq_nil_iff]
  simp

theorem Reconciling.changedOnly (h : s.Reconciling) (hidle : s.phase = .idle) : s.ChangedOnly := by
  have key : ∀ id, (s.stoppedOf id ≠ [] ↔ ∃ rt, s.before.lookup id = some rt ∧
        ∀ t, lastEntry s.tasks id = some t → t.generation ≠ rt.spec.generation) ∧
      (s.begunOf id ≠ [] ↔ ∃ t, lastEntry s.tasks id = some t ∧
        ∀ rt, s.before.lookup id = some rt → t.generation ≠ rt.spec.generation) := by
    intro id
    have hs := h.settled hidle id
    generalize s.before.lookup id = before, lastEntry s.tasks id = entry, s.stoppedOf id = stopped,
      s.begunOf id = begun, s.running.lookup id = running at hs ⊢
    cases hs with
    | absent => simp
    | removed => simp
    | added => simp
    | kept hgen => simp [hgen]
    | replaced hgen => simp [Ne.symm hgen]
  exact
    { stopped := fun id => exists_mem_filter.trans (key id).1
      begun := fun id => exists_mem_filter.trans (key id).2 }

/-- All that the supervisor has is enabled. -/
structure AllEnabled (s : Supervisor) : Prop where
  desired : ∀ id t, s.desired.lookup id = some t → t.enabled = true
  running : ∀ id rt, s.running.lookup id = some rt → rt.spec.enabled = true
  executions : s.OnlyEnabled

theorem allEnabled_iff : s.AllEnabled ↔ s.AllTasks fun t => t.enabled = true :=
  ⟨fun h => ⟨h.desired, h.running, h.executions⟩, fun h => ⟨h.desired, h.running, h.executed⟩⟩

end Supervisor

theorem Move.ListsEnabled.lists {m : Move} (h : m.ListsEnabled) :
    m.Lists fun t => t.enabled = true := by
  cases m with
  | setDesiredTasks tasks order visit => exact h
  | _ => trivial

/-- **If no call lists a disabled task, only enabled tasks are executed, and a call stops and starts
just what has changed.** -/
theorem enabled_tasks_only (executors : TaskType → Bool) {moves : List Move}
    (hmoves : ∀ m ∈ moves, m.ListsEnabled) :
    Throughout (Supervisor.step executors)
      (fun s => s.OnlyEnabled ∧ (s.phase = .idle → s.ChangedOnly)) newSupervisor moves := by
  have hinv := Supervisor.throughout_allTasks executors fun m hm => (hmoves m hm).lists
  exact hinv.imp fun s h => ⟨(Supervisor.allEnabled_iff.mpr h.2).executions, h.1.changedOnly⟩

theorem enabled_reflector_only :
    Throughout (Supervisor.step fun _ => true)
      (fun s => s.OnlyEnabled ∧ (s.phase = .idle → s.ChangedOnly)) newSupervisor
      (executeOnce (reflectorTask true 1)) := by
  refine enabled_tasks_only _ ?_
  intro m hm
  simp only [executeOnce, List.mem_cons, List.not_mem_nil, or_false] at hm
  rcases hm with rfl | rfl | rfl | rfl | rfl
  · intro id t ht
    have hmem := List.mem_reverse.mp (List.mem_of_find?_eq_some ht)
    rw [List.mem_singleton.mp hmem]
    rfl
  all_goals trivial

/-- A disabled task is executed like any other; and a task that is disabled between two calls is
started again by the second. -/
theorem disabled_task_executed :
    ¬ (run (Supervisor.step fun _ => true) newSupervisor
        (executeOnce (reflectorTask false 1))).OnlyEnabled ∧
      ∃ rt ∈ (run (Supervisor.step fun _ => true) newSupervisor
        (executeOnce (reflectorTask true 1) ++
          [.setDesiredTasks [reflectorTask false 2] ["reflector"] ["reflector"], .proceed, .proceed,
            .loop 0 (.executed .inserted), .proceed])).begun, rt.spec.enabled = false := by
  decide +kernel

end Cepheus.Agent
