import Cepheus.Agent.Properties.Tasks

/-!
# Calls of the supervisor

What a caller of `SetDesiredTasks` can rely on: the list of the last call stays until the next one,
what runs after a call is what is desired, and a call that lists every task that runs, in the
generation in which it runs, stops none of them (`Supervisor.Undisturbed`).
-/

namespace Cepheus.Agent

open Infra

theorem mem_of_lastEntry {tasks : List Task} {id : String} {t : Task}
    (h : lastEntry tasks id = some t) : t ∈ tasks :=
  List.mem_reverse.mp (List.mem_of_find?_eq_some h)

/-- What runs under an id after a call is what is desired, if a task that was kept is. -/
theorem Settled.running_eq {before running : Option RunningTask} {entry : Option Task}
    {stopped begun : List RunningTask} (h : Settled before entry running stopped begun)
    (hkept : ∀ rt t, running = some rt → entry = some t → rt.spec.generation = t.generation →
      rt.spec = t) : running.map (·.spec) = entry := by
  cases h with
  | absent | removed | added | replaced _ => rfl
  | kept hgen => exact congrArg some (hkept _ _ rfl rfl hgen)

theorem exists_lastEntry {tasks : List Task} {t : Task} (h : t ∈ tasks) :
    ∃ t', lastEntry tasks t.taskID = some t' := by
  rw [lastEntry, ← Option.isSome_iff_exists, List.find?_isSome]
  exact ⟨t, List.mem_reverse.mpr h, decide_eq_true rfl⟩

namespace Supervisor

variable {s s' : Supervisor} {m : Move}

/-- The list of the last call stays until the next one. -/
theorem Next.tasks (hn : s.Next m s')
    (hm : ∀ tasks order visit, m ≠ .setDesiredTasks tasks order visit) : s'.tasks = s.tasks := by
  cases hn with
  | called _ _ _ => exact absurd rfl (hm _ _ _)
  | same _ | cleared _ _ | returned _ | vanished _ _ | added _ _ _ | kept _ _ _ _
  | cancelled _ _ _ _ | replaced _ _ | moved _ _ | ended _ _ | crashed | shutdown => rfl

theorem AllTasks.imp {P Q : Task → Prop} (h : s.AllTasks P) (hpq : ∀ t, P t → Q t) :
    s.AllTasks Q where
  desired := fun id t ht => hpq t (h.desired id t ht)
  running := fun id rt hrt => hpq rt.spec (h.running id rt hrt)
  executed := fun x hx =>
    ⟨hpq x.1 (h.executed x hx).1, fun t ht => hpq t ((h.executed x hx).2 t ht)⟩

/-- What the last call does about goroutines that run is nothing. -/
structure Undisturbed (s : Supervisor) : Prop where
  stopped : s.stopped = []
  loops : ∀ n l, s.loops.lookup n = some l → l.cancelled = false
  stopping : ∀ toStop visit, s.phase = .stopping toStop visit → toStop = []
  restarting : ∀ id rt t visit, s.phase ≠ .restarting id rt t visit

theorem undisturbed_new : newSupervisor.Undisturbed where
  stopped := rfl
  loops := fun n l h => by simp [newSupervisor] at h
  stopping := fun _ _ h => by cases h
  restarting := fun _ _ _ _ h => by cases h

theorem Undisturbed.starting (h : s.Undisturbed) {running : Table String RunningTask}
    {visit : List String} : Undisturbed { s with running, phase := .starting visit } where
  stopped := h.stopped
  loops := h.loops
  stopping := fun _ _ h => by cases h
  restarting := fun _ _ _ _ h => by cases h

/-- If every task that runs is desired, and in the generation in which it runs, none is stopped. -/
theorem Undisturbed.next (h : s.Undisturbed) (hn : s.Next m s')
    (hcall : ∀ tasks order visit, m = .setDesiredTasks tasks order visit → s.phase = .idle →
      ∀ id rt, s.running.lookup id = some rt → ∃ t, lastEntry tasks id = some t)
    (hgen : ∀ id t rt, s.desired.lookup id = some t → s.running.lookup id = some rt →
      rt.spec.generation = t.generation) : s'.Undisturbed := by
  cases hn with
  | same | shutdown => exact { h with }
  | @called tasks order visit hidle horder hvisit =>
    have hnone : removedTasks s.running (desiredOf tasks) order = [] := by
      refine List.eq_nil_iff_forall_not_mem.mpr fun rt hrt => ?_
      obtain ⟨id, -, hdesired, hrunning⟩ := mem_removedTasks.mp hrt
      obtain ⟨t, ht⟩ := hcall tasks order visit rfl hidle id rt hrunning
      rw [lookup_desiredOf, ht] at hdesired
      cases hdesired
    simp only [Supervisor.setDesiredTasks, hnone]
    refine
      { stopped := rfl
        loops := h.loops
        stopping := fun toStop visit' heq => ?_
        restarting := fun _ _ _ _ heq => by cases heq }
    simp only [Phase.stopping.injEq] at heq
    exact heq.1.symm
  | cleared _ _ | vanished _ _ | kept _ _ _ _ => exact h.starting
  | returned _ =>
    exact
      { stopped := h.stopped
        loops := h.loops
        stopping := fun _ _ heq => by cases heq
        restarting := fun _ _ _ _ heq => by cases heq }
  | added _ _ _ =>
    refine
      { stopped := h.stopped
        loops := fun n l hl => ?_
        stopping := fun _ _ heq => by cases heq
        restarting := fun _ _ _ _ heq => by cases heq }
    rw [lookup_loops_startTask] at hl
    split at hl
    · rw [← Option.some.inj hl]
    · exact h.loops n l hl
  | cancelled _ hdesired hrunning hne => exact absurd (hgen _ _ _ hdesired hrunning) hne
  | replaced hphase _ => exact absurd hphase (h.restarting _ _ _ _)
  | @moved n m l pc executions hl hex =>
    refine { h with loops := fun n' l' hl' => ?_ }
    simp only [Table.lookup_insert_if] at hl'
    split at hl'
    · rw [← Option.some.inj hl']
      exact h.loops n l hl
    · exact h.loops n' l' hl'
  | @ended n m l failed hl hfailed =>
    refine { h with loops := fun n' l' hl' => ?_ }
    by_cases heq : n' = n
    · rw [heq, Finmap.lookup_erase] at hl'
      cases hl'
    · rw [Finmap.lookup_erase_ne heq] at hl'
      exact h.loops n' l' hl'
  | crashed => exact { h with loops := fun n l hl => by simp at hl }

end Supervisor

end Cepheus.Agent
