import Cepheus.Agent.Properties.Reconcile

/-!
# Where the tasks of the supervisor come from

The supervisor makes no tasks of its own. What holds of every task of the lists that
`SetDesiredTasks` is called with holds of every task that is desired, that runs and that is
executed, in every state of every run.
-/

namespace Cepheus.Agent

open Infra

/-- A call has a list of such tasks. Of two entries with one id the last one counts. -/
def Move.Lists (P : Task → Prop) : Move → Prop
  | .setDesiredTasks tasks _ _ => ∀ id t, lastEntry tasks id = some t → P t
  | _ => True

namespace Supervisor

variable {s s' : Supervisor} {m : Move} {P : Task → Prop}

/-- Every task that the supervisor has is such a task. -/
structure AllTasks (P : Task → Prop) (s : Supervisor) : Prop where
  desired : ∀ id t, s.desired.lookup id = some t → P t
  running : ∀ id rt, s.running.lookup id = some rt → P rt.spec
  /-- With what was desired at the time of the call. -/
  executed : ∀ x ∈ s.executions, P x.1 ∧ ∀ t ∈ x.2, P t

theorem allTasks_new : newSupervisor.AllTasks P where
  desired := fun id t h => by simp [newSupervisor] at h
  running := fun id rt h => by simp [newSupervisor] at h
  executed := fun x hx => absurd hx List.not_mem_nil

theorem AllTasks.startTask (h : s.AllTasks P) {id : String} {t : Task} {phase : Phase}
    (ht : s.desired.lookup id = some t) : AllTasks P { s.startTask id t with phase } := by
  refine { desired := h.desired, running := ?_, executed := h.executed }
  intro id' rt hrt
  rw [lookup_running_startTask] at hrt
  split at hrt
  · obtain rfl := Option.some.inj hrt
    exact h.desired id t ht
  · exact h.running id' rt hrt

/-- The goroutines are those of the running tasks. -/
theorem AllTasks.loops (h : s.AllTasks P) (hr : s.Reconciling) {n : Nat} {l : Loop}
    (hl : s.loops.lookup n = some l) : P l.spec :=
  h.running _ _ (hr.coherent.held n l hl)

theorem AllTasks.next (h : s.AllTasks P) (hr : s.Reconciling) (hn : s.Next m s')
    (hm : m.Lists P) : s'.AllTasks P := by
  cases hn with
  | same m => exact h
  | @called tasks order visit hidle horder hvisit =>
    refine { desired := fun id t ht => ?_, running := h.running, executed := h.executed }
    exact hm id t ((lookup_desiredOf tasks id).symm.trans ht)
  | cleared hphase hdone =>
    refine { desired := h.desired, running := fun id rt hrt => ?_, executed := h.executed }
    have hrt : (deleteStopped s.running _).lookup id = some rt := hrt
    rw [lookup_deleteStopped] at hrt
    split at hrt
    · cases hrt
    · exact h.running id rt hrt
  | added hphase hdesired hrunning => exact h.startTask hdesired
  | @replaced id visit t rt hphase hdone =>
    -- the task that is waited for is the one that is desired
    have hp := hr.progress id
    rw [Progress, hphase] at hp
    simp only [if_true] at hp
    exact h.startTask hp.2.1
  | @moved n m l pc executions hl hex =>
    refine { desired := h.desired, running := h.running, executed := ?_ }
    intro x hx
    rcases hex with rfl | rfl
    · exact h.executed x hx
    · rcases List.mem_append.mp hx with hx | hx
      · exact h.executed x hx
      · obtain rfl := List.mem_singleton.mp hx
        exact ⟨h.loops hr hl, fun t ht => h.desired _ t ht⟩
  | returned _ | vanished _ _ | kept _ _ _ _ | cancelled _ _ _ _ | ended _ _ | crashed
  | shutdown => exact { h with }

theorem throughout_allTasks (executors : TaskType → Bool) {moves : List Move}
    (hmoves : ∀ m ∈ moves, m.Lists P) :
    Throughout (Supervisor.step executors) (fun s => s.Reconciling ∧ s.AllTasks P) newSupervisor
      moves := by
  refine throughout_of_invariant (fun s m h hm => ?_) ⟨reconciling_new, allTasks_new⟩
    (along_of_mem hmoves)
  have hn := s.step_next executors m
  exact ⟨h.1.next hn, h.2.next h.1 hn hm⟩

end Supervisor

end Cepheus.Agent
