import Cepheus.Agent.Properties.Reconcile

/-!
# Tasks that have failed

When the loop of a task returns, the entry of the task stays in `running`. So a call of
`SetDesiredTasks` takes the task to be running, and leaves it alone unless its generation is a new
one: a task that has failed is started again just then.
-/

namespace Cepheus.Agent

open Infra

namespace Supervisor

/-- There is a goroutine for a task. -/
def LiveLoop (s : Supervisor) (id : String) : Prop :=
  ∃ n l, s.loops.lookup n = some l ∧ l.spec.taskID = id

/-- The goroutine that the last call has started for a task, if it has started one, has not returned
yet. -/
def BegunLive (s : Supervisor) (id : String) : Prop :=
  ∀ rt ∈ s.begunOf id, s.loops.lookup rt.loop ≠ none

/-- Of the tasks that had failed before the last call and are in its list, there is a goroutine for
those whose generation has changed, as long as it has not returned, and for no other. -/
def RevivesChanged (s : Supervisor) : Prop :=
  ∀ id rt t, s.before.lookup id = some rt → rt.loop ∈ s.failedBefore →
    lastEntry s.tasks id = some t →
      (s.LiveLoop id ↔ t.generation ≠ rt.spec.generation ∧ s.BegunLive id)

/-- A goroutine that has failed does not come back. -/
structure FailedGone (s : Supervisor) : Prop where
  gone : ∀ n ∈ s.failed, s.loops.lookup n = none ∧ n < s.started
  before : ∀ n ∈ s.failedBefore, n ∈ s.failed

theorem failedGone_new : newSupervisor.FailedGone where
  gone := fun _ hn => absurd hn List.not_mem_nil
  before := fun _ hn => absurd hn List.not_mem_nil

variable {s s' : Supervisor} {m : Move}

theorem lookup_cancelLoop_none {loops : Table Nat Loop} {n k : Nat} (h : loops.lookup n = none) :
    (cancelLoop loops k).lookup n = none := by
  cases hl : (cancelLoop loops k).lookup n with
  | none => rfl
  | some l =>
    obtain ⟨l', hl', -⟩ := spec_of_cancelLoop hl
    rw [h] at hl'
    cases hl'

theorem FailedGone.startTask (h : s.FailedGone) {id : String} {t : Task} {phase : Phase} :
    FailedGone { s.startTask id t with phase } where
  gone := by
    intro n hn
    obtain ⟨hnone, hlt⟩ := h.gone n hn
    refine ⟨?_, Nat.lt_succ_of_lt hlt⟩
    show (s.loops.insert s.started _).lookup n = none
    rw [Finmap.lookup_insert_of_ne _ (Nat.ne_of_lt hlt)]
    exact hnone
  before := h.before

theorem FailedGone.next (h : s.FailedGone) (hc : s.Coherent) (hn : s.Next m s') :
    s'.FailedGone := by
  cases hn with
  | same m => exact h
  | @called tasks order visit hidle horder hvisit =>
    refine ⟨fun n hn => ⟨?_, (h.gone n hn).2⟩, fun n hn => hn⟩
    cases hl : (s.setDesiredTasks tasks order visit).loops.lookup n with
    | none => rfl
    | some l =>
      obtain ⟨l', hl', -⟩ := spec_of_cancelLoops hl
      rw [(h.gone n hn).1] at hl'
      cases hl'
  | added hphase hdesired hrunning => exact h.startTask
  | cancelled hphase hdesired hrunning hgen =>
    exact ⟨fun n hn => ⟨lookup_cancelLoop_none (h.gone n hn).1, (h.gone n hn).2⟩, h.before⟩
  | replaced hphase hdone => exact h.startTask
  | @moved n m l pc executions hl hex =>
    refine ⟨fun k hk => ⟨?_, (h.gone k hk).2⟩, h.before⟩
    have hne : k ≠ n := by
      rintro rfl
      rw [(h.gone k hk).1] at hl
      cases hl
    show (s.loops.insert n _).lookup k = none
    rw [Finmap.lookup_insert_of_ne _ hne]
    exact (h.gone k hk).1
  | @ended n m l failed hl hfailed =>
    have hlt : n < s.started := hc.numbered _ _ (hc.held n l hl)
    have herased : ∀ k, s.loops.lookup k = none → (s.loops.erase n).lookup k = none := by
      intro k hk
      by_cases heq : k = n
      · rw [heq]
        exact Finmap.lookup_erase n s.loops
      · rw [Finmap.lookup_erase_ne heq]
        exact hk
    rcases hfailed with rfl | rfl
    · exact ⟨fun k hk => ⟨herased k (h.gone k hk).1, (h.gone k hk).2⟩, h.before⟩
    · refine ⟨fun k hk => ?_, fun k hk => List.mem_append_left _ (h.before k hk)⟩
      rcases List.mem_append.mp hk with hk | hk
      · exact ⟨herased k (h.gone k hk).1, (h.gone k hk).2⟩
      · obtain rfl := List.mem_singleton.mp hk
        exact ⟨Finmap.lookup_erase k s.loops, hlt⟩
  | crashed => exact ⟨fun n hn => ⟨Finmap.lookup_empty n, (h.gone n hn).2⟩, h.before⟩
  | cleared _ _ | returned _ | vanished _ _ | kept _ _ _ _ | shutdown => exact { h with }

/-- There is a goroutine for a running task if the goroutine of its entry has not returned. -/
theorem Coherent.liveLoop_iff (h : s.Coherent) {id : String} {rt : RunningTask}
    (hrt : s.running.lookup id = some rt) : s.LiveLoop id ↔ s.loops.lookup rt.loop ≠ none := by
  constructor
  · rintro ⟨n, l, hl, rfl⟩
    rw [h.loop_eq hl hrt]
    simp [hl]
  · intro hlive
    obtain ⟨l, hl⟩ := Option.ne_none_iff_exists'.mp hlive
    exact ⟨rt.loop, l, hl, h.spec_eq hrt hl ▸ h.running_id id rt hrt⟩

theorem Reconciling.revivesChanged (h : s.Reconciling) (hf : s.FailedGone)
    (hidle : s.phase = .idle) : s.RevivesChanged := by
  intro id rt t hbefore hfailed hentry
  have hs := h.settled hidle id
  rw [hbefore, hentry] at hs
  unfold BegunLive
  generalize hrunning : s.running.lookup id = running, hstopped : s.stoppedOf id = stopped,
    hbegun : s.begunOf id = begun at hs
  cases hs with
  | kept hgen =>
    rw [h.coherent.liveLoop_iff hrunning, (hf.gone rt.loop (hf.before _ hfailed)).1]
    simp [hgen]
  | @replaced _ new hgen =>
    rw [h.coherent.liveLoop_iff hrunning]
    simp [Ne.symm hgen]

end Supervisor

/-- **After a call of `SetDesiredTasks`, a task of its list that had failed has a goroutine again
just if it has a new generation and its new goroutine has not returned.** -/
theorem failed_tasks_revived_iff (executors : TaskType → Bool) (moves : List Move) :
    Throughout (Supervisor.step executors)
      (fun s => s.phase = .idle → s.RevivesChanged) newSupervisor moves := by
  have hinv : Throughout (Supervisor.step executors) (fun s => s.Reconciling ∧ s.FailedGone)
      newSupervisor moves := by
    refine throughout_always (fun s m h => ?_)
      ⟨Supervisor.reconciling_new, Supervisor.failedGone_new⟩
    have hn := s.step_next executors m
    exact ⟨h.1.next hn, h.2.next h.1.coherent hn⟩
  exact hinv.imp fun s h => h.1.revivesChanged h.2

/-- A reflector that could not bind its port, and then a list with a new generation of it and with a
task that has run before the call returns. -/
def newGeneration : List Move :=
  executeOnce (namedTask "reflector" 1) ++
    [.loop 0 (.executed .failed),
      .setDesiredTasks [namedTask "probe" 1, namedTask "reflector" 2] ["reflector"]
        ["probe", "reflector"],
      .proceed, .proceed, .loop 1 .begin, .loop 1 (.executed .inserted), .proceed, .proceed,
      .proceed]

theorem failed_reflector_revived :
    let s := run (Supervisor.step fun _ => true) newSupervisor newGeneration
    s.phase = .idle ∧ 0 ∈ s.failedBefore ∧
      s.before.lookup "reflector" = some { spec := namedTask "reflector" 1, loop := 0 } ∧
      lastEntry s.tasks "reflector" = some (namedTask "reflector" 2) ∧
      s.loops.lookup 1 = none ∧ s.LiveLoop "reflector" := by
  have hrevives : (run (Supervisor.step fun _ => true) newSupervisor
      newGeneration).RevivesChanged :=
    (failed_tasks_revived_iff (fun _ => true) newGeneration).last (by decide +kernel)
  refine ⟨by decide +kernel, by decide +kernel, by decide +kernel, by decide +kernel,
    by decide +kernel, ?_⟩
  refine (hrevives "reflector" { spec := namedTask "reflector" 1, loop := 0 }
    (namedTask "reflector" 2) (by decide +kernel) (by decide +kernel) (by decide +kernel)).mpr ?_
  exact ⟨by decide, by unfold Supervisor.BegunLive; decide +kernel⟩

/-- A reflector that could not bind its port stays away: the next call with the same list finds its
entry, and there is no goroutine for it afterwards. -/
theorem failed_reflector_stays_away :
    let s := run (Supervisor.step fun _ => true) newSupervisor
      (executeOnce (reflectorTask true 1) ++
        [.loop 0 (.executed .failed),
          .setDesiredTasks [reflectorTask true 1] ["reflector"] ["reflector"],
          .proceed, .proceed, .proceed])
    s.phase = .idle ∧ s.crashed = false ∧ 0 ∈ s.failedBefore ∧
      s.before.lookup "reflector" = some { spec := reflectorTask true 1, loop := 0 } ∧
      lastEntry s.tasks "reflector" = some (reflectorTask true 1) ∧ s.loops = ∅ := by
  decide +kernel

end Cepheus.Agent
