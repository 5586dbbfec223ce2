import Cepheus.Agent.Supervisor

/-!
# The goroutines of the supervisor

All that a step of the supervisor can do (`Supervisor.Next`), and what follows for the goroutines:
every goroutine that has not returned is the one that `running` has for its task (`Coherent`), so
there is one for each id at most.
-/

namespace Cepheus.Agent

open Infra

/-! ## Maps and lists -/

/-- The last entry of a list with the given id. -/
def lastEntry (tasks : List Task) (id : String) : Option Task :=
  tasks.reverse.find? fun t => t.taskID = id

theorem lookup_desiredOf (tasks : List Task) (id : String) :
    (desiredOf tasks).lookup id = lastEntry tasks id := by
  induction tasks using List.reverseRecOn with
  | nil => rfl
  | append_singleton tasks t ih =>
    have hinsert : desiredOf (tasks ++ [t]) = (desiredOf tasks).insert t.taskID t := by
      simp only [desiredOf, List.foldl_append, List.foldl_cons, List.foldl_nil]
    have hlast : lastEntry (tasks ++ [t]) id =
        if id = t.taskID then some t else lastEntry tasks id := by
      by_cases h : t.taskID = id
      · simp [lastEntry, h]
      · simp [lastEntry, h, Ne.symm h]
    rw [hinsert, Table.lookup_insert_if, ih, hlast]

theorem taskID_of_lookup_desiredOf {tasks : List Task} {id : String} {t : Task}
    (h : (desiredOf tasks).lookup id = some t) : t.taskID = id := by
  rw [lookup_desiredOf] at h
  simpa using List.find?_some h

theorem keys_desiredOf (tasks : List Task) :
    (desiredOf tasks).keys = (tasks.map (·.taskID)).toFinset := by
  ext id
  rw [Table.mem_keys, List.mem_toFinset, List.mem_map]
  constructor
  · rintro ⟨t, ht⟩
    refine ⟨t, ?_, taskID_of_lookup_desiredOf ht⟩
    rw [lookup_desiredOf] at ht
    exact List.mem_reverse.mp (List.mem_of_find?_eq_some ht)
  · rintro ⟨t, ht, rfl⟩
    rw [lookup_desiredOf, lastEntry, ← Option.isSome_iff_exists, List.find?_isSome]
    exact ⟨t, List.mem_reverse.mpr ht, decide_eq_true rfl⟩

theorem Visits.mem {V : Type} {order : List String} {m : Table String V} (h : Visits order m)
    {id : String} : id ∈ order ↔ ∃ v, m.lookup id = some v := by
  rw [← List.mem_toFinset, h.2, Table.mem_keys]

/-- The elements for one id, of a list that has at most one for every id. -/
theorem filter_filterMap {f : String → Option RunningTask}
    (hf : ∀ id rt, f id = some rt → rt.spec.taskID = id) (id : String) :
    ∀ {order : List String}, order.Nodup →
      (order.filterMap f).filter (fun rt => rt.spec.taskID = id) =
        if id ∈ order then (f id).toList else []
  | [], _ => rfl
  | k :: order, hnodup => by
    obtain ⟨hk, hnodup⟩ := List.nodup_cons.mp hnodup
    have ih := filter_filterMap hf id hnodup
    cases hfk : f k with
    | none =>
      rw [List.filterMap_cons_none hfk, ih]
      by_cases hid : id = k
      · subst hid
        simp [hk, hfk]
      · simp [hid]
    | some rt =>
      have hrt := hf k rt hfk
      rw [List.filterMap_cons_some hfk, List.filter_cons, ih, hrt]
      by_cases hid : id = k
      · subst hid
        simp [hk, hfk]
      · simp [hid, Ne.symm hid]

theorem mem_removedTasks {running : Table String RunningTask} {desired : Table String Task}
    {order : List String} {rt : RunningTask} :
    rt ∈ removedTasks running desired order ↔
      ∃ id ∈ order, desired.lookup id = none ∧ running.lookup id = some rt := by
  simp [removedTasks, List.mem_filterMap]

theorem lookup_deleteStopped (id : String) :
    ∀ (toStop : List RunningTask) (running : Table String RunningTask),
      (deleteStopped running toStop).lookup id =
        if ∃ rt ∈ toStop, rt.spec.taskID = id then none else running.lookup id
  | [], running => by simp [deleteStopped]
  | rt :: toStop, running => by
    have hstep : deleteStopped running (rt :: toStop) =
        deleteStopped (running.erase rt.spec.taskID) toStop := rfl
    rw [hstep, lookup_deleteStopped id toStop]
    by_cases hrest : ∃ rt ∈ toStop, rt.spec.taskID = id
    · rw [if_pos hrest, if_pos]
      obtain ⟨rt', hrt', hid⟩ := hrest
      exact ⟨rt', List.mem_cons_of_mem _ hrt', hid⟩
    · rw [if_neg hrest]
      by_cases hid : rt.spec.taskID = id
      · rw [if_pos ⟨rt, List.mem_cons_self, hid⟩, hid, Finmap.lookup_erase]
      · rw [if_neg, Finmap.lookup_erase_ne (Ne.symm hid)]
        rintro ⟨rt', hrt', hid'⟩
        rcases List.mem_cons.mp hrt' with rfl | hrt'
        · exact hid hid'
        · exact hrest ⟨rt', hrt', hid'⟩

/-- A goroutine that is cancelled has the same task. -/
theorem spec_of_cancelLoop {loops : Table Nat Loop} {k n : Nat} {l : Loop}
    (h : (cancelLoop loops k).lookup n = some l) :
    ∃ l', loops.lookup n = some l' ∧ l'.spec = l.spec := by
  rw [cancelLoop, Table.lookup_adjust] at h
  split at h
  · obtain ⟨l', hl', rfl⟩ := Option.map_eq_some_iff.mp h
    exact ⟨l', hl', rfl⟩
  · exact ⟨l, h, rfl⟩

theorem spec_of_cancelLoops {n : Nat} {l : Loop} :
    ∀ {toStop : List RunningTask} {loops : Table Nat Loop},
      (toStop.foldl (fun loops rt => cancelLoop loops rt.loop) loops).lookup n = some l →
        ∃ l', loops.lookup n = some l' ∧ l'.spec = l.spec
  | [], _, h => ⟨l, h, rfl⟩
  | rt :: toStop, loops, h => by
    rw [List.foldl_cons] at h
    obtain ⟨l₁, h₁, hspec₁⟩ := spec_of_cancelLoops h
    obtain ⟨l₂, h₂, hspec₂⟩ := spec_of_cancelLoop h₁
    exact ⟨l₂, h₂, hspec₂.trans hspec₁⟩

/-! ## What a step does -/

/-- All that a step can do. -/
inductive Supervisor.Next (s : Supervisor) : Move → Supervisor → Prop
  | same (m : Move) : Next s m s
  | called {tasks : List Task} {order visit : List String} (hidle : s.phase = .idle)
      (horder : Visits order s.running) (hvisit : Visits visit (desiredOf tasks)) :
      Next s (.setDesiredTasks tasks order visit) (s.setDesiredTasks tasks order visit)
  | cleared {toStop : List RunningTask} {visit : List String}
      (hphase : s.phase = .stopping toStop visit)
      (hdone : ∀ rt ∈ toStop, s.loops.lookup rt.loop = none) :
      Next s .proceed { s with running := deleteStopped s.running toStop, phase := .starting visit }
  | returned (hphase : s.phase = .starting []) : Next s .proceed { s with phase := .idle }
  | vanished {id : String} {visit : List String} (hphase : s.phase = .starting (id :: visit))
      (hdesired : s.desired.lookup id = none) : Next s .proceed { s with phase := .starting visit }
  | added {id : String} {visit : List String} {t : Task}
      (hphase : s.phase = .starting (id :: visit)) (hdesired : s.desired.lookup id = some t)
      (hrunning : s.running.lookup id = none) :
      Next s .proceed { s.startTask id t with phase := .starting visit }
  | kept {id : String} {visit : List String} {t : Task} {rt : RunningTask}
      (hphase : s.phase = .starting (id :: visit)) (hdesired : s.desired.lookup id = some t)
      (hrunning : s.running.lookup id = some rt) (hgen : rt.spec.generation = t.generation) :
      Next s .proceed { s with phase := .starting visit }
  | cancelled {id : String} {visit : List String} {t : Task} {rt : RunningTask}
      (hphase : s.phase = .starting (id :: visit)) (hdesired : s.desired.lookup id = some t)
      (hrunning : s.running.lookup id = some rt) (hgen : rt.spec.generation ≠ t.generation) :
      Next s .proceed
        { s with
          phase := .restarting id rt t visit
          loops := cancelLoop s.loops rt.loop
          stopped := s.stopped ++ [rt] }
  | replaced {id : String} {visit : List String} {t : Task} {rt : RunningTask}
      (hphase : s.phase = .restarting id rt t visit) (hdone : s.loops.lookup rt.loop = none) :
      Next s .proceed { s.startTask id t with phase := .starting visit }
  | moved {n : Nat} {m : LoopMove} {l : Loop} {pc : LoopPc} {executions : List (Task × Option Task)}
      (hl : s.loops.lookup n = some l)
      (hex : executions = s.executions ∨
        executions = s.executions ++ [(l.spec, s.desired.lookup l.spec.taskID)]) :
      Next s (.loop n m) { s with loops := s.loops.insert n { l with pc }, executions }
  | ended {n : Nat} {m : LoopMove} {l : Loop} {failed : List Nat} (hl : s.loops.lookup n = some l)
      (hfailed : failed = s.failed ∨ failed = s.failed ++ [n]) :
      Next s (.loop n m) { s with loops := s.loops.erase n, failed }
  | crashed {n : Nat} {m : LoopMove} : Next s (.loop n m) { s with loops := ∅, crashed := true }
  | shutdown : Next s .shutdown { s with ctxDone := true }

theorem Supervisor.visit_next (s : Supervisor) {id : String} {visit : List String}
    (hphase : s.phase = .starting (id :: visit)) : s.Next .proceed (s.visit id visit) := by
  unfold Supervisor.visit
  cases hd : s.desired.lookup id with
  | none => exact .vanished hphase hd
  | some t =>
    simp only
    cases hr : s.running.lookup id with
    | none => exact .added hphase hd hr
    | some rt =>
      simp only
      split
      · next hgen => exact .kept hphase hd hr hgen
      · next hgen => exact .cancelled hphase hd hr hgen

theorem Supervisor.proceed_next (s : Supervisor) : s.Next .proceed s.proceed := by
  unfold Supervisor.proceed
  split
  · exact .same _
  · next hphase =>
    split
    · next hdone => exact .cleared hphase hdone
    · exact .same _
  · next hphase => exact .returned hphase
  · next hphase => exact s.visit_next hphase
  · next hphase =>
    split
    · next hdone => exact .replaced hphase hdone
    · exact .same _

theorem Supervisor.moveLoop_next (executors : TaskType → Bool) (s : Supervisor) (n : Nat)
    (m : LoopMove) : s.Next (.loop n m) (s.moveLoop executors n m) := by
  unfold Supervisor.moveLoop
  cases hl : s.loops.lookup n with
  | none => exact .same _
  | some l =>
    simp only
    cases l.next executors s.ctxDone m with
    | goes pc =>
      refine .moved hl ?_
      split
      · exact .inr rfl
      · exact .inl rfl
    | ends failed =>
      refine .ended hl ?_
      split
      · exact .inr rfl
      · exact .inl rfl
    | panics => exact .crashed

theorem Supervisor.step_next (executors : TaskType → Bool) (s : Supervisor) (m : Move) :
    s.Next m (s.step executors m) := by
  unfold Supervisor.step
  split
  · exact .same _
  · cases m with
    | setDesiredTasks tasks order visit =>
      simp only
      split
      · next h => exact .called h.1 h.2.1 h.2.2
      · exact .same _
    | proceed => exact s.proceed_next
    | loop n m => exact s.moveLoop_next executors n m
    | shutdown => exact .shutdown

/-! ## Goroutines -/

theorem Supervisor.lookup_running_startTask (s : Supervisor) (id id' : String) (t : Task) :
    (s.startTask id t).running.lookup id' =
      if id' = id then some { spec := t, loop := s.started } else s.running.lookup id' :=
  Table.lookup_insert_if ..

theorem Supervisor.lookup_loops_startTask (s : Supervisor) (id : String) (t : Task) (n : Nat) :
    (s.startTask id t).loops.lookup n =
      if n = s.started then some { spec := t, cancelled := false, pc := .fresh }
      else s.loops.lookup n :=
  Table.lookup_insert_if ..

/-- The tasks that a call is waiting for are those of `running`. -/
def Supervisor.Awaits (s : Supervisor) : Prop :=
  match s.phase with
  | .stopping toStop _ => ∀ rt ∈ toStop, s.running.lookup rt.spec.taskID = some rt
  | .restarting id rt t _ => s.running.lookup id = some rt ∧ t.taskID = id
  | _ => True

/-- Every goroutine that has not returned is the one that `running` has for its task. -/
structure Supervisor.Coherent (s : Supervisor) : Prop where
  desired_id : ∀ id t, s.desired.lookup id = some t → t.taskID = id
  running_id : ∀ id rt, s.running.lookup id = some rt → rt.spec.taskID = id
  held : ∀ n l, s.loops.lookup n = some l →
    s.running.lookup l.spec.taskID = some { spec := l.spec, loop := n }
  numbered : ∀ id rt, s.running.lookup id = some rt → rt.loop < s.started
  distinct : ∀ id id' rt rt', s.running.lookup id = some rt → s.running.lookup id' = some rt' →
    rt.loop = rt'.loop → id = id'
  awaits : s.Awaits

theorem Supervisor.coherent_new : newSupervisor.Coherent where
  desired_id := fun id t h => by simp [newSupervisor] at h
  running_id := fun id rt h => by simp [newSupervisor] at h
  held := fun n l h => by simp [newSupervisor] at h
  numbered := fun id rt h => by simp [newSupervisor] at h
  distinct := fun id id' rt rt' h => by simp [newSupervisor] at h
  awaits := trivial

namespace Supervisor.Coherent

variable {s : Supervisor}

/-- The goroutine of the task that is running under an id is the only one with this id. -/
theorem loop_eq (h : s.Coherent) {n : Nat} {l : Loop} {rt : RunningTask}
    (hl : s.loops.lookup n = some l) (hrt : s.running.lookup l.spec.taskID = some rt) :
    rt = { spec := l.spec, loop := n } :=
  Option.some.inj (hrt.symm.trans (h.held n l hl))

/-- The goroutine of a running task runs this task. -/
theorem spec_eq (h : s.Coherent) {id : String} {rt : RunningTask} {l : Loop}
    (hrt : s.running.lookup id = some rt) (hl : s.loops.lookup rt.loop = some l) :
    l.spec = rt.spec := by
  have hheld := h.held rt.loop l hl
  have hid : l.spec.taskID = id := h.distinct _ id _ rt hheld hrt rfl
  rw [hid, hrt] at hheld
  exact (congrArg RunningTask.spec (Option.some.inj hheld)).symm

/-- A task is started under an id whose task, if there is one, has stopped. -/
theorem startTask (h : s.Coherent) {id : String} {t : Task} {visit : List String}
    (hid : t.taskID = id)
    (hdone : ∀ rt, s.running.lookup id = some rt → s.loops.lookup rt.loop = none) :
    Coherent { s.startTask id t with phase := .starting visit } where
  desired_id := h.desired_id
  running_id := by
    intro id' rt hrt
    rw [lookup_running_startTask] at hrt
    split at hrt
    · next heq =>
      obtain rfl := Option.some.inj hrt
      exact hid.trans heq.symm
    · exact h.running_id id' rt hrt
  held := by
    intro n l hl
    rw [lookup_loops_startTask] at hl
    rw [lookup_running_startTask]
    split at hl
    · next heq =>
      obtain rfl := Option.some.inj hl
      rw [if_pos hid, heq]
    · have hold := h.held n l hl
      rw [if_neg, hold]
      intro heq
      rw [heq] at hold
      exact absurd (hdone _ hold) (by simp [hl])
  numbered := by
    intro id' rt hrt
    rw [lookup_running_startTask] at hrt
    split at hrt
    · obtain rfl := Option.some.inj hrt
      exact Nat.lt_succ_self _
    · exact Nat.lt_succ_of_lt (h.numbered id' rt hrt)
  distinct := by
    intro id₁ id₂ rt₁ rt₂ h₁ h₂ heq
    rw [lookup_running_startTask] at h₁ h₂
    split at h₁ <;> split at h₂
    · next h₁' h₂' => exact h₁'.trans h₂'.symm
    · obtain rfl := Option.some.inj h₁
      exact absurd heq.symm (Nat.ne_of_lt (h.numbered id₂ rt₂ h₂))
    · obtain rfl := Option.some.inj h₂
      exact absurd heq (Nat.ne_of_lt (h.numbered id₁ rt₁ h₁))
    · exact h.distinct id₁ id₂ rt₁ rt₂ h₁ h₂ heq
  awaits := trivial

theorem setDesiredTasks (h : s.Coherent) (tasks : List Task) (order visit : List String) :
    (s.setDesiredTasks tasks order visit).Coherent where
  desired_id := fun _ _ => taskID_of_lookup_desiredOf
  running_id := h.running_id
  held := by
    intro n l hl
    obtain ⟨l', hl', hspec⟩ := spec_of_cancelLoops hl
    rw [← hspec]
    exact h.held n l' hl'
  numbered := h.numbered
  distinct := h.distinct
  awaits := by
    intro rt hrt
    obtain ⟨id, -, -, hrunning⟩ := mem_removedTasks.mp hrt
    rw [h.running_id id rt hrunning]
    exact hrunning

theorem cleared (h : s.Coherent) {toStop : List RunningTask} {visit : List String}
    (hphase : s.phase = .stopping toStop visit)
    (hdone : ∀ rt ∈ toStop, s.loops.lookup rt.loop = none) :
    Coherent { s with running := deleteStopped s.running toStop, phase := .starting visit } := by
  have hawaits := h.awaits
  rw [Supervisor.Awaits, hphase] at hawaits
  have hlookup : ∀ id rt, (deleteStopped s.running toStop).lookup id = some rt →
      s.running.lookup id = some rt := by
    intro id rt hrt
    rw [lookup_deleteStopped] at hrt
    split at hrt
    · cases hrt
    · exact hrt
  refine
    { desired_id := h.desired_id
      running_id := fun id rt hrt => h.running_id id rt (hlookup id rt hrt)
      held := ?_
      numbered := fun id rt hrt => h.numbered id rt (hlookup id rt hrt)
      distinct := fun id id' rt rt' hrt hrt' =>
        h.distinct id id' rt rt' (hlookup id rt hrt) (hlookup id' rt' hrt')
      awaits := trivial }
  intro n l hl
  show (deleteStopped s.running toStop).lookup l.spec.taskID = _
  rw [lookup_deleteStopped, if_neg]
  · exact h.held n l hl
  · -- a task that was waited for has no goroutine left
    rintro ⟨rt, hrt, hid⟩
    have hrunning := hawaits rt hrt
    rw [hid] at hrunning
    obtain rfl := h.loop_eq hl hrunning
    have hnone : s.loops.lookup n = none := hdone _ hrt
    rw [hl] at hnone
    cases hnone

theorem next {s' : Supervisor} {m : Move} (h : s.Coherent) (hn : s.Next m s') : s'.Coherent := by
  cases hn with
  | same m => exact h
  | called hidle horder hvisit => exact h.setDesiredTasks _ _ _
  | cleared hphase hdone => exact h.cleared hphase hdone
  | returned hphase => exact { h with awaits := trivial }
  | vanished hphase hdesired => exact { h with awaits := trivial }
  | added hphase hdesired hrunning =>
    exact h.startTask (h.desired_id _ _ hdesired) fun rt hrt => by simp [hrunning] at hrt
  | kept hphase hdesired hrunning hgen => exact { h with awaits := trivial }
  | cancelled hphase hdesired hrunning hgen =>
    refine
      { desired_id := h.desired_id
        running_id := h.running_id
        held := ?_
        numbered := h.numbered
        distinct := h.distinct
        awaits := ⟨hrunning, h.desired_id _ _ hdesired⟩ }
    intro n l hl
    obtain ⟨l', hl', hspec⟩ := spec_of_cancelLoop hl
    rw [← hspec]
    exact h.held n l' hl'
  | @replaced id visit t rt hphase hdone =>
    have hawaits := h.awaits
    rw [Supervisor.Awaits, hphase] at hawaits
    refine h.startTask hawaits.2 ?_
    intro rt' hrt'
    obtain rfl := Option.some.inj (hawaits.1.symm.trans hrt')
    exact hdone
  | @moved n m l pc executions hl hex =>
    refine { h with held := ?_ }
    intro n' l' hl'
    rw [Table.lookup_insert_if] at hl'
    split at hl'
    · next heq =>
      obtain rfl := Option.some.inj hl'
      rw [heq]
      exact h.held n l hl
    · exact h.held n' l' hl'
  | @ended n m l failed hl hfailed =>
    refine { h with held := ?_ }
    intro n' l' hl'
    by_cases heq : n' = n
    · subst heq
      rw [Finmap.lookup_erase] at hl'
      cases hl'
    · rw [Finmap.lookup_erase_ne heq] at hl'
      exact h.held n' l' hl'
  | crashed => exact { h with held := fun n l hl => by simp at hl }
  | shutdown => exact { h with }

end Supervisor.Coherent

end Cepheus.Agent
