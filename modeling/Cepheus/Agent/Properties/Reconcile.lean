import Cepheus.Agent.Properties.Goroutines

/-!
# Reconciliation

A call of `SetDesiredTasks` settles one task id after the other (`Settled`): it removes the task,
adds it, keeps it or replaces it. The ids that the call has not come to are as they were before it
(`Untouched`), and so is an id whose task has been cancelled until it has stopped (`Stopping`). When
the call returns all ids are settled.
-/

namespace Cepheus.Agent

open Infra

/-! ## One id -/

/-- What a call has made of an id: what was running before, what is desired, what is running now,
and what the call has stopped and started. -/
inductive Settled : Option RunningTask → Option Task → Option RunningTask → List RunningTask →
    List RunningTask → Prop
  | absent : Settled none none none [] []
  | removed {rt : RunningTask} : Settled (some rt) none none [rt] []
  | added {rt : RunningTask} : Settled none (some rt.spec) (some rt) [] [rt]
  | kept {rt : RunningTask} {t : Task} (hgen : rt.spec.generation = t.generation) :
      Settled (some rt) (some t) (some rt) [] []
  | replaced {old new : RunningTask} (hgen : old.spec.generation ≠ new.spec.generation) :
      Settled (some old) (some new.spec) (some new) [old] [new]

/-- The call has not come to the id. -/
structure Untouched (before running : Option RunningTask) (stopped begun : List RunningTask) :
    Prop where
  running : running = before
  stopped : stopped = []
  begun : begun = []

/-- The call is waiting for the task of the id to stop. -/
structure Stopping (rt : RunningTask) (before running : Option RunningTask)
    (stopped begun : List RunningTask) : Prop where
  before : before = some rt
  running : running = some rt
  stopped : stopped = [rt]
  begun : begun = []

namespace Supervisor

/-- What the last call has stopped under an id. -/
def stoppedOf (s : Supervisor) (id : String) : List RunningTask :=
  s.stopped.filter fun rt => rt.spec.taskID = id

/-- What the last call has started under an id. -/
def begunOf (s : Supervisor) (id : String) : List RunningTask :=
  s.begun.filter fun rt => rt.spec.taskID = id

def SettledAt (s : Supervisor) (id : String) : Prop :=
  Settled (s.before.lookup id) (s.desired.lookup id) (s.running.lookup id) (s.stoppedOf id)
    (s.begunOf id)

def UntouchedAt (s : Supervisor) (id : String) : Prop :=
  Untouched (s.before.lookup id) (s.running.lookup id) (s.stoppedOf id) (s.begunOf id)

def StoppingAt (s : Supervisor) (id : String) (rt : RunningTask) : Prop :=
  Stopping rt (s.before.lookup id) (s.running.lookup id) (s.stoppedOf id) (s.begunOf id)

/-- How far the call is with an id. -/
def Progress (s : Supervisor) (id : String) : Prop :=
  match s.phase with
  | .idle => s.SettledAt id
  | .stopping toStop visit =>
    if id ∈ visit then s.UntouchedAt id
    else s.desired.lookup id = none ∧
      ((s.before.lookup id = none ∧ s.UntouchedAt id ∧ ∀ rt ∈ toStop, rt.spec.taskID ≠ id) ∨
        ∃ rt ∈ toStop, s.StoppingAt id rt)
  | .starting visit => if id ∈ visit then s.UntouchedAt id else s.SettledAt id
  | .restarting id' rt t visit =>
    if id = id' then s.StoppingAt id rt ∧ s.desired.lookup id = some t ∧
      rt.spec.generation ≠ t.generation
    else if id ∈ visit then s.UntouchedAt id else s.SettledAt id

/-- The ids that the call still has to come to are those of desired tasks, and each comes once. -/
def Todo (s : Supervisor) : Prop :=
  match s.phase with
  | .idle => True
  | .stopping toStop visit => visit.Nodup ∧ (∀ id ∈ visit, ∃ t, s.desired.lookup id = some t) ∧
    ∀ rt ∈ toStop, s.desired.lookup rt.spec.taskID = none
  | .starting visit => visit.Nodup ∧ ∀ id ∈ visit, ∃ t, s.desired.lookup id = some t
  | .restarting id _ _ visit =>
    (id :: visit).Nodup ∧ ∀ id ∈ visit, ∃ t, s.desired.lookup id = some t

/-! ### The ids that a step does not concern -/

/-- Nothing has changed at an id. -/
structure SameAt (s s' : Supervisor) (id : String) : Prop where
  before : s'.before.lookup id = s.before.lookup id
  desired : s'.desired.lookup id = s.desired.lookup id
  running : s'.running.lookup id = s.running.lookup id
  stopped : s'.stoppedOf id = s.stoppedOf id
  begun : s'.begunOf id = s.begunOf id

variable {s s' : Supervisor} {m : Move} {id : String}

theorem UntouchedAt.congr (h : s.UntouchedAt id) (hs : s.SameAt s' id) : s'.UntouchedAt id := by
  rw [UntouchedAt, hs.before, hs.running, hs.stopped, hs.begun]
  exact h

theorem SettledAt.congr (h : s.SettledAt id) (hs : s.SameAt s' id) : s'.SettledAt id := by
  rw [SettledAt, hs.before, hs.desired, hs.running, hs.stopped, hs.begun]
  exact h

/-- The rest of the loop over the desired tasks is as before. -/
theorem progress_of_same {visit : List String}
    (h : if id ∈ visit then s.UntouchedAt id else s.SettledAt id) (hs : s.SameAt s' id) :
    if id ∈ visit then s'.UntouchedAt id else s'.SettledAt id := by
  split at h
  · next hid =>
    rw [if_pos hid]
    exact h.congr hs
  · next hid =>
    rw [if_neg hid]
    exact h.congr hs

theorem filter_append_of_ne {l : List RunningTask} {rt : RunningTask} (h : rt.spec.taskID ≠ id) :
    (l ++ [rt]).filter (fun rt => rt.spec.taskID = id) =
      l.filter fun rt => rt.spec.taskID = id := by
  simp [List.filter_append, h]

theorem filter_append_of_eq {l : List RunningTask} {rt : RunningTask} (h : rt.spec.taskID = id) :
    (l ++ [rt]).filter (fun rt => rt.spec.taskID = id) =
      l.filter (fun rt => rt.spec.taskID = id) ++ [rt] := by
  simp [List.filter_append, h]

theorem sameAt_startTask {id' : String} {t : Task} {phase : Phase} (ht : t.taskID = id')
    (hne : id ≠ id') : s.SameAt { s.startTask id' t with phase } id where
  before := rfl
  desired := rfl
  running := Finmap.lookup_insert_of_ne _ hne
  stopped := rfl
  begun := filter_append_of_ne fun heq => hne (heq.symm.trans ht)

theorem sameAt_cancel {rt : RunningTask} {phase : Phase} {loops : Table Nat Loop}
    (hne : rt.spec.taskID ≠ id) :
    s.SameAt { s with phase, loops, stopped := s.stopped ++ [rt] } id where
  before := rfl
  desired := rfl
  running := rfl
  stopped := filter_append_of_ne hne
  begun := rfl

/-! ### Calls -/

theorem progress_setDesiredTasks (h : s.Coherent) {tasks : List Task} {order visit : List String}
    (horder : Visits order s.running) (hvisit : Visits visit (desiredOf tasks)) (id : String) :
    (s.setDesiredTasks tasks order visit).Progress id := by
  have hstopped : (s.setDesiredTasks tasks order visit).stoppedOf id =
      if id ∈ order then
        (if (desiredOf tasks).lookup id = none then s.running.lookup id else none).toList
      else [] := by
    refine filter_filterMap (fun id rt hrt => ?_) id horder.1
    split at hrt
    · exact h.running_id id rt hrt
    · cases hrt
  show if id ∈ visit then _ else _
  split
  · next hid =>
    obtain ⟨t, ht⟩ := hvisit.mem.mp hid
    refine ⟨rfl, ?_, rfl⟩
    rw [hstopped, ht]
    simp
  · next hid =>
    have hnone : (desiredOf tasks).lookup id = none := by
      cases ht : (desiredOf tasks).lookup id with
      | none => rfl
      | some t => exact absurd (hvisit.mem.mpr ⟨t, ht⟩) hid
    refine ⟨hnone, ?_⟩
    rw [hnone] at hstopped
    cases hrt : s.running.lookup id with
    | none =>
      refine .inl ⟨hrt, ⟨rfl, ?_, rfl⟩, ?_⟩
      · rw [hstopped, hrt]
        simp
      · intro rt hmem heq
        obtain ⟨id', -, -, hrunning⟩ := mem_removedTasks.mp hmem
        rw [← h.running_id id' rt hrunning, heq, hrt] at hrunning
        cases hrunning
    | some rt =>
      have hid' : id ∈ order := horder.mem.mpr ⟨rt, hrt⟩
      refine .inr ⟨rt, mem_removedTasks.mpr ⟨id, hid', hnone, hrt⟩, hrt, hrt, ?_, rfl⟩
      rw [hstopped, hrt, if_pos hid', if_pos rfl]
      rfl

theorem progress_cleared {toStop : List RunningTask} {visit : List String}
    (hphase : s.phase = .stopping toStop visit) (hp : s.Progress id) (ht : s.Todo) :
    Progress { s with running := deleteStopped s.running toStop, phase := .starting visit } id := by
  rw [Progress, hphase] at hp
  rw [Todo, hphase] at ht
  have hlookup := lookup_deleteStopped id toStop s.running
  show if id ∈ visit then _ else _
  simp only at hp
  split at hp
  · next hid =>
    -- a task that is desired is not among those that were removed
    rw [if_pos hid]
    have hnot : ¬ ∃ rt ∈ toStop, rt.spec.taskID = id := by
      rintro ⟨rt, hrt, rfl⟩
      obtain ⟨t, hdesired⟩ := ht.2.1 _ hid
      rw [ht.2.2 rt hrt] at hdesired
      cases hdesired
    rw [if_neg hnot] at hlookup
    exact ⟨hlookup.trans hp.running, hp.stopped, hp.begun⟩
  · next hid =>
    rw [if_neg hid]
    obtain ⟨hdesired, ⟨hbefore, hu, hnot⟩ | ⟨rt, hrt, hstop⟩⟩ := hp
    · rw [if_neg fun ⟨rt, hrt, heq⟩ => hnot rt hrt heq] at hlookup
      show Settled (s.before.lookup id) (s.desired.lookup id)
        ((deleteStopped s.running toStop).lookup id) (s.stoppedOf id) (s.begunOf id)
      rw [hlookup, hu.running, hbefore, hdesired, hu.stopped, hu.begun]
      exact .absent
    · have hid' : rt.spec.taskID = id := by
        have hmem : rt ∈ s.stoppedOf id := hstop.stopped ▸ List.mem_cons_self
        simpa using (List.mem_filter.mp hmem).2
      rw [if_pos ⟨rt, hrt, hid'⟩] at hlookup
      show Settled (s.before.lookup id) (s.desired.lookup id)
        ((deleteStopped s.running toStop).lookup id) (s.stoppedOf id) (s.begunOf id)
      rw [hlookup, hstop.before, hdesired, hstop.stopped, hstop.begun]
      exact .removed

/-- The id at which the loop over the desired tasks is, and the others. -/
theorem progress_starting {id' : String} {visit : List String}
    (hphase : s.phase = .starting (id' :: visit)) (hp : s.Progress id) (ht : s.Todo) :
    (id = id' → s.UntouchedAt id' ∧ id' ∉ visit) ∧
      (id ≠ id' → if id ∈ visit then s.UntouchedAt id else s.SettledAt id) := by
  rw [Progress, hphase] at hp
  rw [Todo, hphase] at ht
  simp only [List.mem_cons] at hp
  constructor
  · rintro rfl
    rw [if_pos (.inl rfl)] at hp
    exact ⟨hp, (List.nodup_cons.mp ht.1).1⟩
  · intro hne
    simpa only [hne, false_or] using hp

theorem progress_added {id' : String} {visit : List String} {t : Task}
    (hphase : s.phase = .starting (id' :: visit)) (hdesired : s.desired.lookup id' = some t)
    (hrunning : s.running.lookup id' = none) (hid : t.taskID = id') (hp : s.Progress id)
    (ht : s.Todo) : Progress { s.startTask id' t with phase := .starting visit } id := by
  obtain ⟨hself, hother⟩ := progress_starting hphase hp ht
  show if id ∈ visit then _ else _
  by_cases heq : id = id'
  · subst heq
    obtain ⟨hu, hvisit⟩ := hself rfl
    have hbegun : (s.startTask id t).begunOf id = [{ spec := t, loop := s.started }] := by
      show (s.begun ++ [_]).filter _ = _
      rw [filter_append_of_eq hid]
      exact congrArg (· ++ _) hu.begun
    rw [if_neg hvisit]
    show Settled (s.before.lookup id) (s.desired.lookup id)
      ((s.running.insert id { spec := t, loop := s.started }).lookup id) (s.stoppedOf id)
      ((s.startTask id t).begunOf id)
    rw [Finmap.lookup_insert, ← hu.running, hrunning, hdesired, hu.stopped, hbegun]
    exact @Settled.added { spec := t, loop := s.started }
  · exact progress_of_same (hother heq) (sameAt_startTask hid heq)

theorem progress_kept {id' : String} {visit : List String} {t : Task} {rt : RunningTask}
    (hphase : s.phase = .starting (id' :: visit)) (hdesired : s.desired.lookup id' = some t)
    (hrunning : s.running.lookup id' = some rt) (hgen : rt.spec.generation = t.generation)
    (hp : s.Progress id) (ht : s.Todo) : Progress { s with phase := .starting visit } id := by
  obtain ⟨hself, hother⟩ := progress_starting hphase hp ht
  show if id ∈ visit then _ else _
  by_cases heq : id = id'
  · subst heq
    obtain ⟨hu, hvisit⟩ := hself rfl
    rw [if_neg hvisit]
    show Settled (s.before.lookup id) (s.desired.lookup id) (s.running.lookup id) (s.stoppedOf id)
      (s.begunOf id)
    rw [← hu.running, hrunning, hdesired, hu.stopped, hu.begun]
    exact .kept hgen
  · exact hother heq

theorem progress_cancelled {id' : String} {visit : List String} {t : Task} {rt : RunningTask}
    (hphase : s.phase = .starting (id' :: visit)) (hdesired : s.desired.lookup id' = some t)
    (hrunning : s.running.lookup id' = some rt) (hgen : rt.spec.generation ≠ t.generation)
    (hid : rt.spec.taskID = id') (hp : s.Progress id) (ht : s.Todo) :
    Progress
      { s with
        phase := .restarting id' rt t visit
        loops := cancelLoop s.loops rt.loop
        stopped := s.stopped ++ [rt] } id := by
  obtain ⟨hself, hother⟩ := progress_starting hphase hp ht
  show if id = id' then _ else _
  by_cases heq : id = id'
  · subst heq
    obtain ⟨hu, -⟩ := hself rfl
    rw [if_pos rfl]
    refine ⟨⟨hu.running ▸ hrunning, hrunning, ?_, hu.begun⟩, hdesired, hgen⟩
    show (s.stopped ++ [rt]).filter _ = _
    rw [filter_append_of_eq hid]
    exact congrArg (· ++ _) hu.stopped
  · rw [if_neg heq]
    exact progress_of_same (hother heq) (sameAt_cancel fun h => heq (h.symm.trans hid))

theorem progress_replaced {id' : String} {visit : List String} {t : Task} {rt : RunningTask}
    (hphase : s.phase = .restarting id' rt t visit) (hid : t.taskID = id') (hp : s.Progress id)
    (ht : s.Todo) : Progress { s.startTask id' t with phase := .starting visit } id := by
  rw [Progress, hphase] at hp
  rw [Todo, hphase] at ht
  simp only at hp
  show if id ∈ visit then _ else _
  by_cases heq : id = id'
  · subst heq
    rw [if_pos rfl] at hp
    obtain ⟨hstop, hdesired, hgen⟩ := hp
    have hbegun : (s.startTask id t).begunOf id = [{ spec := t, loop := s.started }] := by
      show (s.begun ++ [_]).filter _ = _
      rw [filter_append_of_eq hid]
      exact congrArg (· ++ _) hstop.begun
    rw [if_neg (List.nodup_cons.mp ht.1).1]
    show Settled (s.before.lookup id) (s.desired.lookup id)
      ((s.running.insert id { spec := t, loop := s.started }).lookup id) (s.stoppedOf id)
      ((s.startTask id t).begunOf id)
    rw [Finmap.lookup_insert, hstop.before, hdesired, hstop.stopped, hbegun]
    exact @Settled.replaced rt { spec := t, loop := s.started } hgen
  · rw [if_neg heq] at hp
    exact progress_of_same hp (sameAt_startTask hid heq)

/-! ### Whole runs -/

theorem Todo.next (h : s.Coherent) (ht : s.Todo) (hn : s.Next m s') : s'.Todo := by
  cases hn with
  | same m => exact ht
  | called hidle horder hvisit =>
    refine ⟨hvisit.1, fun id hid => hvisit.mem.mp hid, ?_⟩
    intro rt hrt
    obtain ⟨id, -, hnone, hrunning⟩ := mem_removedTasks.mp hrt
    rw [h.running_id id rt hrunning]
    exact hnone
  | cleared hphase hdone =>
    rw [Todo, hphase] at ht
    exact ⟨ht.1, ht.2.1⟩
  | returned hphase => trivial
  | vanished hphase _ | added hphase _ _ | kept hphase _ _ _ =>
    rw [Todo, hphase] at ht
    exact ⟨(List.nodup_cons.mp ht.1).2, fun id hid => ht.2 id (List.mem_cons_of_mem _ hid)⟩
  | cancelled hphase hdesired hrunning hgen =>
    rw [Todo, hphase] at ht
    exact ⟨ht.1, fun id hid => ht.2 id (List.mem_cons_of_mem _ hid)⟩
  | replaced hphase hdone =>
    rw [Todo, hphase] at ht
    exact ⟨(List.nodup_cons.mp ht.1).2, ht.2⟩
  | moved hl hex => exact ht
  | ended hl hfailed => exact ht
  | crashed => exact ht
  | shutdown => exact ht

theorem Progress.next (h : s.Coherent) (ht : s.Todo) (hp : s.Progress id) (hn : s.Next m s') :
    s'.Progress id := by
  cases hn with
  | same m => exact hp
  | called hidle horder hvisit => exact progress_setDesiredTasks h horder hvisit id
  | cleared hphase hdone => exact progress_cleared hphase hp ht
  | returned hphase =>
    rw [Progress, hphase] at hp
    exact hp
  | vanished hphase hdesired =>
    -- the loop goes through the desired tasks only
    rw [Todo, hphase] at ht
    obtain ⟨t, hsome⟩ := ht.2 _ List.mem_cons_self
    rw [hdesired] at hsome
    cases hsome
  | added hphase hdesired hrunning =>
    exact progress_added hphase hdesired hrunning (h.desired_id _ _ hdesired) hp ht
  | kept hphase hdesired hrunning hgen => exact progress_kept hphase hdesired hrunning hgen hp ht
  | cancelled hphase hdesired hrunning hgen =>
    exact progress_cancelled hphase hdesired hrunning hgen (h.running_id _ _ hrunning) hp ht
  | replaced hphase hdone =>
    have hawaits := h.awaits
    rw [Supervisor.Awaits, hphase] at hawaits
    exact progress_replaced hphase hawaits.2 hp ht
  | moved hl hex => exact hp
  | ended hl hfailed => exact hp
  | crashed => exact hp
  | shutdown => exact hp

/-- What holds in every state of a run. -/
structure Reconciling (s : Supervisor) : Prop where
  coherent : s.Coherent
  progress : ∀ id, s.Progress id
  todo : s.Todo
  desired : s.desired = desiredOf s.tasks

theorem reconciling_new : newSupervisor.Reconciling where
  coherent := coherent_new
  progress := fun id => by
    show Settled none none none [] []
    exact .absent
  todo := trivial
  desired := rfl

theorem Reconciling.next (h : s.Reconciling) (hn : s.Next m s') : s'.Reconciling where
  coherent := h.coherent.next hn
  progress := fun id => Progress.next h.coherent h.todo (h.progress id) hn
  todo := Todo.next h.coherent h.todo hn
  desired := by
    cases hn with
    | called _ _ _ => rfl
    | same _ | cleared _ _ | returned _ | vanished _ _ | added _ _ _ | kept _ _ _ _
    | cancelled _ _ _ _ | replaced _ _ | moved _ _ | ended _ _ | crashed | shutdown =>
      exact h.desired

theorem Reconciling.step (executors : TaskType → Bool) (s : Supervisor) (m : Move)
    (h : s.Reconciling) : (s.step executors m).Reconciling :=
  h.next (s.step_next executors m)

/-- What a call has made of an id once it has returned. -/
theorem Reconciling.settled (h : s.Reconciling) (hidle : s.phase = .idle) (id : String) :
    Settled (s.before.lookup id) (lastEntry s.tasks id) (s.running.lookup id) (s.stoppedOf id)
      (s.begunOf id) := by
  have hp := h.progress id
  rw [Progress, hidle] at hp
  rw [← lookup_desiredOf, ← h.desired]
  exact hp

/-- When a call has returned, its list is what is running. -/
structure CallSettled (s : Supervisor) : Prop where
  /-- The ids are those of the list, each with the generation of its last entry. -/
  generations : ∀ id, (s.running.lookup id).map (fun rt => rt.spec.generation) =
    (lastEntry s.tasks id).map (fun t => t.generation)
  /-- What was stopped is no longer in the list, or has another generation there. -/
  stopped : ∀ rt ∈ s.stopped, ∀ t, lastEntry s.tasks rt.spec.taskID = some t →
    t.generation ≠ rt.spec.generation
  /-- A task with an unchanged generation goes on: it was neither stopped nor started. -/
  unchanged : ∀ id rt t, s.before.lookup id = some rt → lastEntry s.tasks id = some t →
    t.generation = rt.spec.generation →
      s.running.lookup id = some rt ∧ ∀ rt' ∈ s.stopped ++ s.begun, rt'.spec.taskID ≠ id

theorem Reconciling.callSettled (h : s.Reconciling) (hidle : s.phase = .idle) : s.CallSettled := by
  refine ⟨?_, ?_, ?_⟩
  · intro id
    have hs := h.settled hidle id
    generalize s.before.lookup id = before, s.stoppedOf id = stopped, s.begunOf id = begun,
      lastEntry s.tasks id = entry, s.running.lookup id = running at hs ⊢
    cases hs with
    | absent | removed | added | replaced _ => rfl
    | kept hgen => exact congrArg some hgen
  · intro rt hrt t ht
    have hmem : rt ∈ s.stoppedOf rt.spec.taskID := List.mem_filter.mpr ⟨hrt, by simp⟩
    have hs := h.settled hidle rt.spec.taskID
    rw [ht] at hs
    generalize s.stoppedOf rt.spec.taskID = stopped at hs hmem
    generalize s.before.lookup rt.spec.taskID = before, s.begunOf rt.spec.taskID = begun,
      s.running.lookup rt.spec.taskID = running at hs
    cases hs with
    | added => cases hmem
    | kept hgen => cases hmem
    | replaced hgen =>
      obtain rfl := List.mem_singleton.mp hmem
      exact Ne.symm hgen
  · intro id rt t hrt ht hgen
    have hs := h.settled hidle id
    rw [hrt, ht] at hs
    have hnone : s.running.lookup id = some rt ∧ s.stoppedOf id = [] ∧ s.begunOf id = [] := by
      generalize s.stoppedOf id = stopped, s.begunOf id = begun, s.running.lookup id = running at hs
      cases hs with
      | kept _ => exact ⟨rfl, rfl, rfl⟩
      | replaced hne => exact absurd hgen.symm hne
    refine ⟨hnone.1, ?_⟩
    intro rt' hrt' hid
    rcases List.mem_append.mp hrt' with hmem | hmem
    · have hin : rt' ∈ s.stoppedOf id := List.mem_filter.mpr ⟨hmem, by simpa using hid⟩
      rw [hnone.2.1] at hin
      cases hin
    · have hin : rt' ∈ s.begunOf id := List.mem_filter.mpr ⟨hmem, by simpa using hid⟩
      rw [hnone.2.2] at hin
      cases hin

/-! ### The record of a call -/

/-- A call can begin, and Go can go through the two maps in these orders. -/
def Accepts (s : Supervisor) (tasks : List Task) (order visit : List String) : Prop :=
  s.crashed = false ∧ s.phase = .idle ∧ Visits order s.running ∧ Visits visit (desiredOf tasks)

/-- What a step puts down about the last call. -/
structure Recorded (s : Supervisor) (m : Move) (s' : Supervisor) : Prop where
  /-- A call that begins puts down its list, and what is running. -/
  call : ∀ tasks order visit, m = .setDesiredTasks tasks order visit →
    s.Accepts tasks order visit → s'.tasks = tasks ∧ s'.before = s.running
  /-- Any other step belongs to the call before. -/
  rest : (∀ tasks order visit, m = .setDesiredTasks tasks order visit →
      ¬ s.Accepts tasks order visit) →
    s'.tasks = s.tasks ∧ s'.before = s.before ∧ s.stopped <+: s'.stopped ∧ s.begun <+: s'.begun
  /-- A goroutine that is cancelled is put down, and so is one that is started. -/
  cancelled : ∀ n l l', s.loops.lookup n = some l → s'.loops.lookup n = some l' →
    l.cancelled = false → l'.cancelled = true → { spec := l.spec, loop := n } ∈ s'.stopped
  started : ∀ n l', s.loops.lookup n = none → s'.loops.lookup n = some l' →
    { spec := l'.spec, loop := n } ∈ s'.begun

theorem step_setDesiredTasks_of_not_accepts (executors : TaskType → Bool) {tasks : List Task}
    {order visit : List String} (h : ¬ s.Accepts tasks order visit) :
    s.step executors (.setDesiredTasks tasks order visit) = s := by
  unfold Supervisor.step
  split
  · rfl
  · next hcrashed =>
    show (if _ then _ else _) = _
    rw [if_neg fun hcall => h ⟨by simpa using hcrashed, hcall⟩]

theorem Next.record (hn : s.Next m s')
    (hm : ∀ tasks order visit, m ≠ .setDesiredTasks tasks order visit) :
    s'.tasks = s.tasks ∧ s'.before = s.before ∧ s.stopped <+: s'.stopped ∧
      s.begun <+: s'.begun := by
  cases hn with
  | called _ _ _ => exact absurd rfl (hm _ _ _)
  | added _ _ _ | replaced _ _ => exact ⟨rfl, rfl, List.prefix_refl _, List.prefix_append _ _⟩
  | cancelled _ _ _ _ => exact ⟨rfl, rfl, List.prefix_append _ _, List.prefix_refl _⟩
  | same _ | cleared _ _ | returned _ | vanished _ _ | kept _ _ _ _ | moved _ _ | ended _ _
  | crashed | shutdown => exact ⟨rfl, rfl, List.prefix_refl _, List.prefix_refl _⟩

/-- A context that has been cancelled is that of one of the tasks to be stopped. -/
theorem loop_of_cancelLoops : ∀ (toStop : List RunningTask) {loops : Table Nat Loop} {n : Nat}
    {l l' : Loop}, loops.lookup n = some l →
    (toStop.foldl (fun loops rt => cancelLoop loops rt.loop) loops).lookup n = some l' →
    l.cancelled = false → l'.cancelled = true → ∃ rt ∈ toStop, rt.loop = n
  | [], _, _, _, _, hl, hl', hlive, hcancelled => by
    rw [Option.some.inj (hl.symm.trans hl'), hcancelled] at hlive
    cases hlive
  | rt :: toStop, loops, n, l, l', hl, hl', hlive, hcancelled => by
    by_cases hn : rt.loop = n
    · exact ⟨rt, List.mem_cons_self, hn⟩
    · have hsame : (cancelLoop loops rt.loop).lookup n = some l := by
        rw [cancelLoop, Table.lookup_adjust, if_neg (Ne.symm hn)]
        exact hl
      obtain ⟨rt', hrt', heq⟩ := loop_of_cancelLoops toStop hsame hl' hlive hcancelled
      exact ⟨rt', List.mem_cons_of_mem _ hrt', heq⟩

theorem Coherent.mem_of_loop (h : s.Coherent) {stopped : List RunningTask}
    (hrunning : ∀ rt ∈ stopped, ∃ id, s.running.lookup id = some rt) {n : Nat} {l : Loop}
    (hl : s.loops.lookup n = some l) (hn : ∃ rt ∈ stopped, rt.loop = n) :
    { spec := l.spec, loop := n } ∈ stopped := by
  obtain ⟨rt, hrt, rfl⟩ := hn
  obtain ⟨id, hid⟩ := hrunning rt hrt
  rw [h.spec_eq hid hl]
  exact hrt

theorem Next.cancelled_mem (hn : s.Next m s') (h : s.Coherent) {n : Nat} {l l' : Loop}
    (hl : s.loops.lookup n = some l) (hl' : s'.loops.lookup n = some l')
    (hlive : l.cancelled = false) (hcancelled : l'.cancelled = true) :
    { spec := l.spec, loop := n } ∈ s'.stopped := by
  have hsame : s'.loops.lookup n = some l → { spec := l.spec, loop := n } ∈ s'.stopped := by
    intro heq
    rw [Option.some.inj (heq.symm.trans hl'), hcancelled] at hlive
    cases hlive
  cases hn with
  | called _ _ _ =>
    refine h.mem_of_loop (fun rt hrt => ?_) hl (loop_of_cancelLoops _ hl hl' hlive hcancelled)
    obtain ⟨id, -, -, hrunning⟩ := mem_removedTasks.mp hrt
    exact ⟨id, hrunning⟩
  | @cancelled id _ _ rt _ _ hrunning _ =>
    refine List.mem_append_right _ (h.mem_of_loop (fun rt' hrt' => ?_) hl
      (loop_of_cancelLoops [rt] hl hl' hlive hcancelled))
    obtain rfl := List.mem_singleton.mp hrt'
    exact ⟨id, hrunning⟩
  | added _ _ _ | replaced _ _ =>
    rw [lookup_loops_startTask] at hl'
    split at hl'
    · obtain rfl := Option.some.inj hl'
      cases hcancelled
    · exact hsame (by rw [lookup_loops_startTask, if_neg ‹_›]; exact hl)
  | @moved k m l₀ pc _ hl₀ _ =>
    rw [Table.lookup_insert_if] at hl'
    split at hl'
    · next heq =>
      subst heq
      obtain rfl := Option.some.inj (hl₀.symm.trans hl)
      obtain rfl := Option.some.inj hl'
      rw [hlive] at hcancelled
      cases hcancelled
    · rw [Option.some.inj (hl.symm.trans hl'), hcancelled] at hlive
      cases hlive
  | @ended k _ _ _ _ _ =>
    by_cases heq : n = k
    · rw [heq, Finmap.lookup_erase] at hl'
      cases hl'
    · exact hsame (by rw [Finmap.lookup_erase_ne heq]; exact hl)
  | crashed =>
    rw [Finmap.lookup_empty] at hl'
    cases hl'
  | same _ | cleared _ _ | returned _ | vanished _ _ | kept _ _ _ _ | shutdown => exact hsame hl

theorem Next.started_mem (hn : s.Next m s') {n : Nat} {l' : Loop}
    (hl : s.loops.lookup n = none) (hl' : s'.loops.lookup n = some l') :
    { spec := l'.spec, loop := n } ∈ s'.begun := by
  have hnone : ∀ {loops : Table Nat Loop}, loops.lookup n = none → loops.lookup n ≠ some l' := by
    intro loops heq
    simp [heq]
  cases hn with
  | called _ _ _ =>
    obtain ⟨l, hold, -⟩ := spec_of_cancelLoops hl'
    exact absurd hold (by simp [hl])
  | cancelled _ _ _ _ =>
    obtain ⟨l, hold, -⟩ := spec_of_cancelLoop hl'
    exact absurd hold (by simp [hl])
  | added _ _ _ | replaced _ _ =>
    rw [lookup_loops_startTask] at hl'
    split at hl'
    · next heq =>
      obtain rfl := Option.some.inj hl'
      exact List.mem_append_right _ (by simp [heq])
    · exact absurd hl' (hnone hl)
  | @moved k m l₀ pc _ hl₀ _ =>
    have hne : n ≠ k := by
      rintro rfl
      rw [hl] at hl₀
      cases hl₀
    exact absurd hl' (hnone (by rw [Finmap.lookup_insert_of_ne _ hne]; exact hl))
  | @ended k _ _ _ _ _ =>
    by_cases heq : n = k
    · exact absurd hl' (hnone (by rw [heq]; exact Finmap.lookup_erase k _))
    · exact absurd hl' (hnone (by rw [Finmap.lookup_erase_ne heq]; exact hl))
  | crashed => exact absurd hl' (hnone (Finmap.lookup_empty n))
  | same _ | cleared _ _ | returned _ | vanished _ _ | kept _ _ _ _ | shutdown =>
    exact absurd hl' (hnone hl)

theorem Coherent.recorded (h : s.Coherent) (executors : TaskType → Bool) (m : Move) :
    s.Recorded m (s.step executors m) where
  call := by
    rintro tasks order visit rfl ⟨hcrashed, hcall⟩
    rw [Supervisor.step, if_neg (by simp [hcrashed])]
    show (if _ then _ else _ : Supervisor).tasks = _ ∧ (if _ then _ else _ : Supervisor).before = _
    rw [if_pos hcall]
    exact ⟨rfl, rfl⟩
  rest := by
    intro hrest
    cases m with
    | setDesiredTasks tasks order visit =>
      rw [step_setDesiredTasks_of_not_accepts executors (hrest _ _ _ rfl)]
      exact ⟨rfl, rfl, List.prefix_refl _, List.prefix_refl _⟩
    | proceed | loop _ _ | shutdown => exact (s.step_next executors _).record nofun
  cancelled := fun _ _ _ hl hl' => (s.step_next executors m).cancelled_mem h hl hl'
  started := fun _ _ hl hl' => (s.step_next executors m).started_mem hl hl'

end Supervisor

/-- **Reconciliation.** There is one goroutine for a task id at most, at every moment; and when a
call returns, its list is what is running. -/
theorem tasks_reconciled (executors : TaskType → Bool) (moves : List Move) :
    Throughout (Supervisor.step executors)
      (fun s =>
        (∀ n n' l l', s.loops.lookup n = some l → s.loops.lookup n' = some l' →
          l.spec.taskID = l'.spec.taskID → n = n') ∧
        (s.phase = .idle → s.CallSettled))
      newSupervisor moves ∧
    Along (Supervisor.step executors) (fun s m => s.Recorded m (s.step executors m)) newSupervisor
      moves := by
  have hinv : Throughout (Supervisor.step executors) Supervisor.Reconciling newSupervisor moves :=
    throughout_always (Supervisor.Reconciling.step executors) Supervisor.reconciling_new
  constructor
  · refine hinv.imp fun s h => ⟨?_, h.callSettled⟩
    intro n n' l l' hl hl' hid
    have hheld := h.coherent.held n l hl
    rw [hid] at hheld
    have heq := h.coherent.loop_eq hl' hheld
    exact congrArg RunningTask.loop heq
  · exact along_of_invariant (fun s m h _ => Supervisor.Reconciling.step executors s m h)
      (fun s m h _ => h.coherent.recorded executors m) Supervisor.reconciling_new
      (along_of_mem fun _ _ => trivial)

/-! A task that runs once. -/

def reflectorTask (enabled : Bool) (generation : Int64) : Task where
  taskID := "reflector"
  type := .stampReflector
  enabled := enabled
  generation := generation
  params := some (.stampReflector
    { listenPort := 862, sourceIP := "10.0.0.6", dscp := 0, requireClockSync := false })
  schedule := { enabled := false, intervalSeconds := 0, jitterPercent := 0 }

def namedTask (taskID : String) (generation : Int64) : Task :=
  { reflectorTask true generation with taskID }

/-- A call with one task, and its goroutine up to the executor. -/
def executeOnce (t : Task) : List Move :=
  [.setDesiredTasks [t] [] [t.taskID], .proceed, .proceed, .proceed, .loop 0 .begin]

/-- Three tasks, and then a list in which one of them is as before, one has a new generation, one is
missing and one is new. -/
def changedList : List Move :=
  [.setDesiredTasks [namedTask "kept" 1, namedTask "changed" 1, namedTask "removed" 1] []
      ["kept", "changed", "removed"],
    .proceed, .proceed, .proceed, .proceed, .proceed, .loop 1 .begin, .loop 2 .begin,
    .setDesiredTasks [namedTask "changed" 2, namedTask "new" 1, namedTask "kept" 1]
      ["removed", "kept", "changed"] ["kept", "new", "changed"],
    .loop 2 (.executed .inserted), .proceed, .proceed, .proceed, .proceed,
    .loop 1 (.executed .failed), .proceed, .proceed]

theorem changedList_reconciled :
    let s := run (Supervisor.step fun _ => true) newSupervisor changedList
    s.phase = .idle ∧ s.CallSettled ∧
      s.tasks = [namedTask "changed" 2, namedTask "new" 1, namedTask "kept" 1] ∧
      s.stopped = [{ spec := namedTask "removed" 1, loop := 2 },
        { spec := namedTask "changed" 1, loop := 1 }] ∧
      s.begun = [{ spec := namedTask "new" 1, loop := 3 },
        { spec := namedTask "changed" 2, loop := 4 }] ∧
      s.running.lookup "kept" = some { spec := namedTask "kept" 1, loop := 0 } :=
  ⟨by decide +kernel,
    (tasks_reconciled (fun _ => true) changedList).1.last.2 (by decide +kernel),
    by decide +kernel, by decide +kernel, by decide +kernel, by decide +kernel⟩

end Cepheus.Agent
