import Cepheus.Infra.Traverse
import Cepheus.Dashboard.Tasks

/-!
# Ids of new tasks

`ensure_unique` tries one candidate after the other, without a bound. It always finds one that is
not in use, the first one from where it starts (`ensureUnique_firstFree`). So a list of rows that
pass their checks becomes a list of tasks whose ids are all different and none of which was read
from the table, whatever their targets are (`fresh_task_ids`).
-/

namespace Cepheus.Dashboard

open Infra

/-! ## One id -/

theorem ensureUnique_firstFree (base : String) (used : Finset String) (n : Int) :
    ∃ m, FirstFree (candidate base) used n m ∧ ensureUnique base used n = candidate base m :=
  exists_fresh_eq (candidate_injective base) used n

theorem ensureUnique_notMem (base : String) (used : Finset String) (n : Int) :
    ensureUnique base used n ∉ used :=
  fresh_notMem (candidate_injective base) used n

theorem ensureUniqueLoop_returns (base : String) (used : Finset String) (n : Int) :
    (ensureUniqueLoop base used).Returns n (ensureUnique base used n) :=
  returns_fresh (candidate_injective base) used n

/-! ## One task -/

variable (inspect : String → String)

/-- The row passes its checks. -/
def Row.Valid (row : Row) : Prop :=
  ∃ type port interval, validateType inspect row.type = .ok type ∧
    validateTarget type (trim (row.target.getD "")) = .ok () ∧
    validatePort type row.port = .ok port ∧ validateInterval type row.interval = .ok interval

variable {inspect}

/-- The tasks of a row differ in their ids only, whatever is in use. -/
theorem buildTask_eq_ok_iff {row : Row} {used : Finset String} {task : Task} :
    buildTask inspect row used = .ok task ↔
      ∃ type port interval, validateType inspect row.type = .ok type ∧
        validateTarget type (trim (row.target.getD "")) = .ok () ∧
        validatePort type row.port = .ok port ∧
        validateInterval type row.interval = .ok interval ∧
        { (taskSpec type (trim (row.target.getD "")) port interval).2 with
          taskID := uniqueTaskID type (trim (row.target.getD "")) port used
          type
          params := (taskSpec type (trim (row.target.getD "")) port interval).1 } = task := by
  simp only [buildTask, bind_eq_ok_iff, pure, Except.pure, Except.ok.injEq]
  constructor
  · rintro ⟨type, htype, ⟨⟩, htarget, port, hport, interval, hinterval, rfl⟩
    exact ⟨type, port, interval, htype, htarget, hport, hinterval, rfl⟩
  · rintro ⟨type, port, interval, htype, htarget, hport, hinterval, rfl⟩
    exact ⟨type, htype, (), htarget, port, hport, interval, hinterval, rfl⟩

theorem Row.Valid.buildTask {row : Row} (h : row.Valid inspect) (used : Finset String) :
    ∃ task, buildTask inspect row used = .ok task := by
  obtain ⟨type, port, interval, htype, htarget, hport, hinterval⟩ := h
  exact ⟨_, buildTask_eq_ok_iff.mpr
    ⟨type, port, interval, htype, htarget, hport, hinterval, rfl⟩⟩

theorem taskID_buildTask_notMem {row : Row} {used : Finset String} {task : Task}
    (h : buildTask inspect row used = .ok task) : task.taskID ∉ used := by
  obtain ⟨type, port, interval, -, -, -, -, rfl⟩ := buildTask_eq_ok_iff.mp h
  exact ensureUnique_notMem _ used 1

/-! ## All tasks -/

/-- Tasks whose ids are all different, and none of them in use. -/
structure Fresh (used : Finset String) (tasks : List Task) : Prop where
  nodup : (tasks.map (·.taskID)).Nodup
  unused : ∀ t ∈ tasks, t.taskID ∉ used

theorem Fresh.nil (used : Finset String) : Fresh used [] :=
  ⟨List.nodup_nil, fun _ ht => absurd ht List.not_mem_nil⟩

/-- One task more, whose id is then in use. -/
theorem Fresh.cons {used : Finset String} {task : Task} {tasks : List Task}
    (htask : task.taskID ∉ used) (h : Fresh (insert task.taskID used) tasks) :
    Fresh used (task :: tasks) where
  nodup := by
    rw [List.map_cons, List.nodup_cons]
    refine ⟨fun hmem => ?_, h.nodup⟩
    obtain ⟨t, ht, heq⟩ := List.mem_map.mp hmem
    exact h.unused t ht (heq ▸ Finset.mem_insert_self ..)
  unused := by
    intro t ht
    rcases List.mem_cons.mp ht with rfl | ht
    · exact htask
    · exact fun hused => h.unused t ht (Finset.mem_insert_of_mem hused)

theorem buildLoop_fresh {rows : List Row} :
    ∀ {acc tasks : List Task} {used : Finset String}, buildLoop inspect rows acc used = .ok tasks →
      ∃ new, tasks = acc.reverse ++ new ∧ new.length = rows.length ∧ Fresh used new := by
  induction rows with
  | nil =>
    intro acc tasks used h
    obtain rfl := Except.ok.inj h
    exact ⟨[], (List.append_nil _).symm, rfl, Fresh.nil used⟩
  | cons row rows ih =>
    intro acc tasks used h
    rw [buildLoop] at h
    cases hrow : buildTask inspect row used with
    | error message =>
      rw [hrow] at h
      cases h
    | ok task =>
      rw [hrow] at h
      obtain ⟨new, rfl, hlen, hfresh⟩ := ih h
      refine ⟨task :: new, ?_, ?_, hfresh.cons (taskID_buildTask_notMem hrow)⟩
      · rw [List.reverse_cons, List.append_assoc, List.singleton_append]
      · rw [List.length_cons, List.length_cons, hlen]

theorem buildLoop_of_valid {rows : List Row} (h : ∀ row ∈ rows, row.Valid inspect) :
    ∀ (acc : List Task) (used : Finset String),
      ∃ tasks, buildLoop inspect rows acc used = .ok tasks := by
  induction rows with
  | nil => exact fun acc _ => ⟨acc.reverse, rfl⟩
  | cons row rows ih =>
    intro acc used
    obtain ⟨hrow, hrows⟩ := List.forall_mem_cons.mp h
    obtain ⟨task, htask⟩ := hrow.buildTask used
    rw [buildLoop, htask]
    exact ih hrows _ _

/-- What `build_tasks` returns is fresh. -/
theorem buildTasks_fresh {rows : List Row} {existing : List String} {tasks : List Task}
    (h : buildTasks inspect rows existing = .ok tasks) :
    tasks.length = rows.length ∧ Fresh existing.toFinset tasks := by
  cases rows with
  | nil => cases h
  | cons row rows =>
    have h : buildLoop inspect (row :: rows) [] existing.toFinset = .ok tasks := h
    obtain ⟨new, rfl, hlen, hfresh⟩ := buildLoop_fresh h
    exact ⟨hlen, hfresh⟩

/--
**The search for an id ends, and what it finds is new.**

From every base, set of used ids and number to start with, `ensure_unique` returns the first
candidate that is not in the set. For every list of rows that pass their checks `build_tasks`
returns one task for each row, with ids that are all different and none of which it has read; of no
rows it makes no tasks.
-/
theorem fresh_task_ids (inspect : String → String) :
    (∀ (base : String) (used : Finset String) (n : Int),
      (ensureUniqueLoop base used).Returns n (ensureUnique base used n) ∧
        ∃ m, FirstFree (candidate base) used n m ∧
          ensureUnique base used n = candidate base m) ∧
    ∀ (rows : List Row) (existing : List String), (∀ row ∈ rows, row.Valid inspect) →
      if rows = [] then
        buildTasks inspect rows existing = .error "Add at least one task before saving."
      else
        ∃ tasks, buildTasks inspect rows existing = .ok tasks ∧ tasks.length = rows.length ∧
          (tasks.map (·.taskID)).Nodup ∧ ∀ t ∈ tasks, t.taskID ∉ existing := by
  refine ⟨fun base used n => ?_, fun rows existing hvalid => ?_⟩
  · exact ⟨ensureUniqueLoop_returns base used n, ensureUnique_firstFree base used n⟩
  split
  case isTrue hnil => rw [hnil, buildTasks]
  case isFalse hne =>
    obtain ⟨row, rows, rfl⟩ := List.exists_cons_of_ne_nil hne
    obtain ⟨tasks, htasks⟩ := buildLoop_of_valid hvalid [] existing.toFinset
    have htasks : buildTasks inspect (row :: rows) existing = .ok tasks := htasks
    obtain ⟨hlen, hfresh⟩ := buildTasks_fresh htasks
    refine ⟨tasks, htasks, hlen, hfresh.nodup, fun t ht hmem => ?_⟩
    exact hfresh.unused t ht (List.mem_toFinset.mpr hmem)

/-- Two targets with one base, and a base with a suffix that is in use. -/
example :
    (buildTasks id
        [ { type := "ping", target := some "10.0.0.1", port := none, interval := some "" },
          { type := "ping", target := some " 10:0:0:1 ", port := none, interval := some "30" } ]
        ["ping-10-0-0-1-2"]).toOption.map (·.map (·.taskID)) =
      some ["ping-10-0-0-1", "ping-10-0-0-1-3"] := by
  decide +kernel

end Cepheus.Dashboard
