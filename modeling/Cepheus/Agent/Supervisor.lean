import Cepheus.Infra.Run
import Cepheus.Infra.Table
import Cepheus.Agent.DataStream
import Cepheus.Agent.Domain

/-!
# The supervisor of the agent

`services/agent/supervisor_tasks.go`, `supervisor_reconciler.go` and `task.go`: `SetDesiredTasks`,
the reconciliation that it starts, and the goroutines of the tasks, each with its loop.

The goroutines go on while a call of `SetDesiredTasks` is in progress, so the call is taken apart at
the places where it waits for them. The order in which Go goes through a map is part of the move.

A panic in a goroutine, of `computeJitter`, of `time.NewTicker` or of `Insert`, ends the whole
agent.
-/

namespace Cepheus.Agent

open Infra

/-! ## The loop of a task -/

/-- `time.Duration(IntervalSeconds) * time.Second`. -/
def TaskSchedule.interval (s : TaskSchedule) : Int64 := s.intervalSeconds * 1000000000

/-- `rand.Int63n`: a random number from zero up to a bound. It panics if the bound is not
positive. -/
def int63n (draw : Nat) (n : Int64) : Option Int64 :=
  if n ≤ 0 then none else some (Int64.ofNat (draw % n.toNatClampNeg))

/-- `none` is a panic. -/
def computeJitter (draw : Nat) (interval jitterPerc : Int64) : Option Int64 :=
  if jitterPerc ≤ 0 then some interval
  else do
    let maxJitter := interval * jitterPerc / 100
    let r ← int63n draw (maxJitter * 2)
    let jitter := r - maxJitter
    some (interval + jitter)

/-- `computeJitter` draws a random number below a bound, and panics if the bound is not positive. -/
def computeJitterPanics (interval jitterPerc : Int64) : Bool :=
  0 < jitterPerc && interval * jitterPerc / 100 * 2 ≤ 0

/-- Whether it panics does not depend on the random number. -/
theorem computeJitter_eq_none_iff (draw : Nat) (interval jitterPerc : Int64) :
    computeJitter draw interval jitterPerc = none ↔ computeJitterPanics interval jitterPerc := by
  unfold computeJitter computeJitterPanics int63n
  by_cases hperc : jitterPerc ≤ 0
  · simp [hperc]
  · by_cases hbound : interval * jitterPerc / 100 * 2 ≤ 0
    · simp [hperc, hbound, Int64.not_le.mp hperc]
    · simp [hperc, hbound]

/-- Where a loop is. -/
inductive LoopPc where
  | fresh
  /-- Waiting for the first run of a schedule. -/
  | delaying
  /-- In `Execute`. -/
  | executing
  /-- Waiting for the ticker. -/
  | ticking
deriving DecidableEq, Repr

structure Loop where
  spec : Task
  cancelled : Bool
  pc : LoopPc
deriving DecidableEq, Repr

/-- What becomes of a loop. -/
inductive LoopNext where
  | goes (pc : LoopPc)
  /-- It returns, and whether it does because of an error of the executor. -/
  | ends (failed : Bool)
  | panics
deriving DecidableEq, Repr

/-- How an execution ends. -/
inductive Executed where
  /-- `Execute` returns an error. -/
  | failed
  /-- It returns a result, and `Insert` returns. -/
  | inserted
  /-- It returns a result, and `Insert` panics. -/
  | overflowed
deriving DecidableEq, Repr

/-- What `runOnce` sees of a call of `Insert`. It ignores the answer. -/
def Inserted.executed {R : Type} : Inserted R → Executed
  | .panics => .overflowed
  | .buffered _ | .handed | .refused => .inserted

/-- What happens to a loop. -/
inductive LoopMove where
  | begin
  /-- The delay is over, or the ticker ticks. -/
  | fire
  /-- `Execute` returns, and then `Insert`. -/
  | executed (outcome : Executed)
  /-- The loop finds its context done. -/
  | exit
deriving DecidableEq, Repr

section

variable (executors : TaskType → Bool)

/-- After `runOnce`. The first run of a schedule is followed by `time.NewTicker`. -/
def Loop.afterRun (l : Loop) (failed : Bool) : LoopNext :=
  if !l.spec.schedule.enabled then .ends failed
  else if l.spec.schedule.interval ≤ 0 then .panics
  else .goes .ticking

/-- The end of `runOnce`, from the return of `Execute`. -/
def Loop.executed (l : Loop) : Executed → LoopNext
  | .failed => l.afterRun true
  | .inserted => l.afterRun false
  | .overflowed => .panics

/-- `runOnce`, up to the call of `Execute`. -/
def Loop.runOnce (l : Loop) : LoopNext :=
  if executors l.spec.type then .goes .executing else l.afterRun false

/-- The start of `startTaskLoop`. -/
def Loop.begin (l : Loop) : LoopNext :=
  if l.spec.params = none then .ends false
  else if l.spec.schedule.interval < 0 then .ends false
  else if !l.spec.schedule.enabled then l.runOnce executors
  else if computeJitterPanics l.spec.schedule.interval l.spec.schedule.jitterPercent then .panics
  else .goes .delaying

def Loop.next (l : Loop) (done : Bool) : LoopMove → LoopNext
  | .begin =>
    match l.pc with
    | .fresh => l.begin executors
    | pc => .goes pc
  | .fire =>
    match l.pc with
    | .delaying | .ticking => l.runOnce executors
    | pc => .goes pc
  | .executed outcome =>
    match l.pc with
    | .executing => l.executed outcome
    | pc => .goes pc
  | .exit =>
    match l.pc with
    | .delaying | .ticking => if l.cancelled || done then .ends false else .goes l.pc
    | pc => .goes pc

end

/-! ## The supervisor -/

structure RunningTask where
  spec : Task
  /-- The goroutine. -/
  loop : Nat
deriving DecidableEq, Repr

/-- Where a call of `SetDesiredTasks` is. -/
inductive Phase where
  | idle
  /-- Waiting for the removed tasks to stop, with the desired ones to be gone through afterwards. -/
  | stopping (toStop : List RunningTask) (visit : List String)
  /-- In the loop over the desired tasks. -/
  | starting (visit : List String)
  /-- Waiting for a task to stop that is to be started again. -/
  | restarting (id : String) (running : RunningTask) (desired : Task) (visit : List String)
deriving DecidableEq, Repr

structure Supervisor where
  desired : Table String Task
  running : Table String RunningTask
  /-- The goroutines that have not returned. -/
  loops : Table Nat Loop
  /-- How many goroutines have been started. -/
  started : Nat
  phase : Phase
  ctxDone : Bool
  crashed : Bool
  /-- The list of the last call, and what was running before it. -/
  tasks : List Task
  before : Table String RunningTask
  /-- What the last call has stopped and started so far. -/
  stopped : List RunningTask
  begun : List RunningTask
  /-- The goroutines that have returned because of an error of their executor; and those of them
  that had done so before the last call. -/
  failed : List Nat
  failedBefore : List Nat
  /-- Every call of `Execute`, with the entry that was desired for the task at that time. -/
  executions : List (Task × Option Task)

def newSupervisor : Supervisor where
  desired := ∅
  running := ∅
  loops := ∅
  started := 0
  phase := .idle
  ctxDone := false
  crashed := false
  tasks := []
  before := ∅
  stopped := []
  begun := []
  failed := []
  failedBefore := []
  executions := []

/-- The map that `SetDesiredTasks` makes of its list. -/
def desiredOf (tasks : List Task) : Table String Task :=
  tasks.foldl (fun desired t => desired.insert t.taskID t) ∅

/-- An order in which Go may go through a map. -/
def Visits {V : Type} (order : List String) (m : Table String V) : Prop :=
  order.Nodup ∧ order.toFinset = m.keys

instance {V : Type} (order : List String) (m : Table String V) : Decidable (Visits order m) :=
  inferInstanceAs (Decidable (_ ∧ _))

/-- The running tasks that are no longer desired. -/
def removedTasks (running : Table String RunningTask) (desired : Table String Task)
    (order : List String) : List RunningTask :=
  order.filterMap fun id => if desired.lookup id = none then running.lookup id else none

/-- Cancel the context of a goroutine. -/
def cancelLoop (loops : Table Nat Loop) (n : Nat) : Table Nat Loop :=
  loops.adjust n fun l => { l with cancelled := true }

/-- `SetDesiredTasks`, up to the place where `reconcile` waits for the removed tasks. -/
def Supervisor.setDesiredTasks (s : Supervisor) (tasks : List Task) (order visit : List String) :
    Supervisor :=
  let desired := desiredOf tasks
  let toStop := removedTasks s.running desired order
  { s with
    desired
    phase := .stopping toStop visit
    loops := toStop.foldl (fun loops rt => cancelLoop loops rt.loop) s.loops
    tasks
    before := s.running
    stopped := toStop
    begun := []
    failedBefore := s.failed }

/-- `delete` for every task that has been stopped. -/
def deleteStopped (running : Table String RunningTask) (toStop : List RunningTask) :
    Table String RunningTask :=
  toStop.foldl (fun running rt => running.erase rt.spec.taskID) running

def Supervisor.startTask (s : Supervisor) (id : String) (spec : Task) : Supervisor :=
  let rt : RunningTask := { spec, loop := s.started }
  { s with
    loops := s.loops.insert s.started { spec, cancelled := false, pc := .fresh }
    running := s.running.insert id rt
    started := s.started + 1
    begun := s.begun ++ [rt] }

/-- An iteration of the loop over the desired tasks, up to the place where it waits for a task. -/
def Supervisor.visit (s : Supervisor) (id : String) (visit : List String) : Supervisor :=
  match s.desired.lookup id with
  | none => { s with phase := .starting visit }
  | some desired =>
    match s.running.lookup id with
    | none => { s.startTask id desired with phase := .starting visit }
    | some running =>
      if running.spec.generation = desired.generation then { s with phase := .starting visit }
      else
        { s with
          phase := .restarting id running desired visit
          loops := cancelLoop s.loops running.loop
          stopped := s.stopped ++ [running] }

/-- The call of `SetDesiredTasks` goes on, if it does not have to wait. -/
def Supervisor.proceed (s : Supervisor) : Supervisor :=
  match s.phase with
  | .idle => s
  | .stopping toStop visit =>
    if ∀ rt ∈ toStop, s.loops.lookup rt.loop = none then
      { s with running := deleteStopped s.running toStop, phase := .starting visit }
    else s
  | .starting [] => { s with phase := .idle }
  | .starting (id :: visit) => s.visit id visit
  | .restarting id running desired visit =>
    if s.loops.lookup running.loop = none then
      { s.startTask id desired with phase := .starting visit }
    else s

inductive Move where
  /-- A call of `SetDesiredTasks`, with the orders of the two loops over a map. -/
  | setDesiredTasks (tasks : List Task) (order visit : List String)
  | proceed
  /-- Something happens to a goroutine. -/
  | loop (n : Nat) (m : LoopMove)
  /-- The context of the supervisor is done. -/
  | shutdown
deriving DecidableEq, Repr

section

variable (executors : TaskType → Bool)

def Supervisor.moveLoop (s : Supervisor) (n : Nat) (m : LoopMove) : Supervisor :=
  match s.loops.lookup n with
  | none => s
  | some l =>
    match l.next executors s.ctxDone m with
    | .goes pc =>
      { s with
        loops := s.loops.insert n { l with pc }
        executions :=
          if pc = .executing ∧ l.pc ≠ .executing then
            s.executions ++ [(l.spec, s.desired.lookup l.spec.taskID)]
          else s.executions }
    | .ends failed =>
      { s with
        loops := s.loops.erase n
        failed := if failed then s.failed ++ [n] else s.failed }
    | .panics => { s with loops := ∅, crashed := true }

def Supervisor.step (s : Supervisor) (m : Move) : Supervisor :=
  if s.crashed then s
  else
    match m with
    | .setDesiredTasks tasks order visit =>
      if s.phase = .idle ∧ Visits order s.running ∧ Visits visit (desiredOf tasks) then
        s.setDesiredTasks tasks order visit
      else s
    | .proceed => s.proceed
    | .loop n m => s.moveLoop executors n m
    | .shutdown => { s with ctxDone := true }

end

end Cepheus.Agent
