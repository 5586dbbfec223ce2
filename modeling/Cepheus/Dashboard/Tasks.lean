import Cepheus.Infra.Text
import Cepheus.Infra.Fresh
import Cepheus.Infra.Json

/-!
# The task editor

The rows that a session of `DeviceLive` has queued become tasks: `build_tasks` and what it calls in
`frontend/lib/cepheus_web/live/device_live.ex`, with the properties of the task types from
`frontend/lib/cepheus/dashboard.ex`. A `MapSet` is a finite set, the integers have no bound.
-/

namespace Cepheus.Dashboard

open Infra

/-! ## Task types -/

/-- The types that can be selected. -/
inductive TaskType where
  | trace
  | ping
  | stampSender
  | stampReflector
deriving DecidableEq, Repr

namespace TaskType

def value : TaskType → String
  | trace => "trace"
  | ping => "ping"
  | stampSender => "stamp-sender"
  | stampReflector => "stamp-reflector"

/-- `task_type_label`. -/
def label : TaskType → String
  | trace => "Traceroute"
  | ping => "Ping"
  | stampSender => "STAMP sender"
  | stampReflector => "STAMP reflector"

/-- `task_has_target?`. -/
def hasTarget : TaskType → Bool
  | stampReflector => false
  | _ => true

/-- `task_has_port?`. -/
def hasPort : TaskType → Bool
  | stampSender | stampReflector => true
  | _ => false

/-- `task_schedulable?`. -/
def schedulable : TaskType → Bool
  | stampReflector => false
  | _ => true

def defaultInterval : TaskType → Int
  | trace => 40
  | ping => 20
  | stampSender => 10
  | stampReflector => 30

end TaskType

def taskTypes : List TaskType := [.trace, .ping, .stampSender, .stampReflector]

/-! ## Texts -/

/-- Without the letters in front and at the end that are to be trimmed. -/
def trimBy (p : Char → Bool) (s : List Char) : List Char :=
  ((s.dropWhile p).reverse.dropWhile p).reverse

/-- The characters that `String.trim` takes for white space. -/
def whitespace (c : Char) : Bool :=
  let n := c.toNat
  (9 ≤ n && n ≤ 13) || n == 32 || n == 0x85 || n == 0xa0 || n == 0x1680 ||
    (0x2000 ≤ n && n ≤ 0x200a) || n == 0x2028 || n == 0x2029 || n == 0x202f || n == 0x205f ||
    n == 0x3000

/-- `String.trim/1`. -/
def trim (s : String) : String := String.ofList (trimBy whitespace s.toList)

/-- `Integer.parse`: the number in front of the text, and the rest of it. -/
def integerParse (s : String) : Option (Int × List Char) :=
  let signed (sign : Int) (cs : List Char) : Option (Int × List Char) :=
    match cs.takeWhile Char.isDigit with
    | [] => none
    | digits =>
      some (sign * digits.foldl (fun n c => 10 * n + (c.toNat - 48 : Int)) 0,
        cs.dropWhile Char.isDigit)
  match s.toList with
  | '-' :: cs => signed (-1) cs
  | '+' :: cs => signed 1 cs
  | cs => signed 1 cs

/-- The letters of a target. -/
def targetChar (c : Char) : Bool :=
  c.isAlphanum || c == '.' || c == '_' || c == ':' || c == '-'

/-- The letters that a task id has of a target. -/
def idChar (c : Char) : Bool := c.isLower || c.isDigit

/-- Every run of other letters becomes one dash. The first argument says that such a run goes on. -/
def dashes : Bool → List Char → List Char
  | _, [] => []
  | inRun, c :: cs =>
    if idChar c then c :: dashes false cs
    else if inRun then dashes true cs
    else '-' :: dashes true cs

/-- `sanitize_target`. A target that has passed its check is ASCII, so `String.downcase` changes
letters of ASCII only. -/
def sanitizeTarget (target : String) : String :=
  String.ofList (trimBy (· == '-') (dashes false (target.toList.map Char.toLower)))

/-! ## Rows -/

/-- A row of the form. What is `nil` or empty in it has been left open. -/
structure Row where
  type : String
  target : Option String
  port : Option String
  interval : Option String
deriving DecidableEq, Repr

structure Schedule where
  scheduleEnabled : Bool
  scheduleIntervalSeconds : Int
  scheduleJitterPercent : Int
deriving DecidableEq, Repr

/-- A task as `build_task` returns it. -/
structure Task extends Schedule where
  taskID : String
  type : TaskType
  params : Json
deriving Repr

/-- With `Kernel.inspect`. -/
def validateType (inspect : String → String) (type : String) : Except String TaskType :=
  match taskTypes.find? (·.value = type) with
  | some t => .ok t
  | none => .error ("Unknown task type " ++ inspect type ++ ".")

/-- `Regex.match?(~r/^[A-Za-z0-9._:\-]+$/, target)`. The end also matches before a last newline. -/
def targetMatches (target : String) : Bool :=
  let letters := target.toList
  let body := if letters.getLast? = some '\n' then letters.dropLast else letters
  !body.isEmpty && body.all targetChar

def validateTarget (type : TaskType) (target : String) : Except String Unit :=
  if !type.hasTarget then .ok ()
  else if target = "" then .error (type.label ++ ": a target is required.")
  else if targetMatches target then .ok ()
  else .error (type.label ++ ": " ++ target ++ " is not a valid target.")

def validatePort (type : TaskType) (raw : Option String) : Except String (Option Int) :=
  if type.hasPort then
    let value := trim (raw.getD "")
    let value := if value = "" then "862" else value
    let refused := .error (type.label ++ ": port must be between 1 and 65535.")
    match integerParse value with
    | some (n, []) => if 1 ≤ n ∧ n ≤ 65535 then .ok (some n) else refused
    | _ => refused
  else .ok none

def validateInterval (type : TaskType) (raw : Option String) : Except String Int :=
  if type.schedulable then
    let value := trim (raw.getD "")
    if value = "" then .ok type.defaultInterval
    else
      let refused := .error (type.label ++ ": interval must be a positive number of seconds.")
      match integerParse value with
      | some (n, []) => if 0 < n then .ok n else refused
      | _ => refused
  else .ok 0

/-! ## Task ids -/

/-- The candidates of `ensure_unique`. -/
def candidate (base : String) (n : Int) : String :=
  if n = 1 then base else base ++ "-" ++ toString n

theorem candidate_injective (base : String) : Function.Injective (candidate base) := by
  -- a candidate with a number is longer than the base by the dash at least
  have hlonger : ∀ n : Int, base ++ "-" ++ toString n ≠ base := by
    intro n h
    have hlen := congrArg String.length h
    simp only [String.length_append] at hlen
    have hdash : "-".length = 1 := by decide
    omega
  intro n m h
  unfold candidate at h
  split at h
  case isTrue hn =>
    split at h
    case isTrue hm => rw [hn, hm]
    case isFalse hm => exact absurd h.symm (hlonger m)
  case isFalse hn =>
    split at h
    case isTrue hm => exact absurd h (hlonger n)
    case isFalse hm =>
      have hlist := congrArg String.toList h
      simp only [String.toList_append] at hlist
      have hnumber : toString n = toString m :=
        String.toList_injective (List.append_cancel_left hlist)
      rw [Int.toString_eq_repr, Int.toString_eq_repr] at hnumber
      exact Int.repr_injective hnumber

/-- The calls of `ensure_unique` to itself, as a loop. -/
def ensureUniqueLoop (base : String) (used : Finset String) : Loop Int String :=
  search (candidate base) used

/-- What `ensure_unique` returns. -/
def ensureUnique (base : String) (used : Finset String) (n : Int) : String :=
  fresh (candidate_injective base) used n

/-- `ensure_unique` as it is written. -/
theorem ensureUnique_eq (base : String) (used : Finset String) (n : Int) :
    ensureUnique base used n =
      if candidate base n ∈ used then ensureUnique base used (n + 1) else candidate base n :=
  fresh_eq (candidate_injective base) used n

def taskIDBase (type : TaskType) (target : String) (port : Option Int) : String :=
  match type with
  | .stampReflector => "stamp-reflector-" ++ port.elim "" toString
  | type => type.value ++ "-" ++ sanitizeTarget target

def uniqueTaskID (type : TaskType) (target : String) (port : Option Int)
    (used : Finset String) : String :=
  ensureUnique (taskIDBase type target port) used 1

/-! ## Tasks -/

/-- An integer of the parameters. -/
def int (n : Int) : Json := .number { mantissa := n, scale := 0 }

/-- `nil` of Elixir is `null`. -/
def portJson (port : Option Int) : Json := port.elim .null int

/-- The schedule of a task that is run again and again. -/
def every (interval : Int) : Schedule :=
  { scheduleEnabled := true, scheduleIntervalSeconds := interval, scheduleJitterPercent := 10 }

/-- `task_spec`. -/
def taskSpec (type : TaskType) (target : String) (port : Option Int) (interval : Int) :
    Json × Schedule :=
  match type with
  | .trace =>
    (.object [("target", .string target), ("method", .string "icmp-paris")], every interval)
  | .ping =>
    (.object [("target", .string target), ("count", int 5), ("size", int 64)], every interval)
  | .stampSender =>
    (.object
      [("target", .string target), ("target_port", portJson port), ("dscp", int 0),
        ("require_clock_sync", .bool false), ("packet_count", int 20),
        ("packet_interval", int 100000000)],
      every interval)
  | .stampReflector =>
    (.object
      [("listen_port", portJson port), ("dscp", int 0), ("require_clock_sync", .bool false)],
      { scheduleEnabled := false, scheduleIntervalSeconds := 0, scheduleJitterPercent := 0 })

section

variable (inspect : String → String)

def buildTask (row : Row) (used : Finset String) : Except String Task := do
  let target := trim (row.target.getD "")
  let type ← validateType inspect row.type
  validateTarget type target
  let port ← validatePort type row.port
  let interval ← validateInterval type row.interval
  let (params, schedule) := taskSpec type target port interval
  let taskID := uniqueTaskID type target port used
  return { schedule with taskID, type, params }

/-- The fold of `build_tasks` over the rows: the tasks so far, the last one first, and the ids in
use. -/
def buildLoop : List Row → List Task → Finset String → Except String (List Task)
  | [], acc, _ => .ok acc.reverse
  | row :: rows, acc, used =>
    match buildTask inspect row used with
    | .ok task => buildLoop rows (task :: acc) (insert task.taskID used)
    | .error message => .error message

/-- `build_tasks`, with the ids that it has read. -/
def buildTasks (rows : List Row) (existing : List String) : Except String (List Task) :=
  match rows with
  | [] => .error "Add at least one task before saving."
  | rows => buildLoop inspect rows [] existing.toFinset

end

end Cepheus.Dashboard
