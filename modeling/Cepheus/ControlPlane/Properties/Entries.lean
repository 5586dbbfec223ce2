import Cepheus.Infra.JsonFields
import Cepheus.ControlPlane.Properties.Loading
import Cepheus.Dashboard.Sessions
import Cepheus.Dashboard.Properties.FreshIds

/-!
# From the form to the agent

A row of the form that passes its checks asks for a task (`Row.Asks`). The session makes a task of
it with parameters in JSON, the transaction makes a row of the table of that, the server reads the
JSON and makes a message of the row, and the agent reads the message. What comes out in the end is
what was asked for (`received_insertRow`): nothing is refused on the way, cut off or changed.
-/

namespace Cepheus.ControlPlane

open Infra Server Dashboard

/-- What a row of the form asks for. -/
structure Entry where
  type : Dashboard.TaskType
  target : String
  port : Option Int
  interval : Int

variable (inspect : String → String) in
/-- The row passes its checks and asks for this. -/
structure Asks (row : Dashboard.Row) (e : Entry) : Prop where
  type : validateType inspect row.type = .ok e.type
  trimmed : e.target = trim (row.target.getD "")
  target : validateTarget e.type e.target = .ok ()
  port : validatePort e.type row.port = .ok e.port
  interval : validateInterval e.type row.interval = .ok e.interval

/-- The type in the domain of the agent. -/
def agentType : Dashboard.TaskType → Agent.TaskType
  | .trace => .trace
  | .ping => .ping
  | .stampSender => .stampSender
  | .stampReflector => .stampReflector

namespace Entry

variable (e : Entry)

/-- The port, or zero where there is none. -/
def portNumber : Int64 := Int64.ofInt (e.port.getD 0)

/-- The parameters of the task that is asked for. -/
def params : Agent.TaskParams :=
  match e.type with
  | .trace => .trace
    { target := e.target
      sourceIP := ""
      method := "icmp-paris"
      maxTTL := 0
      firstTTL := 0
      dscp := 0
      waitSeconds := 0 }
  | .ping => .ping
    { target := e.target
      sourceIP := ""
      count := 5
      size := 64
      dscp := 0
      timeout := 0 }
  | .stampSender => .stampSender
    { target := e.target
      targetPort := e.portNumber
      sourceIP := ""
      dscp := 0
      requireClockSync := false
      packetCount := 20
      packetInterval := 100000000 }
  | .stampReflector => .stampReflector
    { listenPort := e.portNumber
      sourceIP := ""
      dscp := 0
      requireClockSync := false }

/-- The task that is asked for, under an id and in a generation of the configuration. -/
def task (taskID : String) (generation : Int32) : Agent.Task where
  taskID
  type := agentType e.type
  enabled := true
  generation := generation.toInt64
  params := some e.params
  schedule :=
    { enabled := e.type.schedulable
      intervalSeconds := Int64.ofInt e.interval
      jitterPercent := if e.type.schedulable then 10 else 0 }

end Entry

variable {inspect : String → String} {row : Dashboard.Row} {e : Entry}

theorem Asks.port_bounds (h : Asks inspect row e) :
    if e.type.hasPort then ∃ n, e.port = some n ∧ 1 ≤ n ∧ n ≤ 65535 else e.port = none := by
  have hport := h.port
  unfold validatePort at hport
  split at hport
  · next hhas =>
    rw [if_pos hhas]
    simp only at hport
    split at hport
    · split at hport
      · next n _ hbounds => exact ⟨n, (Except.ok.inj hport).symm, hbounds⟩
      · cases hport
    · cases hport
  · next hhas =>
    rw [if_neg hhas]
    exact (Except.ok.inj hport).symm

theorem Asks.interval_pos (h : Asks inspect row e) :
    if e.type.schedulable then 0 < e.interval else e.interval = 0 := by
  have hinterval := h.interval
  unfold validateInterval at hinterval
  split at hinterval
  · next hsched =>
    rw [if_pos hsched]
    simp only at hinterval
    split at hinterval
    · rw [← Except.ok.inj hinterval]
      cases e.type <;> decide
    · split at hinterval
      · split at hinterval
        · next hpos => rwa [← Except.ok.inj hinterval]
        · cases hinterval
      · cases hinterval
  · next hsched =>
    rw [if_neg hsched]
    exact (Except.ok.inj hinterval).symm

theorem getLast?_trimBy_ne {p : Char → Bool} {c : Char} (hc : p c = true) (s : List Char) :
    (trimBy p s).getLast? ≠ some c := by
  intro hlast
  rw [trimBy, List.getLast?_reverse] at hlast
  have hnot := List.head?_dropWhile_not p (s.dropWhile p).reverse
  rw [hlast] at hnot
  simp [hc] at hnot

/-- The expression of the form lets a newline at the end pass, but a target that is trimmed has
none. -/
theorem targetMatches_trim {s : String} (hne : trim s ≠ "") :
    targetMatches (trim s) = (trim s).toList.all targetChar := by
  have hlast : (trim s).toList.getLast? ≠ some '\n' := by
    rw [trim, String.toList_ofList]
    exact getLast?_trimBy_ne (by decide) _
  have hempty : (trim s).toList.isEmpty = false := by
    rw [List.isEmpty_eq_false_iff]
    exact fun hnil => hne (String.toList_eq_nil_iff.mp hnil)
  simp only [targetMatches, if_neg hlast, hempty, Bool.not_false, Bool.true_and]

/-- A task that has a target has one of letters that are allowed. -/
theorem Asks.target_chars (h : Asks inspect row e) (hhas : e.type.hasTarget = true) :
    e.target ≠ "" ∧ ∀ c ∈ e.target.toList, targetChar c = true := by
  have htarget := h.target
  unfold validateTarget at htarget
  rw [if_neg (by simp [hhas])] at htarget
  split at htarget
  · cases htarget
  · next hne =>
    split at htarget
    · next hmatches =>
      rw [h.trimmed] at hne hmatches ⊢
      rw [targetMatches_trim hne] at hmatches
      exact ⟨hne, List.all_eq_true.mp hmatches⟩
    · cases htarget

/-- What a session builds of a row. -/
theorem buildTask_asks {used : Finset String} {t : Dashboard.Task}
    (h : buildTask inspect row used = .ok t) :
    ∃ e, Asks inspect row e ∧ t.type = e.type ∧
      t.params = (taskSpec e.type e.target e.port e.interval).1 ∧
      t.toSchedule = (taskSpec e.type e.target e.port e.interval).2 := by
  obtain ⟨type, port, interval, htype, htarget, hport, hinterval, rfl⟩ := buildTask_eq_ok_iff.mp h
  exact ⟨⟨type, trim (row.target.getD ""), port, interval⟩,
    ⟨htype, rfl, htarget, hport, hinterval⟩, rfl, rfl, rfl⟩

variable {parseFloat : Json.Number → Option UInt64}

/-- An integer that fits goes through 32 bits unchanged. -/
theorem toInt64_int32_ofInt {n : Int} (h : Database.FitsInt n) :
    (Int32.ofInt n).toInt64 = Int64.ofInt n := by
  obtain ⟨hlow, hhigh⟩ := h
  apply Int64.toInt_inj.mp
  rw [Int32.toInt_toInt64, Int32.toInt_ofInt_of_le hlow hhigh,
    Int64.toInt_ofInt_of_le (by omega) (by omega)]

theorem fitsInt_port {n : Int} (hlow : 1 ≤ n) (hhigh : n ≤ 65535) : Database.FitsInt n := by
  unfold Database.FitsInt
  omega

variable (parseFloat) in
/-- The parameters of a task go through JSON and through the message unchanged. -/
theorem setTaskParams_taskSpec (h : Asks inspect row e) :
    ∃ pb, setTaskParams parseFloat e.type.value (taskSpec e.type e.target e.port e.interval).1 =
        .ok pb ∧ Agent.taskParamsFromProto pb = e.params := by
  have hport := h.port_bounds
  obtain ⟨type, target, port, interval⟩ := e
  cases type with
  | trace =>
    refine ⟨.trace ⟨target, "", "icmp-paris", 0, 0, 0, 0⟩, ?_, rfl⟩
    simp +decide [taskSpec, TaskType.value, setTaskParams, readParams, TraceFields.unmarshal,
      Json.members, Json.stringField, Json.intField, Json.field_cons, TraceFields.toProto]
  | ping =>
    refine ⟨.ping ⟨target, "", 5, 64, 0, 0⟩, ?_, rfl⟩
    simp +decide [taskSpec, TaskType.value, setTaskParams, readParams, PingFields.unmarshal,
      Json.members, Json.stringField, Json.intField, Json.field_cons, int, PingFields.toProto]
  | stampSender =>
    obtain ⟨n, rfl, hlow, hhigh⟩ := hport
    refine ⟨.stampSender ⟨target, (Int64.ofInt n).toInt32, "", 0, false, 20,
      some (Protobuf.Duration.new 100000000)⟩, ?_, ?_⟩
    · have hfits : -9223372036854775808 ≤ n ∧ n < 9223372036854775808 := by omega
      simp +decide [taskSpec, TaskType.value, setTaskParams, readParams,
        StampSenderFields.unmarshal, Json.members, Json.stringField, Json.intField, Json.boolField,
        Json.field_cons, int, portJson, StampSenderFields.toProto, hfits]
    · have hduration : (Protobuf.Duration.new 100000000).asDuration = 100000000 := by decide
      simp [Agent.taskParamsFromProto, Entry.params, Entry.portNumber, hduration,
        toInt64_int32_ofInt (fitsInt_port hlow hhigh)]
  | stampReflector =>
    obtain ⟨n, rfl, hlow, hhigh⟩ := hport
    refine ⟨.stampReflector ⟨(Int64.ofInt n).toInt32, "", 0, false⟩, ?_, ?_⟩
    · have hfits : -9223372036854775808 ≤ n ∧ n < 9223372036854775808 := by omega
      simp +decide [taskSpec, TaskType.value, setTaskParams, readParams,
        StampReflectorFields.unmarshal, Json.members, Json.stringField, Json.intField,
        Json.boolField, Json.field_cons, int, portJson, StampReflectorFields.toProto, hfits]
    · simp [Agent.taskParamsFromProto, Entry.params, Entry.portNumber,
        toInt64_int32_ofInt (fitsInt_port hlow hhigh)]

/-- **What was asked for is what the agent has.** -/
theorem received_insertRow (h : Asks inspect row e) {t : Dashboard.Task} {generation : Int32}
    (htype : t.type = e.type) (hparams : t.params = (taskSpec e.type e.target e.port e.interval).1)
    (hschedule : t.toSchedule = (taskSpec e.type e.target e.port e.interval).2)
    (hfits : Database.FitsInt t.scheduleIntervalSeconds) :
    received parseFloat (Database.insertRow generation t) = some (e.task t.taskID generation) := by
  obtain ⟨pb, hset, hpb⟩ := setTaskParams_taskSpec parseFloat h
  have hstored : Agent.storedType e.type.value = some (agentType e.type) := by
    cases e.type <;> rfl
  have hinterval := toInt64_int32_ofInt hfits
  have hpos := h.interval_pos
  obtain ⟨schedule, taskID, type, params⟩ := t
  subst htype hparams hschedule
  simp only [received, Database.insertRow, hstored, hset, Except.toOption, hpb, Entry.task,
    Option.bind_eq_bind, Option.bind_some, Option.pure_def]
  simp only at hinterval
  rw [hinterval]
  obtain ⟨type, target, port, interval⟩ := e
  cases type with
  | stampReflector =>
    obtain rfl : interval = 0 := hpos
    rfl
  | trace | ping | stampSender => rfl

end Cepheus.ControlPlane
