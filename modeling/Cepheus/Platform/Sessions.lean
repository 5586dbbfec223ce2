import Cepheus.Agent.Executors
import Cepheus.ControlPlane.Properties.Typed
import Cepheus.DataPlane.Properties.Sessions

/-!
# From the form to the table

What an agent measures is what its supervisor executes, and what the supervisor executes is what the
control plane of the agent has stored or what somebody has typed there. So a row of the table of
STAMP sessions goes back to the form: it has the target and the port that were typed.

* `session_of_runOnce` - a STAMP result comes of a task with the parameters of a sender
* `RowOf` - the row of a session that was asked for in the form
* `sessions_as_typed` - there are no others than these rows
-/

namespace Cepheus.Platform

open Infra Common Agent StampProcessor ControlPlane DataPlane

/-! ## Executions -/

section

variable {zone : Time → Rfc3339.Zone} {formatFloat : ℚ → Json.Number} {s : Surroundings}
  {spec : Task} {r : ProbeResult}

theorem probeType_pingExecute (h : pingExecute s spec = .ok r) : r.probeType = .ping := by
  unfold pingExecute at h
  split at h
  · split at h
    · cases h
    · cases h
    · rw [← Except.ok.inj h]
      rfl
  · cases h

theorem probeType_traceExecute (h : traceExecute s spec = .ok r) : r.probeType = .trace := by
  unfold traceExecute at h
  split at h
  · split at h
    · cases h
    · cases h
    · rw [← Except.ok.inj h]
      rfl
  · cases h

theorem probeType_stampReflectorExecute (h : stampReflectorExecute s spec = .ok r) :
    r.probeType = .other "" := by
  unfold stampReflectorExecute at h
  split at h
  · split at h
    · cases h
    · rw [← Except.ok.inj h]
  · cases h

theorem params_of_execute {config : Stamp.Config} {params : Option TaskParams}
    {dial : Option String} {startTimestamp : Time} {env : Nat → Attempt} {data : StampData}
    (h : stampSenderExecute config params dial startTimestamp env = .ok data) :
    ∃ p, params = some (.stampSender p) := by
  unfold stampSenderExecute at h
  split at h
  · exact ⟨_, rfl⟩
  · cases h

theorem session_of_stampSenderResult (h : stampSenderResult zone formatFloat s spec = .ok r) :
    ∃ params data, spec.params = some (.stampSender params) ∧
      Session zone formatFloat r params s.startTimestamp data := by
  obtain ⟨data, hexecute, hresult⟩ := bind_eq_ok_iff.mp h
  obtain ⟨params, hparams⟩ := params_of_execute hexecute
  split at hresult
  · cases hresult
  · next json hjson =>
    rw [hparams] at hexecute
    refine ⟨params, data, hparams, ⟨_, _, _, hexecute⟩, json, hjson, ?_⟩
    rw [← Except.ok.inj hresult]
    rfl

/-- Only the executor of the sender has STAMP results. -/
theorem session_of_runOnce (h : runOnce zone formatFloat s spec = some r)
    (htype : r.probeType = .stamp) :
    ∃ params data, spec.params = some (.stampSender params) ∧
      Session zone formatFloat r params s.startTimestamp data := by
  have hok : execute zone formatFloat s spec = .ok r := by
    unfold runOnce at h
    cases hexecute : execute zone formatFloat s spec with
    | error err =>
      rw [hexecute] at h
      cases h
    | ok r' =>
      rw [hexecute] at h
      rw [Option.some.inj h]
  unfold execute at hok
  cases hspec : spec.type with
  | stampSender =>
    rw [hspec] at hok
    exact session_of_stampSenderResult hok
  | ping =>
    rw [hspec] at hok
    simp [probeType_pingExecute hok] at htype
  | trace =>
    rw [hspec] at hok
    simp [probeType_traceExecute hok] at htype
  | stampReflector =>
    rw [hspec] at hok
    simp [probeType_stampReflectorExecute hok] at htype
  | traceLb =>
    rw [hspec] at hok
    cases hok

end

/-! ## Rows -/

/-- The row of a session that was asked for in the form. -/
structure RowOf {U : Type} (e : Entry) (m : InsertStampMeasurementParams U) : Prop where
  type : e.type = .stampSender
  target : m.target = e.target
  port : e.port = some m.port
  sent : m.sent = 20

theorem rowOf_sessionRow {U : Type} {inspect : String → String} {row : Dashboard.Row} {e : Entry}
    (hasks : Asks inspect row e) {params : StampSenderParams}
    (hparams : e.params = .stampSender params) {serialID : String} {startTimestamp : Time}
    {data : StampData} {m : InsertStampMeasurementParams U}
    (h : SessionRow serialID params startTimestamp data m) : RowOf e m := by
  have hbounds := hasks.port_bounds
  cases htype : e.type with
  | stampSender =>
    have hhas : e.type.hasPort = true := by rw [htype]; rfl
    rw [if_pos hhas] at hbounds
    obtain ⟨n, hn, hlow, hhigh⟩ := hbounds
    simp only [Entry.params, htype, TaskParams.stampSender.injEq] at hparams
    subst hparams
    refine ⟨htype, h.target, ?_, ?_⟩
    · have hport : e.portNumber.toInt = n := by
        simp only [Entry.portNumber, hn, Option.getD_some]
        exact Int64.toInt_ofInt_of_le (by omega) (by omega)
      rw [hn, h.port, hport, int32, Int.bmod_eq_of_le (by omega) (by omega)]
    · rw [h.sent]
      simp only [StampSenderParams.count]
      decide
  | ping | trace | stampReflector => simp [Entry.params, htype] at hparams

variable {D A U S V : Type} [DecidableEq D] [DecidableEq A] [DecidableEq S] [DecidableEq V]

/-- **The table has what was typed.** The control plane of an agent are the sessions of the
dashboard, the server and the agent, and what the agent inserts are the results of what its
supervisor has executed at some point of its run, be it before the agent was restarted. Then after
every run of the agents and the processors, next to whatever runs of the control planes, each STAMP
row has the serial of an agent, and it is that of a session for a task that the tables had for this
agent in the beginning, or somebody has typed the target and the port of the row for it. -/
theorem sessions_as_typed (p : Plant D A U) (formatFloat : ℚ → Json.Number)
    (hfloat : ∀ x, (p.parseFloat (formatFloat x)).isSome) (deployment : D → Deployment V)
    (db₀ : Dashboard.Database V) (control : D → List (ControlPlane.Move S V))
    (moves : List (DataPlane.Move D))
    (hexecuted : ∀ d done leaves r, .agent d (.insert done leaves r) ∈ moves →
      ∃ earlier, earlier <+: control d ∧
        ∃ x ∈ (run (ControlPlane.System.step (deployment d)) (.start db₀)
            earlier).agent.supervisor.executions,
          ∃ s, runOnce (p.agentZone d) formatFloat s x.1 = some r) :
    let s := run (DataPlane.System.step p) (.start p) moves
    ∀ row ∈ s.stamp.ingest.intake.rows, ∃ d, row.measurement.serialID = p.serial d ∧
      ((∃ task params startTimestamp data,
          ControlPlane.System.Stored (deployment d) db₀ task ∧
          task.params = some (.stampSender params) ∧
          SessionRow (p.serial d) params startTimestamp data row.measurement) ∨
        ∃ typed e, ControlPlane.System.Typed (control d) typed ∧
          Asks (deployment d).inspect typed e ∧ RowOf e row.measurement) := by
  intro s row hrow
  obtain ⟨d, done, leaves, r, hmem, htype, hsession⟩ :=
    DataPlane.System.inserted_of_stampRow formatFloat hfloat hrow
  obtain ⟨earlier, hearlier, x, hx, surroundings, honce⟩ := hexecuted d done leaves r hmem
  obtain ⟨params, data, hparams, hdata⟩ := session_of_runOnce honce htype
  have hrowOf := hsession params _ data hdata
  refine ⟨d, hrowOf.serialID, ?_⟩
  obtain ⟨hsound, hsourced⟩ := ControlPlane.System.typed_run (deployment d) db₀ earlier
  rcases ControlPlane.System.executed_sourced hsound hsourced hx with hold | hnew
  · exact .inl ⟨x.1, params, _, data, hold, hparams, hrowOf⟩
  · obtain ⟨typed, e, taskID, generation, htyped, hasks, -, htask⟩ := hnew
    rw [htask] at hparams
    exact .inr ⟨typed, e, htyped.mono hearlier.subset, hasks,
      rowOf_sessionRow hasks (Option.some.inj hparams) hrowOf⟩

/-! ## A session without replies -/

/-- A session of the dashboard saves a STAMP session to `10.0.0.2`, and the agent executes it. -/
def saveAndSend : List (ControlPlane.Move Unit Unit) :=
  [.dashboard (.mount () ()),
    .dashboard (.edit ()
      [{ type := "stamp-sender", target := some "10.0.0.2", port := some "862"
         interval := some "30" }]),
    .dashboard (.build ()), .dashboard (.add () .committed), .answer [0] 0 .complete, .receive,
    .connect true, .setDesiredTasks [] ["stamp-sender-10-0-0-2"], .supervise .proceed,
    .supervise .proceed, .supervise .proceed, .returned, .supervise (.loop 0 .begin),
    .supervise (.loop 0 .fire)]

def typedTask : Task :=
  Entry.task { type := .stampSender, target := "10.0.0.2", port := some 862, interval := 30 }
    "stamp-sender-10-0-0-2" 2

/-- Nothing comes back. -/
def silence : Surroundings where
  now := Argus.newYear
  answer := .cancelled
  format := ""
  stampConfig := Stamp.stampConfig
  dial := none
  startTimestamp := Argus.newYear
  attempts _ :=
    { ctxErr := none
      start := Argus.newYear
      send := { now := Argus.newYear, write := none, read := .error "timeout" }
      t4 := Argus.newYear
      waitErr := none }
  marshalErr := ""
  reflectorErr := none

/-- The result of the task, with twenty packets that are lost. -/
def lostResult : ProbeResult :=
  (runOnce (fun _ => Rfc3339.utc) DataPlane.System.formatTenths silence typedTask).getD
    { taskID := "", probeType := .other "", kind := "", timestamp := 0, data := .nil }

def lostMoves : List (DataPlane.Move Unit) :=
  [.agent () (.insert false false lostResult), .agent () .receive,
    .agent () (.prepare Argus.newYear), .agent () (.attempt .done), .stamp (.deliver 0),
    .stamp .take, .stamp (.attempt .done), .stamp .hand, .stamp (.receive {} {}),
    .stamp (.tick {} {})]

theorem runOnce_typedTask :
    runOnce (fun _ => Rfc3339.utc) DataPlane.System.formatTenths silence typedTask =
      some lostResult := by
  obtain ⟨r, hr⟩ : ∃ r, runOnce (fun _ => Rfc3339.utc) DataPlane.System.formatTenths silence
      typedTask = some r := Option.isSome_iff_exists.mp (by decide +kernel)
  rw [lostResult, hr]
  rfl

theorem lostSession_as_typed :
    let s := run (DataPlane.System.step DataPlane.System.onePlant)
      (.start DataPlane.System.onePlant) lostMoves
    s.stamp.ingest.intake.rows.length = 1 ∧
    ∀ row ∈ s.stamp.ingest.intake.rows, ∃ d,
      row.measurement.serialID = DataPlane.System.onePlant.serial d ∧
      ((∃ task params startTimestamp data,
          ControlPlane.System.Stored ControlPlane.System.edgeDeployment
            Dashboard.System.emptyDatabase task ∧
          task.params = some (.stampSender params) ∧
          SessionRow (DataPlane.System.onePlant.serial d) params startTimestamp data
            row.measurement) ∨
        ∃ typed e, ControlPlane.System.Typed saveAndSend typed ∧
          Asks ControlPlane.System.edgeDeployment.inspect typed e ∧ RowOf e row.measurement) := by
  have hexecuted : ∃ x ∈ (run (ControlPlane.System.step ControlPlane.System.edgeDeployment)
      (.start Dashboard.System.emptyDatabase) saveAndSend).agent.supervisor.executions,
      x.1 = typedTask := by
    decide +kernel
  refine ⟨by decide +kernel, sessions_as_typed DataPlane.System.onePlant
    DataPlane.System.formatTenths (fun _ => rfl) (fun _ => ControlPlane.System.edgeDeployment)
    Dashboard.System.emptyDatabase (fun _ => saveAndSend) lostMoves
    fun d done leaves r hmem => ?_⟩
  obtain ⟨-, -, rfl⟩ : done = false ∧ leaves = false ∧ r = lostResult := by
    simpa [lostMoves] using hmem
  obtain ⟨x, hx, hspec⟩ := hexecuted
  exact ⟨saveAndSend, List.prefix_refl _, x, hx, silence, by rw [hspec]; exact runOnce_typedTask⟩

end Cepheus.Platform
