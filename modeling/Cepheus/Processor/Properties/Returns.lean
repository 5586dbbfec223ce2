import Cepheus.Infra.Uuid
import Cepheus.Processor.Build
import Cepheus.Processor.Properties.Quantiles

/-!
# What makes the building of rows panic

`computeStats` returns for every list of delays: the indices of `percentile` stay in the list, and
the mean of no delays is not computed. The id of the configuration is another matter: if
`uuid.Parse` rejects it, `buildStamp` and `buildPing` log the error and go on with a nil pointer,
which they dereference. The trace processor returns the error instead.
-/

namespace Cepheus.Processor

theorem exists_computeStats (values : List Infra.Duration) :
    ∃ stats, computeStats values = some stats := by
  by_cases hne : values = []
  · exact ⟨.zero, by rw [hne, computeStats_nil]⟩
  · exact ⟨_, computeStats_eq hne⟩

variable {U : Type} {parseUUID : String → Option U}

/-- `uuid.Parse` accepts the id of the configuration, if there is one. -/
def Identified (parseUUID : String → Option U) (agentConfigId : Option String) : Prop :=
  ∀ id, agentConfigId = some id → (parseUUID id).isSome

theorem isSome_agentConfigID_iff (agentConfigId : Option String) :
    (agentConfigID parseUUID agentConfigId).isSome ↔ Identified parseUUID agentConfigId := by
  cases agentConfigId with
  | none => simp [agentConfigID, Identified]
  | some id => simp [agentConfigID, Identified]

theorem isSome_buildStamp_iff (serialId : String) (agentConfigId : Option String)
    (data : StampProcessor.StampData) :
    (StampProcessor.buildStamp parseUUID serialId agentConfigId data).isSome ↔
      Identified parseUUID agentConfigId := by
  obtain ⟨rtt, hrtt⟩ := exists_computeStats (data.replies.map (·.rtt))
  obtain ⟨fwd, hfwd⟩ := exists_computeStats (data.replies.map (·.forwardDelay))
  obtain ⟨bwd, hbwd⟩ := exists_computeStats (data.replies.map (·.backwardDelay))
  rw [← isSome_agentConfigID_iff]
  simp only [StampProcessor.buildStamp, hrtt, hfwd, hbwd, Option.bind_eq_bind, Option.bind_some]
  cases agentConfigID parseUUID agentConfigId <;> rfl

theorem isSome_buildPing_iff (serialId : String) (agentConfigId : Option String)
    (timestamp : Infra.Time) (data : PingProcessor.PingDataPayload) :
    (PingProcessor.buildPing parseUUID serialId agentConfigId timestamp data).isSome ↔
      Identified parseUUID agentConfigId := by
  obtain ⟨stats, hstats⟩ :=
    exists_computeStats (data.responses.map fun r => PingProcessor.msToDuration r.rtt)
  rw [← isSome_agentConfigID_iff]
  simp only [PingProcessor.buildPing, hstats, Option.bind_eq_bind, Option.bind_some]
  cases agentConfigID parseUUID agentConfigId <;> rfl

/-- Neither `buildStamp` nor `buildPing` panics, if and only if the id of the configuration is one
that `uuid.Parse` accepts. -/
theorem build_returns_iff (parseUUID : String → Option U) (serialId : String)
    (agentConfigId : Option String) (stamp : StampProcessor.StampData) (timestamp : Infra.Time)
    (ping : PingProcessor.PingDataPayload) :
    ((StampProcessor.buildStamp parseUUID serialId agentConfigId stamp).isSome ↔
        Identified parseUUID agentConfigId) ∧
      ((PingProcessor.buildPing parseUUID serialId agentConfigId timestamp ping).isSome ↔
        Identified parseUUID agentConfigId) :=
  ⟨isSome_buildStamp_iff serialId agentConfigId stamp,
    isSome_buildPing_iff serialId agentConfigId timestamp ping⟩

/-- A report whose `agent_config_id` is the empty text. -/
theorem build_panics_without_id :
    StampProcessor.buildStamp Infra.Uuid.parse "agent-1" (some "")
        { target := "10.0.0.2", port := 862, sent := 0, received := 0, loss := 0, probes := [],
          timestamp := 0 } = none ∧
      PingProcessor.buildPing Infra.Uuid.parse "agent-1" (some "") 0
        { dst := "10.0.0.2", pingSent := 0, responses := [],
          statistics := { replies := 0, min := 0, max := 0, avg := 0, stddev := 0 } } = none := by
  decide +kernel

end Cepheus.Processor
