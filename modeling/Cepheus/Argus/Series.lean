import Cepheus.Infra.Time

/-!
# Series and their keys

A series is one metric of one probe between an agent and a target, watched by one detector.
Its identity is written down three times, with different columns:

* `SeriesKey` - the key of the engine's in-memory map, seven fields
* `RowKey` - the primary key of `argus_policy_state`, six columns; the series type is not one
* `RowKey.hydratedKey` - the map key that `Sweep` rebuilds from a row

Go's string types with named constants are open enumerations: the constants are constructors,
and `other` stands for every other text, so the zero value of such a type is `other ""`.
-/

namespace Cepheus.Argus

open Infra

/-- The probe a measurement comes from (`common.ProbeType`). -/
inductive ProbeType
  | stamp
  | trace
  | ping
  | other (text : String)
deriving DecidableEq, Repr

/-- The kind of a series (`types.SeriesType`). -/
inductive SeriesType
  | stamp
  | ping
  | trace
  | other (text : String)
deriving DecidableEq, Repr

/-- The detector that watches a series (`types.DetectorType`). -/
inductive DetectorType
  | ewma
  | freq
  | betaB
  | mdmt
  | other (text : String)
deriving DecidableEq, Repr

/-- The key of one series in the engine's memory (`types.SeriesKey`). -/
structure SeriesKey where
  type : SeriesType
  serialId : String
  target : String
  srcIp : String
  port : Int
  metric : String
  detector : DetectorType
deriving DecidableEq, Repr

/-- The primary key of `argus_policy_state`. -/
structure RowKey where
  serialId : String
  srcIp : String
  target : String
  port : Int
  metric : String
  detector : DetectorType
deriving DecidableEq, Repr

/-- The row that a key stands for: what `GetPolicyState` asks for and `UpsertPolicyState` writes. -/
def SeriesKey.rowKey (k : SeriesKey) : RowKey :=
  { serialId := k.serialId, srcIp := k.srcIp, target := k.target, port := k.port,
    metric := k.metric, detector := k.detector }

/--
The key under which `Sweep` files a row it reads.

`ListNonCleanPolicyStates` does not select `src_ip` and the table has no column for the series
type, so both fields keep their zero value.
-/
def RowKey.hydratedKey (r : RowKey) : SeriesKey :=
  { type := .other "", serialId := r.serialId, target := r.target, srcIp := "", port := r.port,
    metric := r.metric, detector := r.detector }

theorem RowKey.rowKey_hydratedKey {r : RowKey} (h : r.srcIp = "") : r.hydratedKey.rowKey = r := by
  cases r
  simp_all [RowKey.hydratedKey, SeriesKey.rowKey]

/-! ## The keys the worker builds -/

/-- A processed measurement as it arrives (`common.MeasurementEvent`). -/
structure MeasurementEvent where
  type : ProbeType
  serialId : String
  target : String
  port : Int
  src : String
  timestamp : Time
  metrics : List UInt8
deriving DecidableEq, Repr

/-- The identity of a series, as the router hands it to a worker (`DiscoveredSeries`). -/
structure DiscoveredSeries where
  type : SeriesType
  serialId : String
  target : String
  port : Int
  src : String
deriving DecidableEq, Repr

/-- The series an event belongs to; `none` for an unknown probe type. -/
def seriesFromEvent (event : MeasurementEvent) : Option DiscoveredSeries :=
  match event.type with
  | .ping => some
      { type := .ping, serialId := event.serialId, target := event.target, port := 0, src := "" }
  | .stamp => some
      { type := .stamp, serialId := event.serialId, target := event.target, port := event.port,
        src := "" }
  | .trace => some
      { type := .trace, serialId := event.serialId, target := event.target, port := 0,
        src := event.src }
  | .other _ => none

/-- The key `Worker.plan` gives to the monitor of one metric and one detector of a series. -/
def DiscoveredSeries.monitorKey (series : DiscoveredSeries) (metricName : String)
    (detectorType : DetectorType) : SeriesKey :=
  { type := series.type, serialId := series.serialId, target := series.target, srcIp := "",
    port := series.port, metric := metricName, detector := detectorType }

/-- The keys that reach the engine: a monitor's key, of a series that some event belongs to. -/
def SeriesKey.Planned (k : SeriesKey) : Prop :=
  ∃ event series metricName detectorType,
    seriesFromEvent event = some series ∧ k = series.monitorKey metricName detectorType

/-- A planned key has no source address and a series type of its own. -/
theorem SeriesKey.planned_iff {k : SeriesKey} :
    k.Planned ↔
      k.srcIp = "" ∧ (k.type = .stamp ∨ k.port = 0 ∧ (k.type = .ping ∨ k.type = .trace)) := by
  constructor
  · rintro ⟨event, series, m, d, hs, rfl⟩
    unfold seriesFromEvent at hs
    split at hs <;> simp only [Option.some.injEq, reduceCtorEq] at hs <;> subst hs <;>
      simp [DiscoveredSeries.monitorKey]
  · obtain ⟨type, serialId, target, srcIp, port, metric, detector⟩ := k
    rintro ⟨rfl, rfl | ⟨rfl, rfl | rfl⟩⟩
    · exact ⟨⟨.stamp, serialId, target, port, "", 0, []⟩, _, metric, detector, rfl, rfl⟩
    · exact ⟨⟨.ping, serialId, target, 0, "", 0, []⟩, _, metric, detector, rfl, rfl⟩
    · exact ⟨⟨.trace, serialId, target, 0, "", 0, []⟩, _, metric, detector, rfl, rfl⟩

theorem SeriesKey.Planned.srcIp_eq {k : SeriesKey} (h : k.Planned) : k.srcIp = "" :=
  (planned_iff.mp h).1

instance (k : SeriesKey) : Decidable k.Planned := decidable_of_iff' _ SeriesKey.planned_iff

end Cepheus.Argus
