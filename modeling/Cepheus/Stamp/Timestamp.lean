import Cepheus.Infra.Time

/-!
# Timestamps and error estimates

`libs/stamp/timestamp.go`, `error_estimate.go` and `config.go`: what a STAMP packet says about the
clock of the host that made it. The current time is an argument wherever the code asks for it.
-/

namespace Cepheus.Stamp

open Infra

/-- `TimestampClockFormat`: a text, of which only `ClockFormatNTP` has a meaning. -/
inductive TimestampClockFormat where
  | ntp
  | other (text : String)
deriving DecidableEq, Repr

/-- 32 bits of seconds since 1900-01-01 and 32 bits of fractional seconds. -/
structure Timestamp where
  seconds : UInt32
  fraction : UInt32
deriving DecidableEq, Repr

/-- Seconds from the NTP epoch to the Unix epoch. -/
def ntpUnixOffset : Int := 2208988800

def generateNtpTimestamp (t : Time) : Timestamp :=
  let nanos := UInt64.ofInt (Time.nanosecond t)
  { seconds := UInt32.ofInt (Time.unix t + ntpUnixOffset)
    fraction := ((nanos <<< 32) / 1000000000).toUInt32 }

def newTimestamp (clockFormat : TimestampClockFormat) (now : Time) : Except String Timestamp :=
  match clockFormat with
  | .ntp => .ok (generateNtpTimestamp now)
  | .other _ => .error "invalid clock format"

def wireNTPTimestampToTime (sec frac : UInt32) : Time :=
  let seconds := (sec.toNat : Int) - ntpUnixOffset
  let nanos := ((frac.toUInt64 * 1000000000) >>> 32).toInt64
  Time.ofUnix seconds nanos.toInt

def Timestamp.toTime (t : Timestamp) (clockFormat : TimestampClockFormat) : Except String Time :=
  match clockFormat with
  | .ntp => .ok (wireNTPTimestampToTime t.seconds t.fraction)
  | .other _ => .error "invalid clock format"

def fromTime (clockFormat : TimestampClockFormat) (t : Time) : Except String Timestamp :=
  match clockFormat with
  | .ntp => .ok (generateNtpTimestamp t)
  | .other _ => .error "invalid clock format"

/-- The clock a host says it has. -/
structure ErrorEstimateConfig where
  scale : UInt8
  multiplier : UInt8
  clockFormat : TimestampClockFormat
  synchronized : Bool
deriving DecidableEq, Repr

structure Config where
  errorEstimate : ErrorEstimateConfig
deriving DecidableEq, Repr

/-- The estimated error is `multiplier * 2^(-32) * 2^scale` seconds. -/
structure ErrorEstimate where
  sync : Bool
  clockFormat : TimestampClockFormat
  zBit : Bool
  scale : UInt8
  multiplier : UInt8
deriving DecidableEq, Repr

/-- The Z bit is not looked at: it is always written as 0. -/
def ErrorEstimate.encode (e : ErrorEstimate) : UInt16 :=
  let val : UInt16 := if e.sync then 0x8000 else 0
  let val := val ||| ((e.scale.toUInt16 &&& 0x3F) <<< 8)
  val ||| e.multiplier.toUInt16

def newErrorEstimate (synchronized : Bool) (clockFormat : TimestampClockFormat)
    (scale multiplier : UInt8) : Except String ErrorEstimate :=
  if scale > 63 then .error "scale out of range: 0 < scale < 63"
  else .ok { sync := synchronized, clockFormat, zBit := false, scale, multiplier }

/-- The estimate that both ends make from their configuration. -/
def Config.newErrorEstimate (c : Config) : Except String ErrorEstimate :=
  Stamp.newErrorEstimate c.errorEstimate.synchronized c.errorEstimate.clockFormat
    c.errorEstimate.scale c.errorEstimate.multiplier

/-- The configurations with which packets can be made. -/
def Config.Valid (c : Config) : Prop :=
  c.errorEstimate.clockFormat = .ntp ∧ c.errorEstimate.scale ≤ 63

instance (c : Config) : Decidable c.Valid := inferInstanceAs (Decidable (_ ∧ _))

/-- The configuration that `services/agent/agent.go` gives to both ends. -/
def stampConfig : Config where
  errorEstimate :=
    { clockFormat := .ntp
      multiplier := 1
      scale := 22
      synchronized := true }

/-- What `newErrorEstimate` makes of a configuration that is in range. -/
def Config.estimate (c : Config) : ErrorEstimate :=
  { sync := c.errorEstimate.synchronized
    clockFormat := c.errorEstimate.clockFormat
    zBit := false
    scale := c.errorEstimate.scale
    multiplier := c.errorEstimate.multiplier }

theorem Config.Valid.newTimestamp {c : Config} (h : c.Valid) (now : Time) :
    Stamp.newTimestamp c.errorEstimate.clockFormat now = .ok (generateNtpTimestamp now) := by
  rw [h.1]
  rfl

theorem Config.Valid.newErrorEstimate {c : Config} (h : c.Valid) :
    c.newErrorEstimate = .ok c.estimate := by
  have hscale : ¬ c.errorEstimate.scale > 63 := UInt8.not_lt.mpr h.2
  rw [Config.newErrorEstimate, Stamp.newErrorEstimate, if_neg hscale]
  rfl

end Cepheus.Stamp
