import Cepheus.Infra.Netip
import Cepheus.Infra.Table
import Cepheus.Infra.Time
import Cepheus.TraceProcessor.Fingerprint

/-!
# What the trace processor does with a trace

`processNormalTrace` of `services/trace-processor/processor.go`, with `enrichMissingHops`,
`getIPToASNMap` and `publishMeasurement`: the rows of a trace are written in one transaction, and in
the midst of it the event for argus is published.

Everything outside may fail: the queries, the lookup of the numbers of the autonomous systems, the
attempts to publish, the commit. How it does is the `Outside`, of which `processNormalTrace` is a
function. A query that fails has no effect; an attempt to publish and the commit may also have their
effect and lose their answer. Apart from this, the copy into `as_details` is refused if it violates
the primary key.

The id of the measurement is left out of the rows, which are those of one measurement.
-/

namespace Cepheus.TraceProcessor

open Infra

/-! ## Reports -/

/-- `common.TraceDataTracePayload`, with the rest of what is read of it. -/
structure Trace extends TraceDataTracePayload where
  src : String
  dst : String
  stopReason : String
  hopCount : Int

/-- A report of type `trace`. -/
structure Report where
  serialId : String
  agentConfigId : String
  timestamp : Time
  type : String
  method : String
  /-- `traceData.Data`, and what `json.Unmarshal` makes of it. -/
  raw : List UInt8
  data : Option Trace

/-! ## Rows -/

/-- A row of `as_details`. -/
structure AsDetails where
  asn : Option Int
  bgpPrefix : Option String
  name : Option String
  cc : Option String
deriving DecidableEq, Repr

/-- `InsertTraceMeasurementParams`, with the hashes that are set later. -/
structure MeasurementParams (A U : Type) where
  timestamp : Time
  serialID : String
  agentConfigID : U
  type : String
  src : A
  dst : A
  method : String
  stopReason : String
  hopCount : Int
  asnPathHash : String
  linkPathHash : String
  raw : List UInt8

/-- `InsertTraceHopParams`. -/
structure TraceHopParams (A : Type) where
  timestamp : Time
  ip : Option A
  ttl : Int
  rtt : Option Int
  icmpType : Option Int
  icmpCode : Option Int
  replyTtl : Option Int
  asn : Option Int
  isNoHop : Bool
deriving DecidableEq

/-- `InsertTraceLinkParams`. -/
structure TraceLinkParams (A : Type) where
  timestamp : Time
  probeID : Int
  srcIp : Option A
  dstIp : Option A
  ttlGap : Int
  diffRtt : Option ℚ
  isSrcRespond : Bool
  isDstRespond : Bool
deriving DecidableEq

/-- What the transaction writes. -/
structure TraceRows (A U : Type) where
  measurement : MeasurementParams A U
  hops : List (TraceHopParams A)
  links : List (TraceLinkParams A)
  /-- The table after it. -/
  asDetails : Table A AsDetails

/-- `common.MeasurementEvent`, with the `TraceMetrics`. -/
structure TraceEvent where
  serialID : String
  target : String
  src : String
  timestamp : Time
  asnPathHash : String
  linkPathHash : String
deriving DecidableEq, Repr

/-! ## The outside -/

/-- A result of the lookup. -/
structure AsnResult where
  ip : String
  asn : Int
  bgpPrefix : String
  asName : String
  countryCode : String
deriving DecidableEq, Repr

/-- How a call ends that has an effect outside of the transaction. -/
inductive Reply where
  | done
  /-- It fails without an effect. -/
  | failed
  /-- It has its effect, and fails. -/
  | lost
deriving DecidableEq, Repr

/-- For a query, whether it succeeds. -/
structure Outside where
  beginTx : Bool
  insertTraceMeasurement : Bool
  getExistingIPs : Bool
  /-- `asnClient.Lookup`. -/
  lookup : List String → Option (List AsnResult)
  upsertAsDetails : Bool
  getASNForIPs : Bool
  /-- The attempts, by their number. -/
  publish : Nat → Reply
  upsertFingerprintHash : Bool
  insertTraceHop : Bool
  insertTraceLink : Bool
  commit : Reply

/-- Where `processNormalTrace` returns an error. -/
inductive ProcessError where
  | unmarshal
  | srcIP
  | dstIP
  | beginTx
  | agentConfigID
  | insertTraceMeasurement
  | hopIP (addr : String)
  | getExistingIPs
  | lookup
  | lookupIP (ip : String)
  | upsertAsDetails
  | getASNForIPs
  | publish
  | upsertFingerprintHash
  | insertTraceHop
  | linkSrcIP (addr : String)
  | linkDstIP (addr : String)
  | insertTraceLink
  | commit
deriving DecidableEq, Repr

/-- A value, or an error. -/
def orError {α : Type} (a : Option α) (e : ProcessError) : Except ProcessError α :=
  match a with
  | some a => .ok a
  | none => .error e

@[simp]
theorem orError_eq_ok_iff {α : Type} {a : Option α} {e : ProcessError} {x : α} :
    orError a e = .ok x ↔ a = some x := by
  cases a <;> simp [orError]

/-- A query. -/
def query (succeeds : Bool) (e : ProcessError) : Except ProcessError Unit :=
  if succeeds then .ok () else .error e

@[simp]
theorem query_eq_ok_iff {succeeds : Bool} {e : ProcessError} {u : Unit} :
    query succeeds e = .ok u ↔ succeeds = true := by
  cases succeeds <;> simp [query]

section

variable {A U : Type} [DecidableEq A] (netip : Netip A) (parseUUID : String → Option U)
  (outside : Outside)

/-! ## Autonomous systems -/

/-- The addresses as the columns have them; the zero address is `NULL`. -/
def storedIPs (ips : List (Option A)) : List A := ips.filterMap fun ip => ip.map netip.withoutZone

/-- `GetExistingIPs`. -/
def existingIPs (asDetails : Table A AsDetails) (ips : List (Option A)) : List A :=
  (storedIPs netip ips).filter fun a => a ∈ asDetails

/-- `missingIPs`. The zero address is never there. -/
def missingIPs (existing : List A) (ips : List (Option A)) : List String :=
  (ips.filter fun ip => ∀ a ∈ ip, a ∉ existing).map netip.print

/-- What is stored of a result. -/
def AsnResult.details (r : AsnResult) : AsDetails where
  asn := some (int32 r.asn)
  bgpPrefix := if r.bgpPrefix = "NA" then none else some r.bgpPrefix
  name := if r.asName = "NA" then none else some r.asName
  cc := if r.countryCode = "" then none else some r.countryCode

/-- The row for a result, if it has a number. Private addresses have none. -/
def asDetailsRow (r : AsnResult) : Except ProcessError (Option (A × AsDetails)) := do
  let ip ← orError (netip.parseAddr r.ip) (.lookupIP r.ip)
  return if r.asn = 0 then none else some (ip, r.details)

/-- `UpsertAsDetails`, which is a copy: a row with an address that the table has is a violation of
its primary key. -/
def copyAsDetails (asDetails : Table A AsDetails) :
    List (A × AsDetails) → Option (Table A AsDetails)
  | [] => some asDetails
  | (ip, details) :: rows =>
    if netip.withoutZone ip ∈ asDetails then none
    else copyAsDetails (asDetails.insert (netip.withoutZone ip) details) rows

/-- The rows that `enrichMissingHops` makes. -/
def missingRows (existing : List A) (ips : List (Option A)) :
    Except ProcessError (List (A × AsDetails)) := do
  let results ← orError (outside.lookup (missingIPs netip existing ips)) .lookup
  let rows ← results.mapM (asDetailsRow netip)
  return rows.reduceOption

def enrichMissingHops (asDetails : Table A AsDetails) (existing : List A) (ips : List (Option A)) :
    Except ProcessError (Table A AsDetails) := do
  let rows ← missingRows netip outside existing ips
  query outside.upsertAsDetails .upsertAsDetails
  orError (copyAsDetails netip asDetails rows) .upsertAsDetails

def getIPToASNMap (asDetails : Table A AsDetails) (ips : List (Option A)) : Table A (Option Int) :=
  (storedIPs netip ips).foldl (fun map a =>
    match asDetails.lookup a with
    | some details => map.insert a details.asn
    | none => map) ∅

/-- `asnMap[ip]`. -/
def fetchASN (asnMap : Table A (Option Int)) (ip : Option A) : Option (Option Int) :=
  ip.bind fun a => asnMap.lookup a

/-! ## Hops and links -/

/-- The address of a hop: the zero address, if its text is empty. -/
def hopIP (hop : Hop) : Except ProcessError (Option A) :=
  if hop.addr = "" then .ok none
  else (orError (netip.parseAddr hop.addr) (.hopIP hop.addr)).map some

/-- The row of a hop. Milliseconds become nanoseconds, and a number that the table does not have is
`NULL`. -/
def hopRow (timestamp : Time) (asnMap : Table A (Option Int)) (hop : Hop) (ip : Option A) :
    TraceHopParams A where
  timestamp := timestamp
  ip := ip
  ttl := int32 hop.probeTTL
  rtt := some (truncate (hop.rtt * 1000000))
  icmpType := some (int32 hop.icmpType)
  icmpCode := some (int32 hop.icmpCode)
  replyTtl := some (int32 hop.replyTTL)
  asn := (fetchASN asnMap ip).join
  isNoHop := false

def noHopRow (timestamp : Time) (hop : NoHop) : TraceHopParams A where
  timestamp := timestamp
  ip := none
  ttl := int32 hop.probeTTL
  rtt := none
  icmpType := none
  icmpCode := none
  replyTtl := none
  asn := none
  isNoHop := true

/-- An end of a link, if there is an address. -/
def linkIP (addr : Option String) (e : String → ProcessError) : Except ProcessError (Option A) :=
  match addr with
  | none => .ok none
  | some addr => (orError (netip.parseAddr addr) (e addr)).map some

def linkRow (timestamp : Time) (link : TraceLink) : Except ProcessError (TraceLinkParams A) := do
  let srcIp ← linkIP netip link.srcIP .linkSrcIP
  let dstIp ← linkIP netip link.dstIP .linkDstIP
  return {
    timestamp
    probeID := int32 link.probeID
    srcIp
    dstIp
    ttlGap := int32 link.ttlGap
    diffRtt := link.diffRTT
    isSrcRespond := link.isSrcRespond
    isDstRespond := link.isDstRespond }

/-! ## The transaction -/

/-- What there is when the event is published. -/
structure Prepared (A U : Type) where
  trace : Trace
  measurement : MeasurementParams A U
  hops : List (TraceHopParams A)
  links : List TraceLink
  asDetails : Table A AsDetails

/-- `processNormalTrace`, up to the call of `publishMeasurement`. -/
def prepare (rt : Runtime) (asDetails : Table A AsDetails) (report : Report) :
    Except ProcessError (Prepared A U) := do
  let trace ← orError report.data .unmarshal
  let src ← orError (netip.parseAddr trace.src) .srcIP
  let dst ← orError (netip.parseAddr trace.dst) .dstIP
  query outside.beginTx .beginTx
  let agentConfigID ← orError (parseUUID report.agentConfigId) .agentConfigID
  query outside.insertTraceMeasurement .insertTraceMeasurement
  let ips ← trace.hops.mapM (hopIP netip)
  query outside.getExistingIPs .getExistingIPs
  let existing := existingIPs netip asDetails ips
  let asDetails ← enrichMissingHops netip outside asDetails existing ips
  query outside.getASNForIPs .getASNForIPs
  let asnMap := getIPToASNMap netip asDetails ips
  let links := extractLinks rt trace.toTraceDataTracePayload
  return {
    trace
    measurement :=
      { timestamp := report.timestamp
        serialID := report.serialId
        agentConfigID
        type := report.type
        src
        dst
        method := report.method
        stopReason := trace.stopReason
        hopCount := int32 trace.hopCount
        asnPathHash := asnPathHash (ips.map (fetchASN asnMap))
        linkPathHash := fingerprint (linkText links)
        raw := report.raw }
    hops := trace.hops.zipWith (hopRow report.timestamp asnMap) ips
    links
    asDetails }

/-- The event of a measurement. -/
def MeasurementParams.event (m : MeasurementParams A U) : TraceEvent where
  serialID := m.serialID
  target := netip.string m.dst
  src := netip.string m.src
  timestamp := m.timestamp
  asnPathHash := m.asnPathHash
  linkPathHash := m.linkPathHash

/-- The attempts to publish, until one is answered: how often the event is published, and whether
one of them is answered. An attempt that is not made because the context is done has failed. -/
def attempts : List Reply → Nat × Bool
  | [] => (0, false)
  | .done :: _ => (1, true)
  | .failed :: rest => attempts rest
  | .lost :: rest => ((attempts rest).1 + 1, (attempts rest).2)

/-- There are three attempts at most. -/
def publishMeasurement : Nat × Bool :=
  attempts [outside.publish 0, outside.publish 1, outside.publish 2]

/-- `processNormalTrace`, from there to the commit. -/
def finish (prepared : Prepared A U) : Except ProcessError (TraceRows A U) := do
  query outside.upsertFingerprintHash .upsertFingerprintHash
  query outside.insertTraceHop .insertTraceHop
  let timestamp := prepared.measurement.timestamp
  let links ← prepared.links.mapM (linkRow netip timestamp)
  query outside.insertTraceLink .insertTraceLink
  return {
    measurement := prepared.measurement
    hops := prepared.hops ++ prepared.trace.noHops.map (noHopRow timestamp)
    links
    asDetails := prepared.asDetails }

/-- What `processNormalTrace` returns and leaves behind. -/
structure Processed (A U : Type) where
  error : Option ProcessError
  published : List TraceEvent
  committed : Option (TraceRows A U)

def processNormalTrace (rt : Runtime) (asDetails : Table A AsDetails) (report : Report) :
    Processed A U :=
  match prepare netip parseUUID outside rt asDetails report with
  | .error e => { error := some e, published := [], committed := none }
  | .ok prepared =>
    let (times, answered) := publishMeasurement outside
    let published := List.replicate times (prepared.measurement.event netip)
    if !answered then { error := some .publish, published, committed := none }
    else
      match finish netip outside prepared with
      | .error e => { error := some e, published, committed := none }
      | .ok rows =>
        match outside.commit with
        | .done => { error := none, published, committed := some rows }
        | .failed => { error := some .commit, published, committed := none }
        | .lost => { error := some .commit, published, committed := some rows }

end

end Cepheus.TraceProcessor
