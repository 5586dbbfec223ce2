import Mathlib.Algebra.Order.Field.Rat
import Cepheus.Infra.Groups
import Cepheus.Infra.Slices
import Cepheus.Infra.Words

/-!
# Links of a trace

`services/trace-processor/extract_links.go`: a trace is split into its probes, the hops of each
probe are ordered by their TTL, and two hops that follow each other are a link. A hop that did not
answer is a hop without an address.

Go leaves open in which order the three loops over the map of probes go through it, and what
`sort.Slice` does with hops of the same TTL. Both are the `Runtime`, of which `extractLinks` is a
function. The round trips are read as exact rationals.
-/

namespace Cepheus.TraceProcessor

open Infra

/-! ## The trace -/

/-- An element of `Hops`, with what is read of it. -/
structure Hop where
  addr : String
  probeTTL : Int
  probeID : Int
  rtt : ℚ
  replyTTL : Int
  icmpType : Int
  icmpCode : Int
deriving DecidableEq, Repr

/-- An element of `NoHops`, with what is read of it. -/
structure NoHop where
  probeTTL : Int
  probeID : Int
deriving DecidableEq, Repr

/-- `common.TraceDataTracePayload`, with what is read of it. -/
structure TraceDataTracePayload where
  hops : List Hop
  noHops : List NoHop
deriving DecidableEq, Repr

structure ParsedHop where
  addr : String
  probeID : Int
  probeTTL : Int
  replyTTL : Int
  isTimeout : Bool
  icmpCode : Int
  rtt : ℚ
deriving DecidableEq, Repr

def Hop.parsed (hop : Hop) : ParsedHop where
  addr := hop.addr
  probeID := hop.probeID
  probeTTL := hop.probeTTL
  replyTTL := hop.replyTTL
  icmpCode := hop.icmpCode
  isTimeout := false
  rtt := hop.rtt

def NoHop.parsed (hop : NoHop) : ParsedHop where
  addr := ""
  probeID := hop.probeID
  probeTTL := hop.probeTTL
  replyTTL := 0
  icmpCode := 0
  isTimeout := true
  rtt := 0

/-- The hops in the order in which they are put into the groups. -/
def TraceDataTracePayload.parsed (payload : TraceDataTracePayload) : List ParsedHop :=
  payload.hops.map Hop.parsed ++ payload.noHops.map NoHop.parsed

/-! ## Links -/

structure TraceLink where
  probeID : Int
  srcIP : Option String
  dstIP : Option String
  ttlGap : Int
  isSrcRespond : Bool
  isDstRespond : Bool
  diffRTT : Option ℚ
deriving DecidableEq, Repr

/-- The address of a hop that answered. -/
def ParsedHop.ip (hop : ParsedHop) : Option String := if hop.isTimeout then none else some hop.addr

/-- Two hops of a probe that follow each other. -/
structure Step where
  probeID : Int
  src : ParsedHop
  dst : ParsedHop
deriving DecidableEq, Repr

/-- The difference of two `int`s may wrap around. -/
def Step.link (step : Step) : TraceLink where
  probeID := step.probeID
  srcIP := step.src.ip
  dstIP := step.dst.ip
  ttlGap := int64 (step.dst.probeTTL - step.src.probeTTL)
  isSrcRespond := !step.src.isTimeout
  isDstRespond := !step.dst.isTimeout
  diffRTT :=
    if !step.src.isTimeout && !step.dst.isTimeout then some (step.dst.rtt - step.src.rtt) else none

def Step.key (step : Step) : String :=
  toString step.probeID ++ ":" ++ step.src.addr ++ "->" ++ step.dst.addr

/-! ## The loops -/

/-- The loop that drops the hops with the TTL of the one before, which is `prev`. -/
def dedupAfter (prev : ParsedHop) : List ParsedHop → List ParsedHop
  | [] => []
  | h :: hops => if h.probeTTL ≠ prev.probeTTL then h :: dedupAfter h hops else dedupAfter h hops

/-- One hop for each TTL. The first is always kept. -/
def dedup : List ParsedHop → List ParsedHop
  | [] => []
  | h :: hops => h :: dedupAfter h hops

/-- `seen` and `links`. -/
structure Scan where
  seen : Finset String
  links : List TraceLink

/-- The body of the loop over the links. -/
def Scan.visit (s : Scan) (step : Step) : Scan :=
  if step.key ∈ s.seen then s
  else { seen := insert step.key s.seen, links := s.links ++ [step.link] }

/-- The loop over the hops of one probe. -/
def Scan.probe (probeID : Int) (s : Scan) : List ParsedHop → Scan
  | src :: dst :: hops => Scan.probe probeID (s.visit ⟨probeID, src, dst⟩) (dst :: hops)
  | _ => s

/-- What the language leaves open. -/
structure Runtime where
  sort : Sorter ParsedHop.probeTTL
  sortRange : Ranging Int (List ParsedHop)
  dedupRange : Ranging Int (List ParsedHop)
  linkRange : Ranging Int (List ParsedHop)

/-- The groups before the loop over the links. -/
def groups (rt : Runtime) (payload : TraceDataTracePayload) : Table Int (List ParsedHop) :=
  let groups := Table.group ParsedHop.probeID payload.parsed
  let groups := rt.sortRange.rewrite rt.sort.slice groups
  rt.dedupRange.rewrite dedup groups

def extractLinks (rt : Runtime) (payload : TraceDataTracePayload) : List TraceLink :=
  let groups := groups rt payload
  let start : Scan := { seen := ∅, links := [] }
  let scan := (rt.linkRange.order groups).foldl
    (fun s probeID => s.probe probeID ((groups.lookup probeID).getD [])) start
  scan.links

/-- A runtime that goes through maps in ascending order and sorts by insertion. -/
def Runtime.ascending : Runtime where
  sort := .insertion _
  sortRange := .ascending
  dedupRange := .ascending
  linkRange := .ascending

end Cepheus.TraceProcessor
