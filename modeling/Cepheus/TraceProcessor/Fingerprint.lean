import Mathlib.Data.List.Sort
import Mathlib.Data.String.Basic
import Cepheus.Infra.Sha256
import Cepheus.TraceProcessor.ExtractLinks

/-!
# The fingerprints of a trace

`processNormalTrace` of `services/trace-processor/processor.go`, as far as it computes the two
hashes of a trace. For the links, the texts of all links between two addresses are sorted, joined
and hashed, and the first eight octets of the hash are the `link_path_hash` of the measurement. For
the autonomous systems, their numbers are hashed in the order of the hops, and give the
`asn_path_hash` in the same way.

`sort.Strings` compares octets, which for UTF-8 is to compare code points.
-/

namespace Cepheus.TraceProcessor

open Infra

/-! ## Links -/

/-- The two addresses of a link between hops that answered. -/
def TraceLink.ends (link : TraceLink) : Option (String × String) :=
  match link.srcIP, link.dstIP with
  | some src, some dst => some (src, dst)
  | _, _ => none

def pairText (pair : String × String) : String := pair.1 ++ "->" ++ pair.2

/-- `ip_pairs`. -/
def ipPairs (links : List TraceLink) : List String := (links.filterMap TraceLink.ends).map pairText

/-- What is hashed. -/
def linkText (links : List TraceLink) : String :=
  ",".intercalate ((ipPairs links).insertionSort (· ≤ ·))

/-- The first half of a SHA-256 hash, in hexadecimal digits. -/
def fingerprint (text : String) : String := hexEncode ((sum256 (octets text)).take 8)

def linkPathHash (rt : Runtime) (payload : TraceDataTracePayload) : String :=
  fingerprint (linkText (extractLinks rt payload))

/-! ## Autonomous systems -/

/-- What the loop over the hops does with a number that the table has. -/
def keepASN (uniqueASNs : List Int) (asn : Int) : List Int :=
  if uniqueASNs = [] ∨ uniqueASNs.getLast? ≠ some asn then
    if asn ≠ 0 then uniqueASNs ++ [asn] else uniqueASNs
  else uniqueASNs

/-- The body of the loop, from what the table has for the address of the hop: nothing, or a number
that may be `NULL`, which is read as zero. -/
def visitASN (uniqueASNs : List Int) : Option (Option Int) → List Int
  | none => uniqueASNs
  | some fetchedASN => keepASN uniqueASNs (fetchedASN.getD 0)

def uniqueASNs (fetched : List (Option (Option Int))) : List Int := fetched.foldl visitASN []

/-- `asn_pairs`, which is hashed. -/
def asnText (asns : List Int) : String :=
  asns.foldl (fun text asn => text ++ (":AS" ++ toString asn)) ""

def asnPathHash (fetched : List (Option (Option Int))) : String :=
  fingerprint (asnText (uniqueASNs fetched))

end Cepheus.TraceProcessor
