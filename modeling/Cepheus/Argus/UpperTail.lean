import Mathlib.Order.Defs.Unbundled
import Mathlib.Algebra.Group.Defs
import Cepheus.Infra.Loop

/-!
# The tail in machine integers

`betaBinomialUpperTail` of `services/argus/betab.go` once more, with its `int64` arguments and the
`int64` counter of its loop, all of which wrap around. Nothing is assumed of the floats: their
operations and the functions of package `math` are whatever they are, since none of them decides
whether the loop is left.
-/

namespace Cepheus.Argus.Machine

open Infra

/-- What the code uses of floats, beside their arithmetic. -/
structure Math (F : Type) where
  /-- `float64(x)`. -/
  float64 : Int64 → F
  /-- `math.Lgamma`, without the sign. -/
  lgamma : F → F
  exp : F → F

section

variable {F : Type} [Zero F] [One F] [Add F] [Sub F] (m : Math F)

def logBeta (a b : F) : F := m.lgamma a + m.lgamma b - m.lgamma (a + b)

def logChoose (n k : Int64) : F :=
  m.lgamma (m.float64 (n + 1)) - m.lgamma (m.float64 (k + 1)) - m.lgamma (m.float64 (n - k) + 1)

/-- The term of the loop at `i`. -/
def logPmf (n : Int64) (a bb : F) (i : Int64) : F :=
  logChoose m n i + logBeta m (m.float64 i + a) (m.float64 n - m.float64 i + bb) - logBeta m a bb

/-- The loop. Its state is the counter and the sum so far. -/
def tailLoop (n : Int64) (a bb : F) : Loop (Int64 × F) F where
  round s :=
    if s.1 ≤ n then .inl (s.1 + 1, s.2 + m.exp (logPmf m n a bb s.1)) else .inr s.2

variable [LT F] [DecidableLT F]

/-- `betaBinomialUpperTail`, if the loop is left within so many rounds. -/
def betaBinomialUpperTail (rounds : ℕ) (k n : Int64) (a bb : F) : Option F :=
  if k ≤ 0 then some 1
  else if n < k then some 0
  else
    ((tailLoop m n a bb).run rounds (k, 0)).map fun tail => if 1 < tail then 1 else tail

end

/-- `LossSample`. -/
structure LossSample where
  sent : Int64
  received : Int64
deriving DecidableEq, Repr

/-- The losses in a batch, as `step` counts them. -/
def LossSample.lost (s : LossSample) : Int64 :=
  let lost := s.sent - s.received
  if lost < 0 then 0 else lost

end Cepheus.Argus.Machine
