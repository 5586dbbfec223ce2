import Cepheus.Infra.Table
import Cepheus.Server.AgentConfig

/-!
# The request of an agent

`GetAgentConfig` of `services/server/handler/agent_config.go`: the request for the configuration of
a device, and the codes of its errors.
-/

namespace Cepheus.Server

open Infra AgentV1

/-- The codes of `connect` that the handler uses. -/
inductive Code where
  | invalidArgument
  | notFound
  | internal
deriving DecidableEq, Repr

inductive HandlerError where
  | missingSerialID
  | agentNotFound (serialID : String)
  | load (err : LoadError)
deriving DecidableEq, Repr

def HandlerError.code : HandlerError → Code
  | .missingSerialID => .invalidArgument
  | .agentNotFound _ => .notFound
  | .load _ => .internal

/-- The handler, with what comes of its query. -/
def getAgentConfig (parseFloat : Json.Number → Option UInt64) (serialID : String) (query : Query) :
    Except HandlerError AgentConfig :=
  if serialID = "" then .error .missingSerialID
  else
    match loadAgentConfig parseFloat query with
    | .ok cfg => .ok cfg
    | .error .agentNotFound => .error (.agentNotFound serialID)
    | .error err => .error (.load err)

/-- How the query goes. -/
inductive Fetch where
  | complete
  | queryFailed (err : String)
  /-- A row after the first `n` cannot be scanned. -/
  | scanFailed (n : Nat) (err : String)
  /-- The rows end with an error, after `n` of them. -/
  | rowsFailed (n : Nat) (err : String)
deriving DecidableEq, Repr

/-- What comes of a query for these rows. -/
def Fetch.query (rows : List Row) : Fetch → Query
  | .complete => .rows (rows.map .ok) none
  | .queryFailed err => .failed err
  | .scanFailed n err => .rows ((rows.take n).map .ok ++ [.error err]) none
  | .rowsFailed n err => .rows ((rows.take n).map .ok) (some err)

end Cepheus.Server
