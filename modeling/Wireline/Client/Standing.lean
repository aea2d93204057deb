import Wireline.Client.Frame

/-!
# The standing of a connection

The server keeps a namespace, a database and the authentication for each connection. `Standing` is
what the client knows of it, gathered from the calls that succeeded (`Standing.apply`), and
`Standing.restoreRequests` are the calls that bring a fresh connection to it.
-/

set_option autoImplicit false
set_option relaxedAutoImplicit false

namespace Wireline

/-- Where a connection is in its life. -/
inductive Status
  | disconnected
  | connecting
  | connected
  | reconnecting
  | error
  deriving DecidableEq

def Status.name : Status → String
  | .disconnected => "disconnected"
  | .connecting => "connecting"
  | .connected => "connected"
  | .reconnecting => "reconnecting"
  | .error => "error"

/-- What the server keeps for a connection. -/
structure Standing where
  url : Option String := none
  namespaceName : Option String := none
  database : Option String := none
  token : Option String := none
  deriving DecidableEq

namespace Standing

/-- A selection after a parameter: null clears it, a text sets it, and anything else, or nothing,
leaves it. -/
def select (current : Option String) : Option Value → Option String
  | some .null => none
  | some (.text name) => some name
  | _ => current

/-- The token in the answer to a sign-in: the answer itself, or its field. -/
def tokenIn (result : Value) : Option String :=
  match result with
  | .text token => some token
  | other => (other.get? "token").bind Value.text?

/-- What a successful call makes of the standing. -/
def apply (standing : Standing) (request : Request) (result : Value) : Standing :=
  match request.method with
  | "use" =>
    { standing with
      namespaceName := select standing.namespaceName request.params[0]?
      database := select standing.database request.params[1]? }
  | "signin" | "signup" => { standing with token := (tokenIn result).or standing.token }
  | "authenticate" =>
    { standing with token := (request.params[0]?.bind Value.text?).or standing.token }
  | "invalidate" => { standing with token := none }
  | "reset" => { standing with namespaceName := none, database := none, token := none }
  | _ => standing

/-- The call that selects namespace and database, if there is a selection. -/
def useRequest (standing : Standing) : Option Request :=
  if standing.namespaceName.isSome || standing.database.isSome then
    some ⟨"use", [.ofOption .text standing.namespaceName, .ofOption .text standing.database]⟩
  else none

/-- The call that presents the token, if there is one. -/
def authenticateRequest (standing : Standing) : Option Request :=
  standing.token.map fun token ↦ ⟨"authenticate", [.text token]⟩

/-- The calls that bring a fresh connection to this standing, in order. -/
def restoreRequests (standing : Standing) : List Request :=
  standing.useRequest.toList ++ standing.authenticateRequest.toList

end Standing

end Wireline
