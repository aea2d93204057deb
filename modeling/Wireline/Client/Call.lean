import Wireline.Client.Session.Basic

/-!
# Calls of a client

A call is what a caller of the client does and waits for. It sends a command to the session, and
what the session answers either finishes it or leads to the next command: a request that the loss of
a link interrupted is made again, the id of a live query leads to its stream, and a client is
connected once its selection is made.
-/

set_option autoImplicit false
set_option relaxedAutoImplicit false

namespace Wireline

/-- What a call gives its caller. -/
inductive Outcome
  | connected
  | done
  | value (value : Value)
  | version (version : String)
  | standing (standing : Standing)
  | stream (handle : Nat)

/-- What a call makes of the result of its request. -/
inductive Purpose
  /-- Gives it to the caller. -/
  | give
  | acknowledge
  | readVersion
  /-- Opens the stream of a live query. -/
  | openStream (query : LiveQuery)
  /-- Goes on to the rest of a selection. -/
  | select (remaining : List Request)

/-- What a call is waiting for. -/
inductive Call
  /-- The first link, over which a selection is then made. -/
  | opening (selection : List Request)
  | requesting (request : Request) (purpose : Purpose)
  | subscribing (id : Uuid) (query : Option LiveQuery)
  | killing (stream : Nat)
  | askingStanding
  | closing
  | awaitingConnection

namespace Call

/-! ### The calls there are -/

/-- Connects, and makes the selection of a configuration. -/
def connect (config : ClientConfig) : Call :=
  .opening <| Standing.restoreRequests
    { namespaceName := config.namespaceName, database := config.database, token := config.token }

def rpc (method : String) (params : List Value) : Call :=
  .requesting ⟨method, params⟩ .give

def query (text : String) (bindings : Value) : Call :=
  rpc "query" [.text text, bindings]

def signIn (credentials : Value) : Call :=
  rpc "signin" [credentials]

def signUp (credentials : Value) : Call :=
  rpc "signup" [credentials]

def use (namespaceName database : Option String) : Call :=
  .requesting ⟨"use", [.ofOption .text namespaceName, .ofOption .text database]⟩ .acknowledge

def authenticate (token : String) : Call :=
  .requesting ⟨"authenticate", [.text token]⟩ .acknowledge

def invalidate : Call :=
  .requesting ⟨"invalidate", []⟩ .acknowledge

def reset : Call :=
  .requesting ⟨"reset", []⟩ .acknowledge

def ping : Call :=
  .requesting ⟨"ping", []⟩ .acknowledge

def version : Call :=
  .requesting ⟨"version", []⟩ .readVersion

/-- Starts a live query that the session starts again on every fresh link. -/
def live (query : LiveQuery) : Call :=
  .requesting query.request (.openStream query)

/-- Listens to a live query that is already running. -/
def subscribe (id : Uuid) : Call :=
  .subscribing id none

/-! ### How they go on -/

/-- How a call goes on. -/
inductive Progress
  /-- It waits for something else now, for which it sends a command. -/
  | ask (call : Call)
  | wait
  | finish (result : Except ClientError Outcome)

/-- The command that a call sends for what it is waiting for. -/
def command? (ticket : Ticket) : Call → Option Session.Command
  | requesting request _ => some (.request ticket request)
  | subscribing id query => some (.subscribe ticket id query)
  | killing stream => some (.kill ticket stream)
  | askingStanding => some (.standing ticket)
  | closing => some (.close ticket)
  | opening _ | awaitingConnection => none

/-- Makes the next request of a selection. -/
def selectNext : List Request → Progress
  | [] => .finish (.ok .connected)
  | request :: remaining => .ask (.requesting request (.select remaining))

/-- What a call makes of the result of its request. -/
def conclude (result : Value) : Purpose → Progress
  | .give => .finish (.ok (.value result))
  | .acknowledge => .finish (.ok .done)
  | .readVersion =>
    match result.text? with
    | some version => .finish (.ok (.version version))
    | none => .finish (.error (.protocol (.versionNotText result)))
  | .openStream query =>
    match Uuid.ofValue result with
    | .ok id => .ask (.subscribing id (some query))
    | .error error => .finish (.error (.protocol (.liveId error)))
  | .select remaining => selectNext remaining

/-- What a reply means for a call that made a request. -/
def conclusion (request : Request) (purpose : Purpose) : Reply → Progress
  | .response (.ok result) => conclude result purpose
  | .response (.error error) => .finish (.error error.toClientError)
  | .retry => .ask (.requesting request purpose)
  | .failed error => .finish (.error error)

/-- What an answer of the session means for a call. -/
def hear (call : Call) (answer : Session.Answer) : Progress :=
  match call, answer with
  | .requesting _ _, .refused error => .finish (.error error)
  | .requesting request purpose, .reply reply => conclusion request purpose reply
  | .subscribing _ _, .subscribed result => .finish (result.map .stream)
  | .killing _, .killed none => .finish (.ok .done)
  | .killing _, .killed (some id) => .ask (.requesting ⟨"kill", [id.toValue]⟩ .acknowledge)
  | .askingStanding, .standing standing => .finish (.ok (.standing standing))
  | .closing, .closed => .finish (.ok .done)
  | _, _ => .wait

/-- What the first link, or its failure, means for a call. -/
def hearOpening (call : Call) (result : Except ClientError Unit) : Progress :=
  match call, result with
  | .opening selection, .ok () => selectNext selection
  | .opening _, .error error => .finish (.error error)
  | _, _ => .wait

/-- What the status of the connection means for a call. -/
def observe (call : Call) (status : Status) : Progress :=
  match call, status with
  | .awaitingConnection, .connected => .finish (.ok .done)
  | .awaitingConnection, .disconnected | .awaitingConnection, .error =>
    .finish (.error .unavailable)
  | _, _ => .wait

/-- The result of a call whose command finds no session any more. -/
def orphaned : Call → Except ClientError Outcome
  | closing => .ok .done
  | _ => .error .unavailable

end Call

end Wireline
