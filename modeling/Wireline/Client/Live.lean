import Wireline.Client.Error
import Wireline.Domain.Uuid

/-!
# Live queries

The server watches a live query and notifies the client of every change to the rows it selects. On
the client, a stream hands out the notifications of one query. A stream ends with one closing event,
which is its last.
-/

set_option autoImplicit false
set_option relaxedAutoImplicit false

namespace Wireline

/-- What has happened to a row, or to the query itself. -/
inductive LiveAction
  | create
  | update
  | delete
  /-- The server has ended the query. -/
  | killed
  deriving DecidableEq

namespace LiveAction

/-- The name of an action in a notification. -/
def name : LiveAction → String
  | create => "CREATE"
  | update => "UPDATE"
  | delete => "DELETE"
  | killed => "KILLED"

/-- The action with a name, which must be written in capitals. -/
def parse (text : String) : Except ClientError LiveAction :=
  match [create, update, delete, killed].find? fun action ↦ action.name == text with
  | some action => .ok action
  | none => .error (.protocol (.unknownAction text))

end LiveAction

/-- A notification of the server for a live query. -/
structure LiveMessage where
  id : Uuid
  action : LiveAction
  result : Value

/-- Why a stream was closed. -/
inductive CloseReason
  | killed
  | disconnected
  deriving DecidableEq

/-- What a stream hands out. -/
inductive LiveEvent
  | message (message : LiveMessage)
  | closed (reason : CloseReason)

/-- What the caller of a live query holds. Events come in at the end, the oldest stands first. -/
structure LiveStream where
  /-- The id of the query on the server, which changes when the query is restarted. -/
  id : Uuid
  isAlive : Bool := true
  events : List LiveEvent := []

namespace LiveStream

def push (stream : LiveStream) (message : LiveMessage) : LiveStream :=
  { stream with events := stream.events ++ [.message message] }

def close (stream : LiveStream) (reason : CloseReason) : LiveStream :=
  { stream with isAlive := false, events := stream.events ++ [.closed reason] }

end LiveStream

/-- What a live query watches, and whether it reports differences only. -/
structure LiveQuery where
  what : Value
  diff : Bool

end Wireline
