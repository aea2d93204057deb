import Wireline.Client.Live

/-!
# Frames between client and server

A request is a map with an id, a method and parameters. The server answers it under the same id with
a result or an error. A frame without an id carries a notification of a live query in place of a
result. `Inbound.parse` tells the two kinds of inbound frames apart.
-/

set_option autoImplicit false
set_option relaxedAutoImplicit false

namespace Wireline

/-- A call of a method on the server. -/
structure Request where
  method : String
  params : List Value

/-- The frame that sends a request under an id. -/
def Request.toFrame (request : Request) (id : Nat) : Value :=
  .ofFields [("id", .integer id), ("method", .text request.method),
    ("params", .array request.params)]

/-- The call that starts a live query. The server answers it with the id of the query. -/
def LiveQuery.request (query : LiveQuery) : Request :=
  ⟨"live", [query.what, .bool query.diff]⟩

/-- An error with which the server answers a request. -/
structure ServerError where
  code : Int64
  message : String
  deriving DecidableEq

def ServerError.toClientError (error : ServerError) : ClientError :=
  .server error.code error.message

/-- The server's answer to a request. -/
abbrev Response := Except ServerError Value

/-- A frame from the server. -/
inductive Inbound
  | reply (id : UInt64) (response : Response)
  | notification (message : LiveMessage)

namespace Inbound

/-- What an option holds, or a fault. -/
def require {α : Type} (fault : ProtocolFault) : Option α → Except ClientError α
  | some a => .ok a
  | none => .error (.protocol fault)

/-- Reads an error object. -/
def parseError (error : Value) : Except ClientError ServerError := do
  let code ← require .errorWithoutCode ((error.get? "code").bind Value.int64?)
  let message ← require .errorWithoutMessage ((error.get? "message").bind Value.text?)
  return ⟨code, message⟩

/-- Reads the answer in a frame. One without a result stands for null. -/
def parseResponse (frame : Value) : Except ClientError Response :=
  match frame.get? "error" with
  | some error => (parseError error).map .error
  | none => .ok (.ok ((frame.get? "result").getD .null))

/-- Reads a notification. -/
def parseNotification (result : Value) : Except ClientError LiveMessage := do
  let id ← require .notificationWithoutId (result.get? "id")
  let id ← (Uuid.ofValue id).mapError fun error ↦ .protocol (.notificationId error)
  let action ← require .notificationWithoutAction ((result.get? "action").bind Value.text?)
  let action ← LiveAction.parse action
  return ⟨id, action, (result.get? "result").getD .null⟩

/-- Reads what stands in a frame without an id. -/
def parseUncorrelated (frame : Value) : Except ClientError Inbound := do
  match frame.get? "error" with
  | some error =>
    let error ← parseError error
    throw (.protocol (.uncorrelatedError error.code error.message))
  | none =>
    let result ← require .unexpectedResponse (frame.get? "result")
    return notification (← parseNotification result)

/-- Reads a frame from the server. An absent id counts as none. -/
def parse (frame : Value) : Except ClientError Inbound := do
  match frame with
  | .map _ =>
    match (frame.get? "id").filter fun id ↦ !id.isAbsent with
    | some id =>
      let number ← require (.invalidReplyId id) id.uint64?
      return reply number (← parseResponse frame)
    | none => parseUncorrelated frame
  | _ => throw (.protocol .notAMap)

end Inbound

end Wireline
