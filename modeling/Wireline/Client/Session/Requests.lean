import Wireline.Client.Session.Basic
import Wireline.Domain.Convention

/-!
# Requests and their answers

A request is sent under a fresh id (`Session.dispatch`), and the frame that answers it is led back
by that id (`Session.routeReply`). When the link is lost, every request that is still unanswered is
given back to whoever made it.
-/

set_option autoImplicit false
set_option relaxedAutoImplicit false

namespace Wireline

namespace Session

/-- The frame of a request, if it can be written and the transport takes it. -/
def frameOf (session : Session) (request : Request) (id : Nat) : Except ClientError Octets := do
  let frame ← (encodeValue (request.toFrame id)).mapError .wire
  match session.payloadLimit with
  | some limit =>
    if limit < frame.length then throw (.transport (.payloadTooLarge frame.length limit))
    else return frame
  | none => return frame

/-- Hands a frame to the link. Without a link that takes it, the link counts as broken. -/
def send (session : Session) (outgoing : Outgoing) : Session :=
  if session.link = .whole then session.push (.send outgoing)
  else { session with isBroken := true }

/-- Lists a request under a fresh id, for whoever made it, and hands its frame to the link. -/
def launch (session : Session) (origin : Origin) (request : Request) (frame : Octets) : Session :=
  let id := session.nextId
  let session :=
    { session with
      nextId := id + 1
      replies := (session.replies.subscribeOnce id origin).1
      inflight := session.inflight.set id request }
  (session.push (.dispatched id origin)).send ⟨id, origin, request, frame⟩

/-- Sends a request under a fresh id. An id is used up even if the request cannot be sent. -/
def dispatch (session : Session) (origin : Origin) (request : Request) :
    Session × Except ClientError Nat :=
  match session.frameOf request session.nextId with
  | .error error => ({ session with nextId := session.nextId + 1 }, .error error)
  | .ok frame => (session.launch origin request frame, .ok session.nextId)

/-- Sends the request of a caller, who is told if it cannot be sent. -/
def dispatchCall (session : Session) (ticket : Ticket) (request : Request) : Session :=
  match session.dispatch (.caller ticket) request with
  | (session, .ok _) => session
  | (session, .error error) => session.tell ticket (.refused error)

/-- Makes the answer to a request of the session itself known to it. -/
def setAnswer (session : Session) (response : Response) : Session :=
  match session.phase with
  | .restoring restoration =>
    { session with phase := .restoring { restoration with answer := some response } }
  | _ => session

/-- Passes the reply under an id on to one who awaits it. -/
def deliver (id : Nat) (reply : Reply) (session : Session) (origin : Origin) : Session :=
  let session := session.push (.replied id origin reply)
  match origin, reply with
  | .restoration, .response response => session.setAnswer response
  | _, _ => session

/-- Passes a reply on to whoever awaits it under an id. -/
def emitReply (session : Session) (id : Nat) (reply : Reply) : Session :=
  let (replies, origins) := session.replies.emit id
  origins.foldl (deliver id reply) { session with replies }

/-- Leads the answer under an id back to its request. One under an unknown id is ignored. -/
def routeReply (session : Session) (id : Nat) (response : Response) : Session :=
  match session.inflight.get? id with
  | none => session
  | some request =>
    let standing := match response with
      | .ok result => session.standing.apply request result
      | .error _ => session.standing
    { session with standing, inflight := session.inflight.erase id }.emitReply id
      (.response response)

/-- Gives a reply to all requests that are not answered. -/
def replyToAll (session : Session) (reply : Reply) : Session :=
  session.inflight.keys.foldl (fun session id ↦ session.emitReply id reply)
    { session with inflight := .empty }

/-- Whether the last keep-alive is not answered yet. -/
def awaitsKeepAlive (session : Session) : Bool :=
  session.lastKeepAlive.any session.inflight.contains

/-- Sends a keep-alive, unless the last one is not answered yet. -/
def ping (session : Session) : Session :=
  if session.awaitsKeepAlive then session
  else
    match session.dispatch .keepAlive ⟨"ping", []⟩ with
    | (session, .ok id) => { session with lastKeepAlive := some id }
    | (session, .error _) => session

end Session

end Wireline
