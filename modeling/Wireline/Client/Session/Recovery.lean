import Wireline.Client.Session.Requests
import Wireline.Client.Session.Streams

/-!
# The loss of a link

When its link is lost, a session gives back the requests that are not answered, closes the streams
whose queries it cannot start again, and makes attempts to reconnect (`Session.lose`). On a fresh
link it first brings back its standing, then starts the queries of its streams again, one call at a
time and each awaited (`Session.restore`), and only then serves its callers again
(`Session.resume`). A session that gives up closes all that is pending (`Session.shutdown`).
-/

set_option autoImplicit false
set_option relaxedAutoImplicit false

namespace Wireline

namespace Session

/-! ### The end -/

/-- Ends the session, and tells the caller who asked for that. -/
def stop (session : Session) : Session :=
  let session := match session.closer with
    | some ticket => session.tell ticket .closed
    | none => session
  { session with phase := .stopped }.push .stopped

/-- The status in which a connection is left that was given up. -/
def statusAfter : DisconnectReason → Status
  | .closed | .transportLost => .disconnected
  | .reconnectExhausted | .protocol => .error

/-- Gives the connection up: every request fails, every stream is closed, and nothing is left
pending. A session that was closed ends at once. -/
def shutdown (session : Session) (reason : DisconnectReason) : Session :=
  let error := ClientError.disconnected reason
  let session := session.hangUp.replyToAll (.failed error)
  let session := session.deferred.foldl
    (fun session call ↦ session.tell call.1 (.refused error)) { session with deferred := [] }
  let session := session.closeStreams .disconnected fun _ ↦ true
  if reason = .closed then ({ session with standing := {} }.setStatus (statusAfter reason)).stop
  else { session.setStatus (statusAfter reason) with phase := .settled }

/-! ### Reconnecting -/

/-- What a session is about that may make another attempt: it pauses for the delay before it, if
there is one. -/
def pausing (session : Session) : Option Span → Phase
  | some delay =>
    .backingOff
      (session.now + (Backoff.pause delay session.circumstances.longestPause).nanoseconds)
  | none => .halted

/-- Prepares the next attempt to reconnect, or gives up if no further one is permitted. -/
def retryLater (session : Session) : Session :=
  match session.backoff.beginAttempt session.now session.circumstances.draw with
  | (backoff, .ok delay) => { session with backoff, phase := session.pausing delay }
  | (backoff, .error _) => { session with backoff }.shutdown .reconnectExhausted

/-- What follows the loss of the link while it was in use. -/
def lose (session : Session) : Session :=
  if session.backoff.policy.enabled then
    let session := (session.hangUp.setStatus .reconnecting).replyToAll .retry
    (session.closeStreams .disconnected fun subscription ↦ subscription.query.isNone).retryLater
  else session.shutdown .transportLost

/-- What follows the loss of the link while it was being restored. -/
def loseAgain (session : Session) : Session :=
  (session.hangUp.replyToAll .retry).retryLater

/-- Looks after a session that serves its callers: it ends if it was asked to, and reconnects if the
link is broken. -/
def attend (session : Session) : Session :=
  if session.closer.isSome then session.shutdown .closed
  else if session.isBroken then session.lose
  else session

/-- Serves callers again after a restoration, those first who waited for it. -/
def resume (session : Session) : Session :=
  let session := session.setStatus .connected
  let session := session.deferred.foldl (fun session call ↦ session.dispatchCall call.1 call.2)
    { session with deferred := [] }
  { session with
    backoff := session.backoff.reset session.now
    phase := .serving (session.now + session.keepAlive) }.attend

/-! ### Restoring -/

/-- Awaits the answer to a call that was just made, unless the link broke under it. -/
def await (session : Session) (restoration : Restoration) : Session :=
  if session.isBroken then session.loseAgain
  else { session with phase := .restoring restoration }

/-- The open streams whose queries can be started again and have not been, the oldest first. -/
def unrestarted (session : Session) (restarted : List Nat) : List Nat :=
  (session.subscriptions.entries.filter fun entry ↦
    entry.2.query.isSome && !restarted.contains entry.1).map Prod.fst

/-- Starts the query of the first of some streams again. A stream whose query cannot be sent is
closed. -/
def restartFirst (session : Session) (restarted : List Nat) : List Nat → Session
  | [] => session.resume
  | handle :: handles =>
    match (session.subscriptions.get? handle).bind Subscription.query with
    | none => session.restartFirst restarted handles
    | some query =>
      match session.dispatch .restoration query.request with
      | (session, .ok _) =>
        session.await
          { awaited := .stream handle, remaining := [], restarted := handle :: restarted }
      | (session, .error _) =>
        (session.closeStream .disconnected handle).restartFirst restarted handles

/-- Starts the next query of a stream again. When none is left the link is restored. -/
def restartStreams (session : Session) (restarted : List Nat) : Session :=
  session.restartFirst restarted (session.unrestarted restarted)

/-- Forgets the token that the server does not take any more. -/
def failStanding (session : Session) (method : String) : Session :=
  if method = "authenticate" then
    { session with standing := { session.standing with token := none } }
  else session

/-- Makes the calls for the standing, then starts the queries of the streams again. -/
def restore (session : Session) : List Request → Session
  | [] => session.restartStreams []
  | request :: requests =>
    match session.dispatch .restoration request with
    | (session, .ok _) =>
      session.await { awaited := .standing request.method, remaining := requests }
    | (session, .error _) => (session.failStanding request.method).restore requests

/-- What the answer to a call for the standing means. -/
def settleStanding (session : Session) (method : String) : Response → Session
  | .ok _ => session
  | .error _ => session.failStanding method

/-- What the answer to the restart of a query means for its stream. -/
def settleStream (session : Session) (handle : Nat) : Response → Session
  | .ok result =>
    match Uuid.ofValue result with
    | .ok id => session.rebind handle id
    | .error _ => session.closeStream .disconnected handle
  | .error _ => session.closeStream .disconnected handle

/-- Looks after a session that restores its link: it goes on once its call is answered, ends if it
was asked to, and reconnects if the link is broken. -/
def attendRestoration (session : Session) (restoration : Restoration) : Session :=
  match restoration.answer, restoration.awaited with
  | some response, .standing method =>
    (session.settleStanding method response).restore restoration.remaining
  | some response, .stream handle =>
    (session.settleStream handle response).restartStreams restoration.restarted
  | none, _ =>
    if session.closer.isSome then session.shutdown .closed
    else if session.isBroken then session.loseAgain
    else session

end Session

end Wireline
