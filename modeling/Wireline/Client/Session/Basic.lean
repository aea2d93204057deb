import Wireline.Client.Config
import Wireline.Client.Emitter
import Wireline.Client.Standing

/-!
# Sessions

A `Session` is what a client keeps of its conversation with a server: the requests that await an
answer, the streams of live queries, the link and what is done about its loss. It does nothing by
itself. It is told of commands, frames, links and the passing of time (`Session.Event`), and what it
wants done or known comes out as a list of effects (`Session.Effect`).

This module holds the state. What a session does is in the modules beside it: `Requests` for calls
and their answers, `Streams` for live queries, `Recovery` for the loss of a link and the end of a
session, and `Step` for the events.

What a session has no say in and is told nothing of, such as what chance draws, is in its
`Circumstances`. An event may alter them at any time, so what holds of every list of events holds
however they turn out.

Times are nanoseconds on a clock that never runs backwards, and the clock has no last reading: a
keep-alive that would be due beyond the range of a real one is here due all the same.
-/

set_option autoImplicit false
set_option relaxedAutoImplicit false

namespace Wireline

/-- The number under which a caller awaits what becomes of a command. -/
abbrev Ticket := Nat

/-- Who awaits the answer to a request. -/
inductive Origin
  | caller (ticket : Ticket)
  /-- The session, which brings a fresh link to where the last one was. -/
  | restoration
  /-- Nobody. The request shows that the link is in use. -/
  | keepAlive
  deriving DecidableEq

/-- What becomes of a request that was sent. -/
inductive Reply
  | response (response : Response)
  /-- The link was lost before the answer came, and the request is to be made again. -/
  | retry
  | failed (error : ClientError)

namespace Session

/-- What a caller asks of a session. -/
inductive Command
  | request (ticket : Ticket) (request : Request)
  /-- Listens to a live query of the server. With the query the session can start it again after the
  loss of a link. -/
  | subscribe (ticket : Ticket) (id : Uuid) (query : Option LiveQuery)
  /-- Closes a stream. -/
  | kill (ticket : Ticket) (stream : Nat)
  | standing (ticket : Ticket)
  | close (ticket : Ticket)

/-- What a session tells a caller. -/
inductive Answer
  /-- The request was not sent. -/
  | refused (error : ClientError)
  | reply (reply : Reply)
  /-- The stream of a live query. -/
  | subscribed (result : Except ClientError Nat)
  /-- The id that the stream had, if there was such a stream. -/
  | killed (id : Option Uuid)
  | standing (standing : Standing)
  | closed

/-- What a session finds and has no say in. -/
structure Circumstances where
  /-- What chance draws when a delay is to be jittered. -/
  draw : Binary64 := .zero
  /-- The longest pause that the timer makes. -/
  longestPause : Span := Backoff.longestPause
  /-- Tells which stream comes first when several have the same live query. -/
  pick : Nat := 0

/-- What reaches a session. -/
inductive Event
  /-- The client asks for its first link. -/
  | start
  | command (command : Command)
  /-- Nobody holds the client any more. -/
  | abandoned
  /-- The link that was asked for is open. -/
  | linked
  /-- The link that was asked for cannot be had. -/
  | refused (error : TransportError)
  | frame (frame : Octets)
  /-- The other end of the link takes no more frames. Some of its own may still come. -/
  | severed
  /-- The link is gone, and nothing more will come over it. -/
  | lost
  /-- Time passes. -/
  | elapse (nanoseconds : Nat)
  /-- The circumstances are these from now on. -/
  | altered (circumstances : Circumstances)

/-- A request as it is sent. -/
structure Outgoing where
  id : Nat
  origin : Origin
  request : Request
  frame : Octets

/-- What a session wants done, or makes known. -/
inductive Effect
  /-- Asks for a link. -/
  | dial (url : String)
  /-- Lets go of the link. -/
  | hangUp
  | send (outgoing : Outgoing)
  /-- A request is under way, and whoever made it awaits what becomes of it. -/
  | dispatched (id : Nat) (origin : Origin)
  /-- What became of the request under an id, for whoever made it. -/
  | replied (id : Nat) (origin : Origin) (reply : Reply)
  | tell (ticket : Ticket) (answer : Answer)
  | status (status : Status)
  /-- The first link is open. -/
  | opened
  /-- The first link cannot be had, and the session is over. -/
  | failedToOpen (error : ClientError)
  /-- The session is over. -/
  | stopped

/-- A stream that is open. -/
structure Subscription where
  /-- The id of the live query on the server. -/
  id : Uuid
  /-- The query, if the session can start it again. -/
  query : Option LiveQuery
  /-- The listener that leads to the stream. -/
  listener : Nat

/-- How a session stands to its link. -/
inductive Link
  | none
  | whole
  /-- The other end takes no more frames. -/
  | severed
  deriving DecidableEq

/-- What the answer to a request of the session itself is for. -/
inductive Restored
  /-- A call of a method that brings back the standing. -/
  | standing (method : String)
  /-- The restart of the query of a stream. -/
  | stream (handle : Nat)

/-- How far a session has come in restoring a fresh link. -/
structure Restoration where
  awaited : Restored
  answer : Option Response := none
  /-- The calls that are still to be made for the standing. -/
  remaining : List Request
  /-- The streams whose queries were started again. -/
  restarted : List Nat := []

/-- What a session is about. -/
inductive Phase
  | unopened
  | opening
  /-- The link is in use. The next keep-alive is due at a time. -/
  | serving (tick : Nat)
  /-- The next attempt to reconnect is made at a time. -/
  | backingOff (wake : Nat)
  | dialing
  | restoring (restoration : Restoration)
  /-- The connection is given up. What callers ask is still answered. -/
  | settled
  | stopped
  /-- There is no delay before the next attempt, and the session has broken down over it. It is not
  over as one that ends is: nobody is told, and what was pending is left pending. -/
  | halted

end Session

open Session in
/-- What a client keeps of its conversation with a server. -/
structure Session where
  url : String
  /-- The longest frame that the transport takes, if there is a limit. -/
  payloadLimit : Option Nat
  /-- The time between two keep-alives. -/
  keepAlive : Nat
  backoff : Backoff
  /-- Who awaits the answer under an id. -/
  replies : Emitter Nat Origin Reply := {}
  /-- The streams that listen to a live query, and notifications that no stream listens to yet. -/
  live : Emitter Uuid Nat LiveMessage
  phase : Phase := .unopened
  status : Status := .disconnected
  standing : Standing := {}
  /-- The requests that were sent over the link and are not answered. -/
  inflight : Table Nat Request := .empty
  /-- The open streams. -/
  subscriptions : Table Nat Subscription := .empty
  /-- All streams that were ever handed out. -/
  streams : Table Nat LiveStream := .empty
  /-- Live queries whose notifications are dropped instead of kept. -/
  retired : List Uuid := []
  /-- The last keep-alive that was sent. -/
  lastKeepAlive : Option Nat := none
  /-- Requests that wait until the link is restored, the oldest first. -/
  deferred : List (Ticket × Request) := []
  nextId : Nat := 1
  nextHandle : Nat := 1
  link : Link := .none
  /-- Whether a frame could not be sent over the link. -/
  isBroken : Bool := false
  /-- The caller who asked to close the session. -/
  closer : Option Ticket := none
  circumstances : Circumstances := {}
  now : Nat := 0
  /-- What the session wants done, the oldest first. -/
  outbox : List Effect := []

namespace Session

/-- A session that has not begun. -/
def ofConfig (url : String) (config : ClientConfig) (payloadLimit : Option Nat) : Session where
  url := url
  payloadLimit := payloadLimit
  keepAlive := config.keepAlive.nanoseconds
  backoff := { policy := config.reconnect }
  live := .withLimit config.notificationCapacity

def push (session : Session) (effect : Effect) : Session :=
  { session with outbox := session.outbox ++ [effect] }

def tell (session : Session) (ticket : Ticket) (answer : Answer) : Session :=
  session.push (.tell ticket answer)

def setStatus (session : Session) (status : Status) : Session :=
  if session.status = status then session
  else { session with status }.push (.status status)

/-- Takes a fresh link into use. -/
def attach (session : Session) : Session :=
  { session with link := .whole, isBroken := false }

/-- Lets go of the link, if there is one. -/
def hangUp (session : Session) : Session :=
  match session.link with
  | .none => session
  | _ => { session with link := .none }.push .hangUp

end Session

end Wireline
