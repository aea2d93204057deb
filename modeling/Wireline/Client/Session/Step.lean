import Wireline.Client.Session.Recovery

/-!
# The events of a session

`Session.step` says what a session does on one event, and `Session.run` on a list of them. An event
that does not fit the phase of the session, such as a frame while there is no link, changes nothing.
-/

set_option autoImplicit false
set_option relaxedAutoImplicit false

namespace Wireline

namespace Session

/-- Looks after a session once a command was obeyed or a frame was read. -/
def settle (session : Session) : Session :=
  match session.phase with
  | .serving _ => session.attend
  | .backingOff _ | .dialing => if session.closer.isSome then session.shutdown .closed else session
  | .restoring restoration => session.attendRestoration restoration
  | .settled => if session.closer.isSome then session.stop else session
  | _ => session

/-! ### Commands -/

/-- Whether a stream may be opened. While the session reconnects, its query must be known, so that
it can be started again. -/
def admits (session : Session) (query : Option LiveQuery) : Bool :=
  session.status = .connected || (session.status = .reconnecting && query.isSome)

def subscribe (session : Session) (ticket : Ticket) (id : Uuid) (query : Option LiveQuery) :
    Session :=
  if session.admits query then
    let (session, handle) := session.register id query
    session.tell ticket (.subscribed (.ok handle))
  else session.tell ticket (.subscribed (.error .unavailable))

def kill (session : Session) (ticket : Ticket) (handle : Nat) : Session :=
  let id := (session.subscriptions.get? handle).map Subscription.id
  (session.closeStream .killed handle).tell ticket (.killed id)

/-- What becomes of a request now. It waits while the session reconnects. -/
def request (session : Session) (ticket : Ticket) (request : Request) : Session :=
  match session.phase with
  | .serving _ => session.dispatchCall ticket request
  | .backingOff _ | .dialing | .restoring _ =>
    { session with deferred := session.deferred ++ [(ticket, request)] }
  | _ => session.tell ticket (.refused .unavailable)

def obey (session : Session) : Command → Session
  | .request ticket request => session.request ticket request
  | .subscribe ticket id query => session.subscribe ticket id query
  | .kill ticket handle => session.kill ticket handle
  | .standing ticket => session.tell ticket (.standing session.standing)
  | .close ticket => { session with closer := some ticket }

/-! ### Frames -/

/-- Leads a frame to where it belongs. -/
def route (session : Session) : Inbound → Session
  | .reply id response => session.routeReply id.toNat response
  | .notification message => session.routeNotification message

/-- Reads a frame. -/
def read (frame : Octets) : Except ClientError Inbound := do
  Inbound.parse (← (decodeValue frame).mapError .wire)

/-- Takes a frame from the server. One that makes no sense ends the connection. -/
def receive (session : Session) (frame : Octets) : Session :=
  match read frame with
  | .ok inbound => (session.route inbound).settle
  | .error _ => session.shutdown .protocol

/-! ### Time -/

/-- A keep-alive that is late by no more than this keeps the rhythm. -/
def lateness : Nat := 5000000

/-- When the keep-alive is due after one that was due at a time. -/
def nextTick (session : Session) (tick : Nat) : Nat :=
  if tick + lateness < session.now then session.now + session.keepAlive
  else tick + session.keepAlive

/-- When the session next does something by itself. -/
def dueAt (session : Session) : Option Nat :=
  match session.phase with
  | .serving tick => some tick
  | .backingOff wake => some wake
  | _ => none

/-- Whether the session has something to do at this time. -/
def isDue (session : Session) : Bool :=
  session.dueAt.any (· ≤ session.now)

/-- Does what is due. -/
def wake (session : Session) : Session :=
  match session.phase with
  | .serving tick => { session.ping with phase := .serving (session.nextTick tick) }.attend
  | .backingOff _ => { session with phase := .dialing }.push (.dial session.url)
  | _ => session

/-! ### Links -/

/-- Asks for the first link. -/
def start (session : Session) : Session :=
  { session.setStatus .connecting with phase := .opening }.push (.dial session.url)

/-- Begins to serve over the first link. -/
def beginServing (session : Session) : Session :=
  let session :=
    { session.attach with
      standing := { session.standing with url := some session.url }
      backoff := session.backoff.reset session.now
      phase := .serving (session.now + session.keepAlive) }
  (session.setStatus .connected).push .opened

/-- Ends the session because the first link cannot be had. -/
def failToOpen (session : Session) (error : TransportError) : Session :=
  { session.setStatus .error with phase := .stopped }.push (.failedToOpen (.transport error))

/-! ### Events -/

/-- Whether the session takes commands. -/
def isOpen (session : Session) : Bool :=
  match session.phase with
  | .unopened | .opening | .stopped | .halted => false
  | _ => true

/-- What a session does on an event. -/
def step (session : Session) : Event → Session
  | .start =>
    match session.phase with
    | .unopened => session.start
    | _ => session
  | .command command => if session.isOpen then (session.obey command).settle else session
  | .abandoned =>
    match session.phase with
    | .serving _ | .backingOff _ | .dialing | .restoring _ => session.shutdown .closed
    | .settled => session.stop
    | _ => session
  | .linked =>
    match session.phase with
    | .opening => session.beginServing
    | .dialing => session.attach.restore session.standing.restoreRequests
    | _ => session
  | .refused error =>
    match session.phase with
    | .opening => session.failToOpen error
    | .dialing => session.retryLater
    | _ => session
  | .frame frame =>
    match session.phase with
    | .serving _ | .restoring _ => session.receive frame
    | _ => session
  | .severed =>
    match session.link with
    | .none => session
    | _ => { session with link := .severed }
  | .lost =>
    match session.phase with
    | .serving _ => session.lose
    | .restoring _ => session.loseAgain
    | _ => session
  | .elapse nanoseconds =>
    let session := { session with now := session.now + nanoseconds }
    if session.isDue then session.wake else session
  | .altered circumstances => { session with circumstances }

/-- What a session does on a list of events. -/
def run (session : Session) (events : List Event) : Session :=
  events.foldl step session

end Session

end Wireline
