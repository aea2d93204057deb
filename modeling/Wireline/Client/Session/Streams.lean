import Wireline.Client.Session.Basic

/-!
# Streams of live queries

A notification goes to the streams that listen to its query (`Session.routeNotification`). For a
query that no stream listens to yet it is kept, so that a stream opened later begins with it
(`Session.register`). Once the last stream of a query is closed the query is retired, and its
notifications are dropped.
-/

set_option autoImplicit false
set_option relaxedAutoImplicit false

namespace Wireline

namespace Session

/-- The open streams that have a query, the oldest first. -/
def listening (session : Session) (id : Uuid) : List Nat :=
  (session.subscriptions.entries.filter fun entry ↦ entry.2.id = id).map Prod.fst

/-- An open stream that has a query, if there is one. Which one of several is not settled. -/
def handleFor? (session : Session) (id : Uuid) : Option Nat :=
  let handles := session.listening id
  handles[session.circumstances.pick % handles.length]?

/-- Adds a notification to a stream. -/
def deliverTo (message : LiveMessage) (session : Session) (handle : Nat) : Session :=
  { session with streams := session.streams.modify handle (·.push message) }

/-- Drops the notifications of a live query from now on, unless a stream still listens to it. -/
def retire (session : Session) (id : Uuid) : Session :=
  if (session.handleFor? id).isSome then session
  else
    { session with
      live := session.live.resetCollectable id
      retired := session.retired.insert id }

/-- Opens a stream of a live query. It begins with the notifications that were kept. -/
def register (session : Session) (id : Uuid) (query : Option LiveQuery) : Session × Nat :=
  let handle := session.nextHandle
  let (live, listener, history) := session.live.subscribeHistoric id handle
  ({ session with
      nextHandle := handle + 1
      retired := session.retired.filter (· ≠ id)
      live := live
      subscriptions := session.subscriptions.set handle ⟨id, query, listener⟩
      streams := session.streams.set handle { id, events := history.map .message } }, handle)

/-- Closes a stream, if it is open. -/
def closeStream (session : Session) (reason : CloseReason) (handle : Nat) : Session :=
  match session.subscriptions.get? handle with
  | none => session
  | some subscription =>
    let (live, _) := session.live.unsubscribe subscription.id subscription.listener
    let session :=
      { session with
        live := live.resetCollectable subscription.id
        subscriptions := session.subscriptions.erase handle }
    let session := session.retire subscription.id
    { session with streams := session.streams.modify handle (·.close reason) }

/-- Leads an open stream to the id that its query has after a restart. -/
def rebind (session : Session) (handle : Nat) (id : Uuid) : Session :=
  match session.subscriptions.get? handle with
  | none => session
  | some subscription =>
    let previous := subscription.id
    let (live, _) := session.live.unsubscribe previous subscription.listener
    let (live, listener, history) := (live.resetCollectable previous).subscribeHistoric id handle
    let session :=
      { session with
        live := live
        subscriptions := session.subscriptions.set handle { subscription with id, listener }
        streams := session.streams.modify handle fun stream ↦ { stream with id } }
    let session := history.foldl (fun session message ↦ deliverTo message session handle) session
    if previous = id then session else session.retire previous

/-- Closes one stream of a live query that the server has ended, or forgets what was kept for the
query. -/
def endQuery (session : Session) (id : Uuid) : Session :=
  match session.handleFor? id with
  | some handle => session.closeStream .killed handle
  | none => { session with live := session.live.resetCollectable id }

/-- Leads a notification to the streams of its query, or keeps it if there are none and there is
room. -/
def routeNotification (session : Session) (message : LiveMessage) : Session :=
  let id := message.id
  if id ∈ session.retired then session
  else if message.action ≠ .killed ∧ !session.live.hasListeners id ∧ session.live.isFull then
    session
  else
    let (live, handles) := session.live.emitCollectable id message
    let session := handles.foldl (deliverTo message) { session with live }
    if message.action = .killed then session.endQuery id else session

/-- Closes all streams that pass a test. -/
def closeStreams (session : Session) (reason : CloseReason) (test : Subscription → Bool) :
    Session :=
  let handles := (session.subscriptions.entries.filter fun entry ↦ test entry.2).map Prod.fst
  handles.foldl (fun session handle ↦ session.closeStream reason handle) session

end Session

end Wireline
